/-!
# Reserved words

The words of the tag language that are never names, and the words that spell a literal. Words
which only matter in one place, such as `endset`, `as` or `recursive`, are not reserved and can be
used as names elsewhere.
-/

namespace Stencil

/-- A reserved word of the tag language. -/
inductive Keyword where
  | for_ | in_ | if_ | else_ | elif | endIf | endFor | continue_ | break_
  | block | endBlock | extends_ | include_ | import_ | from_
  | macro_ | endMacro | call | set_ | with_ | endWith | do_ | debug
  | and_ | or_ | not_ | is_
deriving DecidableEq, Repr

namespace Keyword

/-- Every reserved word, by area of use. -/
def all : List Keyword :=
  [for_, in_, if_, else_, elif, endIf, endFor, continue_, break_, block, endBlock, extends_,
    include_, import_, from_, macro_, endMacro, call, set_, with_, endWith, do_, debug, and_, or_,
    not_, is_]

/-- The spelling of a reserved word in a template. -/
def spelling : Keyword → String
  | for_ => "for"
  | in_ => "in"
  | if_ => "if"
  | else_ => "else"
  | elif => "elif"
  | endIf => "endif"
  | endFor => "endfor"
  | continue_ => "continue"
  | break_ => "break"
  | block => "block"
  | endBlock => "endblock"
  | extends_ => "extends"
  | include_ => "include"
  | import_ => "import"
  | from_ => "from"
  | macro_ => "macro"
  | endMacro => "endmacro"
  | call => "call"
  | set_ => "set"
  | with_ => "with"
  | endWith => "endwith"
  | do_ => "do"
  | debug => "debug"
  | and_ => "and"
  | or_ => "or"
  | not_ => "not"
  | is_ => "is"

/-- The reserved word with a given spelling; case matters. -/
def ofSpelling? (word : String) : Option Keyword :=
  all.find? (·.spelling = word)

/-- The name of a reserved word in token listings. -/
def label : Keyword → String
  | for_ => "For"
  | in_ => "In"
  | if_ => "If"
  | else_ => "Else"
  | elif => "Elif"
  | endIf => "EndIf"
  | endFor => "EndFor"
  | continue_ => "Continue"
  | break_ => "Break"
  | block => "Block"
  | endBlock => "EndBlock"
  | extends_ => "Extends"
  | include_ => "Include"
  | import_ => "Import"
  | from_ => "From"
  | macro_ => "Macro"
  | endMacro => "EndMacro"
  | call => "Call"
  | set_ => "Set"
  | with_ => "With"
  | endWith => "EndWith"
  | do_ => "Do"
  | debug => "Debug"
  | and_ => "And"
  | or_ => "Or"
  | not_ => "Not"
  | is_ => "Is"

/-- Reserved words that stand between or before operands. -/
def isOperator (keyword : Keyword) : Bool :=
  keyword ∈ [and_, or_, not_, is_, in_]

end Keyword

/-- What a word that spells a literal stands for. -/
inductive LiteralWord where
  | boolean (value : Bool)
  | null
deriving DecidableEq, Repr

/-- The literal that a word spells. The word `none` spells no literal, since it names a test. -/
def LiteralWord.ofSpelling? (word : String) : Option LiteralWord :=
  if word = "true" then some (.boolean true)
  else if word = "false" then some (.boolean false)
  else if word = "null" ∨ word = "None" then some .null
  else none

/-- Words that can never be names. -/
def isReserved (word : String) : Bool :=
  (Keyword.ofSpelling? word).isSome || (LiteralWord.ofSpelling? word).isSome

end Stencil
