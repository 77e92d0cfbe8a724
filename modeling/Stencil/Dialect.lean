import Stencil.Text.Blank

/-!
# Dialects

A dialect says how tags are set off from the text around them: the delimiters of block tags,
print tags and comments, the prefixes that turn a whole line into a tag or a comment, and whether
the line break after a block tag is dropped. A dialect is sound if a reader can tell its tags
apart; `Dialect.fault?` gives the first reason why one is not.
-/

namespace Stencil

/-- The delimiters and line prefixes of a template. -/
structure Dialect where
  blockStart : String := "\x7b%"
  blockEnd : String := "%\x7d"
  variableStart : String := "\x7b\x7b"
  variableEnd : String := "\x7d\x7d"
  commentStart : String := "\x7b#"
  commentEnd : String := "#\x7d"
  /-- Turns the rest of a line into a block tag. -/
  lineStatement : Option String := none
  /-- Turns the rest of a line into a comment. -/
  lineComment : Option String := none
  /-- Whether the line break after a block tag is dropped. -/
  trimBlocks : Bool := false
deriving DecidableEq, Repr

namespace Dialect

/-- Why a dialect cannot be read. -/
inductive Fault where
  | empty (delimiter : String)
  | blankInside (delimiter : String)
  | repeatedStart (delimiter : String)
  | blankPrefix (setting : String)
deriving DecidableEq, Repr

/-- The wording of a fault. -/
def Fault.message : Fault → String
  | empty delimiter => s!"{delimiter} must not be empty"
  | blankInside delimiter => s!"{delimiter} must not contain whitespace"
  | repeatedStart delimiter => s!"start delimiter '{delimiter}' is used twice"
  | blankPrefix setting => s!"{setting} must not be blank"

variable (dialect : Dialect)

/-- The delimiters with the names of their settings. -/
def delimiters : List (String × String) :=
  [("block_start", dialect.blockStart), ("block_end", dialect.blockEnd),
    ("variable_start", dialect.variableStart), ("variable_end", dialect.variableEnd),
    ("comment_start", dialect.commentStart), ("comment_end", dialect.commentEnd)]

/-- The line prefixes with the names of their settings. -/
def linePrefixes : List (String × Option String) :=
  [("line_statement_prefix", dialect.lineStatement), ("line_comment_prefix", dialect.lineComment)]

/-- A delimiter is one run of characters that are not blank. -/
def delimiterFault? (setting delimiter : String) : Option Fault :=
  if delimiter = "" then some (.empty setting)
  else if delimiter.toList.any Text.isBlank then some (.blankInside setting)
  else none

/-- No two start delimiters are the same. -/
def startFault? : Option Fault :=
  if dialect.blockStart = dialect.variableStart ∨ dialect.blockStart = dialect.commentStart then
    some (.repeatedStart dialect.blockStart)
  else if dialect.variableStart = dialect.commentStart then
    some (.repeatedStart dialect.variableStart)
  else none

/-- A line prefix has a character that is not blank. -/
def prefixFault? (setting : String) (linePrefix : Option String) : Option Fault :=
  match linePrefix with
  | some text => if text.toList.all Text.isBlank then some (.blankPrefix setting) else none
  | none => none

/-- The first reason why a dialect cannot be read: the delimiters are looked at one by one, then
the start delimiters together, then the line prefixes. -/
def fault? : Option Fault :=
  (dialect.delimiters.findSome? fun (setting, delimiter) => delimiterFault? setting delimiter).or
    (dialect.startFault?.or
      (dialect.linePrefixes.findSome? fun (setting, text) => prefixFault? setting text))

/-- A dialect that can be read. -/
def Sound : Prop :=
  dialect.fault? = none

instance : Decidable dialect.Sound :=
  inferInstanceAs (Decidable (_ = _))

end Dialect

end Stencil
