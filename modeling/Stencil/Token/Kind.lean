import Stencil.Keyword

/-!
# Kinds of token

The closed set of categories that a template's text is cut into, with the spelling of the kinds
that have only one, and the wording that messages use for each.
-/

namespace Stencil.Token

/-- The category of a token. -/
inductive Kind where
  | blockBegin | blockEnd | variableBegin | variableEnd | commentBegin | commentEnd
  | rawBegin | rawEnd
  | add | sub | mul | div | floorDiv | mod | pow | tilde
  | eq | ne | lt | le | gt | ge | assign
  | dot | comma | colon | pipe | lparen | rparen | lbracket | rbracket | lbrace | rbrace
  | string | integer | float | boolean | null
  | name | keyword (word : Keyword)
  | data | whitespace | comment | lineComment | eof
deriving DecidableEq, Repr

namespace Kind

/-- Every kind. -/
def all : List Kind :=
  [blockBegin, blockEnd, variableBegin, variableEnd, commentBegin, commentEnd, rawBegin, rawEnd,
    add, sub, mul, div, floorDiv, mod, pow, tilde, eq, ne, lt, le, gt, ge, assign, dot, comma,
    colon, pipe, lparen, rparen, lbracket, rbracket, lbrace, rbrace, string, integer, float,
    boolean, null, name, data, whitespace, comment, lineComment, eof] ++ Keyword.all.map keyword

/-- Blank runs inside tags are kept as tokens, but no grammar rule sees them. -/
def isSignificant (kind : Kind) : Bool :=
  kind ≠ whitespace

/-- Kinds that spell a value. -/
def isLiteral (kind : Kind) : Bool :=
  kind ∈ [string, integer, float, boolean, null]

/-- Kinds of operator, assignment included. -/
def isOperator (kind : Kind) : Bool :=
  kind ∈ [add, sub, mul, div, floorDiv, mod, pow, tilde, eq, ne, lt, le, gt, ge, assign]

/-- Kinds at which a parse can be taken up again after an error. -/
def isBoundary (kind : Kind) : Bool :=
  kind ∈ [blockBegin, variableBegin, commentBegin, eof]

/-- Kinds that end a tag. -/
def isCloser (kind : Kind) : Bool :=
  kind ∈ [blockEnd, variableEnd, commentEnd]

/-- The kind of an operator or punctuation mark with its only spelling. -/
def symbols : List (String × Kind) :=
  [("**", pow), ("//", floorDiv), ("==", eq), ("!=", ne), ("<=", le), (">=", ge), ("+", add),
    ("-", sub), ("*", mul), ("/", div), ("%", mod), ("~", tilde), ("<", lt), (">", gt),
    ("=", assign), (".", dot), (",", comma), (":", colon), ("|", pipe), ("(", lparen),
    (")", rparen), ("[", lbracket), ("]", rbracket), ("\x7b", lbrace), ("\x7d", rbrace)]

/-- The operator or punctuation mark with a given spelling. -/
def ofSymbol? (spelling : String) : Option Kind :=
  (symbols.find? (·.1 = spelling)).map (·.2)

/-- The name of a kind in token listings. -/
def label : Kind → String
  | blockBegin => "BlockBegin"
  | blockEnd => "BlockEnd"
  | variableBegin => "VariableBegin"
  | variableEnd => "VariableEnd"
  | commentBegin => "CommentBegin"
  | commentEnd => "CommentEnd"
  | rawBegin => "RawBegin"
  | rawEnd => "RawEnd"
  | add => "Add"
  | sub => "Sub"
  | mul => "Mul"
  | div => "Div"
  | floorDiv => "FloorDiv"
  | mod => "Mod"
  | pow => "Pow"
  | tilde => "Tilde"
  | eq => "Eq"
  | ne => "Ne"
  | lt => "Lt"
  | le => "Le"
  | gt => "Gt"
  | ge => "Ge"
  | assign => "Assign"
  | dot => "Dot"
  | comma => "Comma"
  | colon => "Colon"
  | pipe => "Pipe"
  | lparen => "LParen"
  | rparen => "RParen"
  | lbracket => "LBracket"
  | rbracket => "RBracket"
  | lbrace => "LBrace"
  | rbrace => "RBrace"
  | string => "String"
  | integer => "Integer"
  | float => "Float"
  | boolean => "Boolean"
  | null => "Null"
  | name => "Name"
  | keyword word => s!"Keyword({word.label})"
  | data => "Data"
  | whitespace => "Whitespace"
  | comment => "Comment"
  | lineComment => "LineComment"
  | eof => "Eof"

/-- The kind with a given name in token listings. -/
def ofLabel? (label : String) : Option Kind :=
  all.find? (·.label = label)

/-- What messages call a kind. -/
def describe : Kind → String
  | blockBegin => "beginning of block tag"
  | blockEnd => "end of block tag"
  | variableBegin => "beginning of print tag"
  | variableEnd => "end of print tag"
  | commentBegin => "beginning of comment"
  | commentEnd => "end of comment"
  | rawBegin => "raw block"
  | rawEnd => "end of raw block"
  | add => "'+'"
  | sub => "'-'"
  | mul => "'*'"
  | div => "'/'"
  | floorDiv => "'//'"
  | mod => "'%'"
  | pow => "'**'"
  | tilde => "'~'"
  | eq => "'=='"
  | ne => "'!='"
  | lt => "'<'"
  | le => "'<='"
  | gt => "'>'"
  | ge => "'>='"
  | assign => "'='"
  | dot => "'.'"
  | comma => "','"
  | colon => "':'"
  | pipe => "'|'"
  | lparen => "'('"
  | rparen => "')'"
  | lbracket => "'['"
  | rbracket => "']'"
  | lbrace => "'\x7b'"
  | rbrace => "'\x7d'"
  | string => "string literal"
  | integer => "integer literal"
  | float => "float literal"
  | boolean => "boolean literal"
  | null => "null literal"
  | name => "name"
  | keyword _ => "keyword"
  | data => "template data"
  | whitespace => "whitespace"
  | comment => "comment"
  | lineComment => "line comment"
  | eof => "end of template"

/-- What messages call a kind, reserved words being given one by one. -/
def fullDescription : Kind → String
  | keyword word => s!"keyword '{word.spelling}'"
  | kind => kind.describe

end Kind

end Stencil.Token
