/-!
# Codes

The codes that classify errors, diagnostics and events, with what is known about each. A code is
a short text, and one that the table does not list is taken to be harmless.
-/

namespace Stencil

/-- How grave an error is. -/
inductive Severity where
  | critical | high | medium | low
deriving DecidableEq, Repr

/-- The name of a severity. -/
def Severity.label : Severity → String
  | critical => "Critical"
  | high => "High"
  | medium => "Medium"
  | low => "Low"

/-- What is known about a code. -/
structure CodeEntry where
  code : String
  category : String
  severity : Severity
  /-- Whether work can go on after the error. -/
  recoverable : Bool
  /-- Whether work has to stop. -/
  halts : Bool
  description : String
  action : String

namespace Code

/-- Every code of an error, with what is known about it. -/
def table : List CodeEntry :=
  [⟨"ERR001", "System", .critical, false, true, "Critical internal compiler error",
      "File a bug report with the template that triggered it"⟩,
    ⟨"ERR002", "System", .critical, false, true, "Logging or compiler initialization failure",
      "Check configuration and environment variables"⟩,
    ⟨"E005", "Configuration", .high, false, true, "Configuration file could not be read",
      "Check the configuration path and its permissions"⟩,
    ⟨"E006", "Configuration", .high, false, true, "Configuration file is not valid TOML",
      "Fix the TOML syntax reported in the message"⟩,
    ⟨"E007", "Configuration", .high, false, true, "Delimiter configuration is ambiguous or empty",
      "Use distinct, non-empty start delimiters"⟩,
    ⟨"E020", "Lexical", .low, true, false, "Unexpected character inside a tag",
      "Remove the character or quote it inside a string literal"⟩,
    ⟨"E021", "Lexical", .medium, true, false, "String literal is not terminated",
      "Add the matching closing quote"⟩,
    ⟨"E022", "Lexical", .low, true, false, "Comment is not terminated",
      "Close the comment with the comment end delimiter"⟩,
    ⟨"E023", "Lexical", .medium, true, false, "Raw block has no matching endraw",
      "Add an endraw tag after the raw content"⟩,
    ⟨"E040", "Syntax", .medium, true, false, "Unexpected token",
      "Check the tag or expression near the reported position"⟩,
    ⟨"E041", "Syntax", .medium, true, false, "Template ended in the middle of a construct",
      "Close every open tag and block"⟩,
    ⟨"E042", "Syntax", .medium, true, false, "Unknown block tag",
      "Check the tag name or register an extension that handles it"⟩,
    ⟨"E043", "Syntax", .medium, true, false, "Block tag is never closed",
      "Add the matching end tag"⟩,
    ⟨"E044", "Syntax", .medium, true, false, "Literal cannot be represented",
      "Use a smaller number or a string"⟩,
    ⟨"E045", "Syntax", .medium, true, false, "Construct violates the template grammar",
      "Review the tag arguments"⟩,
    ⟨"E046", "Syntax", .medium, true, false, "Extension failed to parse its tag",
      "Check the extension's tag syntax"⟩,
    ⟨"E087", "Syntax", .high, false, true, "Template nesting exceeds the maximum parse depth",
      "Reduce nesting or raise max_parse_depth in the build profile"⟩]

/-- What is known about a code. -/
def info? (code : String) : Option CodeEntry :=
  table.find? (·.code = code)

/-- A sentence on a code. -/
def description (code : String) : String :=
  ((info? code).map (·.description)).getD "Unknown error"

/-- The severity of a code. -/
def severity (code : String) : Severity :=
  ((info? code).map (·.severity)).getD .low

/-- Whether work can go on after a code. -/
def isRecoverable (code : String) : Bool :=
  ((info? code).map (·.recoverable)).getD true

/-- Whether a code stops all work. -/
def halts (code : String) : Bool :=
  ((info? code).map (·.halts)).getD false

/-- What a user can do about a code. -/
def action (code : String) : String :=
  ((info? code).map (·.action)).getD "No specific action available"

/-- The area of a code; codes outside the table which begin with `I` report success. -/
def category (code : String) : String :=
  match info? code with
  | some entry => entry.category
  | none => if code.toList.head? = some 'I' then "Success" else "Unknown"

end Code

end Stencil
