import Stencil.FileTree
import Stencil.Json.Encode
import Stencil.Lexer.Basic
import Stencil.Settings.Basic
import Stencil.Template.Parse
import Stencil.Token.Tally

/-!
# Compiling templates

From the text of a template to its tree in one call. What is wrong with the text, and the errors
after which the parse went on, are part of the result; a compilation fails only if the dialect
cannot be read, or brings the cutting of the text to a standstill, or if the template is nested too
deeply.
-/

namespace Stencil

variable [Limits]

/-- What came of each stage of a compilation. -/
structure Run where
  name : Option String
  source : String
  tokenization : Tokenization
  stream : TokenStream
  progress : Template.Progress

/-- A compiled template, with what was found wrong with it. -/
structure Compilation where
  template : Template
  diagnostics : List Diagnostic
  /-- The errors after which the parse went on, oldest first. -/
  errors : List SyntaxError
  tally : Tally
  /-- The number of significant tokens. -/
  tokenCount : Nat

/-- Why a template could not be compiled. -/
inductive CompileError where
  | badDialect (fault : Dialect.Fault)
  /-- The text would be cut forever. -/
  | endless
  | badSyntax (error : SyntaxError)
  | unreadable (path : String) (fault : ReadFault)
deriving DecidableEq, Repr

namespace CompileError

/-- The wording of an error. -/
def message : CompileError → String
  | badDialect fault =>
    s!"Configuration failed: Invalid delimiter configuration: {fault.message}"
  | endless => "Lexical analysis does not end"
  | badSyntax error => s!"Syntax analysis failed: {error.message}"
  | unreadable path fault => s!"Failed to read template {path}: {fault.message}"

/-- The code of an error's cause. -/
def code : CompileError → String
  | badDialect _ => "E007"
  | badSyntax error => error.code
  | endless | unreadable .. => "ERR001"

end CompileError

/-- Cuts and parses a text that may have a name. -/
def Run.of (dialect : Dialect) (registry : Registry) (name : Option String) (source : String) :
    Except CompileError Run :=
  match dialect.fault? with
  | some fault => .error (.badDialect fault)
  | none => match tokenize dialect name source with
    | none => .error .endless
    | some tokenization =>
      let stream := TokenStream.ofTokens tokenization.tokens
      .ok ⟨name, source, tokenization, stream, Template.parse registry stream⟩

/-- The result of a run; single kinds of tokens are counted only if `detailed`. -/
def Run.result (detailed : Bool) (run : Run) : Except CompileError Compilation :=
  let { tokens, diagnostics, lineCount } := run.tokenization
  match run.progress.result run.stream with
  | .error error => .error (.badSyntax error)
  | .ok template => .ok {
      template
      diagnostics
      errors := run.progress.recovered
      tally := .of detailed tokens diagnostics lineCount
      tokenCount := run.stream.size }

/-- Compiles a text that may have a name. -/
def compile (settings : Settings) (registry : Registry) (name : Option String) (source : String) :
    Except CompileError Compilation := do
  let run ← Run.of settings.dialect registry name source
  run.result settings.lexical.countKinds

/-- Compiles the text of a file, whose path is its name, given how files are read. -/
def compileFile (settings : Settings) (registry : Registry)
    (read : String → Except ReadFault String) (path : String) : Except CompileError Compilation :=
  match read path with
  | .error fault => .error (.unreadable path fault)
  | .ok source => compile settings registry (some path) source

namespace Compilation

variable (compilation : Compilation)

/-- Whether nothing was found wrong. -/
def isClean : Bool :=
  compilation.diagnostics.isEmpty && compilation.errors.isEmpty

/-- The number of things found wrong. -/
def faultCount : Nat :=
  compilation.diagnostics.length + compilation.errors.length

/-- A compiled template as a JSON value. -/
def toJson (writeFloat : Binary64 → Json) : Json :=
  .object
    [⟨"source_name", .ofText? compilation.template.sourceName⟩,
      ⟨"statements", .ofNat compilation.template.statementCount⟩,
      ⟨"tokens", .ofNat compilation.tokenCount⟩,
      ⟨"lines", .ofNat compilation.tally.lines⟩,
      ⟨"lexical_diagnostics", .array (compilation.diagnostics.map fun diagnostic => .object
        [⟨"code", .string diagnostic.code⟩, ⟨"message", .string diagnostic.message⟩])⟩,
      ⟨"syntax_errors", .array (compilation.errors.map fun error => .object
        [⟨"code", .string error.code⟩, ⟨"line", .ofNat error.line⟩,
          ⟨"message", .string error.message⟩])⟩,
      ⟨"body", .array (Stmt.toJsonBody writeFloat compilation.template.body)⟩]

end Compilation

end Stencil
