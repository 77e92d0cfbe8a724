import Stencil.Compilation.Basic

/-!
# Events of a compilation

What is logged while a template is compiled without extensions, in the order of the work: the text
is cut, then parsed, and each step tells of its start, of what it finds wrong and of its end.
-/

namespace Stencil

open Log

variable [Limits]

/-- The name by which events call a template. -/
def templateName (name : Option String) : String :=
  name.getD "<template>"

/-- The events of cutting a text. Warnings of text that is never closed can be turned off. -/
def Tokenization.events (tokenization : Tokenization) (dialect : Dialect)
    (warnUnterminated : Bool) (source : String) : List Event :=
  let { tokens, diagnostics, lineCount } := tokenization
  let reported := diagnostics.filter fun diagnostic =>
    warnUnterminated || !diagnostic.isUnterminated
  let start := (Event.debug "Starting lexical analysis").withDetails
    [("bytes", toString source.utf8ByteSize),
      ("line_statement_prefix", dialect.lineStatement.getD "-")]
  let warnings := reported.map fun diagnostic =>
    (Event.warningWith diagnostic.code diagnostic.message).withSpan (.point diagnostic.position)
  let done := (Event.success "I020" "Tokenization completed").withDetails
    [("tokens", toString tokens.length), ("lines", toString lineCount),
      ("diagnostics", toString diagnostics.length)]
  start :: warnings ++ [done]

/-- The event of an error after which a parse goes on. -/
def SyntaxError.event (template : String) (error : SyntaxError) : Event :=
  ((Event.error error.code error.message).withSpan error.span).withDetails
    [("template", template), ("recoverable", toString error.isRecoverable)]

/-- The event of an error that ends a parse. -/
def SyntaxError.abortEvent (error : SyntaxError) : Event :=
  ((Event.error error.code "Template parse aborted").withSpan error.span).withDetails
    [("severity", (Code.severity error.code).label),
      ("requires_halt", toString (Code.halts error.code)),
      ("recoverable", toString (Code.isRecoverable error.code))]

namespace Run

variable (run : Run)

/-- The events of a parse. -/
def parseEvents : List Event :=
  let template := templateName run.stream.sourceName
  let tokens := toString run.stream.size
  let start :=
    [(Event.debug "Creating template parser").withDetails [("tokens", tokens)],
      (Event.debug "Starting template parse").withDetails
        [("template", template), ("tokens", tokens)]]
  let done := match run.progress.result run.stream with
    | .error error => error.abortEvent
    | .ok tree => (Event.success "I040" "Template parse completed").withDetails
      [("template", template), ("statements", toString tree.statementCount),
        ("recovered_errors", toString run.progress.recovered.length)]
  start ++ run.progress.errors.map (SyntaxError.event template) ++ [done]

/-- The events of the end of a compilation that took a time. -/
def doneEvents (duration : String) : List Event :=
  match run.result false with
  | .error _ => []
  | .ok compilation =>
    [(Event.success "I041" "Template compilation finished").withDetails
      [("template", templateName run.name),
        ("statements", toString compilation.template.statementCount),
        ("tokens", toString compilation.tokenCount),
        ("diagnostics", toString compilation.faultCount), ("duration_ms", duration)]]

/-- The events of a compilation, each with the name of the template if that is asked for. -/
def events (settings : Settings) (duration : String) : List Event :=
  let name := templateName run.name
  let start := (Event.info "Compiling template").withDetails
    [("template", name), ("bytes", toString run.source.utf8ByteSize)]
  let cutting :=
    run.tokenization.events settings.dialect settings.lexical.warnUnterminated run.source
  let events := start :: cutting ++ run.parseEvents ++ run.doneEvents duration
  events.map (·.withTemplate (if settings.log.nameTemplate then some name else none))

end Run

end Stencil
