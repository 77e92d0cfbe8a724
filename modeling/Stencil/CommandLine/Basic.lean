import Stencil.CommandLine.Options
import Stencil.Compilation.Events
import Stencil.Log.Service
import Stencil.Profiles
import Stencil.Source.LineIndex

/-!
# The command line

What the program prints, as a function of its arguments, the environment and the files it reads.
The work is planned first: either all is said with that, or there is a job, a template to compile,
whose result is then reported.
-/

namespace Stencil

/-- An event as it is written, if it is to be written at all. -/
def LogSettings.write? (settings : LogSettings) (time : String) (event : Log.Event) :
    Option String :=
  if settings.console && settings.least.passes event.level then
    some (if settings.structured then (event.toJson time).write .compact else event.describe)
  else none

namespace CommandLine

/-- What the program prints, text by text with a line break after each, and its exit code. -/
structure Output where
  exit : Nat
  stdout : List String := []
  stderr : List String := []

/-- One output after another. The exit code is that of the second one. -/
def Output.append (first second : Output) : Output where
  exit := second.exit
  stdout := first.stdout ++ second.stdout
  stderr := first.stderr ++ second.stderr

/-- What the program is told by the system that it runs on. -/
structure Surroundings where
  /-- The name by which the program was called. -/
  program : String
  environment : Environment
  /-- How files are read. -/
  read : String → Except ReadFault String
  /-- The time that events are given. -/
  time : String

/-- A template to compile. -/
structure Job where
  options : Options
  settings : Settings
  source : String

/-- What follows from the arguments. -/
inductive Plan where
  | done (output : Output)
  /-- A job, after what has been printed. -/
  | work (before : Output) (job : Job)

variable (surroundings : Surroundings)

/-- The settings that options ask for. -/
def settings (options : Options) : Except SettingsError Settings := do
  let settings ← match options.config with
    | some path => Settings.ofFile surroundings.environment surroundings.read path
    | none => pure surroundings.environment.settings
  return if options.quiet then { settings with log.console := false } else settings

/-- The events of the start of the program. -/
def startEvents : List Log.Event :=
  [.success "I004" "Global logging system initialized",
    (Log.Event.debug "Lexical analysis initialized").withDetail "line_prefix_indent_budget"
      (toString Lexer.indentBudget),
    (Log.Event.debug "Syntax analysis initialized").withDetail "codes"
      (toString (Code.table.countP (·.category = "Syntax")))]

/-- Events as they are written. -/
def written (settings : Settings) (events : List Log.Event) : List String :=
  events.filterMap (settings.log.write? surroundings.time)

/-- The plan for options: settings and the template are read. -/
def planOptions (warnings : List String) (options : Options) : Plan :=
  match settings surroundings options with
  | .error error => .done { exit := 1, stderr := warnings ++ [s!"Error: {error.details}"] }
  | .ok settings =>
    let stderr := warnings ++ written surroundings settings startEvents
    match surroundings.read options.template with
    | .error fault => .done { exit := 1, stderr := stderr ++ [s!"Error: {fault.details}"] }
    | .ok source => .work { exit := 0, stderr } ⟨options, settings, source⟩

/-- The plan for arguments. Help is given only if it is asked for first. -/
def plan (arguments : List String) : Plan :=
  match arguments with
  | [] => .done { exit := 1, stderr := usage surroundings.program }
  | "--help" :: _ => .done { exit := 0, stdout := help surroundings.program }
  | arguments =>
    let (unknown, options) := Options.ofArguments arguments
    let warnings := unknown.map fun option => s!"Warning: Unknown option '{option}'"
    match options with
    | .error misuse => .done { exit := 1, stderr := warnings ++ [s!"Error: {misuse.message}"] }
    | .ok options => planOptions surroundings warnings options

/-- A line of the list of tokens. -/
def tokenLine (token : Token) : String :=
  let line := Text.padLeft 4 (toString token.line)
  let column := Text.padRight 3 (toString token.position.column)
  let kind := Text.padRight 16 token.kind.label
  let text := Text.quoted token.text
  s!"{line}:{column} {kind} {text}"

/-- The last component of a path. -/
def fileName (path : String) : String :=
  ((path.splitOn "/").filter fun name => name ≠ "" ∧ name ≠ ".").getLastD path

namespace Job

variable (job : Job)

/-- Cuts and parses the template. -/
def start : Except CompileError Run :=
  Run.of job.settings.dialect {} (some job.options.template) job.source

/-- A message with the line that it is about. -/
def render (span : Span) (message : String) : String :=
  let index : LineIndex := ⟨job.source.toList, some job.options.template⟩
  (index.render? span message).getD message

/-- The list of tokens, if it is asked for. What is wrong with the text is logged for it, as the
environment asks. -/
def listing (run : Run) : Output :=
  if job.options.tokens then
    let { warnUnterminated, .. } := surroundings.environment.lexical
    let events := run.tokenization.events job.settings.dialect warnUnterminated job.source
    { exit := 0
      stdout := run.tokenization.tokens.map tokenLine ++ [""]
      stderr := written surroundings job.settings events }
  else { exit := 0 }

/-- The report on a template that was compiled. -/
def report (compilation : Compilation) : Output :=
  let exit := if compilation.errors.isEmpty then 0 else 1
  if job.options.json then
    { exit, stdout := [(compilation.toJson .ofFloat).write .indented] }
  else
    let name := job.options.template
    let statements := compilation.template.statementCount
    let tokens := compilation.tokenCount
    let faults := compilation.faultCount
    { exit
      stdout := [s!"{name}: {statements} statements, {tokens} tokens, {faults} diagnostics"]
      stderr := compilation.diagnostics.map (fun diagnostic =>
          job.render (.point diagnostic.position) diagnostic.message) ++
        compilation.errors.map (fun error => job.render error.span error.message) }

/-- The report on a template that could not be compiled. -/
def reportFailure (error : CompileError) : Output :=
  let shown := match error with
    | .badSyntax error => job.render error.span error.message
    | _ => s!"FAILED: {error.message}"
  let name := fileName job.options.template
  { exit := 1, stderr := [shown, s!"  [{error.code}] {name}"] }

/-- All that is printed about a template, given what came of it and the time that took. -/
def output (started : Except CompileError Run) (duration : String) : Output :=
  match started with
  | .error error => job.reportFailure error
  | .ok run =>
    let stderr := written surroundings job.settings (run.events job.settings duration)
    ((job.listing surroundings run).append { exit := 0, stderr }).append
      (match run.result job.settings.lexical.countKinds with
        | .ok compilation => job.report compilation
        | .error error => job.reportFailure error)

end Job

/-- All that the program prints, given the time that a compilation takes. -/
def run (duration : String) (arguments : List String) : Output :=
  match plan surroundings arguments with
  | .done output => output
  | .work before job => before.append (job.output surroundings job.start duration)

end CommandLine

end Stencil
