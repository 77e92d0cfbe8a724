import Stencil.Settings.Toml
import Stencil.Text.Quoted

/-!
# Options

The arguments of the command line: one template, options in any place, and what is wrong with
arguments that name no job. An option that is not known is passed over with a warning.
-/

namespace Stencil.CommandLine

/-- What the arguments ask for. -/
structure Options where
  /-- The path of the template. -/
  template : String
  /-- The path of the document with the settings. -/
  config : Option String := none
  /-- Whether the result is printed as a JSON value. -/
  json : Bool := false
  /-- Whether the tokens are listed. -/
  tokens : Bool := false
  /-- Whether nothing is logged. -/
  quiet : Bool := false
deriving DecidableEq, Repr

/-- Why arguments name no job. -/
inductive Misuse where
  | noConfigPath
  | extraArgument (argument : String)
  | noTemplate
deriving DecidableEq, Repr

/-- The wording of a misuse. -/
def Misuse.message : Misuse → String
  | noConfigPath => "--config requires a file path"
  | extraArgument argument => s!"unexpected extra argument '{argument}'"
  | noTemplate => "no template given"

/-- Arguments that have been read: the options that were not known, and what is asked for. -/
structure Arguments where
  unknown : List String := []
  template : Option String := none
  options : Options := { template := "" }

/-- Reads arguments one by one up to the first misuse. -/
def Arguments.read (done : Arguments) : List String → List String × Except Misuse Options
  | [] =>
    (done.unknown, match done.template with
      | some template => .ok { done.options with template }
      | none => .error .noTemplate)
  | "--config" :: rest => match rest with
    | [] => (done.unknown, .error .noConfigPath)
    | path :: rest => read { done with options.config := some path } rest
  | "--json" :: rest => read { done with options.json := true } rest
  | "--tokens" :: rest => read { done with options.tokens := true } rest
  | "--quiet" :: rest => read { done with options.quiet := true } rest
  | argument :: rest =>
    if Text.startsWith "--".toList argument.toList then
      read { done with unknown := done.unknown ++ [argument] } rest
    else if done.template.isSome then (done.unknown, .error (.extraArgument argument))
    else read { done with template := some argument } rest

/-- The options that are not known, and what the arguments ask for. -/
def Options.ofArguments (arguments : List String) : List String × Except Misuse Options :=
  ({} : Arguments).read arguments

/-- The text that tells how the program is called. -/
def usage (program : String) : List String :=
  [s!"Usage: {program} <template> [options]", s!"       {program} --help"]

/-- The text that explains the program. -/
def help (program : String) : List String :=
  ["Jinja Compiler v0.1.0",
    "Lex and parse a template, reporting every syntax error found",
    "",
    "USAGE:",
    s!"    {program} <template> [options]",
    "",
    "OPTIONS:",
    "    --help              Show this help message",
    "    --config FILE       Load delimiters and preferences from a TOML file",
    "    --json              Print the parse result as JSON",
    "    --tokens            Print the token stream before parsing",
    "    --quiet             Suppress console logging",
    "",
    "EXAMPLES:",
    s!"    {program} page.html",
    s!"    {program} page.html --config syntax.toml --json"]

end Stencil.CommandLine

namespace Stencil

/-- The parts of an error in settings, for those who look for its cause. -/
def SettingsError.details : SettingsError → String
  | unreadable path fault =>
    let shown := Text.quotedPath path
    s!"Io \x7b path: {shown}, source: {fault.details} \x7d"
  | malformed => "Parse"
  | badDialect fault =>
    let shown := Text.quoted fault.message
    s!"InvalidDelimiters \x7b message: {shown} \x7d"

end Stencil
