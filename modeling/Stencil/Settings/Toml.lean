import Stencil.FileTree
import Stencil.Settings.Basic
import Stencil.Toml.Reader

/-!
# Settings from TOML documents

A document may set any of the settings; those that it does not mention keep their defaults, and
entries that are no settings mean nothing. The settings of one group may also be given as an array
in a fixed order, and a date in the place of a group sets nothing. A dialect that cannot be read
is refused.
-/

namespace Stencil

/-- Why there are no settings. -/
inductive SettingsError where
  | unreadable (path : String) (fault : ReadFault)
  /-- The text is not a document, or a setting has a value of the wrong kind. -/
  | malformed
  | badDialect (fault : Dialect.Fault)
deriving DecidableEq, Repr

namespace SettingsError

/-- The wording of an error; a malformed document has none of its own. -/
def message : SettingsError → String
  | unreadable path fault => s!"Failed to read configuration file {path}: {fault.message}"
  | malformed => "Invalid configuration TOML"
  | badDialect fault => s!"Invalid delimiter configuration: {fault.message}"

/-- The name of an error's cause. -/
def label : SettingsError → String
  | unreadable .. => "Io"
  | malformed => "Parse"
  | badDialect _ => "InvalidDelimiters"

/-- The code of an error's cause. -/
def code : SettingsError → String
  | unreadable .. => "E005"
  | malformed => "E006"
  | badDialect _ => "E007"

end SettingsError

namespace Toml

/-- The values that a group gives to settings, in the order of their names. -/
def group? (names : List String) : Option Toml → Option (List (Option Toml))
  | none | some datetime => some (names.map fun _ => none)
  | some (table entries) =>
    some (names.map fun name => (entries.find? (·.name = name)).map (·.value))
  | some (array items) => some ((List.range names.length).map fun index => items[index]?)
  | some _ => none

/-- A setting with a default. -/
def setting? {α : Type} (value? : Toml → Option α) (default : α) : Option Toml → Option α
  | none => some default
  | some value => value? value

/-- A text. -/
def text? : Toml → Option String
  | string value => some value
  | _ => none

/-- A truth value. -/
def bool? : Toml → Option Bool
  | boolean value => some value
  | _ => none

/-- A level: its name, or a table or array that holds nothing under its name. -/
def level? : Toml → Option Log.Level
  | string name => Log.Level.all.find? (·.setting = name)
  | table [⟨name, table []⟩] | table [⟨name, array []⟩] => Log.Level.all.find? (·.setting = name)
  | _ => none

end Toml

namespace Settings

open Toml

/-- The dialect that a group of settings describes. -/
def dialect? (group : Option Toml) : Option Dialect := do
  let defaults : Dialect := {}
  match ← group? ["block_start", "block_end", "variable_start", "variable_end", "comment_start",
      "comment_end", "line_statement_prefix", "line_comment_prefix", "trim_blocks"] group with
  | [blockStart, blockEnd, variableStart, variableEnd, commentStart, commentEnd, lineStatement,
      lineComment, trimBlocks] =>
    return {
      blockStart := ← setting? text? defaults.blockStart blockStart
      blockEnd := ← setting? text? defaults.blockEnd blockEnd
      variableStart := ← setting? text? defaults.variableStart variableStart
      variableEnd := ← setting? text? defaults.variableEnd variableEnd
      commentStart := ← setting? text? defaults.commentStart commentStart
      commentEnd := ← setting? text? defaults.commentEnd commentEnd
      lineStatement := ← setting? (fun value => (text? value).map some) none lineStatement
      lineComment := ← setting? (fun value => (text? value).map some) none lineComment
      trimBlocks := ← setting? bool? defaults.trimBlocks trimBlocks }
  | _ => none

/-- The choices for cutting templates that a group of settings describes. -/
def lexical? (defaults : LexicalSettings) (group : Option Toml) : Option LexicalSettings := do
  match ← group? ["collect_detailed_metrics", "warn_on_unterminated"] group with
  | [countKinds, warnUnterminated] =>
    return {
      countKinds := ← setting? bool? defaults.countKinds countKinds
      warnUnterminated := ← setting? bool? defaults.warnUnterminated warnUnterminated }
  | _ => none

/-- The choices for logging that a group of settings describes. -/
def log? (defaults : LogSettings) (group : Option Toml) : Option LogSettings := do
  match ← group? ["use_structured_logging", "enable_console_logging", "min_log_level",
      "include_template_context"] group with
  | [structured, console, least, nameTemplate] =>
    return {
      structured := ← setting? bool? defaults.structured structured
      console := ← setting? bool? defaults.console console
      least := ← setting? level? defaults.least least
      nameTemplate := ← setting? bool? defaults.nameTemplate nameTemplate }
  | _ => none

/-- The settings that a document describes. -/
def ofDocument? (environment : Environment) (entries : List (Named Toml)) : Option Settings := do
  match ← group? ["syntax", "lexical", "logging"] (some (table entries)) with
  | [dialect, lexical, log] =>
    return {
      dialect := ← dialect? dialect
      lexical := ← lexical? environment.lexical lexical
      log := ← log? environment.log log }
  | _ => none

/-- The settings that the text of a document describes. -/
def ofText (environment : Environment) (text : String) : Except SettingsError Settings :=
  match (Toml.read? text).bind (ofDocument? environment) with
  | none => .error .malformed
  | some settings => match settings.dialect.fault? with
    | some fault => .error (.badDialect fault)
    | none => .ok settings

/-- The settings that a file describes, given how files are read. -/
def ofFile (environment : Environment) (read : String → Except ReadFault String) (path : String) :
    Except SettingsError Settings :=
  match read path with
  | .error fault => .error (.unreadable path fault)
  | .ok text => ofText environment text

end Settings

end Stencil
