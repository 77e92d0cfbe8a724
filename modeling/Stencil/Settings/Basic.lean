import Stencil.Dialect
import Stencil.Log.Event

/-!
# Settings

What a user can choose: the dialect of templates, how they are cut into tokens, and what is
logged. Settings that are not given are taken from the environment, or have a fixed default.
-/

namespace Stencil

/-- Choices for cutting templates into tokens. -/
structure LexicalSettings where
  /-- Whether tokens are counted kind by kind. -/
  countKinds : Bool := true
  /-- Whether a warning is logged for text that is opened and never closed. -/
  warnUnterminated : Bool := true
deriving DecidableEq, Repr

/-- Choices for logging. -/
structure LogSettings where
  /-- Whether events are written as JSON values. -/
  structured : Bool := false
  /-- Whether events are written at all. -/
  console : Bool := true
  /-- The least level that is written. -/
  least : Log.Level := .warning
  /-- Whether events are given the name of the template that is being worked on. -/
  nameTemplate : Bool := true
deriving DecidableEq, Repr

/-- All choices of a user. -/
structure Settings where
  dialect : Dialect := {}
  lexical : LexicalSettings := {}
  log : LogSettings := {}
deriving DecidableEq, Repr

/-- The variables of an environment. -/
abbrev Environment := String → Option String

namespace Environment

variable (environment : Environment)

/-- A variable that is set to a truth value. -/
def flag? (name : String) : Option Bool := do
  let value ← environment name
  if value = "true" then some true else if value = "false" then some false else none

/-- The choices for cutting templates that an environment makes. -/
def lexical : LexicalSettings where
  countKinds := (environment.flag? "JINJA_LEXICAL_DETAILED_METRICS").getD true
  warnUnterminated := (environment.flag? "JINJA_LEXICAL_WARN_UNTERMINATED").getD true

/-- The choices for logging that an environment makes. -/
def log : LogSettings where
  structured := (environment.flag? "JINJA_LOGGING_USE_STRUCTURED").getD false
  console := (environment.flag? "JINJA_LOGGING_ENABLE_CONSOLE").getD true
  least := ((environment "JINJA_LOGGING_MIN_LEVEL").bind Log.Level.ofWord?).getD .warning
  nameTemplate := (environment.flag? "JINJA_LOGGING_INCLUDE_TEMPLATE_CONTEXT").getD true

/-- All choices that an environment makes. -/
def settings : Settings where
  lexical := environment.lexical
  log := environment.log

end Environment

namespace Settings

/-- A dialect as a JSON value. -/
def dialectJson (dialect : Dialect) : Json :=
  .object
    ((dialect.delimiters.map fun (name, value) => ⟨name, .string value⟩) ++
      (dialect.linePrefixes.map fun (name, value) => ⟨name, .ofText? value⟩) ++
      [⟨"trim_blocks", .bool dialect.trimBlocks⟩])

/-- Settings as a JSON value. -/
def toJson (settings : Settings) : Json :=
  .object
    [⟨"syntax", dialectJson settings.dialect⟩,
      ⟨"lexical", .object
        [⟨"collect_detailed_metrics", .bool settings.lexical.countKinds⟩,
          ⟨"warn_on_unterminated", .bool settings.lexical.warnUnterminated⟩]⟩,
      ⟨"logging", .object
        [⟨"use_structured_logging", .bool settings.log.structured⟩,
          ⟨"enable_console_logging", .bool settings.log.console⟩,
          ⟨"min_log_level", .string settings.log.least.setting⟩,
          ⟨"include_template_context", .bool settings.log.nameTemplate⟩]⟩]

end Settings

end Stencil
