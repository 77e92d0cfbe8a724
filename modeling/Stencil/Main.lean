import Stencil.CommandLine.Basic
import Std.Time.Format

/-!
# The program

Reads the files that the arguments name, lets the command line decide what to print, and prints
it.
-/

namespace Stencil.CommandLine

/-- Why the system could not read a file. -/
def faultOf : IO.Error → ReadFault
  | .permissionDenied .. => .permissionDenied
  | .inappropriateType _ code _ => if code = 20 then .notDirectory else .isDirectory
  | .invalidArgument _ code _ => if code = 36 then .nameTooLong else .badPath
  | _ => .notFound

/-- The text of a file of the system. -/
def readFile (path : String) : IO (Except ReadFault String) := do
  match ← (IO.FS.readBinFile path).toBaseIO with
  | .error error => return .error (faultOf error)
  | .ok content => match String.fromUTF8? content with
    | some text => return .ok text
    | none => return .error .notText

/-- The variables that settings are taken from. -/
def settingNames : List String :=
  ["JINJA_LEXICAL_DETAILED_METRICS", "JINJA_LEXICAL_WARN_UNTERMINATED",
    "JINJA_LOGGING_USE_STRUCTURED", "JINJA_LOGGING_ENABLE_CONSOLE", "JINJA_LOGGING_MIN_LEVEL",
    "JINJA_LOGGING_INCLUDE_TEMPLATE_CONTEXT"]

/-- What the system tells about a call with the given arguments. -/
def surroundingsOf (arguments : List String) : IO Surroundings := do
  let environment ← settingNames.mapM fun name => return (name, ← IO.getEnv name)
  let paths := match (Options.ofArguments arguments).2 with
    | .ok options => options.template :: options.config.toList
    | .error _ => []
  let files ← paths.mapM fun path => return (path, ← readFile path)
  let now := Std.Time.PlainDateTime.ofWallTime ((← Std.Time.Timestamp.now).toWallTime .zero)
  return {
    program := (← IO.appPath).toString
    environment := fun name => (environment.lookup name).join
    read := fun path => (files.lookup path).getD (.error .notFound)
    time := now.toLeanDateTimeString ++ "+00:00" }

/-- A time given in nanoseconds, in milliseconds with two places. -/
def milliseconds (nanoseconds : Nat) : String :=
  let hundredths := nanoseconds / 10000
  let fraction := String.ofList ((Nat.toDigits 10 (hundredths % 100 + 100)).drop 1)
  s!"{hundredths / 100}.{fraction}"

/-- Prints what a call of the program prints. -/
def print (output : Output) : IO UInt32 := do
  output.stderr.forM fun text => IO.eprintln text
  output.stdout.forM fun text => IO.println text
  return output.exit.toUInt32

end Stencil.CommandLine

/-- Runs the program. -/
def main (arguments : List String) : IO UInt32 := do
  let surroundings ← Stencil.CommandLine.surroundingsOf arguments
  match Stencil.CommandLine.plan surroundings arguments with
  | .done output => Stencil.CommandLine.print output
  | .work before job =>
    let start ← IO.monoNanosNow
    let run := job.start
    let stop ← IO.monoNanosNow
    let duration := Stencil.CommandLine.milliseconds (stop - start)
    Stencil.CommandLine.print (before.append (job.output surroundings run duration))
