import DisplayColor.CommandLine.Arguments
import DisplayColor.CommandLine.Report
import DisplayColor.Pipeline.Settings

/-! # The program

One run of the program, over any surroundings that have files and variables: the arguments are read,
the log file is created, the settings are loaded, and the command is carried out. -/

namespace DisplayColor.CommandLine

structure Surroundings (m : Type → Type) where
  /-- Creates an empty file, or tells why it cannot. -/
  createFile : String → m (Except String Unit)
  /-- What is at a path, if anything is: the bytes of a file, or the reason why it cannot be read.
  -/
  readFile : String → m (Option (Except String ByteArray))
  /-- The value of a variable, if it is set. -/
  readVariable : String → m (Option String)

structure Outcome where
  code : Nat
  output : String
  errors : String

namespace Outcome

def success (output : String) : Outcome := ⟨0, output, ""⟩

def failure (failure : Failure) : Outcome := ⟨1, "", failure.report⟩

def misuse (error : UsageError) : Outcome := ⟨2, "", "error: " ++ error.message ++ "\n"⟩

end Outcome

def versionText : String := "dcolor 0.1.0\n"

def helpText : String :=
  "\n".intercalate
    ["Display color pipeline inspector", "",
      "Usage: dcolor [OPTIONS] <COMMAND>", "",
      "Commands:",
      "  map       Convert one RGB value",
      "  pipeline  Print the fused operation list",
      "  uniforms  Serialize to shader uniforms and report slot usage",
      "  shader    Print the WGSL evaluator", "",
      "Options:",
      "  -v, --verbose              Verbose output (-v debug, -vv trace)",
      "      --config <CONFIG>      Pipeline settings (YAML)",
      "      --no-tonemapping       Never insert a tone mapper",
      "      --log-file <LOG_FILE>  Also write logs to this file", ""]

variable {m : Type → Type} [Monad m]

/-- Creates the log file, if one is asked for. -/
def createLog (world : Surroundings m) : Option String → m (Except Failure Unit)
  | none => pure (.ok ())
  | some path => do
    let result ← world.createFile path
    pure (result.mapError (Failure.log path))

/-- The settings of an invocation: those of its document, or the standard ones under the
environment. -/
def loadSettings (world : Surroundings m) : Option String → m (Except Failure (Settings Single))
  | some path => do
    let content ← world.readFile path
    pure ((Settings.load path content).mapError (Failure.settings path))
  | none => do
    let value ← world.readVariable Settings.disablingVariable
    pure (.ok (Settings.standard.inEnvironment fun name =>
      if name = Settings.disablingVariable then value else none))

def Invocation.run (world : Surroundings m) (invocation : Invocation) : m Outcome := do
  match ← createLog world invocation.log with
  | .error failure => pure (.failure failure)
  | .ok () =>
    match ← loadSettings world invocation.settings with
    | .error failure => pure (.failure failure)
    | .ok settings =>
      let settings :=
        if invocation.withoutToneMapping then settings.withoutToneMapping else settings
      match invocation.command.report settings with
      | .ok output => pure (.success output)
      | .error failure => pure (.failure failure)

def run (world : Surroundings m) (arguments : List String) : m Outcome :=
  match Request.ofArguments arguments with
  | .error error => pure (.misuse error)
  | .ok .version => pure (.success versionText)
  | .ok .help => pure (.success helpText)
  | .ok (.invoke invocation) => invocation.run world

end DisplayColor.CommandLine
