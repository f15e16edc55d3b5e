import DisplayColor.CommandLine.Request
import DisplayColor.Pipeline.Conversion
import DisplayColor.Pipeline.SettingsDocument
import DisplayColor.Shader.Block
import DisplayColor.Shader.Packing
import DisplayColor.Shader.Source

/-! # Reports

The text that each command prints, and the failures that take its place. -/

namespace DisplayColor.CommandLine

inductive Failure
  | log (path reason : String)
  | settings (path : String) (cause : SettingsError)
  | description (cause : DescriptionError)
  | unfit (cause : FitError)
  | table (cause : OutOfBounds)

namespace Failure

def chain : Failure → List String
  | log path reason => ["Failed to create log file: " ++ path, reason]
  | settings path cause => ("Failed to load config: " ++ path) :: cause.chain
  | description cause => cause.chain
  | unfit cause => ["Pipeline does not fit the shader", cause.message]
  | table cause => [cause.message]

/-- A text whose lines after the first are set in by `margin` blanks. -/
def hanging (margin : Nat) (text : String) : String :=
  ("\n" ++ "".pushn ' ' margin).intercalate (text.splitOn "\n")

/-- The report to the reader: the failure, and set in below it its causes, numbered when there are
several. -/
def report (failure : Failure) : String :=
  match failure.chain with
  | [] => "Error\n"
  | [outer] => "Error: " ++ outer ++ "\n"
  | [outer, cause] => "Error: " ++ outer ++ "\n\nCaused by:\n    " ++ hanging 4 cause ++ "\n"
  | outer :: causes =>
    let numbered := causes.mapIdx fun i cause =>
      rightAligned 5 i ++ ": " ++ hanging 7 cause ++ "\n"
    "Error: " ++ outer ++ "\n\nCaused by:\n" ++ String.join numbered

end Failure

namespace ConversionRequest

/-- The descriptions that a request names; of two that cannot be read the source is reported. -/
def descriptions (request : ConversionRequest) :
    Except Failure (Description Single Double × Description Single Double) := do
  let source ←
    (Description.read request.source request.sourceLuminances).mapError Failure.description
  let target ←
    (Description.read request.target request.targetLuminances).mapError Failure.description
  pure (source, target)

end ConversionRequest

def mapReport (settings : Settings Single) (color : Vec3 Single) (request : ConversionRequest) :
    Except Failure String := do
  let (source, target) ← request.descriptions
  let pipeline := Pipeline.conversion source target request.intent settings
  let result ← (pipeline.evaluate color).mapError Failure.table
  pure (" ".intercalate (result.toList.map (writeFixed 6)) ++ "\n")

def listReport (settings : Settings Single) (request : ConversionRequest) :
    Except Failure String := do
  let (source, target) ← request.descriptions
  let pipeline := Pipeline.conversion source target request.intent settings
  pure ("from:   " ++ source.text ++ "\nto:     " ++ target.text ++ "\nintent: "
    ++ request.intent.name ++ "\ninput:  " ++ pipeline.input.text ++ "\nops:    "
    ++ toString pipeline.length ++ "\n\n" ++ pipeline.text ++ "\n")

/-- The slots that the conversion takes, the size of its block and its instructions. -/
def packReport (settings : Settings Single) (request : ConversionRequest) :
    Except Failure String := do
  let (source, target) ← request.descriptions
  let pipeline := Pipeline.conversion source target request.intent settings
  let block ← (UniformBlock.ofPipeline pipeline).mapError Failure.unfit
  let instructions := block.active.mapIdx fun i instruction =>
    rightAligned 2 i ++ s!": kind {instruction.kind} slot {instruction.index}\n"
  pure (block.usage.text ++ "\nuniform block: " ++ toString block.bytes.length ++ " bytes\n"
    ++ String.join instructions)

def Command.report (settings : Settings Single) : Command → Except Failure String
  | .map color request => mapReport settings color request
  | .list request => listReport settings request
  | .pack request => packReport settings request
  | .shader => .ok Shader.source

end DisplayColor.CommandLine
