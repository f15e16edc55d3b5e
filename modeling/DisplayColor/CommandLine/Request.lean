import DisplayColor.Numeral.Reading
import DisplayColor.Pipeline.Notation

/-! # Requests

What the command line can be asked to do, and why arguments make no request.  Two descriptions, an
intent and luminances that take the place of those of the descriptions make a conversion. -/

namespace DisplayColor.CommandLine

structure ConversionRequest where
  source : String
  target : String
  intent : Intent
  sourceLuminances : LuminanceOverrides Single
  targetLuminances : LuminanceOverrides Single

inductive Command
  /-- Converts one colour. -/
  | map (color : Vec3 Single) (conversion : ConversionRequest)
  | list (conversion : ConversionRequest)
  | pack (conversion : ConversionRequest)
  | shader

/-- A command with what holds for all commands. -/
structure Invocation where
  command : Command
  settings : Option String
  /-- Whether tone mapping is left out whatever the settings say. -/
  withoutToneMapping : Bool
  log : Option String
  verbosity : Nat

inductive Request
  | invoke (invocation : Invocation)
  | version
  | help

inductive UsageError
  | unexpected (argument : String)
  | missingValue (option : String)
  | invalidValue (option value : String)
  | repeated (option : String)
  | needlessValue (option : String)
  | missingCommand
  | missingColor
deriving DecidableEq, Repr

def UsageError.message : UsageError → String
  | .unexpected argument => "unexpected argument: " ++ argument
  | .missingValue option => "a value is required for " ++ option
  | .invalidValue option value => "invalid value for " ++ option ++ ": " ++ value
  | .repeated option => option ++ " cannot be used multiple times"
  | .needlessValue option => option ++ " takes no value"
  | .missingCommand => "a command is required: map, pipeline, uniforms or shader"
  | .missingColor => "three components are required"

end DisplayColor.CommandLine
