import DisplayColor.Numeral.Layout
import DisplayColor.Numeral.Reading
import DisplayColor.Pipeline.Settings
import DisplayColor.Yaml.Document

/-! # Settings documents

Settings are kept in a YAML mapping.  Keys that are missing keep their standard values, keys that
are unknown are ignored, and known keys may stand only once.  What was read is then checked. -/

namespace DisplayColor

inductive SettingsError
  | notFound (path : String)
  /-- There is something at the path, but it cannot be read as text. -/
  | unreadable (reason : String)
  | malformed
  | invalid (field : String) (value : Single)

def SettingsError.message : SettingsError → String
  | .notFound path => "config file not found: " ++ path
  | .unreadable reason => "I/O error: " ++ reason
  | .malformed => "YAML parse error: not a settings document"
  | .invalid field value =>
    "invalid value for " ++ field ++ ": " ++ plainText value ++ " (must be finite and >= 1)"

def SettingsError.chain (cause : SettingsError) : List String :=
  match cause with
  | .unreadable reason => [cause.message, reason]
  | _ => [cause.message]

namespace Settings

/-- The text of a scalar that may be a value of the kind with the given tag: it is plain, or literal
with that tag. -/
def valueText? (tag : String) (scalar : Yaml.Scalar) : Option String :=
  match scalar.style with
  | .plain => some scalar.text
  | .literal => if scalar.tag == some tag then some scalar.text else none
  | _ => none

def readFlag? (scalar : Yaml.Scalar) : Option Bool :=
  match valueText? "tag:yaml.org,2002:bool" scalar with
  | some "true" | some "True" | some "TRUE" => some true
  | some "false" | some "False" | some "FALSE" => some false
  | _ => none

/-- The words for infinity and the undefined value. -/
def specialNumber? (text : String) : Option Double :=
  if text ∈ [".inf", ".Inf", ".INF", "+.inf", "+.Inf", "+.INF"] then some (1 / 0)
  else if text ∈ ["-.inf", "-.Inf", "-.INF"] then some (-(1 / 0))
  else if text ∈ [".nan", ".NaN", ".NAN"] then some .undefined
  else none

/-- A number as it is written in documents: one of the special words, or a decimal that is not too
large. -/
def readNumber? (text : String) : Option Double :=
  specialNumber? text <|> (Numeral.readDouble? text).filter Scalar.isFinite

/-- A number, rounded to single precision. -/
def readFactor? (scalar : Yaml.Scalar) : Option Single :=
  ((valueText? "tag:yaml.org,2002:float" scalar).bind readNumber?).map narrow

structure Fields where
  toneMapping : Option Bool := none
  maxHeadroom : Option Single := none
  threshold : Option Single := none

inductive Field
  | toneMapping
  | maxHeadroom
  | threshold
deriving DecidableEq, Repr

def Field.ofKey? : String → Option Field
  | "tonemapping" => some toneMapping
  | "max_added_headroom" => some maxHeadroom
  | "tonemap_threshold" => some threshold
  | _ => none

/-- Takes in the value of a field that has none yet. -/
def Fields.add (fields : Fields) (field : Field) (value : Yaml.Scalar) : Option Fields :=
  match field with
  | .toneMapping =>
    if fields.toneMapping.isSome then none
    else (readFlag? value).map fun flag => { fields with toneMapping := some flag }
  | .maxHeadroom =>
    if fields.maxHeadroom.isSome then none
    else (readFactor? value).map fun factor => { fields with maxHeadroom := some factor }
  | .threshold =>
    if fields.threshold.isSome then none
    else (readFactor? value).map fun factor => { fields with threshold := some factor }

inductive Expected
  | key
  | value (field : Field)
  /-- The value of an unknown key, of which `depth` collections are open. -/
  | ignored (depth : Nat)
  | nothing
deriving DecidableEq, Repr

def scalar? : Yaml.Part → Option Yaml.Scalar
  | .scalar s => some s
  | .alias target => target
  | _ => none

/-- What comes after a part of an ignored value, when `depth` collections are open. -/
def Expected.afterIgnored (depth : Nat) : Expected :=
  if depth = 0 then .key else .ignored depth

def Fields.take (state : Fields × Expected) (part : Yaml.Part) : Option (Fields × Expected) :=
  let (fields, expected) := state
  match expected, part with
  | .key, .finish _ => some (fields, .nothing)
  | .key, part => (scalar? part).map fun key =>
      (fields, ((Field.ofKey? key.text).map Expected.value).getD (.ignored 0))
  | .value field, part => do
    let value ← scalar? part
    let fields ← fields.add field value
    pure (fields, .key)
  | .ignored depth, .start _ => some (fields, .ignored (depth + 1))
  | .ignored depth, .finish _ => some (fields, .afterIgnored (depth - 1))
  | .ignored depth, _ => some (fields, .afterIgnored depth)
  | .nothing, _ => none

/-- The values in a document; an empty document gives none. -/
def Fields.ofParts? : List Yaml.Part → Option Fields
  | [] => some {}
  | [.scalar s] => if s.style = .plain ∧ s.text = "" then some {} else none
  | .start .mapping :: rest => do
    let (fields, expected) ← rest.foldlM Fields.take ({}, .key)
    if expected = .nothing then pure fields else none
  | _ => none

def ofFields (fields : Fields) : Settings Single :=
  let base : Settings Single := standard
  { toneMapping := fields.toneMapping.getD base.toneMapping
    maxHeadroom := fields.maxHeadroom.getD base.maxHeadroom
    threshold := fields.threshold.getD base.threshold }

/-- Refuses settings with a factor that cannot be used; of two, the headroom is reported. -/
def validated (s : Settings Single) : Except SettingsError (Settings Single) :=
  if !isUsable s.maxHeadroom then .error (.invalid "max_added_headroom" s.maxHeadroom)
  else if !isUsable s.threshold then .error (.invalid "tonemap_threshold" s.threshold)
  else .ok s

def read (text : String) : Except SettingsError (Settings Single) :=
  match (Yaml.Part.ofText? text).bind Fields.ofParts? with
  | some fields => (ofFields fields).validated
  | none => .error .malformed

/-- Reads what is found at a path: nothing, bytes, or the reason why there are none. -/
def load (path : String) :
    Option (Except String ByteArray) → Except SettingsError (Settings Single)
  | none => .error (.notFound path)
  | some (.error reason) => .error (.unreadable reason)
  | some (.ok bytes) =>
    match String.fromUTF8? bytes with
    | some text => read text
    | none => .error (.unreadable "stream did not contain valid UTF-8")

def document (s : Settings Single) : String :=
  let number (x : Single) : String := writeSingle .document x
  "tonemapping: " ++ toString s.toneMapping ++ "\nmax_added_headroom: " ++ number s.maxHeadroom
    ++ "\ntonemap_threshold: " ++ number s.threshold ++ "\n"

end Settings

end DisplayColor
