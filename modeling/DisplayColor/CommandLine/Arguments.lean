import DisplayColor.CommandLine.Request

/-! # Arguments

Arguments are read from left to right.  Those in front of the command are options that hold for all
commands; those after it are such options, options of the command and components of a colour.

An option is written as `--name value` or `--name=value`, and one with a short name also as `-n
value`, `-n=value` or `-nvalue`; short options without values can share one hyphen.  While
components of a colour are still expected, an argument with a hyphen that is no option counts as a
value.  After `--` nothing is an option. -/

namespace DisplayColor.CommandLine

inductive Switch
  | verbose
  | withoutToneMapping
  | help
  | version
deriving DecidableEq, Repr

inductive Setting
  | settings
  | log
  | source
  | target
  | intent
  | sourceReference
  | sourceMin
  | sourceMax
  | targetReference
  | targetMin
  | targetMax
deriving DecidableEq, Repr

inductive Choice
  | switch (s : Switch)
  | setting (s : Setting)
deriving DecidableEq, Repr

inductive Scope
  | top
  | map
  | list
  | pack
  | shader
deriving DecidableEq, Repr

namespace Setting

def name : Setting → String
  | settings => "config"
  | log => "log-file"
  | source => "from"
  | target => "to"
  | intent => "intent"
  | sourceReference => "from-ref"
  | sourceMin => "from-min"
  | sourceMax => "from-max"
  | targetReference => "to-ref"
  | targetMin => "to-min"
  | targetMax => "to-max"

def general : List Setting := [settings, log]

def ofConversion : List Setting :=
  [source, target, intent, sourceReference, sourceMin, sourceMax, targetReference, targetMin,
    targetMax]

/-- The text is a value for the option: a path that is not empty, a description of any form, an
intent or a number. -/
def accepts (setting : Setting) (value : String) : Bool :=
  match setting with
  | settings | log => !value.isEmpty
  | source | target => true
  | intent => (Intent.ofName? value).isOk
  | _ => (Numeral.readSingle? value).isSome

end Setting

namespace Switch

def name : Switch → String
  | verbose => "verbose"
  | withoutToneMapping => "no-tonemapping"
  | help => "help"
  | version => "version"

end Switch

namespace Scope

def ofCommand? : String → Option Scope
  | "map" => some map
  | "m" => some map
  | "pipeline" => some list
  | "p" => some list
  | "uniforms" => some pack
  | "u" => some pack
  | "shader" => some shader
  | _ => none

def choices (scope : Scope) : List Choice :=
  let switches := [Switch.verbose, .withoutToneMapping, .help].map Choice.switch
  let general := Setting.general.map Choice.setting
  let conversion := Setting.ofConversion.map Choice.setting
  match scope with
  | top => .switch .version :: switches ++ general
  | shader => switches ++ general
  | _ => switches ++ general ++ conversion

def components : Scope → Nat
  | map => 3
  | _ => 0

def long? (scope : Scope) (name : String) : Option Choice :=
  scope.choices.find? fun choice =>
    match choice with
    | .switch s => s.name == name
    | .setting s => s.name == name

def short? (scope : Scope) (letter : Char) : Option Choice :=
  let choice? : Option Choice :=
    match letter with
    | 'v' => some (.switch .verbose)
    | 'h' => some (.switch .help)
    | 'V' => some (.switch .version)
    | 'i' => some (.setting .intent)
    | _ => none
  choice?.filter scope.choices.contains

end Scope

structure Found where
  verbosity : Nat := 0
  withoutToneMapping : Bool := false
  settings : List (Setting × String) := []
  /-- The components of a colour, the latest first. -/
  components : List Single := []

inductive Stop
  | version
  | help
  | usage (error : UsageError)

namespace Found

def value? (found : Found) (setting : Setting) : Option String := found.settings.lookup setting

def turnOn (found : Found) : Switch → Except Stop Found
  | .verbose => .ok { found with verbosity := found.verbosity + 1 }
  | .withoutToneMapping =>
    if found.withoutToneMapping then
      .error (.usage (.repeated Switch.withoutToneMapping.name))
    else .ok { found with withoutToneMapping := true }
  | .help => .error .help
  | .version => .error .version

def set (found : Found) (setting : Setting) (value : String) : Except Stop Found :=
  if (found.value? setting).isSome then .error (.usage (.repeated setting.name))
  else if setting.accepts value then
    .ok { found with settings := (setting, value) :: found.settings }
  else .error (.usage (.invalidValue setting.name value))

def expectsComponent (found : Found) (scope : Scope) : Bool :=
  decide (found.components.length < scope.components)

def place (found : Found) (scope : Scope) (argument : String) : Except Stop Found :=
  if found.expectsComponent scope then
    match Numeral.readSingle? argument with
    | some x => .ok { found with components := x :: found.components }
    | none => .error (.usage (.invalidValue "component" argument))
  else .error (.usage (.unexpected argument))

/-- Takes in an option by its long name; one that still needs a value is handed back. -/
def takeLong (found : Found) (choice : Choice) (attached : Option String) :
    Except Stop (Found × Option Setting) :=
  match choice, attached with
  | .switch s, none => (found.turnOn s).map fun found => (found, none)
  | .switch s, some _ => .error (.usage (.needlessValue s.name))
  | .setting s, none => .ok (found, some s)
  | .setting s, some value => (found.set s value).map fun found => (found, none)

/-- Takes in short options that share a hyphen; one that still needs a value is handed back. -/
def takeShort (found : Found) (scope : Scope) : List Char → Except Stop (Found × Option Setting)
  | [] => .ok (found, none)
  | letter :: rest =>
    match scope.short? letter with
    | some (.switch s) => do
      let found ← found.turnOn s
      takeShort found scope rest
    | some (.setting s) =>
      match rest with
      | [] => .ok (found, some s)
      | '=' :: value => (found.set s (String.ofList value)).map fun found => (found, none)
      | value => (found.set s (String.ofList value)).map fun found => (found, none)
    | none => .error (.usage (.unexpected (String.ofList ['-', letter])))

end Found

inductive Argument
  /-- `--`. -/
  | escape
  | long (name : String) (attached : Option String)
  | short (letters : List Char)
  | plain

/-- The form of an argument; a single hyphen is plain. -/
def Argument.ofText (text : String) : Argument :=
  match text.toList with
  | ['-', '-'] => .escape
  | '-' :: '-' :: rest =>
    let name := rest.takeWhile (· != '=')
    match rest.drop name.length with
    | [] => .long (String.ofList name) none
    | _ :: value => .long (String.ofList name) (some (String.ofList value))
  | '-' :: letter :: rest => .short (letter :: rest)
  | _ => .plain

/-- The option that an argument names in a scope, unless it counts as a value there. -/
inductive Meaning
  | escape
  | long (choice : Choice) (attached : Option String)
  | short (letters : List Char)
  | value
  | unknown

def Argument.meaning (scope : Scope) (expectsComponent : Bool) : Argument → Meaning
  | .escape => .escape
  | .plain => .value
  | .long name attached =>
    match scope.long? name with
    | some choice => .long choice attached
    | none => if expectsComponent then .value else .unknown
  | .short letters =>
    if expectsComponent && letters.any fun letter => (scope.short? letter).isNone then .value
    else .short letters

/-- Help is asked for: for all commands, or for the one command that is named. -/
def Stop.forHelp : List String → Stop
  | [] => .help
  | name :: rest =>
    if (name == "help" || (Scope.ofCommand? name).isSome) && rest.isEmpty then .help
    else .usage (.unexpected name)

/-- Reads the arguments of one scope.  `pending` is an option whose value comes next.  Before a
command reading ends at its name, which is handed back with the arguments that follow. -/
def scan (scope : Scope) (found : Found) (pending : Option Setting) :
    List String → Except Stop (Found × Option (Scope × List String))
  | [] =>
    match pending with
    | some s => .error (.usage (.missingValue s.name))
    | none => .ok (found, none)
  | argument :: rest =>
    match pending, (Argument.ofText argument).meaning scope (found.expectsComponent scope) with
    | _, .unknown => .error (.usage (.unexpected argument))
    | some s, .value => do
      let found ← found.set s argument
      scan scope found none rest
    | some s, _ => .error (.usage (.missingValue s.name))
    | none, .value =>
      if scope = .top then
        match Scope.ofCommand? argument with
        | some command => .ok (found, some (command, rest))
        | none =>
          .error (if argument == "help" then .forHelp rest else .usage (.unexpected argument))
      else do
        let found ← found.place scope argument
        scan scope found none rest
    | none, .escape => do
      let found ← rest.foldlM (fun (found : Found) argument => found.place scope argument) found
      pure (found, none)
    | none, .long choice attached => do
      let (found, pending) ← found.takeLong choice attached
      scan scope found pending rest
    | none, .short letters => do
      let (found, pending) ← found.takeShort scope letters
      scan scope found pending rest

def Found.luminances (found : Found) (reference min max : Setting) : LuminanceOverrides Single :=
  let number (setting : Setting) : Option Single :=
    (found.value? setting).bind Numeral.readSingle?
  ⟨number reference, number min, number max⟩

def Found.conversion (found : Found) : ConversionRequest where
  source := (found.value? .source).getD "srgb"
  target := (found.value? .target).getD "srgb"
  intent :=
    match (found.value? .intent).map Intent.ofName? with
    | some (.ok intent) => intent
    | _ => .perceptual
  sourceLuminances := found.luminances .sourceReference .sourceMin .sourceMax
  targetLuminances := found.luminances .targetReference .targetMin .targetMax

def Found.command (found : Found) : Scope → Except UsageError Command
  | .top => .error .missingCommand
  | .map =>
    match found.components with
    | [b, g, r] => .ok (.map ⟨r, g, b⟩ found.conversion)
    | _ => .error .missingColor
  | .list => .ok (.list found.conversion)
  | .pack => .ok (.pack found.conversion)
  | .shader => .ok .shader

/-- Reads the arguments.  Where a general option stands both before and after the command, the later
one counts. -/
def Request.ofArguments (arguments : List String) : Except UsageError Request :=
  let result : Except Stop Request := do
    let (general, command) ← scan .top {} none arguments
    match command with
    | none => .error (.usage .missingCommand)
    | some (scope, rest) => do
      let (found, _) ← scan scope {} none rest
      let command ← (found.command scope).mapError Stop.usage
      pure (.invoke
        { command
          settings := found.value? .settings <|> general.value? .settings
          withoutToneMapping := found.withoutToneMapping || general.withoutToneMapping
          log := found.value? .log <|> general.value? .log
          verbosity := found.verbosity + general.verbosity })
  match result with
  | .ok request => .ok request
  | .error .version => .ok .version
  | .error .help => .ok .help
  | .error (.usage error) => .error error

end DisplayColor.CommandLine
