import VariantSelector.Text.Basic

/-!
The arguments of the command. Options and tokens mix freely; behind `--` everything is a
token. Arguments are read from left to right, and the first that is wrong, or asks for the version,
decides.
-/

namespace VariantSelector.CommandLine

/-- What a run of the command is to do. -/
structure Options where
  tokens : List Text := []
  config : Option Text := none
  /-- Whether markers are attributes, whatever the configuration says. -/
  attributify : Bool := false
  /-- Whether to print suggestions instead of resolving tokens. -/
  autocomplete : Bool := false
  deriving DecidableEq, Repr

inductive Request
  | version
  | run (options : Options)
  deriving DecidableEq, Repr

/-- Why arguments are wrong. -/
inductive UsageFault
  | unknownOption
  | repeatedOption
  /-- An option lacks its value, or the value is empty. -/
  | missingValue
  /-- A value is attached to an option that takes none. -/
  | superfluousValue
  deriving DecidableEq, Repr

def UsageFault.reason : UsageFault → Text
  | .unknownOption => "unknown option".toList
  | .repeatedOption => "an option is given twice".toList
  | .missingValue => "an option lacks its value".toList
  | .superfluousValue => "an option takes no value".toList

namespace Options

/-- Names the configuration file, which must have a name and is named once. -/
def withConfig (o : Options) (path : Text) : Except UsageFault Options :=
  if path.isEmpty then .error .missingValue
  else if o.config.isSome then .error .repeatedOption
  else .ok { o with config := some path }

def withAttributify (o : Options) : Except UsageFault Options :=
  if o.attributify then .error .repeatedOption else .ok { o with attributify := true }

def withAutocomplete (o : Options) : Except UsageFault Options :=
  if o.autocomplete then .error .repeatedOption else .ok { o with autocomplete := true }

def withToken (o : Options) (token : Text) : Options := { o with tokens := o.tokens ++ [token] }

end Options

/-! ### Single arguments -/

/-- An argument taken by itself. -/
inductive Argument
  | token (text : Text)
  /-- `--`, behind which everything is a token. -/
  | separator
  | version
  | attributify
  | autocomplete
  /-- The file comes with the option, or is the next argument. -/
  | config (attached : Option Text)
  deriving DecidableEq, Repr

/-- Splits a text at its first equals sign, if it has one. -/
def splitEquals (s : Text) : Text × Option Text :=
  match s.dropWhile (· ≠ '=') with
  | [] => (s, none)
  | _ :: value => (s.takeWhile (· ≠ '='), some value)

/-- The options without a value, by their long names. -/
def flags : List (Text × Argument) :=
  [("version".toList, .version), ("attributify".toList, .attributify),
    ("autocomplete".toList, .autocomplete)]

/-- The option whose name follows two dashes. -/
def longOption (s : Text) : Except UsageFault Argument :=
  let (name, value) := splitEquals s
  if name = "config".toList then .ok (.config value)
  else
    match flags.lookup name, value with
    | some flag, none => .ok flag
    | some _, some _ => .error .superfluousValue
    | none, _ => .error .unknownOption

/-- The option whose letter follows one dash; a file may follow the letter. -/
def shortOption (letter : Char) (rest : Text) : Except UsageFault Argument :=
  if letter = 'V' then .ok .version
  else if letter = 'c' then
    match rest with
    | [] => .ok (.config none)
    | '=' :: path => .ok (.config (some path))
    | path => .ok (.config (some path))
  else .error .unknownOption

/-- Takes an argument by itself. A lone `-` is a token. -/
def Argument.ofText : Text → Except UsageFault Argument
  | ['-', '-'] => .ok .separator
  | '-' :: '-' :: long => longOption long
  | '-' :: letter :: rest => shortOption letter rest
  | text => .ok (.token text)

/-! ### All arguments -/

/-- Reads arguments behind those that made `o`; `awaited` tells that a file must come first. An
argument that has the form of an option cannot be that file. -/
def parseFrom (o : Options) (awaited : Bool) : List Text → Except UsageFault Request
  | [] => if awaited then .error .missingValue else .ok (.run o)
  | argument :: rest =>
    match awaited, Argument.ofText argument with
    | true, .ok (.token path) => do parseFrom (← o.withConfig path) false rest
    | true, _ => .error .missingValue
    | false, .error fault => .error fault
    | false, .ok (.token text) => parseFrom (o.withToken text) false rest
    | false, .ok .separator => .ok (.run { o with tokens := o.tokens ++ rest })
    | false, .ok .version => .ok .version
    | false, .ok .attributify => do parseFrom (← o.withAttributify) false rest
    | false, .ok .autocomplete => do parseFrom (← o.withAutocomplete) false rest
    | false, .ok (.config (some path)) => do parseFrom (← o.withConfig path) false rest
    | false, .ok (.config none) => parseFrom o true rest

def parse (arguments : List Text) : Except UsageFault Request := parseFrom {} false arguments

end VariantSelector.CommandLine
