import SchemaTypes.Settings.Basic
import SchemaTypes.Text.Split

/-! # Arguments

What the arguments of the program ask for. They are read from left to right. The value of an option
is part of its argument or the argument after it; in the second case it is taken over only when the
next option begins or all arguments are read, so that an argument out of place is noticed before a
bad value in front of it.
-/

namespace SchemaTypes.CommandLine

inductive ImportFault where
  | noStatement (argument : String)
  | noName
deriving DecidableEq

def ImportFault.message : ImportFault → String
  | noStatement argument => "expected NAME=STATEMENT, got `" ++ argument ++ "`"
  | noName => "custom type name must not be empty"

/-- A custom type and its import statement: what stands on the two sides of the first equality sign,
trimmed. -/
def parseImport (argument : String) : Except ImportFault (String × String) :=
  match Text.splitFirst? '=' argument with
  | none => .error (.noStatement argument)
  | some (name, statement) =>
    if Text.trimmed name = "" then .error .noName
    else .ok (Text.trimmed name, Text.trimmed statement)

inductive Stop where
  /-- They ask for help. -/
  | help
  /-- They ask for the version. -/
  | version
  /-- They are not understood. -/
  | misuse
  | importFault (fault : ImportFault)
deriving DecidableEq

structure Arguments where
  input : Option String := none
  output : Option String := none
  front : Option String := none
  back : Option String := none
  style : Option DeclarationStyle := none
  imports : List (String × String) := []
  /-- The file of settings. -/
  settings : Option String := none
  noExport : Bool := false
  enumsAsUnions : Bool := false
  lenient : Bool := false

/-! ## Single options -/

inductive Parameter where
  | input
  | output
  | front
  | back
  | style
  | imports
  | settings

namespace Parameter

def ofLong? : String → Option Parameter
  | "input" => some input
  | "output" => some output
  | "prefix" => some front
  | "suffix" => some back
  | "type-style" => some style
  | "import" => some imports
  | "config" => some settings
  | _ => none

def ofShort? : Char → Option Parameter
  | 'i' => some input
  | 'o' => some output
  | _ => none

end Parameter

inductive Switch where
  | verbose
  | help
  | noExport
  | enumsAsUnions
  | lenient

namespace Switch

def ofLong? : String → Option Switch
  | "verbose" => some verbose
  | "help" => some help
  | "no-export" => some noExport
  | "union-enums" => some enumsAsUnions
  | "no-strict-validation" => some lenient
  | _ => none

def ofShort? : Char → Option Switch
  | 'v' => some verbose
  | 'h' => some help
  | _ => none

end Switch

namespace Arguments

/-- Give a parameter a value. Only imports can be given repeatedly, and paths of files that are
written or hold settings must not be empty. -/
def assign (arguments : Arguments) (parameter : Parameter) (value : String) :
    Except Stop Arguments :=
  let once (old : Option String) (new : Arguments) : Except Stop Arguments :=
    if old.isSome then .error .misuse else .ok new
  match parameter with
  | .input => once arguments.input { arguments with input := some value }
  | .output =>
    if value = "" then .error .misuse
    else once arguments.output { arguments with output := some value }
  | .front => once arguments.front { arguments with front := some value }
  | .back => once arguments.back { arguments with back := some value }
  | .settings =>
    if value = "" then .error .misuse
    else once arguments.settings { arguments with settings := some value }
  | .style =>
    match arguments.style, DeclarationStyle.ofText? value with
    | none, some style => .ok { arguments with style := some style }
    | _, _ => .error .misuse
  | .imports =>
    match parseImport value with
    | .ok entry => .ok { arguments with imports := arguments.imports ++ [entry] }
    | .error fault => .error (.importFault fault)

/-- Turn a switch on. Only the one for verbosity can be given repeatedly. -/
def turnOn (arguments : Arguments) (switch : Switch) : Except Stop Arguments :=
  let once (old : Bool) (new : Arguments) : Except Stop Arguments :=
    if old then .error .misuse else .ok new
  match switch with
  | .verbose => .ok arguments
  | .help => .error .help
  | .noExport => once arguments.noExport { arguments with noExport := true }
  | .enumsAsUnions => once arguments.enumsAsUnions { arguments with enumsAsUnions := true }
  | .lenient => once arguments.lenient { arguments with lenient := true }

/-- Take over a parameter that waits, which must have got its value. -/
def settle (arguments : Arguments) : Option (Parameter × Option String) → Except Stop Arguments
  | none => .ok arguments
  | some (_, none) => .error .misuse
  | some (parameter, some value) => arguments.assign parameter value

/-! ## Arguments one after the other -/

inductive Shape where
  /-- Two dashes alone. -/
  | separator
  /-- Two dashes and a name, and a value behind an equality sign. -/
  | long (name : String) (value : Option String)
  /-- A dash and letters. -/
  | short (letters : List Char)
  | plain

def Shape.of (argument : String) : Shape :=
  match argument.toList with
  | ['-', '-'] => .separator
  | '-' :: '-' :: rest =>
    match Text.splitFirst? '=' (String.ofList rest) with
    | some (name, value) => .long name (some value)
    | none => .long (String.ofList rest) none
  | '-' :: c :: rest => .short (c :: rest)
  | _ => .plain

/-- Where the reading stands: the arguments so far and a parameter that waits for its value, or with
its value for being taken over. -/
abbrev Reading := Arguments × Option (Parameter × Option String)

/-- Read letters behind a dash: switches, and at the end a parameter with the rest as its value. -/
def readLetters : Reading → List Char → Except Stop Reading
  | reading, [] => .ok reading
  | (arguments, waiting), c :: rest =>
    match Parameter.ofShort? c with
    | some parameter => do
      let arguments ← arguments.settle waiting
      match rest with
      | [] => return (arguments, some (parameter, none))
      | '=' :: value => return (← arguments.assign parameter (String.ofList value), none)
      | value => return (← arguments.assign parameter (String.ofList value), none)
    | none =>
      match Switch.ofShort? c with
      | some switch => do
        let arguments ← arguments.settle waiting
        readLetters (← arguments.turnOn switch, none) rest
      | none => .error .misuse

def readLong (reading : Reading) (name : String) (value : Option String) : Except Stop Reading :=
  let (arguments, waiting) := reading
  match Parameter.ofLong? name, Switch.ofLong? name, value with
  | some parameter, _, none => return (← arguments.settle waiting, some (parameter, none))
  | some parameter, _, some value => do
    let arguments ← arguments.settle waiting
    return (← arguments.assign parameter value, none)
  | none, some switch, none => do
    let arguments ← arguments.settle waiting
    return (← arguments.turnOn switch, none)
  | none, _, _ => .error .misuse

/-- Read the arguments of a run. There are none besides options. -/
def read : Reading → List String → Except Stop Arguments
  | (arguments, waiting), [] => arguments.settle waiting
  | (arguments, waiting), argument :: rest =>
    match Shape.of argument with
    | .separator => if rest.isEmpty then arguments.settle waiting else .error .misuse
    | .long name value => do read (← readLong (arguments, waiting) name value) rest
    | .short letters => do read (← readLetters (arguments, waiting) letters) rest
    | .plain =>
      match waiting with
      | some (parameter, none) => read (arguments, some (parameter, some argument)) rest
      | _ => .error .misuse

end Arguments

/-! ## Commands -/

inductive Command where
  | generate (arguments : Arguments)
  | version

namespace Command

def readLetters (versionKnown : Bool) : List Char → Except Stop Unit
  | [] => .ok ()
  | c :: rest =>
    if c == 'v' then readLetters versionKnown rest
    else if c == 'h' then .error .help
    else if c == 'V' && versionKnown then .error .version
    else .error .misuse

def readSwitch (versionKnown : Bool) : Arguments.Shape → Except Stop Unit
  | .long "verbose" none => .ok ()
  | .long "help" none => .error .help
  | .long "version" none => if versionKnown then .error .version else .error .misuse
  | .short letters => readLetters versionKnown letters
  | _ => .error .misuse

def readNone : List String → Except Stop Unit
  | [] => .ok ()
  | argument :: rest =>
    match Arguments.Shape.of argument with
    | .separator => if rest.isEmpty then .ok () else .error .misuse
    | shape => do
      readSwitch false shape
      readNone rest

/-- Read all arguments of the program: general switches, a command and what belongs to it. -/
def read : List String → Except Stop Command
  | [] => .error .misuse
  | argument :: rest =>
    match Arguments.Shape.of argument with
    | .plain =>
      if argument = "generate" then (Arguments.read ({}, none) rest).map .generate
      else if argument = "version" then (readNone rest).map fun _ => .version
      else if argument = "help" then
        match rest with
        | [] | ["generate"] | ["version"] | ["help"] => .error .help
        | _ => .error .misuse
      else .error .misuse
    | shape => do
      readSwitch true shape
      read rest

end Command

end SchemaTypes.CommandLine
