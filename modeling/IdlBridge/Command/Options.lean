import IdlBridge.Adapter.Settings

/-!
# Command-line arguments

Arguments are read from left to right, and the first thing wrong with them ends the reading, as
does a request for help or for the version. Options have a long name, some also a letter;
letters can be written together, and the value of an option can be part of the same argument.
-/

set_option autoImplicit false

namespace IdlBridge.Command

open IdlBridge.Adapter

/-- The files that a run writes for each tree. -/
inductive Emission
  | both
  | header
  | source
  deriving DecidableEq, Repr, Inhabited

/-- Reads what to write. -/
def Emission.ofText? : String → Option Emission
  | "both" => some both
  | "header" => some header
  | "source" => some source
  | _ => none

/-- What a run has to do. -/
structure Options where
  trees : List String
  output : String
  settings : Settings
  emission : Emission
  /-- Trees are only loaded. -/
  check : Bool
  deriving DecidableEq, Repr, Inhabited

/-- The options that have a value. -/
inductive Key
  | output
  | outer
  | root
  | filePrefix
  | indent
  | emission
  deriving DecidableEq, Repr, Inhabited

/-- The long name of an option with a value. -/
def Key.name : Key → String
  | output => "--output"
  | outer => "--namespace"
  | root => "--root-interface"
  | filePrefix => "--prefix"
  | indent => "--indent"
  | emission => "--emit"

/-- What is wrong with arguments. -/
inductive UsageError
  | unknownOption (argument : String)
  | missingValue (key : Key)
  | unexpectedValue (argument : String)
  | invalidValue (key : Key) (value : String)
  | emptyPath
  | repeated (name : String)
  | noTree
  deriving DecidableEq, Repr, Inhabited

/-- The wording of a usage error. -/
def UsageError.message : UsageError → String
  | unknownOption argument => s!"unexpected argument '{argument}' found"
  | missingValue key => "a value is required for '" ++ key.name ++ "' but none was supplied"
  | unexpectedValue argument => s!"unexpected value in '{argument}'"
  | invalidValue key value => s!"invalid value '{value}' for '" ++ key.name ++ "'"
  | emptyPath => "a path may not be empty"
  | repeated name => s!"the argument '{name}' cannot be used multiple times"
  | noTree => "the following required arguments were not provided: <TREES>..."

/-- Why the reading of arguments ends early. -/
inductive Stop
  | usage (error : UsageError)
  | help
  | version
  deriving DecidableEq, Repr, Inhabited

/-! ## Options read so far -/

/-- The arguments read so far, the latest tree first. -/
structure Reading where
  trees : List String
  output? : Option String
  outer? : Option String
  root? : Option String
  filePrefix? : Option String
  indent? : Option Nat
  emission? : Option Emission
  check : Bool
  deriving DecidableEq, Repr, Inhabited

/-- Reads a number of at most 64 bits: digits after an optional plus sign. -/
def readNumber? (text : String) : Option Nat :=
  let digits := match text.toList with
    | '+' :: digits => digits
    | digits => digits
  let value := digits.foldl (fun value c => 10 * value + (c.toNat - '0'.toNat)) 0
  if digits.isEmpty || !digits.all Char.isDigit || UInt64.size ≤ value then none else some value

namespace Reading

/-- Nothing was read yet. -/
def empty : Reading := ⟨[], none, none, none, none, none, none, false⟩

/-- Adds a tree. -/
def addTree (reading : Reading) (path : String) : Except Stop Reading :=
  if path == "" then .error (.usage .emptyPath)
  else .ok { reading with trees := path :: reading.trees }

/-- An option must not have been given before. -/
def once {α : Type} (key : Key) (old : Option α) (change : Except Stop Reading) :
    Except Stop Reading :=
  match old with
  | none => change
  | some _ => .error (.usage (.repeated key.name))

/-- Takes the value of an option. -/
def set (reading : Reading) (key : Key) (value : String) : Except Stop Reading :=
  match key with
  | .output => once key reading.output? <|
    if value == "" then .error (.usage .emptyPath)
    else .ok { reading with output? := some value }
  | .outer => once key reading.outer? (.ok { reading with outer? := some value })
  | .root => once key reading.root? (.ok { reading with root? := some value })
  | .filePrefix => once key reading.filePrefix? (.ok { reading with filePrefix? := some value })
  | .indent => once key reading.indent? <|
    match readNumber? value with
    | some width => .ok { reading with indent? := some width }
    | none => .error (.usage (.invalidValue key value))
  | .emission => once key reading.emission? <|
    match Emission.ofText? value with
    | some emission => .ok { reading with emission? := some emission }
    | none => .error (.usage (.invalidValue key value))

/-- The options, with defaults for what was not given. At least one tree is needed. -/
def finish (reading : Reading) : Except Stop Options :=
  if reading.trees.isEmpty then .error (.usage .noTree)
  else .ok {
    trees := reading.trees.reverse
    output := reading.output?.getD "."
    settings := {
      outer := reading.outer?.getD Settings.default.outer
      root := (reading.root?.map ScopedName.ofText).getD Settings.default.root
      filePrefix := reading.filePrefix?.getD Settings.default.filePrefix
      indentWidth := reading.indent?.getD Settings.default.indentWidth }
    emission := reading.emission?.getD .both
    check := reading.check }

end Reading

/-! ## Switches -/

/-- An option, with or without a value. -/
inductive Switch
  | valued (key : Key)
  | check
  | verbose
  | help
  | version
  deriving DecidableEq, Repr, Inhabited

namespace Switch

/-- The option with a long name. -/
def ofLong? : String → Option Switch
  | "output" => some (valued .output)
  | "namespace" => some (valued .outer)
  | "root-interface" => some (valued .root)
  | "prefix" => some (valued .filePrefix)
  | "indent" => some (valued .indent)
  | "emit" => some (valued .emission)
  | "check" => some check
  | "verbose" => some verbose
  | "help" => some help
  | "version" => some version
  | _ => none

/-- The option with a letter. -/
def ofLetter? : Char → Option Switch
  | 'o' => some (valued .output)
  | 'v' => some verbose
  | 'h' => some help
  | 'V' => some version
  | _ => none

end Switch

/-- Takes an option. One with a value waits for it. -/
def Reading.take (reading : Reading) : Switch → Except Stop (Reading × Option Key)
  | .valued key => .ok (reading, some key)
  | .check =>
    if reading.check then .error (.usage (.repeated "--check"))
    else .ok ({ reading with check := true }, none)
  | .verbose => .ok (reading, none)
  | .help => .error .help
  | .version => .error .version

/-! ## Reading -/

/-- Reads a long option. A value follows the first equals sign. -/
def readLong (reading : Reading) (body : List Char) : Except Stop (Reading × Option Key) :=
  let name := String.ofList (body.takeWhile (· != '='))
  let argument := String.ofList ('-' :: '-' :: body)
  match Switch.ofLong? name, body.dropWhile (· != '=') with
  | none, _ => .error (.usage (.unknownOption argument))
  | some switch, [] => reading.take switch
  | some (.valued key), _ :: value => do
    let reading ← reading.set key (String.ofList value)
    .ok (reading, none)
  | some _, _ :: _ => .error (.usage (.unexpectedValue argument))

/-- Reads letters that are written together. What follows the letter of an option with a value
is the value, without an equals sign in front. -/
def readLetters (reading : Reading) : List Char → Except Stop (Reading × Option Key)
  | [] => .ok (reading, none)
  | letter :: rest =>
    match Switch.ofLetter? letter with
    | none => .error (.usage (.unknownOption (String.ofList ['-', letter])))
    | some (.valued key) =>
      match rest with
      | [] => .ok (reading, some key)
      | '=' :: value => do
        let reading ← reading.set key (String.ofList value)
        .ok (reading, none)
      | value => do
        let reading ← reading.set key (String.ofList value)
        .ok (reading, none)
    | some switch => do
      let (reading, _) ← reading.take switch
      readLetters reading rest

/-- Reads arguments. An option can wait for its value, which then is the next argument; a dash
alone is a value, and other arguments that start with a dash are not. After two dashes there
are only trees. -/
def readArguments (reading : Reading) (waiting : Option Key) :
    List String → Except Stop Reading
  | [] =>
    match waiting with
    | some key => .error (.usage (.missingValue key))
    | none => .ok reading
  | argument :: rest =>
    match waiting, argument.toList with
    | some key, '-' :: _ :: _ => .error (.usage (.missingValue key))
    | some key, _ => do
      let reading ← reading.set key argument
      readArguments reading none rest
    | none, ['-', '-'] => rest.foldlM Reading.addTree reading
    | none, '-' :: '-' :: body => do
      let (reading, waiting) ← readLong reading body
      readArguments reading waiting rest
    | none, '-' :: letter :: letters => do
      let (reading, waiting) ← readLetters reading (letter :: letters)
      readArguments reading waiting rest
    | none, _ => do
      let reading ← reading.addTree argument
      readArguments reading none rest

/-- The options that the arguments give. -/
def Options.ofArguments (arguments : List String) : Except Stop Options := do
  let reading ← readArguments .empty none arguments
  reading.finish

end IdlBridge.Command
