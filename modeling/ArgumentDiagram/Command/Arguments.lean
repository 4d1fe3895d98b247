import ArgumentDiagram.Number.Reading

/-!
The arguments of the command. Options take a value, attached or as the next argument; flags take none; each
may be given once.
-/

namespace ArgumentDiagram.Command

inductive InputFormat where
  | auto
  | json
  | script
deriving DecidableEq

inductive OutputFormat where
  | svg
  | png
deriving DecidableEq

structure Arguments where
  input : Option String
  inputFormat : Option InputFormat
  output : Option String
  outputFormat : Option OutputFormat
  config : Option String
  dumpLayout : Option String
  padding : Option Float32
  scale : Option Float32
  debugLayout : Bool
  fastText : Bool

/-- Why there is nothing to run. -/
inductive Stop where
  | help
  | version
  | misuse
deriving DecidableEq

namespace Stop

def exitCode : Stop → Nat
  | .help | .version => 0
  | .misuse => 2

end Stop

inductive Choice where
  | input
  | format
  | output
  | outputFormat
  | config
  | dumpLayout
  | padding
  | scale
deriving DecidableEq

/-- What the name of an argument asks for. -/
inductive Meaning where
  | option (choice : Choice)
  | debugLayout
  | fastText
  | stop (reason : Stop)

namespace Meaning

def ofLong? : String → Option Meaning
  | "input" => some (.option .input)
  | "format" => some (.option .format)
  | "output" => some (.option .output)
  | "outputFormat" => some (.option .outputFormat)
  | "configFile" => some (.option .config)
  | "dump-layout" => some (.option .dumpLayout)
  | "padding" => some (.option .padding)
  | "scale" => some (.option .scale)
  | "debug-layout" => some .debugLayout
  | "fast-text" => some .fastText
  | "help" => some (.stop .help)
  | "version" => some (.stop .version)
  | _ => none

def ofShort? : Char → Option Meaning
  | 'i' => some (.option .input)
  | 'f' => some (.option .format)
  | 'o' => some (.option .output)
  | 'e' => some (.option .outputFormat)
  | 'c' => some (.option .config)
  | 'h' => some (.stop .help)
  | 'V' => some (.stop .version)
  | _ => none

end Meaning

namespace Arguments

def none : Arguments :=
  ⟨.none, .none, .none, .none, .none, .none, .none, .none, false, false⟩

def inputFormat? : String → Option InputFormat
  | "auto" => some .auto
  | "json" => some .json
  | "script" => some .script
  | _ => .none

def outputFormat? : String → Option OutputFormat
  | "svg" => some .svg
  | "png" => some .png
  | _ => .none

def path? (value : String) : Option String := if value.isEmpty then .none else some value

/-- A value that can be read and was not given before. -/
def once {β : Type} (old read : Option β) : Except Stop (Option β) :=
  if old.isSome || read.isNone then .error .misuse else .ok read

/-- Takes the value of an option. -/
def set (a : Arguments) (choice : Choice) (value : String) : Except Stop Arguments :=
  match choice with
  | .input => do pure { a with input := ← once a.input (path? value) }
  | .format => do pure { a with inputFormat := ← once a.inputFormat (inputFormat? value) }
  | .output => do pure { a with output := ← once a.output (path? value) }
  | .outputFormat => do pure { a with outputFormat := ← once a.outputFormat (outputFormat? value) }
  | .config => do pure { a with config := ← once a.config (path? value) }
  | .dumpLayout => do pure { a with dumpLayout := ← once a.dumpLayout (path? value) }
  | .padding => do pure { a with padding := ← once a.padding (Number.single? value) }
  | .scale => do pure { a with scale := ← once a.scale (Number.single? value) }

/-- Takes a flag. -/
def raise (a : Arguments) : Meaning → Except Stop Arguments
  | .option _ => .error .misuse
  | .debugLayout => if a.debugLayout then .error .misuse else .ok { a with debugLayout := true }
  | .fastText => if a.fastText then .error .misuse else .ok { a with fastText := true }
  | .stop reason => .error reason

/-- An argument by its form. -/
inductive Shape where
  /-- Two dashes, after which nothing may follow. -/
  | ending
  | long (name : String) (value : Option String)
  | short (letters : List Char)
  | other

def shape (argument : String) : Shape :=
  match argument.toList with
  | '-' :: '-' :: [] => .ending
  | '-' :: '-' :: rest =>
    let name := rest.takeWhile (· ≠ '=')
    match rest.dropWhile (· ≠ '=') with
    | _ :: value => .long (.ofList name) (some (.ofList value))
    | [] => .long (.ofList name) .none
  | '-' :: c :: rest => .short (c :: rest)
  | _ => .other

/-- An option that still lacks its value, after all letters before it. -/
abbrev Waiting := Option Choice

/-- Takes letters behind one dash. The first option takes the rest as its value, less an equals sign. -/
def letters (a : Arguments) : List Char → Except Stop (Arguments × Waiting)
  | [] => .ok (a, .none)
  | c :: rest =>
    match Meaning.ofShort? c with
    | .none => .error .misuse
    | some (.option choice) =>
      match rest with
      | [] => .ok (a, some choice)
      | '=' :: value => (a.set choice (.ofList value)).map (·, .none)
      | value => (a.set choice (.ofList value)).map (·, .none)
    | some flag => do
      let a ← a.raise flag
      a.letters rest

/-- Takes one argument that is no value. -/
def take (a : Arguments) (argument : String) : Except Stop (Arguments × Waiting) :=
  match shape argument with
  | .ending | .other => .error .misuse
  | .short cs => a.letters cs
  | .long name value =>
    match Meaning.ofLong? name, value with
    | .none, _ => .error .misuse
    | some (.option choice), some value => (a.set choice value).map (·, .none)
    | some (.option choice), .none => .ok (a, some choice)
    | some _, some _ => .error .misuse
    | some flag, .none => (a.raise flag).map (·, .none)

/-- Whether an argument can be the value of the option before it. -/
def isValue (argument : String) : Bool :=
  match shape argument with
  | .other => true
  | _ => false

def isEnding (argument : String) : Bool :=
  match shape argument with
  | .ending => true
  | _ => false

/-- Takes the arguments from left to right. -/
def takeAll : Arguments → Waiting → List String → Except Stop Arguments
  | a, .none, [] => .ok a
  | _, some _, [] => .error .misuse
  | a, some choice, argument :: rest =>
    if isValue argument then do
      let a ← a.set choice argument
      takeAll a .none rest
    else .error .misuse
  | a, .none, argument :: rest =>
    if isEnding argument && rest.isEmpty then .ok a
    else do
      let (a, waiting) ← a.take argument
      takeAll a waiting rest

def ofList (arguments : List String) : Except Stop Arguments := takeAll none .none arguments

end Arguments

end ArgumentDiagram.Command
