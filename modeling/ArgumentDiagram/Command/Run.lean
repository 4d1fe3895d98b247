import ArgumentDiagram.Command.Arguments
import ArgumentDiagram.Command.Path
import ArgumentDiagram.Config.Read
import ArgumentDiagram.Graph.Positions
import ArgumentDiagram.Render.Basic

/-!
The command: reads a configuration and an input, draws, and writes the picture and, if asked, the positions.
It reaches files only through a `Host`.
-/

namespace ArgumentDiagram.Command

inductive FileError where
  | notFound
  | notADirectory
  | isADirectory
  | nameTooLong
  | nulInName
  | noSpace
  | notText
  | other (description : String)
deriving DecidableEq

namespace FileError

def message : FileError → String
  | .notFound => "No such file or directory (os error 2)"
  | .notADirectory => "Not a directory (os error 20)"
  | .isADirectory => "Is a directory (os error 21)"
  | .nameTooLong => "File name too long (os error 36)"
  | .nulInName => "file name contained an unexpected NUL byte"
  | .noSpace => "No space left on device (os error 28)"
  | .notText => "stream did not contain valid UTF-8"
  | .other description => description

end FileError

/-- The text that the bytes of a file make. -/
def decode (bytes : ByteArray) : Except FileError String :=
  match String.fromUTF8? bytes with
  | some text => .ok text
  | none => .error .notText

/-- What the command can do to the world. -/
structure Host (m : Type → Type) where
  read : String → m (Except FileError String)
  readInput : m (Except FileError String)
  write : String → String → m (Except FileError Unit)
  /-- Writes a file through a buffer. A failure to empty the buffer at the end goes unseen. -/
  writeBuffered : String → String → m (Except FileError Unit)
  print : String → m Unit

inductive Failure where
  | file (cause : FileError)
  /-- The positions could not be written to the end. -/
  | positions (cause : FileError)
  | config (cause : ConfigError)
  | render (cause : RenderError)
  | outputRequired
  | noRasterizer

namespace Failure

/-- The failure in words, where its cause has any. -/
def message? : Failure → Option String
  | .file cause | .positions cause => some cause.message
  | .config cause => cause.message?
  | .render .malformedPayload => none
  | .render (.graph cause) => some cause.message
  | .outputRequired => some "Output path required for png output"
  | .noRasterizer => some "PNG output is not available"

end Failure

/-- Scripts are known by the extension of their file, unless the format is given. -/
def sourceFormat (a : Arguments) : SourceFormat :=
  match a.inputFormat.getD .auto with
  | .json => .payload
  | .script => .script
  | .auto =>
    match (a.input.bind extension?).map fun e => String.ofList (e.toList.map Char.toLower) with
    | some "txt" | some "hasl" => .script
    | _ => .payload

/-- The configuration with what the arguments say about it. -/
def override (config : Config Float32) (a : Arguments) : Except ConfigError (Config Float32) :=
  let padding := a.padding.getD config.render.padding
  match a.scale with
  | none => .ok { config with render := { config.render with padding := padding } }
  | some scale =>
    if Scalar.le scale 0.0 then .error (.scaleNotPositive scale)
    else .ok { config with render := { config.render with padding := padding, scale := scale } }

/-- Whether a path means the standard input. -/
def isInputStream (path : String) : Bool := steps path == [['-']]

section

variable {m : Type → Type} [Monad m]

def liftFile {β : Type} (action : m (Except FileError β)) : ExceptT Failure m β :=
  ExceptT.mk ((fun r => r.mapError .file) <$> action)

def loadConfig (host : Host m) (path : Option String) : ExceptT Failure m (Config Float32) :=
  match path with
  | none => pure .standard
  | some path => do
    let text ← liftFile (host.read path)
    ExceptT.mk (pure ((Config.ofText text).mapError .config))

def readSource (host : Host m) (path : Option String) : ExceptT Failure m String :=
  match path with
  | none => liftFile host.readInput
  | some path =>
    liftFile (if isInputStream path then host.readInput else host.read path)

def writePicture (host : Host m) (a : Arguments) (markup : String) : ExceptT Failure m Unit :=
  match a.outputFormat.getD .svg, a.output with
  | .svg, some path => liftFile (host.write path markup)
  | .svg, none => ExceptT.lift (host.print markup)
  | .png, none => throw .outputRequired
  | .png, some _ => throw .noRasterizer

/-- Writes the positions. Once their file is open, the failure is theirs and not the file's. -/
def writePositions (host : Host m) (path text : String) : ExceptT Failure m Unit :=
  let failure (e : FileError) : Failure := if e = .noSpace then .positions e else .file e
  ExceptT.mk ((fun r => r.mapError failure) <$> host.writeBuffered path text)

/-- Runs the command. What was written before a failure stays. -/
def run (host : Host m) (fonts : FontBook) (a : Arguments) : ExceptT Failure m Unit := do
  let config ← loadConfig host a.config
  let config ← ExceptT.mk (pure ((override config a).mapError .config))
  let text ← readSource host a.input
  let options : RenderOptions Float32 :=
    ⟨config, if a.fastText then .estimate else .fonts fonts, a.debugLayout⟩
  let canvas ← ExceptT.mk (pure (((sourceFormat a).canvas text options).mapError .render))
  match a.dumpLayout with
  | none => pure ()
  | some path => writePositions host path canvas.graph.positions.pretty
  writePicture host a canvas.surface.markup

end

end ArgumentDiagram.Command
