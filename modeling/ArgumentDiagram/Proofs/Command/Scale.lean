import ArgumentDiagram.Command.Run
import ArgumentDiagram.Proofs.Number.SignOfZero
import ArgumentDiagram.Proofs.Render.Script
import ArgumentDiagram.Render.Embedded

/-!
The scale of a picture. A configuration may set it, and so may the arguments of the command and the options of
a page. A configuration and a page have to set one that is greater than zero, while the command turns away
what is at most zero, and what is no number is neither. Main statement: so any scale is positive, unless the
command was given one that is no number.
-/

namespace ArgumentDiagram

/-- All base themes leave the scale at one. -/
theorem Config.scale_ofTheme (theme : Theme Float32) : 0.0 < (ofTheme theme).render.scale := by
  show (0.0 : Float32) < 1.0
  decide +kernel

theorem ConfigChanges.positive_of_checkedScale {c : ConfigChanges} {asked : Option Float32}
    (h : c.checkedScale = .ok asked) : ∀ scale ∈ asked, 0.0 < scale := by
  rw [checkedScale] at h
  split at h
  · obtain rfl := Except.ok.inj h
    exact nofun
  · split at h
    next scale _ hpositive =>
      obtain rfl := Except.ok.inj h
      rintro _ ⟨⟩
      exact Single.scalar_lt_iff.1 hpositive
    next => cases h

theorem Config.positive_of_ofText {text : String} {config : Config Float32} (h : ofText text = .ok config) :
    0.0 < config.render.scale := by
  rw [ofText] at h
  split at h
  next => cases h
  next changes _ =>
    rw [ConfigChanges.apply] at h
    simp only [Outcome.bind_eq_ok] at h
    obtain ⟨base, -, asked, hasked, hconfig⟩ := h
    obtain rfl := Except.ok.inj hconfig
    cases asked with
    | none => exact scale_ofTheme base
    | some scale => exact ConfigChanges.positive_of_checkedScale hasked scale rfl

/-- A scale that does not count is as good as none. -/
theorem EmbeddedOptions.positive_renderOptions (options : EmbeddedOptions) (fonts : FontBook) :
    0.0 < (options.renderOptions fonts).config.render.scale := by
  show 0.0 < (options.scale.filter (Scalar.lt 0.0)).getD _
  cases hasked : options.scale.filter (Scalar.lt 0.0) with
  | none => exact Config.scale_ofTheme _
  | some scale => exact Single.scalar_lt_iff.1 (Option.filter_eq_some_iff.1 hasked).2

/-! ### A run of the command -/

namespace Command

/-- The configuration of a run, from the text of its configuration file if it names one: what the arguments say goes
first, and what neither says is standard. -/
def configure (text : Option String) (a : Arguments) : Except ConfigError (Config Float32) := do
  let config ← text.elim (.ok .standard) Config.ofText
  override config a

/-- What a run draws with. -/
def renderOptions (fonts : FontBook) (a : Arguments) (config : Config Float32) : RenderOptions Float32 :=
  ⟨config, if a.fastText then .estimate else .fonts fonts, a.debugLayout⟩

section

variable {m : Type → Type} [Monad m]

/-- The text of the configuration file. -/
def readConfig (host : Host m) (path : Option String) : ExceptT Failure m (Option String) :=
  match path with
  | none => pure none
  | some path => some <$> liftFile (host.read path)

/-- What a run does with its configuration: it reads the source, draws it and writes. -/
def drawSource (host : Host m) (fonts : FontBook) (a : Arguments) (config : Config Float32) :
    ExceptT Failure m Unit := do
  let text ← readSource host a.input
  let canvas ← ExceptT.mk (pure (((sourceFormat a).canvas text (renderOptions fonts a config)).mapError .render))
  match a.dumpLayout with
  | none => pure ()
  | some path => writePositions host path canvas.graph.positions.pretty
  writePicture host a canvas.surface.markup

variable [LawfulMonad m]

theorem mk_mapError_bind {ε ε' β γ : Type} (wrap : ε → ε') (first : Except ε β) (next : β → Except ε γ) :
    (ExceptT.mk (pure ((first >>= next).mapError wrap)) : ExceptT ε' m γ) =
      ExceptT.mk (pure (first.mapError wrap)) >>= fun b => ExceptT.mk (pure ((next b).mapError wrap)) := by
  refine ExceptT.ext ?_
  cases first <;>
    simp [bind, ExceptT.bind, ExceptT.bindCont, ExceptT.mk, Except.bind, Except.mapError, ExceptT.run]

/-- Whatever the host, a run is drawn with its configuration, or it ends with the error of that. -/
theorem run_eq (host : Host m) (fonts : FontBook) (a : Arguments) : run host fonts a =
    readConfig host a.config >>= fun text =>
      ExceptT.mk (pure ((configure text a).mapError .config)) >>= drawSource host fonts a := by
  have hconfig : (loadConfig host a.config >>= fun config =>
        ExceptT.mk (pure ((override config a).mapError .config))) =
      readConfig host a.config >>= fun text => ExceptT.mk (pure ((configure text a).mapError .config)) := by
    simp only [configure, mk_mapError_bind]
    rw [loadConfig.eq_def, readConfig.eq_def]
    cases a.config with
    | none =>
        rw [pure_bind, pure_bind]
        show _ = (pure (Config.standard : Config Float32) : ExceptT Failure m _) >>= _
        rw [pure_bind]
    | some path => simp
  rw [← bind_assoc, ← hconfig, bind_assoc]
  rfl

end

theorem scale_override {base config : Config Float32} {a : Arguments} (h : override base a = .ok config) :
    config.render.scale = a.scale.getD base.render.scale ∧ ∀ scale ∈ a.scale, Scalar.le scale 0.0 = false := by
  rw [override.eq_def] at h
  dsimp only at h
  split at h
  next hnone =>
    obtain rfl := Except.ok.inj h
    rw [hnone]
    exact ⟨rfl, nofun⟩
  next scale hscale =>
    split at h
    next => cases h
    next hpositive =>
      obtain rfl := Except.ok.inj h
      rw [hscale]
      refine ⟨rfl, ?_⟩
      rintro _ ⟨⟩
      exact Bool.eq_false_iff.2 hpositive

/-- What the arguments say about the scale counts, and it is positive or no number. -/
theorem scale_configure {text : Option String} {a : Arguments} {config : Config Float32}
    (h : configure text a = .ok config) :
    (0.0 < config.render.scale ↔ ∀ scale ∈ a.scale, scale.isNaN = false) ∧
      ∀ scale ∈ a.scale, config.render.scale = scale := by
  obtain ⟨base, hbase, hoverride⟩ := Outcome.bind_eq_ok.1 h
  have hpositive : 0.0 < base.render.scale := by
    cases text with
    | none =>
        obtain rfl := Except.ok.inj hbase
        exact Config.scale_ofTheme _
    | some text => exact Config.positive_of_ofText hbase
  obtain ⟨hscale, hkept⟩ := scale_override hoverride
  rw [hscale]
  cases hasked : a.scale with
  | none => exact ⟨⟨fun _ => nofun, fun _ => hpositive⟩, nofun⟩
  | some scale =>
      refine ⟨⟨fun h => ?_, fun h => ?_⟩, ?_⟩
      · rintro _ ⟨⟩
        exact (Single.zero_lt_iff.1 h).2
      · exact Single.zero_lt_iff.2 ⟨hkept scale hasked, h scale rfl⟩
      · rintro _ ⟨⟩
        rfl

end Command

/-- What the options of a picture come from. -/
inductive OptionSource where
  /-- The text of the configuration file, if there is one, and the arguments of the command. -/
  | command (text : Option String) (a : Command.Arguments)
  /-- The text that a page gives, if it gives one. -/
  | page (text : Option String)

namespace OptionSource

/-- The options, unless they are refused. -/
def options? (fonts : FontBook) : OptionSource → Option (RenderOptions Float32)
  | command text a => (Command.configure text a).toOption.map (Command.renderOptions fonts a)
  | page text => (EmbeddedOptions.ofText? text).map (·.renderOptions fonts)

/-- The scale among the arguments of the command. -/
def scaleArgument? : OptionSource → Option Float32
  | command _ a => a.scale
  | page _ => none

end OptionSource

/-- A picture is drawn in the style of its options, whatever it shows. -/
theorem SourceFormat.style_canvas {α : Type} [Scalar α] {format : SourceFormat} {text : String} {o : RenderOptions α}
    {c : Canvas α} (h : format.canvas text o = .ok c) : c.style = o.style := by
  rw [canvas.eq_def] at h
  split at h
  · split at h
    next => cases h
    next payload _ =>
      rw [Outcome.mapError_eq_ok, Canvas.ofPayload_eq_ok] at h
      obtain ⟨loaded, g, l, -, -, rfl⟩ := h
      rw [Canvas.style_draw, Canvas.style_fits ((o.canvas.showing l (o.measured g)).fitVertically_cases _)]
      rfl
  · rw [Outcome.mapError_eq_ok, Canvas.ofScript_eq] at h
    simp only [Outcome.bind_eq_ok, Outcome.map_eq_ok] at h
    obtain ⟨⟨vars, g⟩, -, l, -, rfl⟩ := h
    exact Canvas.style_picture o g l

namespace OptionSource

/-- **Scales are positive, but for one that is no number.** Options that are not refused have a positive
scale, wherever they come from, exactly if no argument of the command gives them one that is no number. Such
an argument counts like any other, and the scale of the options is the one that a picture is drawn at. -/
theorem scale_positive_iff (source : OptionSource) (fonts : FontBook) {o : RenderOptions Float32}
    (h : source.options? fonts = some o) :
    (0.0 < o.config.render.scale ↔ ∀ scale ∈ source.scaleArgument?, scale.isNaN = false) ∧
    (∀ scale ∈ source.scaleArgument?, o.config.render.scale = scale) ∧
    ∀ (format : SourceFormat) (text : String) (canvas : Canvas Float32), format.canvas text o = .ok canvas →
      canvas.style.scale = o.config.render.scale := by
  refine and_assoc.1 ⟨?_, fun format text canvas hcanvas => ?_⟩
  · cases source with
    | command text a =>
        obtain ⟨config, hconfig, rfl⟩ := Option.map_eq_some_iff.1 h
        exact Command.scale_configure (Outcome.toOption_eq_some.1 hconfig)
    | page text =>
        obtain ⟨options, -, rfl⟩ := Option.map_eq_some_iff.1 h
        exact ⟨⟨fun _ => nofun, fun _ => options.positive_renderOptions fonts⟩, nofun⟩
  · rw [SourceFormat.style_canvas hcanvas]
    rfl

/-- The command is told the least scale there is. -/
theorem scale_positive_iff_of_least : ∃ a o, Command.Arguments.ofList ["--fast-text", "--scale", "1e-45"] = .ok a ∧
    (command none a).options? .empty = some o ∧ 0.0 < o.config.render.scale := by
  have hread : ((Command.Arguments.ofList ["--fast-text", "--scale", "1e-45"]).toOption.bind fun a =>
      ((command none a).options? .empty).map fun _ => a.scale.any Float32.isNaN) = some false := by
    decide +kernel
  obtain ⟨a, ha, h⟩ := Option.bind_eq_some_iff.1 hread
  obtain ⟨o, ho, hnumber⟩ := Option.map_eq_some_iff.1 h
  refine ⟨a, o, Outcome.toOption_eq_some.1 ha, ho, ((scale_positive_iff _ _ ho).1).2 fun scale hscale => ?_⟩
  change a.scale = some scale at hscale
  rw [hscale] at hnumber
  exact hnumber

/-- What is no number gets through. -/
theorem exists_scale_not_positive : ∃ a o, Command.Arguments.ofList ["--scale=nan"] = .ok a ∧
    (command none a).options? .empty = some o ∧ ¬0.0 < o.config.render.scale := by
  have hread : ((Command.Arguments.ofList ["--scale=nan"]).toOption.bind fun a =>
      ((command none a).options? .empty).map fun o => decide (0.0 < o.config.render.scale)) = some false := by
    decide +kernel
  obtain ⟨a, ha, h⟩ := Option.bind_eq_some_iff.1 hread
  obtain ⟨o, ho, hpositive⟩ := Option.map_eq_some_iff.1 h
  exact ⟨a, o, Outcome.toOption_eq_some.1 ha, ho, of_decide_eq_false hpositive⟩

end OptionSource

end ArgumentDiagram
