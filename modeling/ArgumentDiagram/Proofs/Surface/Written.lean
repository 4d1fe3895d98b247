import ArgumentDiagram.Proofs.Number.Unmarked
import ArgumentDiagram.Proofs.Text.Tree
import ArgumentDiagram.Surface.Basic
import Mathlib.Algebra.Ring.Nat
import Mathlib.Data.List.Induction

/-!
Written pictures. Each element is written as the tree that it is, so a picture reads back as one root with all
that was drawn since the surface was last cleared. Main statement: whatever is drawn, with whatever colours,
fonts and texts, each of them comes back from its own attribute or text, and from nowhere else.
-/

namespace ArgumentDiagram

open Text.Markup

/-- Labels and values as characters. -/
def labelled (attributes : List (String × String)) : Attributes :=
  attributes.map fun (label, value) => (label.toList, value.toList)

theorem labelled_append (first second : List (String × String)) :
    labelled (first ++ second) = labelled first ++ labelled second := List.map_append

variable {α : Type} [WrittenScalar α]

/-- The attributes of a rectangle's place and size. -/
def Rect.attributes (rect : Rect α) : List (String × String) :=
  [("x", Element.number rect.x), ("y", Element.number rect.y), ("width", Element.number rect.width),
    ("height", Element.number rect.height)]

/-- The attribute that selects the style of a font. -/
def Font.styleAttributes (font : Font α) : List (String × String) :=
  match font.style with
  | "italic" => [("font-style", "italic")]
  | "oblique" => [("font-style", "oblique")]
  | "bold" => [("font-weight", "bold")]
  | _ => []

namespace Element

def attributes : Element α → List (String × String)
  | .fillRect rect color => rect.attributes ++ [("fill", color)]
  | .strokeRect rect color lineWidth =>
    rect.attributes ++ [("fill", "none"), ("stroke", color), ("stroke-width", number lineWidth)]
  | .strokePath path color lineWidth =>
    [("d", path.commands), ("fill", "none"), ("stroke", color), ("stroke-width", number lineWidth)]
  | .fillPath path color => [("d", path.commands), ("fill", color), ("stroke", "none")]
  | .text _ start font color =>
    [("x", number start.x), ("y", number start.y), ("font-family", font.family),
      ("font-size", WrittenScalar.plain font.size)] ++ font.styleAttributes ++
      [("fill", color), ("xml:space", "preserve")]

/-- No text is no child. -/
def textNodes (content : String) : List Node := if content.toList = [] then [] else [.text content.toList]

/-- An element as a tree, with all that comes from outside as it was handed in. -/
def node (element : Element α) : Node :=
  match element with
  | .fillRect _ _ => .single "rect".toList (labelled element.attributes)
  | .strokeRect _ _ _ => .single "rect".toList (labelled element.attributes)
  | .strokePath _ _ _ => .single "path".toList (labelled element.attributes)
  | .fillPath _ _ => .single "path".toList (labelled element.attributes)
  | .text content _ _ _ =>
    .element "text".toList (labelled element.attributes) (textNodes content)

end Element

/-- What is written for attributes, one after the other. -/
def written (attributes : List (String × String)) : List Char := printAttributes (labelled attributes)

theorem written_cons (label value : String) (rest : List (String × String)) :
    written ((label, value) :: rest) =
      ' ' :: label.toList ++ '=' :: '"' :: encode value.toList ++ '"' :: written rest := by
  simp [written, labelled, printAttributes]

theorem written_append (first second : List (String × String)) :
    written (first ++ second) = written first ++ written second := by
  rw [written, labelled_append, printAttributes, List.flatMap_append]
  rfl

theorem written_cons_cons (first second : String × String) (rest : List (String × String)) :
    written (first :: second :: rest) = written [first] ++ written (second :: rest) :=
  written_append [first] (second :: rest)

theorem toList_quoted (label value : String) : (Element.quoted label value).toList = written [(label, value)] := by
  rw [written_cons, ← toList_escape]
  simp [Element.quoted, written, labelled, printAttributes]

theorem toList_numeric (h : UnmarkedNumbers α) (label : String) (x : α) :
    (Element.numeric label x).toList = written [(label, Element.number x)] := by
  have hnumber : encode (Element.number x).toList = (Element.number x).toList := (h.writeFixed 2 x).encode_eq
  rw [written_cons, hnumber]
  simp [Element.numeric, written, labelled, printAttributes]

theorem toList_rectAttributes (h : UnmarkedNumbers α) (rect : Rect α) :
    (Element.rectAttributes rect).toList = written rect.attributes := by
  simp only [Element.rectAttributes, String.toList_append, toList_numeric h, ← written_append]
  rfl

omit [WrittenScalar α] in
theorem toList_styleAttribute (font : Font α) : font.styleAttribute.toList = written font.styleAttributes := by
  unfold Font.styleAttribute Font.styleAttributes
  by_cases hitalic : font.style = "italic"
  · rw [hitalic]
    rfl
  by_cases hoblique : font.style = "oblique"
  · rw [hoblique]
    rfl
  by_cases hbold : font.style = "bold"
  · rw [hbold]
    rfl
  · simp only
    rfl

theorem unmarked_intercalate {separator : String} {texts : List String} (hseparator : Unmarked separator)
    (htexts : ∀ text ∈ texts, Unmarked text) : Unmarked (separator.intercalate texts) := by
  induction texts with
  | nil =>
      rw [String.intercalate_nil]
      decide
  | cons first rest ih =>
      obtain ⟨hfirst, hrest⟩ := List.forall_mem_cons.1 htexts
      cases rest with
      | nil =>
          rw [String.intercalate_singleton]
          exact hfirst
      | cons second more =>
          rw [String.intercalate_cons_cons]
          exact (hfirst.append hseparator).append (ih hrest)

theorem unmarked_runCommands (h : UnmarkedNumbers α) (run : List (Point α)) :
    ∀ command ∈ Path.runCommands run, Unmarked command := by
  intro command hmem
  obtain ⟨⟨p, i⟩, -, rfl⟩ := List.mem_map.1 hmem
  refine (((Unmarked.append ?_ (h.writeFixed 2 p.x)).append ?_).append (h.writeFixed 2 p.y))
  · split <;> decide
  · decide

theorem unmarked_commands (h : UnmarkedNumbers α) (path : Path α) : Unmarked path.commands := by
  refine unmarked_intercalate (by decide) fun command hmem => ?_
  obtain ⟨run, -, hmem⟩ := List.mem_flatMap.1 hmem
  split at hmem
  · rcases List.mem_append.1 hmem with hmem | hmem
    · exact unmarked_runCommands h run command hmem
    · rw [List.mem_singleton.1 hmem]
      decide
  · exact unmarked_runCommands h run command hmem

theorem written_of_unmarked {value : String} (h : Unmarked value) (label : String) :
    written [(label, value)] = ' ' :: label.toList ++ '=' :: '"' :: value.toList ++ ['"'] := by
  rw [written_cons, h.encode_eq]
  rfl

theorem printAll_textNodes (content : String) : printAll (Element.textNodes content) = encode content.toList := by
  unfold Element.textNodes
  split
  next hempty =>
    rw [hempty]
    rfl
  · simp [printAll, Node.print]

theorem toList_markup (h : UnmarkedNumbers α) (element : Element α) : element.markup.toList = element.node.print := by
  cases element with
  | fillRect rect color =>
      show ("<rect" ++ Element.rectAttributes rect ++ Element.quoted "fill" color ++ "/>").toList =
        '<' :: "rect".toList ++ written (rect.attributes ++ [("fill", color)]) ++ ['/', '>']
      simp only [String.toList_append, toList_rectAttributes h, toList_quoted, written_append, List.append_assoc,
        List.cons_append]
      rfl
  | strokeRect rect color lineWidth =>
      show ("<rect" ++ Element.rectAttributes rect ++ " fill=\"none\"" ++ Element.quoted "stroke" color
          ++ Element.numeric "stroke-width" lineWidth ++ "/>").toList =
        '<' :: "rect".toList ++ written (rect.attributes ++
          [("fill", "none"), ("stroke", color), ("stroke-width", Element.number lineWidth)]) ++ ['/', '>']
      simp only [String.toList_append, toList_rectAttributes h, toList_quoted, toList_numeric h, written_append,
        written_cons_cons, List.append_assoc, List.cons_append]
      rfl
  | strokePath path color lineWidth =>
      show ("<path d=\"" ++ path.commands ++ "\" fill=\"none\"" ++ Element.quoted "stroke" color
          ++ Element.numeric "stroke-width" lineWidth ++ "/>").toList =
        '<' :: "path".toList ++ written [("d", path.commands), ("fill", "none"), ("stroke", color),
          ("stroke-width", Element.number lineWidth)] ++ ['/', '>']
      simp only [String.toList_append, toList_quoted, toList_numeric h, written_cons_cons,
        written_of_unmarked (unmarked_commands h path), List.append_assoc, List.cons_append]
      rfl
  | fillPath path color =>
      show ("<path d=\"" ++ path.commands ++ "\"" ++ Element.quoted "fill" color ++ " stroke=\"none\"/>").toList =
        '<' :: "path".toList ++ written [("d", path.commands), ("fill", color), ("stroke", "none")] ++ ['/', '>']
      simp only [String.toList_append, toList_quoted, written_cons_cons,
        written_of_unmarked (unmarked_commands h path), List.append_assoc, List.cons_append]
      rfl
  | text content start font color =>
      show ("<text" ++ Element.numeric "x" start.x ++ Element.numeric "y" start.y
          ++ Element.quoted "font-family" font.family ++ " font-size=\"" ++ WrittenScalar.plain font.size ++ "\""
          ++ font.styleAttribute ++ Element.quoted "fill" color ++ " xml:space=\"preserve\">" ++ escape content
          ++ "</text>").toList =
        '<' :: "text".toList ++ written ([("x", Element.number start.x), ("y", Element.number start.y),
          ("font-family", font.family), ("font-size", WrittenScalar.plain font.size)] ++ font.styleAttributes ++
          [("fill", color), ("xml:space", "preserve")]) ++
        '>' :: printAll (Element.textNodes content) ++ '<' :: '/' :: "text".toList ++ ['>']
      rw [written_append, written_append]
      simp only [String.toList_append, toList_quoted, toList_numeric h, toList_styleAttribute, toList_escape,
        written_cons_cons, written_of_unmarked (h.plain font.size), printAll_textNodes, List.append_assoc,
        List.cons_append]
      rfl

/-- The backdrop, if there is one. -/
def backdropNodes (background : Option String) : List Node :=
  match background with
  | none => []
  | some color => [.single "rect".toList (labelled [("width", "100%"), ("height", "100%"), ("fill", color)])]

/-- A picture of the given size as a tree. -/
def pictureNode (width height : Nat) (background : Option String) (elements : List (Element α)) : Node :=
  .element "svg".toList
    (labelled [("xmlns", "http://www.w3.org/2000/svg"), ("width", toString width), ("height", toString height),
      ("viewBox", "0 0 " ++ toString width ++ " " ++ toString height)])
    (backdropNodes background ++ elements.map Element.node)

omit [WrittenScalar α] in
theorem toList_opening (s : Surface α) : s.opening.toList = '<' :: "svg".toList ++ written
    [("xmlns", "http://www.w3.org/2000/svg"), ("width", toString s.width), ("height", toString s.height),
      ("viewBox", "0 0 " ++ toString s.width ++ " " ++ toString s.height)] ++ ['>'] := by
  have hspace : Unmarked "http://www.w3.org/2000/svg" := by decide
  have hwidth := unmarked_toString s.width
  have hheight := unmarked_toString s.height
  have hview : Unmarked ("0 0 " ++ toString s.width ++ " " ++ toString s.height) :=
    ((Unmarked.append (by decide) hwidth).append (by decide)).append hheight
  show ("<svg xmlns=\"http://www.w3.org/2000/svg\" width=\"" ++ toString s.width ++ "\" height=\""
    ++ toString s.height ++ "\" viewBox=\"0 0 " ++ toString s.width ++ " " ++ toString s.height ++ "\">").toList = _
  simp only [String.toList_append, written_cons_cons, written_of_unmarked hspace, written_of_unmarked hwidth,
    written_of_unmarked hheight, written_of_unmarked hview, List.append_assoc, List.cons_append]
  rfl

omit [WrittenScalar α] in
theorem toList_backdrop (s : Surface α) : s.backdrop.toList = printAll (backdropNodes s.background) := by
  unfold Surface.backdrop backdropNodes
  cases s.background with
  | none => rfl
  | some color =>
      show ("<rect width=\"100%\" height=\"100%\"" ++ Element.quoted "fill" color ++ "/>").toList =
        '<' :: "rect".toList ++ written [("width", "100%"), ("height", "100%"), ("fill", color)] ++ ['/', '>'] ++ []
      simp only [String.toList_append, toList_quoted, written_cons_cons, List.append_assoc, List.cons_append]
      rfl

theorem toList_elements (h : UnmarkedNumbers α) (elements : List (Element α)) :
    (String.join (elements.map Element.markup)).toList = printAll (elements.map Element.node) := by
  rw [String.toList_join]
  induction elements with
  | nil => rfl
  | cons element rest ih =>
      rw [List.map_cons, List.flatMap_cons, ih, toList_markup h]
      rfl

/-- A picture is written as the tree that it is. -/
theorem toList_picture (h : UnmarkedNumbers α) (s : Surface α) :
    s.markup.toList = (pictureNode s.width s.height s.background s.elements).print := by
  show (s.opening ++ s.backdrop ++ String.join (s.elements.map Element.markup) ++ "</svg>").toList =
    '<' :: "svg".toList ++ written
      [("xmlns", "http://www.w3.org/2000/svg"), ("width", toString s.width), ("height", toString s.height),
        ("viewBox", "0 0 " ++ toString s.width ++ " " ++ toString s.height)] ++
      '>' :: printAll (backdropNodes s.background ++ s.elements.map Element.node) ++
      '<' :: '/' :: "svg".toList ++ ['>']
  simp only [String.toList_append, toList_opening, toList_backdrop, toList_elements h, printAll_append,
    List.append_assoc, List.cons_append]
  rfl

/-! ### Pictures that can be read back -/

omit [WrittenScalar α] in
theorem Font.legible_styleAttributes (font : Font α) : LegibleLabels (labelled font.styleAttributes) := by
  unfold Font.styleAttributes
  split <;> unfold LegibleLabels <;> decide

theorem Element.legible_attributes (element : Element α) : LegibleLabels (labelled element.attributes) := by
  -- the values do not matter
  cases element with
  | fillRect rect color =>
      show ∀ label ∈ ["x", "y", "width", "height", "fill"].map String.toList, LegibleName label
      decide
  | strokeRect rect color lineWidth =>
      show ∀ label ∈ ["x", "y", "width", "height", "fill", "stroke", "stroke-width"].map String.toList,
        LegibleName label
      decide
  | strokePath path color lineWidth =>
      show ∀ label ∈ ["d", "fill", "stroke", "stroke-width"].map String.toList, LegibleName label
      decide
  | fillPath path color =>
      show ∀ label ∈ ["d", "fill", "stroke"].map String.toList, LegibleName label
      decide
  | text content start font color =>
      rw [attributes, labelled_append, labelled_append]
      refine (LegibleLabels.append ?_ font.legible_styleAttributes).append ?_
      · show ∀ label ∈ ["x", "y", "font-family", "font-size"].map String.toList, LegibleName label
        decide
      · show ∀ label ∈ ["fill", "xml:space"].map String.toList, LegibleName label
        decide

theorem Element.legible_node (element : Element α) : element.node.Legible := by
  have hlabels := element.legible_attributes
  cases element with
  | fillRect rect color => exact ⟨by decide, hlabels⟩
  | strokeRect rect color lineWidth => exact ⟨by decide, hlabels⟩
  | strokePath path color lineWidth => exact ⟨by decide, hlabels⟩
  | fillPath path color => exact ⟨by decide, hlabels⟩
  | text content start font color =>
      refine ⟨by decide, hlabels, ?_⟩
      unfold textNodes
      split
      · trivial
      next hcontent => exact ⟨hcontent, by simp, trivial⟩

theorem Element.isText_node (element : Element α) : element.node.isText = false := by
  cases element <;> rfl

theorem legible_backdropNodes (background : Option String) :
    ∀ node ∈ backdropNodes background, node.Legible ∧ node.isText = false := by
  cases background with
  | none => exact List.forall_mem_nil _
  | some color =>
      have hlabels : LegibleLabels (labelled [("width", "100%"), ("height", "100%"), ("fill", color)]) := by
        show ∀ label ∈ ["width", "height", "fill"].map String.toList, LegibleName label
        decide
      intro node hmem
      rw [List.mem_singleton.1 hmem]
      exact ⟨⟨by decide, hlabels⟩, rfl⟩

theorem legible_picture (width height : Nat) (background : Option String) (elements : List (Element α)) :
    (pictureNode width height background elements).Legible := by
  refine ⟨by decide, ?_, legibleAll_of_forall fun node hmem => ?_⟩
  · show ∀ label ∈ ["xmlns", "width", "height", "viewBox"].map String.toList, LegibleName label
    decide
  · rcases List.mem_append.1 hmem with hmem | hmem
    · exact legible_backdropNodes background node hmem
    · obtain ⟨element, -, rfl⟩ := List.mem_map.1 hmem
      exact ⟨element.legible_node, element.isText_node⟩

omit [WrittenScalar α] in
/-- How many tags an element takes. -/
def Element.tags : Element α → Nat
  | .text .. => 2
  | _ => 1

theorem Element.tags_node (element : Element α) : element.node.tags = element.tags := by
  cases element with
  | text content start font color =>
      show 2 + tagsAll (textNodes content) = 2
      unfold textNodes
      split <;> rfl
  | _ => rfl

theorem tagsAll_elements (elements : List (Element α)) :
    tagsAll (elements.map Element.node) = (elements.map Element.tags).sum := by
  induction elements with
  | nil => rfl
  | cons element rest ih => rw [List.map_cons, tagsAll, ih, element.tags_node, List.map_cons, List.sum_cons]

theorem tags_picture (width height : Nat) (background : Option String) (elements : List (Element α)) :
    (pictureNode width height background elements).tags =
      2 + (if background.isSome then 1 else 0) + (elements.map Element.tags).sum := by
  have hbackdrop : tagsAll (backdropNodes background) = if background.isSome then 1 else 0 := by
    cases background <;> rfl
  show 2 + tagsAll (backdropNodes background ++ elements.map Element.node) = _
  rw [tagsAll_append, hbackdrop, tagsAll_elements, Nat.add_assoc]

/-- What can be done to a surface. -/
inductive SurfaceCall (α : Type) where
  | draw (element : Element α)
  | clear
  | resize (width height : Nat)

namespace SurfaceCall

omit [WrittenScalar α]

def isClear : SurfaceCall α → Bool
  | .clear => true
  | _ => false

def element? : SurfaceCall α → Option (Element α)
  | .draw element => some element
  | _ => none

/-- What was drawn since the last clear. -/
def drawn (calls : List (SurfaceCall α)) : List (Element α) :=
  (calls.reverse.takeWhile (!·.isClear)).reverse.filterMap element?

theorem drawn_snoc (calls : List (SurfaceCall α)) (call : SurfaceCall α) :
    drawn (calls ++ [call]) = if call.isClear then [] else drawn calls ++ call.element?.toList := by
  rw [drawn, List.reverse_append, List.reverse_singleton, List.singleton_append, List.takeWhile_cons]
  cases call with
  | clear => rfl
  | draw element => simp [isClear, drawn, element?]
  | resize width height => simp [isClear, drawn, element?]

end SurfaceCall

namespace Surface

omit [WrittenScalar α]

def perform (s : Surface α) : SurfaceCall α → Surface α
  | .draw element => s.draw element
  | .clear => s.clear
  | .resize width height => s.resize width height

/-- The surface after some calls, one after the other. -/
def after (s : Surface α) (calls : List (SurfaceCall α)) : Surface α := calls.foldl perform s

theorem after_snoc (s : Surface α) (calls : List (SurfaceCall α)) (call : SurfaceCall α) :
    s.after (calls ++ [call]) = (s.after calls).perform call := by
  rw [after, List.foldl_append]
  rfl

theorem elements_perform (s : Surface α) (call : SurfaceCall α) :
    (s.perform call).elements = if call.isClear then [] else s.elements ++ call.element?.toList := by
  cases call with
  | draw element => rfl
  | clear => rfl
  | resize width height => exact (List.append_nil _).symm

theorem background_perform (s : Surface α) (call : SurfaceCall α) :
    (s.perform call).background = s.background := by
  cases call <;> rfl

theorem elements_after {s : Surface α} (hs : s.elements = []) (calls : List (SurfaceCall α)) :
    (s.after calls).elements = SurfaceCall.drawn calls := by
  induction calls using List.reverseRecOn with
  | nil => exact hs
  | append_singleton calls call ih =>
      rw [after_snoc, elements_perform, ih, SurfaceCall.drawn_snoc]

theorem background_after (s : Surface α) (calls : List (SurfaceCall α)) :
    (s.after calls).background = s.background := by
  induction calls using List.reverseRecOn with
  | nil => rfl
  | append_singleton calls call ih => rw [after_snoc, background_perform, ih]

end Surface

/-- Whatever is drawn on a surface, its markup reads back as one picture with the backdrop and all that was drawn
since the last clear, in order, and every text from outside is the value of its own attribute or the text of its
own element, just as it was handed in. So the tags are those of the root, the backdrop and the elements. Escaping
is done character by character, leaves none of the characters that could end a value, a tag or a text, and can be
undone. -/
theorem markup_reads_back (width height : Nat) (background : Option String) (measure : TextMeasure)
    (calls : List (SurfaceCall Float32)) :
    let s : Surface Float32 := (⟨width, height, background, measure, []⟩ : Surface Float32).after calls
    s.elements = SurfaceCall.drawn calls ∧
    read s.markup.toList = some (pictureNode s.width s.height background (SurfaceCall.drawn calls)) ∧
    s.markup.toList.count '<' =
      2 + (if background.isSome then 1 else 0) + ((SurfaceCall.drawn calls).map Element.tags).sum ∧
    (∀ text, (escape text).toList = encode text.toList ∧ decode (escape text).toList = text.toList ∧
      ∀ c ∈ ['<', '>', '"', '\x27'], c ∉ (escape text).toList) ∧
    Function.Injective escape := by
  intro s
  have helements : s.elements = SurfaceCall.drawn calls := Surface.elements_after rfl calls
  have hbackground : s.background = background := Surface.background_after _ calls
  have hlegible := legible_picture s.width s.height background (SurfaceCall.drawn calls)
  have hwritten : s.markup.toList = (pictureNode s.width s.height background (SurfaceCall.drawn calls)).print := by
    rw [toList_picture unmarkedNumbers_single, helements, hbackground]
  refine ⟨helements, ?_, ?_, fun text => ⟨toList_escape text, ?_, fun c hc => ?_⟩, escape_injective⟩
  · rw [hwritten]
    exact read_print hlegible rfl
  · rw [hwritten, count_print _ hlegible, tags_picture]
  · rw [toList_escape, decode_encode]
  · rw [toList_escape]
    exact not_mem_encode (List.mem_cons_of_mem _ hc) (by rintro rfl; exact absurd hc (by decide)) text.toList

end ArgumentDiagram
