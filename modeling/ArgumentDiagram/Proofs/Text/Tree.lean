import ArgumentDiagram.Proofs.Text.Markup
import Mathlib.Data.List.Basic

/-!
Markup as a tree: how a tree is printed, and a reader that goes over a text once, character by character, and
keeps the elements that are still open. Main statement: the reader gets back every tree that was printed, with
its labels, values and texts as they were before they were escaped.
-/

namespace ArgumentDiagram.Text.Markup

/-- Labels with their values. -/
abbrev Attributes := List (List Char × List Char)

inductive Node where
  | text (content : List Char)
  /-- An element without room for children. -/
  | single (name : List Char) (attributes : Attributes)
  | element (name : List Char) (attributes : Attributes) (children : List Node)

def Node.isText : Node → Bool
  | .text _ => true
  | _ => false

def printAttributes (attributes : Attributes) : List Char :=
  attributes.flatMap fun (label, value) => ' ' :: label ++ '=' :: '"' :: encode value ++ ['"']

mutual

def Node.print : Node → List Char
  | .text content => encode content
  | .single name attributes => '<' :: name ++ printAttributes attributes ++ ['/', '>']
  | .element name attributes children =>
    '<' :: name ++ printAttributes attributes ++ '>' :: printAll children ++ '<' :: '/' :: name ++ ['>']

def printAll : List Node → List Char
  | [] => []
  | node :: rest => node.print ++ printAll rest

end

theorem printAll_append (first second : List Node) :
    printAll (first ++ second) = printAll first ++ printAll second := by
  induction first with
  | nil => rfl
  | cons node rest ih => rw [List.cons_append, printAll, printAll, ih, List.append_assoc]

/-- An element whose end has not been read yet. -/
structure OpenElement where
  name : List Char
  attributes : Attributes
  /-- Those read so far. -/
  children : List Node

/-- Where in a text a reader is, and what it has read of the piece that it is in. -/
inductive Mode where
  | content (raw : List Char)
  /-- After the bracket of a tag. -/
  | tag
  | closing (name : List Char)
  | opening (name : List Char)
  /-- After the space that a label follows. -/
  | space (name : List Char) (attributes : Attributes)
  | label (name : List Char) (attributes : Attributes) (label : List Char)
  | equals (name : List Char) (attributes : Attributes) (label : List Char)
  | value (name : List Char) (attributes : Attributes) (label raw : List Char)
  | quote (name : List Char) (attributes : Attributes)
  | slash (name : List Char) (attributes : Attributes)

structure Reader where
  /-- The innermost open element. -/
  top : OpenElement
  /-- Those around it, the next one first. -/
  outer : List OpenElement
  mode : Mode

/-- The characters of names and labels. -/
def isNameChar (c : Char) : Bool := c.isAlphanum || c = ':' || c = '-'

namespace OpenElement

def add (e : OpenElement) (node : Node) : OpenElement := { e with children := e.children ++ [node] }

/-- Adds the text that stands before a tag, if there is any. -/
def flush (e : OpenElement) (raw : List Char) : OpenElement := if raw = [] then e else e.add (.text (decode raw))

theorem flush_nil (e : OpenElement) : e.flush [] = e := if_pos rfl

@[simp]
theorem name_flush (e : OpenElement) (raw : List Char) : (e.flush raw).name = e.name := by
  unfold flush
  split <;> rfl

@[simp]
theorem attributes_flush (e : OpenElement) (raw : List Char) : (e.flush raw).attributes = e.attributes := by
  unfold flush
  split <;> rfl

end OpenElement

namespace Reader

/-- Goes on after a name or an attribute. -/
def continueTag (r : Reader) (name : List Char) (attributes : Attributes) (c : Char) : Option Reader :=
  if c = ' ' then some { r with mode := .space name attributes }
  else if c = '/' then some { r with mode := .slash name attributes }
  else if c = '>' then some ⟨⟨name, attributes, []⟩, r.top :: r.outer, .content []⟩
  else none

/-- Ends the innermost element, if it has this name. -/
def close (r : Reader) (name : List Char) : Option Reader :=
  match r.outer with
  | [] => none
  | parent :: outer =>
    if name = r.top.name then
      some ⟨parent.add (.element r.top.name r.top.attributes r.top.children), outer, .content []⟩
    else none

/-- Reads one character. -/
def step (r : Reader) (c : Char) : Option Reader :=
  match r.mode with
  | .content raw =>
    if c = '<' then some { r with top := r.top.flush raw, mode := .tag }
    else some { r with mode := .content (raw ++ [c]) }
  | .tag =>
    if c = '/' then some { r with mode := .closing [] }
    else if isNameChar c then some { r with mode := .opening [c] }
    else none
  | .closing name =>
    if isNameChar c then some { r with mode := .closing (name ++ [c]) }
    else if c = '>' then r.close name
    else none
  | .opening name =>
    if isNameChar c then some { r with mode := .opening (name ++ [c]) }
    else r.continueTag name [] c
  | .space name attributes =>
    if isNameChar c then some { r with mode := .label name attributes [c] }
    else none
  | .label name attributes label =>
    if isNameChar c then some { r with mode := .label name attributes (label ++ [c]) }
    else if c = '=' then some { r with mode := .equals name attributes label }
    else none
  | .equals name attributes label =>
    if c = '"' then some { r with mode := .value name attributes label [] }
    else none
  | .value name attributes label raw =>
    if c = '"' then some { r with mode := .quote name (attributes ++ [(label, decode raw)]) }
    else if c = '<' then none
    else some { r with mode := .value name attributes label (raw ++ [c]) }
  | .quote name attributes => r.continueTag name attributes c
  | .slash name attributes =>
    if c = '>' then some { r with top := r.top.add (.single name attributes), mode := .content [] }
    else none

end Reader

/-- The one element that a text is. -/
def read (text : List Char) : Option Node := do
  let r ← text.foldlM Reader.step ⟨⟨[], [], []⟩, [], .content []⟩
  match r.mode, r.outer, r.top.children with
  | .content [], [], [node] => some node
  | _, _, _ => none

/-- A name or label that is all there is until the next blank, sign or bracket. -/
structure LegibleName (name : List Char) : Prop where
  nonempty : name ≠ []
  chars : ∀ c ∈ name, isNameChar c

instance (name : List Char) : Decidable (LegibleName name) :=
  haveI : Decidable (∀ c ∈ name, isNameChar c) := List.decidableBAll (fun c => isNameChar c) name
  decidable_of_iff (name ≠ [] ∧ ∀ c ∈ name, isNameChar c) ⟨fun h => ⟨h.1, h.2⟩, fun h => ⟨h.nonempty, h.chars⟩⟩

/-- Labels that are all legible. The values may be anything. -/
def LegibleLabels (attributes : Attributes) : Prop := ∀ label ∈ attributes.map (·.1), LegibleName label

theorem LegibleLabels.append {first second : Attributes} (hfirst : LegibleLabels first)
    (hsecond : LegibleLabels second) : LegibleLabels (first ++ second) := by
  intro label hmem
  rw [List.map_append] at hmem
  exact (List.mem_append.1 hmem).elim (hfirst label) (hsecond label)

mutual

def Node.Legible : Node → Prop
  | .text content => content ≠ []
  | .single name attributes => LegibleName name ∧ LegibleLabels attributes
  | .element name attributes children => LegibleName name ∧ LegibleLabels attributes ∧ LegibleAll children

/-- Texts next to each other are one text. -/
def LegibleAll : List Node → Prop
  | [] => True
  | node :: rest => node.Legible ∧ (node.isText → ∀ next ∈ rest.head?, next.isText = false) ∧ LegibleAll rest

end

theorem legibleAll_of_forall {nodes : List Node} (h : ∀ node ∈ nodes, node.Legible ∧ node.isText = false) :
    LegibleAll nodes := by
  induction nodes with
  | nil => trivial
  | cons node rest ih =>
      obtain ⟨⟨hnode, htext⟩, hrest⟩ := List.forall_mem_cons.1 h
      exact ⟨hnode, by simp [htext], ih hrest⟩

/-- A text takes a reader from one state to another. -/
def Reads (r : Reader) (text : List Char) (r' : Reader) : Prop := text.foldlM Reader.step r = some r'

namespace Reads

variable {r r' r'' : Reader} {first second text : List Char} {c : Char}

theorem nil (r : Reader) : Reads r [] r := rfl

theorem cons (h : r.step c = some r') (hrest : Reads r' text r'') : Reads r (c :: text) r'' := by
  unfold Reads
  rw [List.foldlM_cons, h]
  exact hrest

theorem append (h : Reads r first r') (hrest : Reads r' second r'') : Reads r (first ++ second) r'' := by
  unfold Reads at *
  rw [List.foldlM_append, h]
  exact hrest

theorem single (h : r.step c = some r') : Reads r [c] r' := cons h (nil r')

/-- Characters that are all collected in the same way. -/
theorem collect {f : List Char → Reader} {p : Char → Prop}
    (hstep : ∀ read c, p c → (f read).step c = some (f (read ++ [c]))) (read : List Char)
    (h : ∀ c ∈ text, p c) : Reads (f read) text (f (read ++ text)) := by
  induction text generalizing read with
  | nil =>
      rw [List.append_nil]
      exact nil _
  | cons c rest ih =>
      obtain ⟨hc, hrest⟩ := List.forall_mem_cons.1 h
      have hmore := ih (read ++ [c]) hrest
      rw [List.append_assoc, List.singleton_append] at hmore
      exact cons (hstep read c hc) hmore

end Reads

section Pieces

variable (top : OpenElement) (outer : List OpenElement) {name : List Char} {attributes : Attributes}

theorem reads_text (raw content : List Char) :
    Reads ⟨top, outer, .content raw⟩ (encode content) ⟨top, outer, .content (raw ++ encode content)⟩ := by
  refine Reads.collect (f := fun raw => ⟨top, outer, .content raw⟩) (p := (· ≠ '<')) (fun raw c hc => ?_) raw ?_
  · exact if_neg hc
  · rintro c hc rfl
    exact not_mem_encode (by decide) (by decide) content hc

theorem reads_opening (raw : List Char) (h : LegibleName name) :
    Reads ⟨top, outer, .content raw⟩ ('<' :: name) ⟨top.flush raw, outer, .opening name⟩ := by
  obtain ⟨first, rest, rfl⟩ := List.exists_cons_of_ne_nil h.nonempty
  obtain ⟨hfirst, hrest⟩ := List.forall_mem_cons.1 h.chars
  have hslash : first ≠ '/' := by
    rintro rfl
    exact absurd hfirst (by decide)
  have hbracket : Reader.step ⟨top, outer, .content raw⟩ '<' = some ⟨top.flush raw, outer, .tag⟩ := rfl
  have hname : Reader.step ⟨top.flush raw, outer, .tag⟩ first = some ⟨top.flush raw, outer, .opening [first]⟩ :=
    (if_neg hslash).trans (if_pos hfirst)
  exact .cons hbracket (.cons hname (Reads.collect (f := fun name => ⟨top.flush raw, outer, .opening name⟩)
    (fun read c hc => if_pos hc) [first] hrest))

/-- The reader has read a name and some attributes, and what comes next is no part of them. -/
def Continues (mode : Mode) (name : List Char) (attributes : Attributes) : Prop :=
  ∀ top outer c, isNameChar c = false →
    Reader.step ⟨top, outer, mode⟩ c = Reader.continueTag ⟨top, outer, mode⟩ name attributes c

theorem continues_opening (name : List Char) : Continues (.opening name) name [] := by
  intro top outer c hc
  exact if_neg (by simp [hc])

theorem continues_quote (name : List Char) (attributes : Attributes) :
    Continues (.quote name attributes) name attributes := fun _ _ _ _ => rfl

theorem reads_attribute {mode : Mode} (hmode : Continues mode name attributes) {label : List Char}
    (hlabel : LegibleName label) (value : List Char) :
    Reads ⟨top, outer, mode⟩ (' ' :: label ++ '=' :: '"' :: encode value ++ ['"'])
      ⟨top, outer, .quote name (attributes ++ [(label, value)])⟩ := by
  obtain ⟨first, rest, rfl⟩ := List.exists_cons_of_ne_nil hlabel.nonempty
  obtain ⟨hfirst, hrest⟩ := List.forall_mem_cons.1 hlabel.chars
  have hspace : Reader.step ⟨top, outer, mode⟩ ' ' = some ⟨top, outer, .space name attributes⟩ :=
    hmode top outer ' ' (by decide)
  have hlabel : Reads ⟨top, outer, .label name attributes [first]⟩ rest
      ⟨top, outer, .label name attributes (first :: rest)⟩ :=
    Reads.collect (f := fun label => ⟨top, outer, .label name attributes label⟩) (fun read c hc => if_pos hc)
      [first] hrest
  have hvalue : Reads ⟨top, outer, .value name attributes (first :: rest) []⟩ (encode value)
      ⟨top, outer, .value name attributes (first :: rest) (encode value)⟩ := by
    refine Reads.collect (f := fun raw => ⟨top, outer, .value name attributes (first :: rest) raw⟩)
      (p := fun c => c ≠ '"' ∧ c ≠ '<') (fun raw c hc => ?_) [] ?_
    · exact (if_neg hc.1).trans (if_neg hc.2)
    · refine fun c hc => ⟨?_, ?_⟩
      · rintro rfl
        exact not_mem_encode (by decide) (by decide) value hc
      · rintro rfl
        exact not_mem_encode (by decide) (by decide) value hc
  have hquote : Reader.step ⟨top, outer, .value name attributes (first :: rest) (encode value)⟩ '"' =
      some ⟨top, outer, .quote name (attributes ++ [(first :: rest, decode (encode value))])⟩ := rfl
  rw [decode_encode] at hquote
  have hequals : Reader.step ⟨top, outer, .label name attributes (first :: rest)⟩ '=' =
      some ⟨top, outer, .equals name attributes (first :: rest)⟩ := rfl
  exact (Reads.append (.cons hspace (.cons (if_pos hfirst) hlabel))
    (.cons hequals (.cons rfl hvalue))).append (.single hquote)

theorem reads_attributes {mode : Mode} (hmode : Continues mode name attributes) {more : Attributes}
    (hmore : LegibleLabels more) : ∃ mode', Continues mode' name (attributes ++ more) ∧
      Reads ⟨top, outer, mode⟩ (printAttributes more) ⟨top, outer, mode'⟩ := by
  induction more generalizing mode attributes with
  | nil =>
      rw [List.append_nil]
      exact ⟨mode, hmode, .nil _⟩
  | cons first rest ih =>
      obtain ⟨label, value⟩ := first
      obtain ⟨hlabel, hrest⟩ := List.forall_mem_cons.1 hmore
      have hfirst := reads_attribute top outer hmode hlabel value
      obtain ⟨mode', hmode', hreads⟩ := ih (continues_quote name (attributes ++ [(label, value)])) hrest
      rw [List.append_assoc, List.singleton_append] at hmode'
      exact ⟨mode', hmode', hfirst.append hreads⟩

/-- A tag up to its closing bracket. -/
theorem reads_tag (raw : List Char) (h : LegibleName name)
    (hattributes : LegibleLabels attributes) : ∃ mode, Continues mode name attributes ∧
      Reads ⟨top, outer, .content raw⟩ ('<' :: name ++ printAttributes attributes) ⟨top.flush raw, outer, mode⟩ := by
  obtain ⟨mode, hmode, hreads⟩ := reads_attributes (top.flush raw) outer (continues_opening name) hattributes
  exact ⟨mode, hmode, (reads_opening top outer raw h).append hreads⟩

theorem reads_single (raw : List Char) (h : (Node.single name attributes).Legible) :
    Reads ⟨top, outer, .content raw⟩ (Node.single name attributes).print
      ⟨(top.flush raw).add (.single name attributes), outer, .content []⟩ := by
  obtain ⟨mode, hmode, hreads⟩ := reads_tag top outer raw h.1 h.2
  exact hreads.append (.cons (hmode _ _ '/' (by decide)) (.single rfl))

theorem reads_start (raw : List Char) (h : LegibleName name)
    (hattributes : LegibleLabels attributes) :
    Reads ⟨top, outer, .content raw⟩ ('<' :: name ++ printAttributes attributes ++ ['>'])
      ⟨⟨name, attributes, []⟩, top.flush raw :: outer, .content []⟩ := by
  obtain ⟨mode, hmode, hreads⟩ := reads_tag top outer raw h hattributes
  exact hreads.append (.single (hmode _ _ '>' (by decide)))

theorem reads_end {e : OpenElement} {raw : List Char} {children : List Node}
    (he : e.flush raw = ⟨name, attributes, children⟩) (h : LegibleName name) :
    Reads ⟨e, top :: outer, .content raw⟩ ('<' :: '/' :: name ++ ['>'])
      ⟨top.add (.element name attributes children), outer, .content []⟩ := by
  have hbracket : Reader.step ⟨e, top :: outer, .content raw⟩ '<' = some ⟨e.flush raw, top :: outer, .tag⟩ := rfl
  rw [he] at hbracket
  have hname : Reads ⟨⟨name, attributes, children⟩, top :: outer, .closing []⟩ name
      ⟨⟨name, attributes, children⟩, top :: outer, .closing name⟩ :=
    Reads.collect (f := fun read => ⟨⟨name, attributes, children⟩, top :: outer, .closing read⟩)
      (fun read c hc => if_pos hc) [] h.chars
  exact Reads.append (.cons hbracket (.cons rfl hname)) (.single (if_pos rfl))

end Pieces

/-! ### Reading what was printed -/

/-- What an element makes of the next piece of its content, given the text that stands before it. -/
def OpenElement.take : OpenElement × List Char → Node → OpenElement × List Char
  | (e, raw), .text content => (e, raw ++ encode content)
  | (e, raw), node => ((e.flush raw).add node, [])

theorem OpenElement.take_of_not_text {node : Node} (h : node.isText = false) (e : OpenElement) (raw : List Char) :
    OpenElement.take (e, raw) node = ((e.flush raw).add node, []) := by
  cases node with
  | text content => cases h
  | single name attributes => rfl
  | element name attributes children => rfl

theorem encode_ne_nil {text : List Char} (h : text ≠ []) : encode text ≠ [] := by
  intro hnil
  have hdecode := decode_encode text
  rw [hnil] at hdecode
  exact h hdecode.symm

/-- All pieces end up as children, as a text is never followed by another one. -/
theorem children_foldl_take {nodes : List Node} (h : LegibleAll nodes) (e : OpenElement) (raw : List Char)
    (hraw : raw = [] ∨ ∀ next ∈ nodes.head?, next.isText = false) :
    (nodes.foldl OpenElement.take (e, raw)).1.flush (nodes.foldl OpenElement.take (e, raw)).2 =
      ⟨e.name, e.attributes, (e.flush raw).children ++ nodes⟩ := by
  induction nodes generalizing e raw with
  | nil =>
      rw [List.foldl_nil, List.append_nil, ← e.name_flush raw, ← e.attributes_flush raw]
  | cons node rest ih =>
      obtain ⟨hnode, hapart, hrest⟩ := h
      rw [List.foldl_cons]
      cases htext : node.isText with
      | false =>
          rw [OpenElement.take_of_not_text htext, ih hrest _ [] (.inl rfl), OpenElement.flush_nil]
          simp [OpenElement.add]
      | true =>
          cases node with
          | text content =>
              have hnil : raw = [] := by
                refine hraw.resolve_right fun hnext => ?_
                cases hnext _ rfl
              rw [OpenElement.take, ih hrest e _ (.inr (hapart rfl)), hnil, List.nil_append, OpenElement.flush_nil,
                OpenElement.flush, if_neg (encode_ne_nil hnode), decode_encode]
              simp [OpenElement.add]
          | single name attributes => cases htext
          | element name attributes children => cases htext

mutual

theorem reads_print (top : OpenElement) (outer : List OpenElement) (raw : List Char) :
    ∀ node : Node, node.Legible → Reads ⟨top, outer, .content raw⟩ node.print
      ⟨(OpenElement.take (top, raw) node).1, outer, .content (OpenElement.take (top, raw) node).2⟩
  | .text content, _ => reads_text top outer raw content
  | .single name attributes, h => reads_single top outer raw h
  | .element name attributes children, ⟨hname, hattributes, hchildren⟩ => by
      have hstart := reads_start top outer raw hname hattributes
      have hinside := reads_printAll ⟨name, attributes, []⟩ (top.flush raw :: outer) [] children hchildren
      have hall := children_foldl_take hchildren ⟨name, attributes, []⟩ [] (.inl rfl)
      have hend := reads_end (top.flush raw) outer hall hname
      have hprint : (Node.element name attributes children).print =
          '<' :: name ++ printAttributes attributes ++ ['>'] ++ printAll children ++
            ('<' :: '/' :: name ++ ['>']) := by
        simp [Node.print]
      rw [hprint]
      exact (hstart.append hinside).append hend

theorem reads_printAll (top : OpenElement) (outer : List OpenElement) (raw : List Char) :
    ∀ nodes : List Node, LegibleAll nodes → Reads ⟨top, outer, .content raw⟩ (printAll nodes)
      ⟨(nodes.foldl OpenElement.take (top, raw)).1, outer,
        .content (nodes.foldl OpenElement.take (top, raw)).2⟩
  | [], _ => .nil _
  | node :: rest, ⟨hnode, _, hrest⟩ =>
      (reads_print top outer raw node hnode).append
        (reads_printAll (OpenElement.take (top, raw) node).1 outer (OpenElement.take (top, raw) node).2 rest hrest)

end

/-- A tree that was printed is read back as it was. -/
theorem read_print {node : Node} (h : node.Legible) (htext : node.isText = false) :
    read node.print = some node := by
  have hreads := reads_print ⟨[], [], []⟩ [] [] node h
  rw [OpenElement.take_of_not_text htext] at hreads
  unfold Reads at hreads
  rw [read, hreads]
  rfl

mutual

/-- How many tags a tree is printed with. -/
def Node.tags : Node → Nat
  | .text _ => 0
  | .single _ _ => 1
  | .element _ _ children => 2 + tagsAll children

def tagsAll : List Node → Nat
  | [] => 0
  | node :: rest => node.tags + tagsAll rest

end

theorem tagsAll_append (first second : List Node) : tagsAll (first ++ second) = tagsAll first + tagsAll second := by
  induction first with
  | nil => rw [List.nil_append, tagsAll, Nat.zero_add]
  | cons node rest ih => rw [List.cons_append, tagsAll, tagsAll, ih, Nat.add_assoc]

theorem LegibleName.not_mem {name : List Char} (h : LegibleName name) : '<' ∉ name := by
  intro hmem
  exact absurd (h.chars _ hmem) (by decide)

theorem not_mem_printAttributes {attributes : Attributes} (h : LegibleLabels attributes) :
    '<' ∉ printAttributes attributes := by
  intro hmem
  obtain ⟨⟨label, value⟩, hattribute, hmem⟩ := List.mem_flatMap.1 hmem
  have hlabel : '<' ∉ label := (h label (List.mem_map_of_mem hattribute)).not_mem
  have hvalue : '<' ∉ encode value := not_mem_encode (by decide) (by decide) value
  simp [hlabel, hvalue] at hmem

mutual

/-- Only tags have an opening bracket. -/
theorem count_print : ∀ node : Node, node.Legible → node.print.count '<' = node.tags
  | .text content, _ => List.count_eq_zero.2 (not_mem_encode (by decide) (by decide) content)
  | .single name attributes, ⟨hname, hattributes⟩ => by
      have hname := List.count_eq_zero.2 hname.not_mem
      have hattributes := List.count_eq_zero.2 (not_mem_printAttributes hattributes)
      simp [Node.print, Node.tags, hname, hattributes]
  | .element name attributes children, ⟨hname, hattributes, hchildren⟩ => by
      have hname := List.count_eq_zero.2 hname.not_mem
      have hattributes := List.count_eq_zero.2 (not_mem_printAttributes hattributes)
      have hchildren := count_printAll children hchildren
      simp [Node.print, Node.tags, hname, hattributes, hchildren]
      omega

theorem count_printAll : ∀ nodes : List Node, LegibleAll nodes → (printAll nodes).count '<' = tagsAll nodes
  | [], _ => rfl
  | node :: rest, ⟨hnode, _, hrest⟩ => by
      rw [printAll, List.count_append, count_print node hnode, count_printAll rest hrest, tagsAll]

end

end ArgumentDiagram.Text.Markup
