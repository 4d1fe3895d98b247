import ArgumentDiagram.Font.Cache
import ArgumentDiagram.Proofs.Font.Families
import ArgumentDiagram.Table.Lemmas

/-!
Measuring with a cache. Whatever was measured before, what is remembered of a face is what the face says, and under
each key stands the face that the key itself leads to when it is read as a family list. So every text comes out as
wide as if nothing had been remembered.
-/

namespace ArgumentDiagram

namespace CachedFace

/-- What is remembered of a face is what the face says. -/
structure Recalls (f : CachedFace) (face : Face) : Prop where
  same : f.face = face
  ascii : ∀ code (h : code < 128), f.ascii[code] = face.advance (.ofNat code)
  advances : ∀ c known, f.advances.get? c = some known → known = face.advance c

variable {f : CachedFace} {face : Face}

theorem recalls_ofFace (face : Face) : (ofFace face).Recalls face where
  same := rfl
  ascii _ h := Vector.getElem_ofFn h
  advances _ _ h := by cases h

theorem Recalls.insert (h : f.Recalls face) (c : Char) :
    CachedFace.Recalls { f with advances := f.advances.insert c (f.face.advance c) } face where
  same := h.same
  ascii := h.ascii
  advances other known hknown := by
    rw [Table.get?_insert] at hknown
    split at hknown
    next heq => rw [heq, ← Option.some.inj hknown, h.same]
    next => exact h.advances other known hknown

theorem Recalls.advance (h : f.Recalls face) (c : Char) :
    (f.advance c).1 = face.advance c ∧ (f.advance c).2.Recalls face := by
  rw [CachedFace.advance]
  split
  next hascii => exact ⟨by rw [h.ascii, Char.ofNat_toNat], h⟩
  next =>
    split
    next known hknown => exact ⟨h.advances c known hknown, h⟩
    next => exact ⟨congrArg (·.advance c) h.same, h.insert c⟩

theorem Recalls.glyphWidths {α : Type} [Scalar α] (h : f.Recalls face) (size : α) (text : List Char) :
    (f.glyphWidths size text).1 =
        text.map (fun c => TextWidth.glyphWidth face.unitsPerEm size (face.advance c)) ∧
      (f.glyphWidths size text).2.Recalls face := by
  induction text generalizing f with
  | nil => exact ⟨rfl, h⟩
  | cons c rest ih =>
      obtain ⟨hadvance, hnext⟩ := h.advance c
      obtain ⟨hothers, hlast⟩ := ih hnext
      refine ⟨?_, hlast⟩
      calc
        (f.glyphWidths size (c :: rest)).1 =
            TextWidth.glyphWidth ((f.advance c).2.glyphWidths size rest).2.face.unitsPerEm size (f.advance c).1 ::
              ((f.advance c).2.glyphWidths size rest).1 := rfl
        _ = _ := by rw [hadvance, hothers, hlast.same, List.map_cons]

end CachedFace

namespace FontCache

open CachedFace

variable {cache : FontCache} {book : FontBook}

/-- A cache has collected the fonts of a book, if any, and has under each key what the key leads to. -/
structure Sound (cache : FontCache) (book : FontBook) : Prop where
  collected : ∀ known ∈ cache.book, known = book
  faces : ∀ key found, cache.faces.get? key = some found →
    Option.Rel Recalls found (book.select (FontFamily.ofList key.toList))

theorem sound_empty (book : FontBook) : empty.Sound book where
  collected _ h := by cases h
  faces _ _ h := by cases h

/-- A family list leads to the same face as its key. -/
theorem select_keyOf (book : FontBook) (families : String) :
    book.select (FontFamily.ofList (keyOf families).toList) = book.select (FontFamily.ofList families.toList) := by
  rw [keyOf, String.toList_ofList, FontFamily.ofList_key]

theorem rel_map_ofFace (face : Option Face) : Option.Rel Recalls (face.map ofFace) face := by
  cases face with
  | none => exact .none
  | some face => exact .some (recalls_ofFace face)

theorem Sound.insert (h : cache.Sound book) {found : Option CachedFace} {families : String}
    (hfound : Option.Rel Recalls found (book.select (FontFamily.ofList families.toList))) :
    FontCache.Sound { cache with faces := cache.faces.insert (keyOf families) found } book where
  collected := h.collected
  faces key other hother := by
    rw [Table.get?_insert] at hother
    split at hother
    next heq =>
      rw [heq, select_keyOf, ← Option.some.inj hother]
      exact hfound
    next => exact h.faces key other hother

theorem Sound.learn (h : cache.Sound book) (families : String) : (cache.learn book families).Sound book := by
  have hbook : cache.book.getD book = book := by
    cases hknown : cache.book with
    | none => rfl
    | some known => exact h.collected known hknown
  rw [FontCache.learn]
  split
  next => exact h
  next =>
    rw [hbook]
    have hnew : FontCache.Sound { cache with book := some book } book :=
      ⟨fun known hknown => (Option.some.inj hknown).symm, h.faces⟩
    exact hnew.insert (rel_map_ofFace _)

/-- What was learned of a family list is what it leads to. -/
theorem Sound.exists_get?_learn (h : cache.Sound book) (families : String) :
    ∃ found, (cache.learn book families).faces.get? (keyOf families) = some found ∧
      Option.Rel Recalls found (book.select (FontFamily.ofList families.toList)) := by
  have hknown : ((cache.learn book families).faces.get? (keyOf families)).isSome := by
    rw [FontCache.learn]
    split
    next hknown => rwa [Table.contains_eq_isSome] at hknown
    next => simp [Table.get?_insert]
  obtain ⟨found, hfound⟩ := Option.isSome_iff_exists.1 hknown
  exact ⟨found, hfound, select_keyOf book families ▸ (h.learn families).faces _ found hfound⟩

/-! ### Widths -/

variable {α : Type} [Scalar α]

/-- One more text is measured as without the cache, and leaves the cache sound. -/
theorem Sound.measured (h : cache.Sound book) (text : String) (size : α) (families : String) :
    (cache.measured book text size families).1 = TextWidth.measured book text size families ∧
      (cache.measured book text size families).2.Sound book := by
  rw [FontCache.measured, TextWidth.measured]
  by_cases hflat : TextWidth.isFlat text size = true
  · rw [if_pos hflat, if_pos hflat]
    exact ⟨rfl, h⟩
  · rw [if_neg hflat, if_neg hflat]
    obtain ⟨found, hfound, hrel⟩ := h.exists_get?_learn families
    cases hselect : book.select (FontFamily.ofList families.toList) with
    | none =>
        rw [hselect] at hrel
        cases hrel
        simp only [hfound]
        exact ⟨rfl, h.learn families⟩
    | some face =>
        rw [hselect] at hrel
        cases hrel with
        | @some f _ hf =>
            obtain ⟨hwidths, hlast⟩ := hf.glyphWidths size (TextWidth.glyphs text.toList)
            simp only [hfound]
            refine ⟨?_, (h.learn families).insert (hselect ▸ .some hlast)⟩
            rw [hwidths, Option.map_some, TextWidth.inFace]

theorem Sound.ofText (h : cache.Sound book) (text : String) (size : α) (families : String) :
    (cache.ofText book text size families).1 = TextWidth.ofText book text size families ∧
      (cache.ofText book text size families).2.Sound book := by
  obtain ⟨hwidth, hsound⟩ := h.measured text size families
  refine ⟨?_, hsound⟩
  calc
    (cache.ofText book text size families).1 =
        (cache.measured book text size families).1.getD (TextWidth.estimate text size) := rfl
    _ = TextWidth.ofText book text size families := by rw [hwidth, TextWidth.ofText]

theorem Sound.measuredAll (h : cache.Sound book) (queries : List (Query α)) :
    (measuredAll book queries cache).1 =
        queries.map (fun q => TextWidth.measured book q.text q.size q.families) ∧
      (measuredAll book queries cache).2.Sound book := by
  induction queries generalizing cache with
  | nil => exact ⟨rfl, h⟩
  | cons q rest ih =>
      obtain ⟨hwidth, hnext⟩ := h.measured q.text q.size q.families
      obtain ⟨hothers, hlast⟩ := ih hnext
      refine ⟨?_, hlast⟩
      calc
        (FontCache.measuredAll book (q :: rest) cache).1 = (cache.measured book q.text q.size q.families).1 ::
            (FontCache.measuredAll book rest (cache.measured book q.text q.size q.families).2).1 := rfl
        _ = _ := by rw [hwidth, hothers, List.map_cons]

/-- Whatever texts are measured one after the other, each is as wide as without a cache, and so is the text that is
measured or estimated next. A family list names the same families as its key, so lists with one key lead to one
face. -/
theorem widths_as_without_cache (book : FontBook) (queries : List (Query α)) :
    (measuredAll book queries empty).1 =
        queries.map (fun q => TextWidth.measured book q.text q.size q.families) ∧
      (∀ text (size : α) families, ((measuredAll book queries empty).2.ofText book text size families).1 =
        TextWidth.ofText book text size families) ∧
      (∀ families, FontFamily.ofList (FontFamily.key families) = FontFamily.ofList families) ∧
      ∀ families families', keyOf families = keyOf families' →
        book.select (FontFamily.ofList families.toList) = book.select (FontFamily.ofList families'.toList) := by
  obtain ⟨hwidths, hsound⟩ := (sound_empty book).measuredAll queries
  refine ⟨hwidths, fun text size families => (hsound.ofText text size families).1, FontFamily.ofList_key, ?_⟩
  intro families families' hkey
  rw [← select_keyOf, hkey, select_keyOf]

/-- An empty list, and the family that it means between blanks, with a character that is not ASCII. -/
theorem widths_as_without_cache_of_blanks :
    let book : FontBook := { face := fun name => if name = "Arial" then some ⟨1024, fun _ => some 512⟩ else none }
    let queries : List (Query Float32) := [⟨"é", 16.0, ""⟩, ⟨"é!", 16.0, " sans-serif\t"⟩, ⟨"é", 16.0, "serif"⟩]
    keyOf "" = keyOf " sans-serif\t" ∧
      book.select (FontFamily.ofList "".toList) = book.select (FontFamily.ofList " sans-serif\t".toList) ∧
      (measuredAll book queries empty).1 = [some 8.0, some 16.0, none] := by
  intro book queries
  have hkey : keyOf "" = keyOf " sans-serif\t" := by decide +kernel
  have hfresh : queries.map (fun q => TextWidth.measured book q.text q.size q.families) =
      [some 8.0, some 16.0, none] := by decide +kernel
  obtain ⟨hwidths, -, -, hselect⟩ := widths_as_without_cache book queries
  exact ⟨hkey, hselect _ _ hkey, hwidths.trans hfresh⟩

end FontCache

end ArgumentDiagram
