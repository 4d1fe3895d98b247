import ArgumentDiagram.Font.Face
import ArgumentDiagram.Table.Basic

/-!
Measuring many texts. A cache keeps the face that each family list has led to, and each advance that a face
was asked for, so that nothing is looked up twice. Lists with one key name the same families, which is why
a face can be kept under the key alone.
-/

namespace ArgumentDiagram

/-- A face with its advances for ASCII characters, and those it was asked for of other characters. -/
structure CachedFace where
  face : Face
  ascii : Vector (Option Nat) 128
  advances : Table Char (Option Nat)

/-- The fonts at hand, once they were needed, and what the family lists seen so far have led to, by their
keys. -/
structure FontCache where
  book : Option FontBook
  faces : Table String (Option CachedFace)

namespace CachedFace

/-- A face that was asked for nothing yet. -/
def ofFace (face : Face) : CachedFace := ⟨face, .ofFn fun code => face.advance (.ofNat code), .empty⟩

def advance (f : CachedFace) (c : Char) : Option Nat × CachedFace :=
  if h : c.toNat < 128 then (f.ascii[c.toNat], f)
  else
    match f.advances.get? c with
    | some known => (known, f)
    | none =>
      let found := f.face.advance c
      (found, { f with advances := f.advances.insert c found })

variable {α : Type} [Scalar α]

/-- The room that each glyph takes. -/
def glyphWidths (size : α) : List Char → CachedFace → List α × CachedFace
  | [], f => ([], f)
  | c :: rest, f =>
    let (advance, f) := f.advance c
    let (others, f) := glyphWidths size rest f
    (TextWidth.glyphWidth f.face.unitsPerEm size advance :: others, f)

end CachedFace

namespace FontCache

def empty : FontCache := ⟨none, .empty⟩

def keyOf (families : String) : String := .ofList (FontFamily.key families.toList)

/-- The cache with what a family list leads to under its key, looked up unless the key is known. -/
def learn (cache : FontCache) (book : FontBook) (families : String) : FontCache :=
  if cache.faces.contains (keyOf families) then cache
  else
    let book := cache.book.getD book
    let face := book.select (FontFamily.ofList families.toList)
    ⟨some book, cache.faces.insert (keyOf families) (face.map .ofFace)⟩

variable {α : Type} [Scalar α]

/-- The width of a text in the face that a family list leads to, if there is one, and the cache with what
was looked up for it. -/
def measured (cache : FontCache) (book : FontBook) (text : String) (size : α) (families : String) :
    Option α × FontCache :=
  if TextWidth.isFlat text size then (some 0.0, cache)
  else
    let cache := cache.learn book families
    match cache.faces.get? (keyOf families) with
    | some (some face) =>
      let (widths, face) := face.glyphWidths size (TextWidth.glyphs text.toList)
      (some (TextWidth.sum widths), { cache with faces := cache.faces.insert (keyOf families) (some face) })
    | _ => (none, cache)

/-- The measured width, or the estimate if no face is at hand, and the cache with what was looked up. -/
def ofText (cache : FontCache) (book : FontBook) (text : String) (size : α) (families : String) :
    α × FontCache :=
  let (width, cache) := cache.measured book text size families
  (width.getD (TextWidth.estimate text size), cache)

/-- A text to be measured. -/
structure Query (α : Type) where
  text : String
  size : α
  families : String

/-- The widths of texts, one after the other. -/
def measuredAll (book : FontBook) : List (Query α) → FontCache → List (Option α) × FontCache
  | [], cache => ([], cache)
  | q :: rest, cache =>
    let (width, cache) := cache.measured book q.text q.size q.families
    let (others, cache) := measuredAll book rest cache
    (width :: others, cache)

end FontCache

end ArgumentDiagram
