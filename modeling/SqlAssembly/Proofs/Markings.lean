import SqlAssembly.Proofs.Drafts
import SqlAssembly.Proofs.Occurrences

/-! # Markers made out

The markers of a text are found by a search that goes on behind each marker found, so what is found
behind a place may depend on what stands before it.  It does not depend on anything before a
character that no marker contains.  A text is therefore read with its markers made out, as a list,
and two texts with such a character between them are read as the two lists appended.
-/
namespace SqlAssembly
open Medium (ofText)
open Text (Pieces isSeparator)

namespace Marker

def marked (cs : List Char) : List (Option Char) := (Text.pieces text.toList cs).marked

theorem marked_cons {c : Char} {cs : List Char} (h : ¬ text.toList <+: c :: cs) :
    marked (c :: cs) = some c :: marked cs := by
  rw [marked, Text.pieces_cons h]
  rfl

theorem marked_marker (cs : List Char) : marked (text.toList ++ cs) = none :: marked cs := by
  rw [marked, Text.pieces_append_left (by decide), Pieces.marked_cut]
  rfl

theorem marked_free {cs : List Char} (h : ¬ text.toList <:+: cs) : marked cs = cs.map some := by
  rw [marked, Text.pieces_of_not_mem h]
  simp [Pieces.marked]

theorem count_eq (sql : String) : count sql = (marked sql.toList).count none :=
  (Pieces.count_marked _).symm

/-- A text begins with a separator only if no marker begins there. -/
theorem not_prefix_separator {c : Char} (hc : isSeparator c = true) (cs : List Char) :
    ¬ text.toList <+: c :: cs := by
  intro h
  have hnil : text.toList <+: [] :=
    Text.prefix_before (not_mem_of_isSeparator hc) (by simpa using h)
  exact absurd hnil (by decide)

theorem marked_joined {c : Char} (hc : isSeparator c = true) (a b : List Char) :
    marked (a ++ c :: b) = marked a ++ some c :: marked b :=
  Text.marked_joined text_ne_nil (not_mem_of_isSeparator hc) a b

/-- A text in which no marker is made out has none. -/
theorem count_marked_eq_zero {cs : List Char} :
    (marked cs).count none = 0 ↔ ¬ text.toList <:+: cs := by
  constructor
  · intro h hmarker
    induction cs with
    | nil => exact absurd hmarker (by decide)
    | cons c cs ih =>
      by_cases hstart : text.toList <+: c :: cs
      · obtain ⟨rest, hrest⟩ := hstart
        rw [← hrest, marked_marker] at h
        simp at h
      · rw [marked_cons hstart] at h
        have hcs : text.toList <:+: cs := (List.infix_cons_iff.1 hmarker).resolve_left hstart
        exact ih (by simpa using h) hcs
  · intro h
    rw [marked_free h]
    simp [List.count_eq_zero]

end Marker

def Glyph.marked (d : Dialect) : Glyph → List (Option Char)
  | .char c => [some c]
  | .value true _ => [none]
  | .value false v => Marker.marked (d.literal v).toList

namespace Draft

def marked (d : Dialect) (draft : Draft) : List (Option Char) := draft.flatMap (Glyph.marked d)

/-- A draft that, once it is written out, has the markers that its glyphs have. -/
def Legible (d : Dialect) (draft : Draft) : Prop :=
  Marker.marked (chars d draft) = marked d draft

section
variable (d : Dialect) (draft : Draft) (v : Value)

@[simp] theorem marked_char (c : Char) :
    marked d (.char c :: draft) = some c :: marked d draft := rfl

@[simp] theorem marked_bound : marked d (.value true v :: draft) = none :: marked d draft := rfl

@[simp] theorem marked_inlined :
    marked d (.value false v :: draft) = Marker.marked (d.literal v).toList ++ marked d draft := rfl

end

theorem marked_ofChars (d : Dialect) (cs : List Char) :
    marked d (Glyph.ofChars cs) = cs.map some := by
  induction cs with
  | nil => rfl
  | cons c cs ih => exact congrArg (some c :: ·) ih

theorem marked_append (d : Dialect) (a b : Draft) : marked d (a ++ b) = marked d a ++ marked d b :=
  List.flatMap_append

/-- What holds of a draft, and of what is left when a blank is cut off at either end, holds of the
draft without its outer blanks. -/
theorem trim_induction {P : Draft → Prop}
    (tail : ∀ c a, isSeparator c = true → P (.char c :: a) → P a)
    (init : ∀ c a, isSeparator c = true → P (a ++ [.char c]) → P a) {a : Draft} (h : P a) :
    P (Draft.trim a) := by
  have hstart : P (a.dropWhile Glyph.isBlank) := by
    induction a with
    | nil => exact h
    | cons g a ih =>
      rw [List.dropWhile_cons]
      split
      next hg =>
        cases g with
        | char c => exact ih (tail c a (Text.isSeparator_of_isBlank hg) h)
        | value bound v => exact absurd hg Bool.false_ne_true
      next => exact h
  suffices hend : ∀ r : Draft, P r.reverse → P (r.dropWhile Glyph.isBlank).reverse by
    exact hend _ (by simpa using hstart)
  intro r hr
  induction r with
  | nil => exact hr
  | cons g r ih =>
    rw [List.dropWhile_cons]
    split
    next hg =>
      cases g with
      | char c => exact ih (init c _ (Text.isSeparator_of_isBlank hg) (by simpa using hr))
      | value bound v => exact absurd hg Bool.false_ne_true
    next => exact hr

namespace Legible

variable {d : Dialect} {a b : Draft}

theorem ofText {s : String} (h : Marker.Free s) : Legible d (ofText s) := by
  change Marker.marked (chars d (Glyph.ofChars s.toList)) = marked d (Glyph.ofChars s.toList)
  rw [chars_ofChars, marked_ofChars, Marker.marked_free h]

theorem value (bound : Bool) (v : Value) : Legible d [.value bound v] := by
  cases bound with
  | true => rfl
  | false => simp [Legible, chars, marked, Glyph.chars, Glyph.marked]

theorem joined {c : Char} (hc : isSeparator c = true) (ha : Legible d a) (hb : Legible d b) :
    Legible d (a ++ .char c :: b) := by
  rw [Legible, chars_append, chars_char, Marker.marked_joined hc, ha, hb, marked_append]
  rfl

theorem tail {c : Char} (hc : isSeparator c = true) (h : Legible d (.char c :: a)) :
    Legible d a := by
  rw [Legible, chars_char, Marker.marked_cons (Marker.not_prefix_separator hc _)] at h
  exact (List.cons.inj h).2

theorem init {c : Char} (hc : isSeparator c = true) (h : Legible d (a ++ [.char c])) :
    Legible d a := by
  rw [Legible, chars_append, chars_char, Marker.marked_joined hc, marked_append] at h
  exact List.append_cancel_right h

theorem trim (h : Legible d a) : Legible d (Draft.trim a) :=
  trim_induction (fun _ _ hc => tail hc) (fun _ _ hc => init hc) h

theorem marked_ofTexts (first : List Char) {rest : List (List Char)} {vs : List Value}
    (h : rest.length = vs.length) :
    marked d (ofTexts first rest vs) = (⟨first, rest⟩ : Pieces).marked := by
  induction rest generalizing first vs with
  | nil => simp [ofTexts, marked_ofChars, Pieces.marked]
  | cons cs rest ih =>
    cases vs with
    | nil => simp at h
    | cons v vs =>
      have hrest := ih cs (by simpa using h : rest.length = vs.length)
      rw [ofTexts, marked_append, marked_ofChars]
      change first.map some ++ none :: marked d (ofTexts cs rest vs) = _
      rw [hrest]
      simp [Pieces.marked]

theorem ofSql {x : Sql} (h : Marker.count x.text = x.params.length) :
    Legible d (Draft.ofSql x) := by
  have hcount : (Marker.pieces x.text).rest.length = x.params.length := h
  rw [Legible, chars_ofSql, Draft.ofSql, marked_ofTexts _ hcount]
  rfl

end Legible

end Draft

end SqlAssembly
