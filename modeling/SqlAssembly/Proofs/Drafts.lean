import SqlAssembly.Proofs.Alike.Runs

/-! # Drafts

A draft is a text in which a value and its place are one thing: no marker and no quote can be
mistaken for what surrounds it.  Written out for a dialect, a draft becomes text with parameters.
-/
namespace SqlAssembly
open Text (isBlank Pieces)

/-- A character, or a value in its place, bound or inlined. -/
inductive Glyph where
  | char (c : Char)
  | value (bound : Bool) (v : Value)
deriving DecidableEq

abbrev Draft := List Glyph

def Glyph.chars (d : Dialect) : Glyph → List Char
  | .char c => [c]
  | .value true _ => Marker.text.toList
  | .value false v => (d.literal v).toList

def Glyph.params : Glyph → List Value
  | .value true v => [v]
  | _ => []

def Glyph.values : Glyph → List Value
  | .value _ v => [v]
  | .char _ => []

def Glyph.isBlank : Glyph → Bool
  | .char c => Text.isBlank c
  | .value .. => false

def Glyph.ofChars (cs : List Char) : Draft := cs.map .char

@[simp] theorem Glyph.ofChars_nil : Glyph.ofChars [] = [] := rfl

@[simp] theorem Glyph.ofChars_cons (c : Char) (cs : List Char) :
    Glyph.ofChars (c :: cs) = .char c :: Glyph.ofChars cs := rfl

@[simp] theorem Glyph.ofChars_append (cs ds : List Char) :
    Glyph.ofChars (cs ++ ds) = Glyph.ofChars cs ++ Glyph.ofChars ds := List.map_append

theorem Glyph.char_injective : Function.Injective Glyph.char := fun _ _ => Glyph.char.inj

theorem Glyph.ofChars_injective : Function.Injective Glyph.ofChars :=
  List.map_injective_iff.2 Glyph.char_injective

namespace Draft

def trim (draft : Draft) : Draft :=
  ((draft.dropWhile Glyph.isBlank).reverse.dropWhile Glyph.isBlank).reverse

/-- Messages do not quote drafts. -/
instance : Medium Draft where
  append := List.append
  ofText s := Glyph.ofChars s.toList
  trim := trim
  quote _ := ""

instance : LawfulMedium Draft where
  append_assoc a b c := List.append_assoc a b c
  empty_append a := rfl
  append_empty a := List.append_nil a
  ofText_append s t := by simp [Medium.ofText, Glyph.ofChars]

def chars (d : Dialect) (draft : Draft) : List Char := draft.flatMap (Glyph.chars d)

def sql (d : Dialect) (draft : Draft) : Sql :=
  ⟨String.ofList (draft.chars d), draft.flatMap Glyph.params⟩

/-- The text around the values of a draft, in front of some more text around values. -/
def gapsBefore (p : Pieces) : Draft → Pieces
  | [] => p
  | .char c :: draft => (gapsBefore p draft).push c
  | .value .. :: draft => (gapsBefore p draft).cut

def gaps (draft : Draft) : Pieces := gapsBefore { first := [] } draft

def values (draft : Draft) : List Value := draft.flatMap Glyph.values

/-! ## Hand-written SQL -/

/-- Texts with values between them.  A gap that no value is left for keeps its marker. -/
def ofTexts (first : List Char) : List (List Char) → List Value → Draft
  | [], _ => Glyph.ofChars first
  | cs :: rest, v :: vs => Glyph.ofChars first ++ .value true v :: ofTexts cs rest vs
  | cs :: rest, [] => Glyph.ofChars first ++ Glyph.ofChars Marker.text.toList ++ ofTexts cs rest []

/-- Text with parameters, each in the place of its marker. -/
def ofSql (sql : Sql) : Draft :=
  ofTexts (Marker.pieces sql.text).first (Marker.pieces sql.text).rest sql.params

def manner : Manner Draft := ⟨fun bound v => [.value bound v], ofSql⟩

/-! ## Writing out -/

section
variable (d : Dialect) (a b : Draft)

@[simp] theorem chars_cons (g : Glyph) : chars d (g :: a) = g.chars d ++ chars d a := rfl

theorem chars_char (c : Char) : chars d (.char c :: a) = c :: chars d a := rfl

@[simp] theorem chars_append : chars d (a ++ b) = chars d a ++ chars d b := List.flatMap_append

@[simp] theorem chars_ofChars (cs : List Char) : chars d (Glyph.ofChars cs) = cs := by
  induction cs with
  | nil => rfl
  | cons c cs ih => simpa [Glyph.ofChars, Glyph.chars] using ih

@[simp] theorem params_ofChars (cs : List Char) :
    (Glyph.ofChars cs).flatMap Glyph.params = [] := by
  simp [Glyph.ofChars, Glyph.params, List.flatMap_map]

@[simp] theorem text_sql : (sql d a).text = String.ofList (chars d a) := rfl

theorem sql_append : sql d (a ++ b) = sql d a ++ sql d b := by
  ext1
  · simp [sql]
  · exact List.flatMap_append

theorem sql_ofText (s : String) : sql d (Medium.ofText s) = Medium.ofText s := by
  ext1
  · simp [sql, Medium.ofText]
  · exact params_ofChars s.toList

theorem append_singleton (c : Char) :
    a ++ (Medium.ofText (String.singleton c) ++ b) = a ++ .char c :: b := by
  simp [Medium.ofText, Glyph.ofChars]

theorem sql_joined (c : Char) :
    sql d (a ++ .char c :: b) = sql d a ++ (Medium.ofText (String.singleton c) ++ sql d b) := by
  rw [← append_singleton, sql_append, sql_append, sql_ofText]

theorem sql_value (bound : Bool) (v : Value) :
    sql d [.value bound v] = (Rendering.mk d bound).value v := by
  cases bound <;> simp [sql, chars, Glyph.chars, Glyph.params, Rendering.value]

end

theorem chars_value (d : Dialect) (bound : Bool) (v : Value) :
    (∃ c cs, (Glyph.value bound v).chars d = c :: cs ∧ isBlank c = false) ∧
      ∃ c cs, ((Glyph.value bound v).chars d).reverse = c :: cs ∧ isBlank c = false := by
  cases bound with
  | true => exact ⟨⟨'_', _, rfl, by decide⟩, ⟨'_', _, rfl, by decide⟩⟩
  | false =>
    simp only [Glyph.chars, Dialect.literal]
    split_ifs
    · exact ⟨⟨'N', _, rfl, by decide⟩, ⟨'L', _, rfl, by decide⟩⟩
    · exact ⟨⟨'\'', _, by simp; rfl, by decide⟩, ⟨'\'', _, by simp; rfl, by decide⟩⟩

/-- Cutting off blanks commutes with writing characters for the glyphs, the values not blank. -/
theorem flatMap_dropWhile {f : Glyph → List Char} (hchar : ∀ c, f (.char c) = [c])
    (hvalue : ∀ bound v, ∃ c cs, f (.value bound v) = c :: cs ∧ isBlank c = false)
    (draft : Draft) :
    (draft.dropWhile Glyph.isBlank).flatMap f = (draft.flatMap f).dropWhile isBlank := by
  induction draft with
  | nil => rfl
  | cons g draft ih =>
    cases g with
    | char c =>
      by_cases hc : isBlank c = true
      · simpa [Glyph.isBlank, hchar, hc] using ih
      · simp [Glyph.isBlank, hchar, hc]
    | value bound v =>
      obtain ⟨c, cs, hcs, hc⟩ := hvalue bound v
      simp [Glyph.isBlank, hcs, hc]

theorem chars_trim (d : Dialect) (draft : Draft) :
    chars d (trim draft) = Text.trimChars (chars d draft) := by
  have hstart := flatMap_dropWhile (f := Glyph.chars d) (fun _ => rfl)
    (fun bound v => (chars_value d bound v).1) draft
  have hend := flatMap_dropWhile (f := fun g => (g.chars d).reverse) (fun _ => rfl)
    (fun bound v => (chars_value d bound v).2) (draft.dropWhile Glyph.isBlank).reverse
  rw [chars, trim, List.flatMap_reverse]
  change ((_ : Draft).flatMap fun g => (g.chars d).reverse).reverse = _
  rw [hend, List.flatMap_reverse]
  change ((((draft.dropWhile Glyph.isBlank).flatMap fun g =>
    ((g.chars d).reverse).reverse).reverse).dropWhile isBlank).reverse = _
  simp only [List.reverse_reverse]
  rw [hstart]
  rfl

theorem params_dropWhile (draft : Draft) :
    (draft.dropWhile Glyph.isBlank).flatMap Glyph.params = draft.flatMap Glyph.params := by
  induction draft with
  | nil => rfl
  | cons g draft ih =>
    cases g with
    | char c =>
      rw [List.dropWhile_cons]
      split_ifs
      · simpa [Glyph.params] using ih
      · rfl
    | value bound v => rfl

theorem params_trim (draft : Draft) :
    (trim draft).flatMap Glyph.params = draft.flatMap Glyph.params := by
  have hreverse : List.reverse ∘ Glyph.params = Glyph.params := by
    funext g
    rcases g with c | ⟨_ | _, v⟩ <;> rfl
  rw [trim, List.flatMap_reverse, hreverse, params_dropWhile, List.flatMap_reverse, hreverse,
    List.reverse_reverse, params_dropWhile]

theorem sql_trim (d : Dialect) (draft : Draft) :
    sql d (trim draft) = Medium.trim (sql d draft) := by
  ext1
  · rw [← String.toList_inj]
    simp [chars_trim]
  · exact params_trim draft

/-! ## Hand-written SQL written out -/

theorem chars_ofTexts (d : Dialect) (first : List Char) (rest : List (List Char))
    (vs : List Value) :
    chars d (ofTexts first rest vs) = (⟨first, rest⟩ : Pieces).fill Marker.text.toList := by
  induction rest generalizing first vs with
  | nil => simp [ofTexts, Pieces.fill, Pieces.fillFrom, Pieces.fillFrom.go]
  | cons cs rest ih => cases vs <;> simp [ofTexts, ih, Pieces.fill_mk_cons, Glyph.chars]

/-- The text is kept, whether or not there are as many parameters as markers. -/
theorem chars_ofSql (d : Dialect) (x : Sql) : chars d (ofSql x) = x.text.toList := by
  rw [ofSql, chars_ofTexts]
  exact Text.fill_pieces (by decide) x.text.toList

theorem inlined_not_mem_ofTexts (v : Value) (first : List Char) (rest : List (List Char))
    (vs : List Value) : Glyph.value false v ∉ ofTexts first rest vs := by
  induction rest generalizing first vs with
  | nil => simp [ofTexts, Glyph.ofChars]
  | cons cs rest ih => cases vs <;> simp [ofTexts, Glyph.ofChars, ih]

theorem params_ofTexts (first : List Char) {rest : List (List Char)} {vs : List Value}
    (h : rest.length = vs.length) : (ofTexts first rest vs).flatMap Glyph.params = vs := by
  induction rest generalizing first vs with
  | nil =>
    cases vs with
    | nil => exact params_ofChars first
    | cons v vs => simp at h
  | cons cs rest ih =>
    cases vs with
    | nil => simp at h
    | cons v vs => simp [ofTexts, List.flatMap_append, Glyph.params, ih cs (by simpa using h)]

/-- Nothing of a clause written by hand is lost if it has a parameter for every marker. -/
theorem sql_ofSql (d : Dialect) {x : Sql} (h : Marker.count x.text = x.params.length) :
    sql d (ofSql x) = x := by
  ext1
  · rw [text_sql, chars_ofSql, String.ofList_toList]
  · exact params_ofTexts _ h

end Draft

end SqlAssembly
