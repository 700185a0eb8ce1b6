import Mathlib.Data.List.DropRight
import SqlAssembly.Condition.Basic

/-! # Words of texts

The words of a text are what stands between its blanks.  Two texts say the same if their words are
the same up to letter case, however the words are spaced; operators that are given as text are told
apart by what they say.
-/
namespace SqlAssembly

namespace Text

/-- A word: characters, one at least, none of them blank. -/
def IsWord (w : List Char) : Prop := w ≠ [] ∧ ∀ c ∈ w, isBlank c = false

/-- The text consists of the words in their order, with blanks between each two, and of blanks
around them. -/
inductive Spaced : List (List Char) → List Char → Prop
  | none : Spaced [] []
  | blank {b : Char} {ws : List (List Char)} {cs : List Char} (hb : isBlank b = true)
      (h : Spaced ws cs) : Spaced ws (b :: cs)
  | word {w : List Char} {ws : List (List Char)} {cs : List Char} (hw : IsWord w)
      (hcs : ∀ c ∈ cs.head?, isBlank c = true) (h : Spaced ws cs) : Spaced (w :: ws) (w ++ cs)

/-! ## Words cut out -/

theorem wordChars_cons (c : Char) (cs : List Char) : wordChars (c :: cs) =
    if isBlank c then wordChars cs
    else match cs, wordChars cs with
      | d :: _, w :: ws => if isBlank d then [c] :: w :: ws else (c :: w) :: ws
      | _, ws => [c] :: ws := rfl

theorem wordChars_blank {b : Char} (hb : isBlank b = true) (cs : List Char) :
    wordChars (b :: cs) = wordChars cs := by
  rw [wordChars_cons, if_pos hb]

theorem wordChars_last {c : Char} (hc : isBlank c = false) {cs : List Char}
    (hcs : ∀ b ∈ cs.head?, isBlank b = true) : wordChars (c :: cs) = [c] :: wordChars cs := by
  rw [wordChars_cons, hc]
  cases cs with
  | nil => rfl
  | cons b cs =>
    have hb : isBlank b = true := hcs b rfl
    cases wordChars (b :: cs) with
    | nil => rfl
    | cons w ws => simp only [hb, if_true, Bool.false_eq_true, if_false]

theorem wordChars_inside {c d : Char} (hc : isBlank c = false) (hd : isBlank d = false)
    {cs w : List Char} {ws : List (List Char)} (h : wordChars (d :: cs) = w :: ws) :
    wordChars (c :: d :: cs) = (c :: w) :: ws := by
  rw [wordChars_cons, hc, h]
  simp only [hd, Bool.false_eq_true, if_false]

theorem wordChars_word {w cs : List Char} (hw : IsWord w)
    (hcs : ∀ c ∈ cs.head?, isBlank c = true) : wordChars (w ++ cs) = w :: wordChars cs := by
  obtain ⟨hne, hsolid⟩ := hw
  induction w with
  | nil => exact absurd rfl hne
  | cons c w ih =>
    obtain ⟨hc, hrest⟩ := List.forall_mem_cons.1 hsolid
    cases w with
    | nil => exact wordChars_last hc hcs
    | cons d w =>
      have hd : isBlank d = false := hrest d (List.mem_cons_self ..)
      exact wordChars_inside hc hd (ih (List.cons_ne_nil d w) hrest)

theorem Spaced.wordChars_eq {ws : List (List Char)} {cs : List Char} (h : Spaced ws cs) :
    wordChars cs = ws := by
  induction h with
  | none => rfl
  | blank hb h ih => rw [wordChars_blank hb, ih]
  | word hw hcs h ih => rw [wordChars_word hw hcs, ih]

theorem Spaced.begins {ws : List (List Char)} {c : Char} {cs : List Char} (h : Spaced ws (c :: cs))
    (hc : isBlank c = false) : ∃ w rest ws', IsWord (c :: w) ∧ cs = w ++ rest ∧
      ws = (c :: w) :: ws' ∧ (∀ b ∈ rest.head?, isBlank b = true) ∧ Spaced ws' rest := by
  generalize htext : c :: cs = text at h
  cases h with
  | none => cases htext
  | blank hb h =>
    cases htext
    rw [hc] at hb
    cases hb
  | @word w ws rest hw hrest h =>
    obtain ⟨d, w, rfl⟩ := List.exists_cons_of_ne_nil hw.1
    obtain ⟨rfl, rfl⟩ := List.cons.inj htext
    exact ⟨w, rest, ws, hw, rfl, rfl, hrest, h⟩

theorem spaced_wordChars (cs : List Char) : Spaced (wordChars cs) cs := by
  induction cs with
  | nil => exact .none
  | cons c cs ih =>
    by_cases hc : isBlank c = true
    · rw [wordChars_blank hc]
      exact .blank hc ih
    · have hsolid : isBlank c = false := by simpa using hc
      by_cases hcs : ∀ b ∈ cs.head?, isBlank b = true
      · rw [wordChars_last hsolid hcs]
        exact .word ⟨List.cons_ne_nil c [], by simpa using hsolid⟩ hcs ih
      · cases cs with
        | nil => simp at hcs
        | cons d cs =>
          have hd : isBlank d = false := by simpa using hcs
          -- The word that the rest of the text begins with is longer by one character.
          obtain ⟨w, rest, ws, hw, rfl, hws, hrest, hspaced⟩ := ih.begins hd
          rw [wordChars_inside hsolid hd hws]
          have hlonger : IsWord (c :: d :: w) :=
            ⟨List.cons_ne_nil c _, List.forall_mem_cons.2 ⟨hsolid, hw.2⟩⟩
          exact .word hlonger hrest hspaced

theorem Spaced.isWord {ws : List (List Char)} {cs : List Char} (h : Spaced ws cs) :
    ∀ w ∈ ws, IsWord w := by
  induction h with
  | none => simp
  | blank hb h ih => exact ih
  | word hw hcs h ih => exact List.forall_mem_cons.2 ⟨hw, ih⟩

/-! ## Words kept -/

/-- Blanks at the end add no word. -/
theorem Spaced.padded {ws : List (List Char)} {cs : List Char} (h : Spaced ws cs) {b : Char}
    (hb : isBlank b = true) : Spaced ws (cs ++ [b]) := by
  induction h with
  | none => exact .blank hb .none
  | blank hb' h ih => exact .blank hb' ih
  | @word w ws cs hw hcs h ih =>
    rw [List.append_assoc]
    refine .word hw (fun c hc => ?_) ih
    cases cs with
    | nil =>
      obtain rfl : b = c := by simpa using hc
      exact hb
    | cons d cs => exact hcs c hc

theorem wordChars_trimChars (cs : List Char) : wordChars (trimChars cs) = wordChars cs := by
  have hstart : wordChars (trimStartChars cs) = wordChars cs := by
    induction cs with
    | nil => rfl
    | cons c cs ih =>
      by_cases hc : isBlank c = true
      · rw [trimStartChars, List.dropWhile_cons_of_pos hc, wordChars_blank hc]
        exact ih
      · rw [trimStartChars, List.dropWhile_cons_of_neg hc]
  have hend (cs : List Char) : wordChars (trimEndChars cs) = wordChars cs := by
    induction cs using List.reverseRecOn with
    | nil => rfl
    | append_singleton cs c ih =>
      change wordChars (List.rdropWhile isBlank (cs ++ [c])) = _
      by_cases hc : isBlank c = true
      · rw [List.rdropWhile_concat_pos _ _ _ hc, ((spaced_wordChars cs).padded hc).wordChars_eq]
        exact ih
      · rw [List.rdropWhile_concat_neg _ _ _ hc]
  rw [trimChars, hend, hstart]

theorem isBlank_toUpper (c : Char) : isBlank c.toUpper = isBlank c :=
  toUpper_cases (P := fun c d => isBlank d = isBlank c) (fun _ => rfl) (by decide) c

theorem wordChars_upper (cs : List Char) :
    wordChars (cs.map Char.toUpper) = (wordChars cs).map (·.map Char.toUpper) := by
  have hupper {ws : List (List Char)} {cs : List Char} (h : Spaced ws cs) :
      Spaced (ws.map (·.map Char.toUpper)) (cs.map Char.toUpper) := by
    induction h with
    | none => exact .none
    | blank hb h ih => exact .blank (by rwa [isBlank_toUpper]) ih
    | word hw hcs h ih =>
      rw [List.map_append]
      refine .word ⟨by simpa using hw.1, ?_⟩ ?_ ih
      · simpa [isBlank_toUpper] using hw.2
      · simpa [isBlank_toUpper] using hcs
  exact (hupper (spaced_wordChars cs)).wordChars_eq

theorem wordChars_intercalate {ws : List (List Char)} (h : ∀ w ∈ ws, IsWord w) :
    wordChars ([' '].intercalate ws) = ws := by
  induction ws with
  | nil => rfl
  | cons w ws ih =>
    obtain ⟨hw, hws⟩ := List.forall_mem_cons.1 h
    cases ws with
    | nil =>
      have hword : wordChars (w ++ []) = [w] := wordChars_word hw (by simp)
      simpa [List.intercalate] using hword
    | cons v ws =>
      have hblank : isBlank ' ' = true := rfl
      have hsplit : [' '].intercalate (w :: v :: ws) = w ++ ' ' :: [' '].intercalate (v :: ws) := by
        simp [List.intercalate]
      rw [hsplit, wordChars_word hw (by simp [hblank]), wordChars_blank hblank, ih hws]

def raised (ws : List (List Char)) : List (List Char) := ws.map (·.map Char.toUpper)

/-- Two texts of the same words up to the case of ASCII letters, whatever blanks stand around the
words and between them. -/
def SameWords (s t : String) : Prop :=
  ∃ us vs, Spaced us s.toList ∧ Spaced vs t.toList ∧ raised us = raised vs

theorem sameWords_iff {s t : String} :
    SameWords s t ↔ raised (wordChars s.toList) = raised (wordChars t.toList) := by
  constructor
  · rintro ⟨us, vs, hus, hvs, h⟩
    rwa [hus.wordChars_eq, hvs.wordChars_eq]
  · exact fun h => ⟨_, _, spaced_wordChars _, spaced_wordChars _, h⟩

instance (s t : String) : Decidable (SameWords s t) := decidable_of_iff _ sameWords_iff.symm

theorem SameWords.refl (s : String) : SameWords s s := sameWords_iff.2 rfl

theorem SameWords.trans {s t u : String} (h : SameWords s t) (h' : SameWords t u) :
    SameWords s u :=
  sameWords_iff.2 ((sameWords_iff.1 h).trans (sameWords_iff.1 h'))

theorem sameWords_trim (s : String) : SameWords (trim s) s := by
  rw [sameWords_iff, toList_trim, wordChars_trimChars]

end Text

/-! ## Operators -/

theorem canonicalOperator_eq (operator : String) : canonicalOperator operator =
    " ".intercalate ((Text.raised (Text.wordChars operator.toList)).map String.ofList) := by
  rw [canonicalOperator, Text.words, Text.toList_upper, Text.wordChars_upper]
  rfl

theorem wordChars_canonicalOperator (operator : String) :
    Text.wordChars (canonicalOperator operator).toList =
      Text.raised (Text.wordChars operator.toList) := by
  have hwords : ∀ w ∈ Text.raised (Text.wordChars operator.toList), Text.IsWord w := by
    rw [Text.raised, ← Text.wordChars_upper]
    exact (Text.spaced_wordChars _).isWord
  rw [canonicalOperator_eq, String.toList_intercalate, List.map_map]
  simpa using Text.wordChars_intercalate hwords

/-- Operators come down to the same one if they have the same words. -/
theorem canonicalOperator_eq_iff {s t : String} :
    canonicalOperator s = canonicalOperator t ↔ Text.SameWords s t := by
  rw [Text.sameWords_iff]
  constructor
  · intro h
    rw [← wordChars_canonicalOperator, ← wordChars_canonicalOperator, h]
  · intro h
    rw [canonicalOperator_eq, canonicalOperator_eq, h]

end SqlAssembly
