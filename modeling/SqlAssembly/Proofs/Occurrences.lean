import SqlAssembly.Proofs.Texts

/-! # Occurrences

A search from the left cuts a text at the leftmost occurrence of a pattern in what is left.  What it
finds does not depend on anything before a character that is not in the pattern: the text is read
with its occurrences made out, as a list, and two texts with such a character between them are read
as the two lists appended.  Nor does an occurrence come about around a text that keeps the pattern
apart.
-/
namespace SqlAssembly

namespace Text

/-- The pieces of a text, each cut off at the leftmost occurrence of the pattern in what is left. -/
inductive LeftmostSplit (pattern : List Char) : List Char → List (List Char) → Prop
  | last {cs : List Char} (h : ¬ pattern <:+: cs) : LeftmostSplit pattern cs [cs]
  | cut {left right : List Char} {rest : List (List Char)}
      (leftmost : ∀ before, before ++ pattern <+: left ++ (pattern ++ right) →
        left.length ≤ before.length)
      (h : LeftmostSplit pattern right rest) :
    LeftmostSplit pattern (left ++ (pattern ++ right)) (left :: rest)

namespace LeftmostSplit

variable {pattern cs : List Char} {ps : List (List Char)}

/-- A character at which no occurrence begins belongs to the first piece. -/
theorem cons {c : Char} (hc : ¬ pattern <+: c :: cs) {first : List Char} {rest : List (List Char)}
    (h : LeftmostSplit pattern cs (first :: rest)) :
    LeftmostSplit pattern (c :: cs) ((c :: first) :: rest) := by
  cases h with
  | last hnone => exact .last fun hoccurs => (List.infix_cons_iff.1 hoccurs).elim hc hnone
  | @cut _ right _ leftmost hrest =>
    refine @LeftmostSplit.cut _ (c :: first) right _ (fun before hbefore => ?_) hrest
    cases before with
    | nil => exact absurd hbefore hc
    | cons d before =>
      have hshort := leftmost before (List.cons_prefix_cons.1 hbefore).2
      exact Nat.succ_le_succ hshort

theorem unique {qs : List (List Char)} (h : LeftmostSplit pattern cs ps)
    (h' : LeftmostSplit pattern cs qs) : ps = qs := by
  have hinside (left right : List Char) : pattern <:+: left ++ (pattern ++ right) :=
    ⟨left, right, List.append_assoc ..⟩
  induction h generalizing qs with
  | last hnone =>
    cases h' with
    | last => rfl
    | cut => exact absurd (hinside _ _) hnone
  | @cut left right rest leftmost _ ih =>
    generalize hcs : left ++ (pattern ++ right) = text at h'
    cases h' with
    | last hnone => exact absurd (hcs ▸ hinside left right) hnone
    | @cut left' right' rest' leftmost' h' =>
      have hle : left.length ≤ left'.length := leftmost left' ⟨right', by simp [hcs]⟩
      have hge : left'.length ≤ left.length := leftmost' left ⟨right, by simp [← hcs]⟩
      obtain ⟨rfl, hright⟩ := List.append_inj hcs (Nat.le_antisymm hle hge)
      obtain rfl := List.append_cancel_left hright
      rw [ih h']

theorem infix_of_mem (h : LeftmostSplit pattern cs ps) {p : List Char} (hp : p ∈ ps) :
    p <:+: cs := by
  induction h with
  | last => exact List.mem_singleton.1 hp ▸ List.infix_rfl
  | @cut left right rest _ _ ih =>
    rcases List.mem_cons.1 hp with rfl | hp
    · exact (List.prefix_append p _).isInfix
    · have hright : right <:+: left ++ (pattern ++ right) := ⟨left ++ pattern, [], by simp⟩
      exact (ih hp).trans hright

theorem absent_of_mem (hpattern : pattern ≠ []) (h : LeftmostSplit pattern cs ps) {p : List Char}
    (hp : p ∈ ps) : ¬ pattern <:+: p := by
  induction h with
  | last hnone => exact List.mem_singleton.1 hp ▸ hnone
  | @cut left right rest leftmost _ ih =>
    rcases List.mem_cons.1 hp with rfl | hp
    · rintro ⟨before, after, rfl⟩
      have hshort := leftmost before ⟨after ++ (pattern ++ right), by simp⟩
      have hlength : 0 < pattern.length := List.length_pos_iff.2 hpattern
      simp only [List.length_append] at hshort
      omega
    · exact ih hp

end LeftmostSplit

/-- The search for occurrences splits at the leftmost one each time. -/
theorem leftmostSplit_pieces {pattern : List Char} (h : pattern ≠ []) (cs : List Char) :
    LeftmostSplit pattern cs ((pieces pattern cs).first :: (pieces pattern cs).rest) := by
  -- The search leaps over an occurrence, so the induction is on the length of what is left.
  induction hlength : cs.length using Nat.strongRecOn generalizing cs with
  | ind n ih =>
    subst hlength
    by_cases hstart : pattern <+: cs
    · obtain ⟨right, rfl⟩ := hstart
      have hshorter : right.length < (pattern ++ right).length := by
        rw [List.length_append]
        exact Nat.lt_add_of_pos_left (List.length_pos_iff.2 h)
      rw [pieces_append_left h]
      exact @LeftmostSplit.cut _ [] right _ (fun _ _ => Nat.zero_le _) (ih _ hshorter right rfl)
    · cases cs with
      | nil => exact .last fun hoccurs => hstart (List.infix_nil.1 hoccurs ▸ List.nil_prefix)
      | cons c cs =>
        rw [pieces_cons hstart]
        exact (ih _ (Nat.lt_succ_self _) cs rfl).cons hstart

/-! ## Occurrences made out -/

namespace Pieces

/-- The characters of all pieces, with nothing for every gap. -/
def marked (p : Pieces) : List (Option Char) :=
  p.first.map some ++ p.rest.flatMap fun cs => none :: cs.map some

@[simp] theorem marked_push (c : Char) (p : Pieces) : (p.push c).marked = some c :: p.marked := rfl

@[simp] theorem marked_cut (p : Pieces) : p.cut.marked = none :: p.marked := by
  simp [marked, cut]

/-- The pieces that a list of characters and gaps makes up. -/
def ofMarked : List (Option Char) → Pieces
  | [] => { first := [] }
  | some c :: ms => (ofMarked ms).push c
  | none :: ms => (ofMarked ms).cut

theorem ofMarked_marked (p : Pieces) : ofMarked p.marked = p := by
  rcases p with ⟨first, rest⟩
  have hfirst (cs : List Char) (ms : List (Option Char)) :
      ofMarked (cs.map some ++ ms) = { ofMarked ms with first := cs ++ (ofMarked ms).first } := by
    induction cs with
    | nil => rfl
    | cons c cs ih => exact congrArg (push c) ih
  rw [marked, hfirst]
  induction rest generalizing first with
  | nil => simp [ofMarked]
  | cons cs rest ih =>
    rw [List.flatMap_cons, List.cons_append, ofMarked, hfirst, ih]
    simp [cut]

theorem marked_injective : Function.Injective marked :=
  Function.LeftInverse.injective ofMarked_marked

theorem count_marked (p : Pieces) : p.marked.count none = p.rest.length := by
  rcases p with ⟨first, rest⟩
  have hchars (cs : List Char) : (cs.map some).count (none : Option Char) = 0 := by
    simp [List.count_eq_zero]
  induction rest with
  | nil => simp [marked, hchars]
  | cons cs rest ih =>
    simp only [marked, List.flatMap_cons, List.count_append, hchars, Nat.zero_add] at ih ⊢
    simp [hchars, ih]
    omega

/-- The characters with every gap filled, the gaps counted from `k`. -/
def fillMarked (fill : Nat → List Char) (k : Nat) : List (Option Char) → List Char
  | [] => []
  | some c :: ms => c :: fillMarked fill k ms
  | none :: ms => fill k ++ fillMarked fill (k + 1) ms

theorem fillMarked_chars (fill : Nat → List Char) (k : Nat) (cs : List Char)
    (ms : List (Option Char)) :
    fillMarked fill k (cs.map some ++ ms) = cs ++ fillMarked fill k ms := by
  induction cs with
  | nil => rfl
  | cons c cs ih => exact congrArg (c :: ·) ih

theorem fillFrom_eq (fill : Nat → List Char) (k : Nat) (p : Pieces) :
    p.fillFrom fill k = fillMarked fill k p.marked := by
  rcases p with ⟨first, rest⟩
  rw [fillFrom, marked, fillMarked_chars]
  congr 1
  induction rest generalizing k with
  | nil => rfl
  | cons cs rest ih =>
    simp only [fillFrom.go, List.flatMap_cons, List.cons_append, fillMarked, fillMarked_chars, ih,
      List.append_assoc]

theorem fillMarked_const (text : List Char) (k : Nat) (ms : List (Option Char)) :
    fillMarked (fun _ => text) k ms = ms.flatMap fun m => m.elim text ([·]) := by
  induction ms generalizing k with
  | nil => rfl
  | cons m ms ih =>
    rw [List.flatMap_cons, ← ih (k + 1)]
    cases m with
    | none => rfl
    | some c => rw [fillMarked, ih k, ← ih (k + 1)]; rfl

theorem fill_eq_marked (text : List Char) (p : Pieces) :
    p.fill text = p.marked.flatMap fun m => m.elim text ([·]) := by
  rw [fill, fillFrom_eq, fillMarked_const]

/-- The gaps are filled in order, each in front of its piece. -/
theorem fillFrom_eq_zipIdx (fill : Nat → List Char) (k : Nat) (p : Pieces) :
    p.fillFrom fill k = p.first ++ (p.rest.zipIdx k).flatMap fun q => fill q.2 ++ q.1 := by
  rcases p with ⟨first, rest⟩
  rw [fillFrom]
  congr 1
  induction rest generalizing k with
  | nil => rfl
  | cons cs rest ih => simp only [fillFrom.go, ih, List.zipIdx_cons, List.flatMap_cons]

theorem fill_eq_flatMap (text : List Char) (p : Pieces) :
    p.fill text = p.first ++ p.rest.flatMap (text ++ ·) := by
  have hzip : (p.rest.zipIdx 0).flatMap (fun q => text ++ q.1) =
      ((p.rest.zipIdx 0).map Prod.fst).flatMap (text ++ ·) := (List.flatMap_map ..).symm
  rw [fill, fillFrom_eq_zipIdx, hzip, List.zipIdx_map_fst]

/-- Gaps that are filled with one character and something else each belong to that character, if the
rest is counted as part of the piece. -/
theorem fillFrom_headed (c : Char) (tail : Nat → List Char) (k : Nat) (p : Pieces) :
    p.fillFrom (fun i => c :: tail i) k =
      (⟨p.first, (p.rest.zipIdx k).map fun q => tail q.2 ++ q.1⟩ : Pieces).fill [c] := by
  rw [fillFrom_eq_zipIdx, fill_eq_flatMap, List.flatMap_map]
  rfl

/-- Pieces that are put together with a character of no piece are told apart again. -/
theorem pieces_fill_singleton {c : Char} {first : List Char} {rest : List (List Char)}
    (hfirst : c ∉ first) (hrest : ∀ cs ∈ rest, c ∉ cs) :
    pieces [c] ((⟨first, rest⟩ : Pieces).fill [c]) = ⟨first, rest⟩ := by
  induction rest generalizing first with
  | nil =>
    have hfill : (⟨first, []⟩ : Pieces).fill [c] = first := List.append_nil first
    rw [hfill]
    exact pieces_of_not_mem fun hoccurs => hfirst (hoccurs.subset (List.mem_singleton_self c))
  | cons cs rest ih =>
    have ih := ih (hrest cs (List.mem_cons_self ..))
      fun ds hds => hrest ds (List.mem_cons_of_mem cs hds)
    rw [fill_mk_cons]
    induction first with
    | nil => rw [List.nil_append, pieces_append_left (List.cons_ne_nil c []), ih]; rfl
    | cons d first ihfirst =>
      have hd : c ≠ d := fun h => hfirst (h ▸ List.mem_cons_self ..)
      have hnot : ¬ [c] <+: d :: (first ++ ([c] ++ (⟨cs, rest⟩ : Pieces).fill [c])) := by
        simp [List.cons_prefix_cons, hd]
      rw [List.cons_append, pieces_cons hnot,
        ihfirst fun h => hfirst (List.mem_cons_of_mem d h)]
      rfl

end Pieces

theorem marked_joined {pattern : List Char} (hpattern : pattern ≠ []) {c : Char} (hc : c ∉ pattern)
    (a b : List Char) :
    (pieces pattern (a ++ c :: b)).marked =
      (pieces pattern a).marked ++ some c :: (pieces pattern b).marked := by
  -- The search leaps over an occurrence, so the induction is on the length of what is before `c`.
  induction hlength : a.length using Nat.strongRecOn generalizing a with
  | ind n ih =>
    subst hlength
    by_cases hstart : pattern <+: a
    · obtain ⟨rest, rfl⟩ := hstart
      have hshorter : rest.length < (pattern ++ rest).length := by
        rw [List.length_append]
        exact Nat.lt_add_of_pos_left (List.length_pos_iff.2 hpattern)
      rw [List.append_assoc, pieces_append_left hpattern, pieces_append_left hpattern,
        Pieces.marked_cut, Pieces.marked_cut, ih _ hshorter rest rfl]
      rfl
    · have hnot : ¬ pattern <+: a ++ c :: b := fun h => hstart (prefix_before hc h)
      cases a with
      | nil => exact congrArg Pieces.marked (pieces_cons hnot)
      | cons d a =>
        rw [List.cons_append] at hnot ⊢
        rw [pieces_cons hnot, pieces_cons hstart, Pieces.marked_push, Pieces.marked_push,
          ih _ (Nat.lt_succ_self _) a rfl]
        rfl

/-! ## Texts that keep a pattern apart -/

/-- A text keeps a pattern apart if no occurrence reaches into it: wherever the text stands, what
occurs there occurs on one side of it. -/
def Apart (pattern text : List Char) : Prop :=
  ∀ left right, pattern <:+: left ++ (text ++ right) → pattern <:+: left ∨ pattern <:+: right

namespace Apart

variable {pattern text : List Char}

theorem cons {c : Char} (hc : c ∉ pattern) (h : Apart pattern text) :
    Apart pattern (c :: text) := by
  intro left right hoccurs
  rcases infix_beside hc hoccurs with hleft | hrest
  · exact .inl hleft
  · refine (h [] right hrest).imp_left fun hnil => ?_
    exact hnil.trans List.nil_infix

theorem of_forall (hne : text ≠ []) (h : ∀ c ∈ text, c ∉ pattern) : Apart pattern text := by
  induction text with
  | nil => exact absurd rfl hne
  | cons c text ih =>
    have hc : c ∉ pattern := h c (List.mem_cons_self ..)
    cases text with
    | nil => exact fun left right hoccurs => infix_beside hc hoccurs
    | cons d text =>
      exact (ih (List.cons_ne_nil d text) fun e he => h e (List.mem_cons_of_mem c he)).cons hc

/-- A text without an occurrence, with a character at either end that is not in the pattern. -/
theorem of_ends (hfirst : text.head?.any (· ∉ pattern) = true)
    (hlast : text.getLast?.any (· ∉ pattern) = true) (hnone : ¬ pattern <:+: text) :
    Apart pattern text := by
  intro left right hoccurs
  obtain ⟨c, hhead, hc⟩ : ∃ c, text.head? = some c ∧ c ∉ pattern := by
    simpa [Option.any_eq_true] using hfirst
  obtain ⟨d, htail, hd⟩ : ∃ d, text.getLast? = some d ∧ d ∉ pattern := by
    simpa [Option.any_eq_true] using hlast
  obtain ⟨inner, rfl⟩ := List.getLast?_eq_some_iff.1 htail
  -- An occurrence that begins left of the last character is inside of the text or to its left.
  rw [List.append_assoc, ← List.append_assoc left inner] at hoccurs
  refine (infix_beside hd hoccurs).imp_left fun hleft => ?_
  cases inner with
  | nil => simpa using hleft
  | cons e inner =>
    obtain rfl : e = c := by simpa using hhead
    refine (infix_beside hc hleft).resolve_right fun hinner => hnone ?_
    exact hinner.trans ⟨[e], [d], by simp⟩

end Apart

/-- Texts that keep a pattern apart do not make up an occurrence with pieces that hold none. -/
theorem not_infix_fillFrom {pattern : List Char} {fill : Nat → List Char}
    (hfill : ∀ k, Apart pattern (fill k)) {p : Pieces} (hfirst : ¬ pattern <:+: p.first)
    (hrest : ∀ cs ∈ p.rest, ¬ pattern <:+: cs) (k : Nat) : ¬ pattern <:+: p.fillFrom fill k := by
  rcases p with ⟨first, rest⟩
  induction rest generalizing first k with
  | nil => simpa [Pieces.fillFrom, Pieces.fillFrom.go] using hfirst
  | cons cs rest ih =>
    have hcs := ih (k + 1) cs (hrest cs (List.mem_cons_self ..))
      fun ds hds => hrest ds (List.mem_cons_of_mem cs hds)
    rw [Pieces.fillFrom, Pieces.fillFrom.go, List.append_assoc]
    intro hoccurs
    exact (hfill k _ _ hoccurs).elim hfirst hcs

/-! ## Occurrences replaced -/

section
variable {pattern replacement s : String}

theorem replace_of_absent (h : ¬ pattern.toList <:+: s.toList) :
    replace pattern replacement s = s := by
  rw [replace, pieces_of_not_mem h]
  simp [Pieces.fill, Pieces.fillFrom, Pieces.fillFrom.go]

/-- What stands on either side of a character that is not in the pattern is replaced apart. -/
theorem replace_joined (hpattern : pattern.toList ≠ []) {c : Char} (hc : c ∉ pattern.toList)
    (s t : String) :
    replace pattern replacement (s ++ (String.singleton c ++ t)) =
      replace pattern replacement s ++ (String.singleton c ++ replace pattern replacement t) := by
  rw [← String.toList_inj]
  simp [replace, Pieces.fill_eq_marked, marked_joined hpattern hc]

theorem not_infix_replace_self (hpattern : pattern.toList ≠ [])
    (h : Apart pattern.toList replacement.toList) (s : String) :
    ¬ pattern.toList <:+: (replace pattern replacement s).toList := by
  have hsplit := leftmostSplit_pieces hpattern s.toList
  rw [replace, String.toList_ofList]
  exact not_infix_fillFrom (fun _ => h) (hsplit.absent_of_mem hpattern (List.mem_cons_self ..))
    (fun cs hcs => hsplit.absent_of_mem hpattern (List.mem_cons_of_mem _ hcs)) 0

/-- No occurrence of another pattern comes about if the replacement keeps that one apart. -/
theorem not_infix_replace (hpattern : pattern.toList ≠ []) {other : List Char}
    (h : Apart other replacement.toList) (hs : ¬ other <:+: s.toList) :
    ¬ other <:+: (replace pattern replacement s).toList := by
  have hsplit := leftmostSplit_pieces hpattern s.toList
  have hpiece {cs : List Char}
      (hcs : cs ∈ (pieces pattern.toList s.toList).first :: (pieces pattern.toList s.toList).rest) :
      ¬ other <:+: cs := fun hoccurs => hs (hoccurs.trans (hsplit.infix_of_mem hcs))
  rw [replace, String.toList_ofList]
  exact not_infix_fillFrom (fun _ => h) (hpiece (List.mem_cons_self ..))
    (fun cs hcs => hpiece (List.mem_cons_of_mem _ hcs)) 0

end

end Text

end SqlAssembly
