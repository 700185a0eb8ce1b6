import Mathlib.Data.List.Count
import Mathlib.Data.List.Perm.Basic
import SqlAssembly.Composer.Suffix
import SqlAssembly.Proofs.Alike.Basic

/-! # The arrangement of clauses

Whether clauses are accepted depends on how many there are of each kind, and what they are arranged
to depends on the order within each kind.  Where the grammar has one clause of a kind at most there
is no order within it, so only conditions, joins and unions may not be exchanged.
-/
namespace SqlAssembly
open List (Perm)

/-- The same failure, or two fragments refused for different reasons. -/
inductive Error.SameVariant : Error → Error → Prop
  | same (e : Error) : SameVariant e e
  | invalidFragment (cause cause' : Misfit) :
    SameVariant (.invalidFragment cause) (.invalidFragment cause')

namespace Clause

variable {σ : Type}

/-- Clauses in another order, the order among conditions, among joins and among unions kept. -/
structure Reordered (clauses clauses' : List (Clause σ)) : Prop where
  perm : clauses.Perm clauses'
  forest : forest clauses = forest clauses'
  joins : (fragments clauses).filter (·.kind = .join) = (fragments clauses').filter (·.kind = .join)
  unions :
    (fragments clauses).filter (·.kind = .union) = (fragments clauses').filter (·.kind = .union)

/-- One fragment at most of every kind that may not be repeated. -/
def Single (fs : List (Fragment σ)) : Prop :=
  ∀ k : ClauseKind, k.isRepeatable = false → (fs.filter (·.kind = k)).length ≤ 1

/-- Fragments of which a statement may carry all, those of `seen` being carried already. -/
structure Accepted (allowed seen : List ClauseKind) (fs : List (Fragment σ)) : Prop where
  allowed : ∀ f ∈ fs, f.kind ∈ allowed
  single : ∀ k : ClauseKind, k.isRepeatable = false →
    (fs.filter (·.kind = k)).length + (if k ∈ seen then 1 else 0) ≤ 1

theorem Accepted.of_append {allowed seen : List ClauseKind} {fs gs : List (Fragment σ)}
    (h : Accepted allowed seen (fs ++ gs)) : Accepted allowed seen fs where
  allowed f hf := h.allowed f (List.mem_append_left gs hf)
  single k hk := by
    have hsingle := h.single k hk
    rw [List.filter_append, List.length_append] at hsingle
    omega

theorem filter_kind_eq_nil_iff {fs : List (Fragment σ)} {k : ClauseKind} :
    fs.filter (·.kind = k) = [] ↔ ∀ f ∈ fs, f.kind ≠ k := by
  simp [List.filter_eq_nil_iff]

/-- Fragments that are the same up to their order, and in the same order within each kind that may
be repeated. -/
structure Rearranged (fs gs : List (Fragment σ)) : Prop where
  perm : fs.Perm gs
  repeatable : ∀ k : ClauseKind, k.isRepeatable = true →
    fs.filter (·.kind = k) = gs.filter (·.kind = k)

theorem Reordered.fragments {clauses clauses' : List (Clause σ)} (h : Reordered clauses clauses') :
    Rearranged (fragments clauses) (fragments clauses') where
  perm := h.perm.filterMap _
  repeatable k hk := by
    have hcases : k = .join ∨ k = .union := by simpa [ClauseKind.isRepeatable] using hk
    rcases hcases with rfl | rfl
    · exact h.joins
    · exact h.unions

theorem Accepted.toSingle {allowed : List ClauseKind} {fs : List (Fragment σ)}
    (h : Accepted allowed [] fs) : Single fs := fun k hk => by
  simpa using h.single k hk

namespace Rearranged

variable {fs gs : List (Fragment σ)} (h : Rearranged fs gs)
include h

theorem symm : Rearranged gs fs where
  perm := h.perm.symm
  repeatable k hk := (h.repeatable k hk).symm

theorem append (f : Fragment σ) : Rearranged (fs ++ [f]) (gs ++ [f]) where
  perm := h.perm.append_right [f]
  repeatable k hk := by rw [List.filter_append, List.filter_append, h.repeatable k hk]

theorem any_kind (k : ClauseKind) : fs.any (·.kind = k) = gs.any (·.kind = k) :=
  h.perm.any_eq

theorem accepted {allowed seen : List ClauseKind} (hfs : Accepted allowed seen fs) :
    Accepted allowed seen gs where
  allowed f hf := hfs.allowed f (h.perm.mem_iff.2 hf)
  single k hk := by
    rw [← (h.perm.filter _).length_eq]
    exact hfs.single k hk

/-- Where the order within a kind is not given, there is one fragment of the kind at most. -/
theorem filter_eq (hsingle : Single fs) (k : ClauseKind) :
    fs.filter (·.kind = k) = gs.filter (·.kind = k) := by
  cases hk : k.isRepeatable with
  | true => exact h.repeatable k hk
  | false =>
    have hperm := h.perm.filter (fun f => decide (f.kind = k))
    have hone := hsingle k hk
    generalize fs.filter (fun f => decide (f.kind = k)) = a at hperm hone
    match a, hone with
    | [], _ => exact hperm.nil_eq
    | [f], _ => exact (List.perm_singleton.1 hperm.symm).symm

theorem inGrammarOrder (hsingle : Single fs) : inGrammarOrder fs = inGrammarOrder gs := by
  simp only [Clause.inGrammarOrder, h.filter_eq hsingle]

end Rearranged

theorem checkHaving_rearranged {fs gs : List (Fragment σ)} (h : Rearranged fs gs) :
    checkHaving fs = checkHaving gs := by
  simp only [checkHaving, h.any_kind]

/-! ## The order of the grammar -/

theorem map_kind_filter (fs : List (Fragment σ)) (k : ClauseKind) :
    (fs.filter (·.kind = k)).map (·.kind) =
      List.replicate (fs.filter (·.kind = k)).length k := by
  rw [List.eq_replicate_iff]
  simp +contextual

/-- A sublist of the kinds of the grammar, each but the repeatable ones once. -/
theorem Single.grammar {fs : List (Fragment σ)} (hfs : Single fs) (hraw : ∀ f ∈ fs, f.kind ≠ .raw) :
    ((inGrammarOrder fs).map (·.kind)).Sublist
      (List.replicate (fs.filter (·.kind = .join)).length .join ++
        [.whereRows, .groupBy, .having, .orderBy, .limit] ++
        List.replicate (fs.filter (·.kind = .union)).length .union) := by
  have hone (k : ClauseKind) (hk : k.isRepeatable = false) :
      ((fs.filter (·.kind = k)).map (·.kind)).Sublist [k] := by
    rw [map_kind_filter]
    exact List.replicate_sublist_replicate k |>.2 (hfs k hk)
  have hnone : fs.filter (fun f => decide (f.kind = .raw)) = [] := filter_kind_eq_nil_iff.2 hraw
  simp only [inGrammarOrder, ClauseKind.grammar, List.flatMap_cons, List.flatMap_nil,
    List.map_append, List.append_nil, hnone, List.append_assoc]
  rw [map_kind_filter fs .join, map_kind_filter fs .union]
  refine (List.Sublist.refl _).append ?_
  exact (hone .whereRows rfl).append ((hone .groupBy rfl).append ((hone .having rfl).append
    ((hone .orderBy rfl).append ((hone .limit rfl).append (.refl _)))))

theorem flatMap_filter_perm (fs : List (Fragment σ)) {ks : List ClauseKind} (hks : ks.Nodup) :
    (ks.flatMap fun k => fs.filter (·.kind = k)).Perm (fs.filter (·.kind ∈ ks)) := by
  induction ks with
  | nil => simp
  | cons k ks ih =>
    obtain ⟨hk, hks⟩ := List.nodup_cons.1 hks
    -- The fragments of the kinds `k :: ks` are those of `k` and the others.
    have hsplit := List.filter_append_perm (fun f : Fragment σ => decide (f.kind = k))
      (fs.filter (·.kind ∈ k :: ks))
    rw [List.filter_filter, List.filter_filter] at hsplit
    refine .trans ?_ hsplit
    rw [List.flatMap_cons]
    refine .append (.of_eq ?_) ((ih hks).trans (.of_eq ?_))
    · refine List.filter_congr fun f _ => ?_
      by_cases hf : f.kind = k <;> simp [hf]
    · refine List.filter_congr fun f _ => ?_
      by_cases hf : f.kind = k <;> simp [hf, hk]

theorem inGrammarOrder_perm (fs : List (Fragment σ)) : fs.Perm (inGrammarOrder fs) := by
  have hgrammar : ClauseKind.grammar.Nodup := by decide
  have h := flatMap_filter_perm fs hgrammar
  have hall : fs.filter (fun f => decide (f.kind ∈ ClauseKind.grammar)) = fs := by
    refine List.filter_eq_self.2 fun f _ => ?_
    cases f.kind <;> decide
  rw [hall] at h
  exact h.symm

theorem filter_inGrammarOrder (fs : List (Fragment σ)) (k : ClauseKind) :
    (inGrammarOrder fs).filter (·.kind = k) = fs.filter (·.kind = k) := by
  have hother (j : ClauseKind) : (fs.filter (·.kind = j)).filter (·.kind = k) =
      if j = k then fs.filter (·.kind = k) else [] := by
    split_ifs with hjk
    · subst hjk
      simp
    · rw [List.filter_filter, List.filter_eq_nil_iff]
      rintro f -
      simpa using fun hk hj => hjk (hj.symm.trans hk)
  simp only [inGrammarOrder, List.filter_flatMap, hother]
  cases k <;> simp [ClauseKind.grammar]

theorem inGrammarOrder_rearranged (fs : List (Fragment σ)) : Rearranged fs (inGrammarOrder fs) where
  perm := inGrammarOrder_perm fs
  repeatable k _ := (filter_inGrammarOrder fs k).symm

/-! ## Clauses accepted and arranged -/

variable [Medium σ]

theorem check_eq_ok_iff {allowed seen : List ClauseKind} {fs : List (Fragment σ)} :
    check allowed seen fs = .ok () ↔ Accepted allowed seen fs := by
  induction fs generalizing seen with
  | nil =>
    refine ⟨fun _ => ⟨by simp, fun k _ => ?_⟩, fun _ => rfl⟩
    simp only [List.filter_nil, List.length_nil]
    split_ifs <;> omega
  | cons f fs ih =>
    rw [check]
    split_ifs with hallowed hseen
    · refine ⟨fun h => by simp at h, fun h => ?_⟩
      have hsingle := h.single f.kind (by simpa using hseen.2)
      simp [hseen.1] at hsingle
    · rw [ih]
      -- A kind counts as seen from its first fragment on.
      have hcount (k : ClauseKind) (hk : k.isRepeatable = false) :
          ((f :: fs).filter (·.kind = k)).length + (if k ∈ seen then 1 else 0) =
            (fs.filter (·.kind = k)).length + (if k ∈ f.kind :: seen then 1 else 0) := by
        by_cases hfk : f.kind = k
        · subst hfk
          have hnot : f.kind ∉ seen := fun hmem => hseen ⟨hmem, by simp [hk]⟩
          simp [hnot]
        · simp [hfk, Ne.symm hfk]
      constructor
      · intro h
        refine ⟨List.forall_mem_cons.2 ⟨hallowed, h.allowed⟩, fun k hk => ?_⟩
        rw [hcount k hk]
        exact h.single k hk
      · intro h
        refine ⟨(List.forall_mem_cons.1 h.allowed).2, fun k hk => ?_⟩
        rw [← hcount k hk]
        exact h.single k hk
    · refine ⟨fun h => by simp at h, fun h => ?_⟩
      exact absurd (h.allowed f (List.mem_cons_self ..)) hallowed

theorem check_error {allowed seen : List ClauseKind} {fs : List (Fragment σ)} {e : Error}
    (h : check allowed seen fs = .error e) : ∃ cause, e = .invalidFragment cause := by
  induction fs generalizing seen with
  | nil => simp [check] at h
  | cons f fs ih =>
    rw [check] at h
    split_ifs at h
    · exact ⟨_, (Except.error.inj h).symm⟩
    · exact ih h
    · exact ⟨_, (Except.error.inj h).symm⟩

theorem check_rearranged {allowed seen : List ClauseKind} {fs gs : List (Fragment σ)}
    (h : Rearranged fs gs) :
    SameFate Error.SameVariant (fun _ _ => Accepted allowed seen fs) (check allowed seen fs)
      (check allowed seen gs) := by
  cases hfs : check allowed seen fs with
  | ok =>
    have haccepted := check_eq_ok_iff.1 hfs
    rw [check_eq_ok_iff.2 (h.accepted haccepted)]
    exact .ok haccepted
  | error e =>
    cases hgs : check allowed seen gs with
    | ok =>
      have haccepted := h.symm.accepted (check_eq_ok_iff.1 hgs)
      rw [check_eq_ok_iff.2 haccepted] at hfs
      cases hfs
    | error f =>
      obtain ⟨cause, rfl⟩ := check_error hfs
      obtain ⟨cause', rfl⟩ := check_error hgs
      exact .error (.invalidFragment cause cause')

/-- Conditions are added as a `WHERE` clause, and only where there is none. -/
theorem withForest_ok {value : Value → σ} {fs all : List (Fragment σ)} {trees : List Tree}
    (h : withForest value fs trees = .ok all) :
    (trees = [] ∧ all = fs) ∨ (trees ≠ [] ∧ (∀ f ∈ fs, f.kind ≠ .whereRows) ∧
      ∃ body, FilterKind.whereRows.ofForest trees = .ok body ∧
        all = fs ++ [⟨.whereRows, Template.write value body⟩]) := by
  rw [withForest] at h
  split_ifs at h with hnone hwhere
  · exact .inl ⟨List.isEmpty_iff.1 hnone, (Except.ok.inj h).symm⟩
  · obtain ⟨body, hbody, hall⟩ := bind_eq_ok.1 h
    refine .inr ⟨by simpa using hnone, by simpa using hwhere, body, hbody, ?_⟩
    exact (Except.ok.inj hall).symm

theorem withForest_nil (value : Value → σ) (fs : List (Fragment σ)) :
    withForest value fs [] = .ok fs := rfl

theorem withForest_of_body {value : Value → σ} {fs : List (Fragment σ)}
    (hnone : ∀ f ∈ fs, f.kind ≠ .whereRows) {trees : List Tree} {body : Template}
    (hbody : FilterKind.whereRows.ofForest trees = .ok body) :
    withForest value fs trees = .ok (fs ++ [⟨.whereRows, Template.write value body⟩]) := by
  have hne : trees.isEmpty = false := by
    cases trees with
    | nil => cases hbody
    | cons t trees => rfl
  have hany : fs.any (·.kind = .whereRows) = false := by simpa using hnone
  simp [withForest, hne, hany, hbody]

theorem withForest_beside {value : Value → σ} {fs : List (Fragment σ)}
    (h : ¬ ∀ f ∈ fs, f.kind ≠ .whereRows) {trees : List Tree} (hne : trees ≠ []) :
    withForest value fs trees = .error (.invalidFragment .besideWhere) := by
  have hany : fs.any (·.kind = .whereRows) = true := by simpa using h
  rw [withForest, if_neg (by simpa using hne), if_pos hany]

theorem Single.withForest {value : Value → σ} {fs all : List (Fragment σ)} (hfs : Single fs)
    {trees : List Tree} (h : withForest value fs trees = .ok all) : Single all := by
  obtain ⟨-, rfl⟩ | ⟨-, hwhere, body, -, rfl⟩ := withForest_ok h
  · exact hfs
  · intro k hk
    rw [List.filter_append, List.length_append]
    by_cases hkind : k = .whereRows
    · subst hkind
      have hnil : fs.filter (fun f => decide (f.kind = .whereRows)) = [] :=
        filter_kind_eq_nil_iff.2 hwhere
      simp [hnil]
    · simpa [Ne.symm hkind] using hfs k hk

theorem withForest_rearranged (value : Value → σ) {fs gs : List (Fragment σ)}
    (h : Rearranged fs gs) (hfs : Single fs) (trees : List Tree) :
    SameFate Error.SameVariant (fun all all' => Rearranged all all' ∧ Single all)
      (withForest value fs trees) (withForest value gs trees) := by
  have hsingle : ∀ all, withForest value fs trees = .ok all → Single all :=
    fun all hall => hfs.withForest hall
  unfold withForest at hsingle ⊢
  rw [← h.any_kind]
  split_ifs at hsingle ⊢
  · exact .ok ⟨h, hfs⟩
  · exact .error (.same _)
  · cases hbody : FilterKind.whereRows.ofForest trees with
    | error e => exact .error (.same e)
    | ok body => exact .ok ⟨h.append _, hsingle _ (by rw [hbody]; rfl)⟩

/-- Clauses in another order come down to the same, or are refused as they were. -/
theorem arrange_reordered (value : Value → σ) (allowed : List ClauseKind)
    {clauses clauses' : List (Clause σ)} (h : Reordered clauses clauses') :
    SameFate Error.SameVariant Eq (arrange value allowed clauses)
      (arrange value allowed clauses') := by
  simp only [arrange]
  apply (check_rearranged h.fragments).bind
  intro _ _ haccepted
  rw [← h.forest]
  apply (withForest_rearranged value h.fragments haccepted.toSingle (forest clauses)).bind
  rintro all all' ⟨hall, hsingle⟩
  rw [checkHaving_rearranged hall, hall.inGrammarOrder hsingle]
  cases checkHaving all' with
  | ok => exact .ok rfl
  | error e => exact .error (.same e)

/-- The fragments that clauses come down to: all of them and the `WHERE` clause of the conditions,
the ones of a repeatable kind in the order given, one clause of every other kind at most, the kinds
in the order of the grammar, and groups filtered only where there are any. -/
structure Arranged (value : Value → σ) (allowed : List ClauseKind) (clauses : List (Clause σ))
    (arranged : List (Fragment σ)) : Prop where
  complete : ∃ all, withForest value (fragments clauses) (forest clauses) = .ok all ∧
    Rearranged all arranged
  allowed : ∀ f ∈ fragments clauses, f.kind ∈ allowed
  grammar : ∃ joins unions, (arranged.map (·.kind)).Sublist
    (List.replicate joins .join ++ [.whereRows, .groupBy, .having, .orderBy, .limit] ++
      List.replicate unions .union)
  grouped : .having ∈ arranged.map (·.kind) → .groupBy ∈ arranged.map (·.kind)

theorem arrange_ok {value : Value → σ} {allowed : List ClauseKind} (hraw : .raw ∉ allowed)
    {clauses : List (Clause σ)} {arranged : List (Fragment σ)}
    (h : arrange value allowed clauses = .ok arranged) :
    Arranged value allowed clauses arranged := by
  obtain ⟨_, hcheck, h⟩ := bind_eq_ok.1 h
  obtain ⟨all, hall, h⟩ := bind_eq_ok.1 h
  obtain ⟨_, hhaving, h⟩ := bind_eq_ok.1 h
  cases h
  have haccepted := check_eq_ok_iff.1 hcheck
  have hkinds : ∀ f ∈ all, f.kind ≠ .raw := by
    have hgiven : ∀ f ∈ fragments clauses, f.kind ≠ .raw :=
      fun f hf heq => hraw (heq ▸ haccepted.allowed f hf)
    obtain ⟨-, rfl⟩ | ⟨-, -, body, -, rfl⟩ := withForest_ok hall
    · exact hgiven
    · exact List.forall_mem_append.2 ⟨hgiven, by simp⟩
  have hsingle := haccepted.toSingle.withForest hall
  refine ⟨⟨all, hall, inGrammarOrder_rearranged all⟩, haccepted.allowed,
    ⟨_, _, hsingle.grammar hkinds⟩, ?_⟩
  rw [checkHaving] at hhaving
  have hperm := (inGrammarOrder_perm all).map (·.kind)
  rw [← hperm.mem_iff, ← hperm.mem_iff]
  split_ifs at hhaving with hgroups
  simpa using hgroups

end Clause

end SqlAssembly
