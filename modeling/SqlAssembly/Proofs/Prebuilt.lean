import SqlAssembly.Proofs.Operations
import SqlAssembly.Proofs.Recognition

/-! # Fragments built beforehand

A fragment is as good as its text with its parameters, and conditions are as good as the filter that
they were built into: every operation answers the same, or fails both times.
-/
namespace SqlAssembly
open Medium (ofText)

theorem Fragment.ofText_eq {f : Fragment} (h : classify f.sql.text = f.kind) :
    ofText f.sql.text f.sql.params = f := by
  rw [ofText, h]

/-! ## Filters of conditions -/

section
variable {σ : Type} [Medium σ] (value : Value → σ)

theorem onlyConditions_map (filter : FilterKind) (trees : List Tree) :
    onlyConditions filter (trees.map (.condition (σ := σ))) = .ok trees := by
  induction trees with
  | nil => rfl
  | cons t trees ih => simp [onlyConditions, ih]

theorem filterFragment_conditions (filter : FilterKind) (trees : List Tree) :
    filterFragment value filter (trees.map .condition) =
      (filter.ofForest trees).map fun body => ⟨filter.clauseKind, Template.write value body⟩ := by
  have hbuilt : filterFragment value filter (trees.map .condition) = (do
      let forest ← onlyConditions filter (trees.map (.condition (σ := σ)))
      let body ← filter.ofForest forest
      return ⟨filter.clauseKind, Template.write value body⟩) := by
    cases trees <;> rfl
  rw [hbuilt, onlyConditions_map, map_eq_bind]
  rfl

end

namespace Clause

variable {σ : Type}

@[simp] theorem fragments_map_fragment (fs : List (Fragment σ)) :
    fragments (fs.map .fragment) = fs := by
  simp [fragments]

@[simp] theorem forest_map_fragment (fs : List (Fragment σ)) : forest (fs.map .fragment) = [] := by
  simp [forest]

@[simp] theorem fragments_map_condition (trees : List Tree) :
    fragments (trees.map (.condition (σ := σ))) = [] := by
  simp [fragments]

@[simp] theorem forest_map_condition (trees : List Tree) :
    forest (trees.map (.condition (σ := σ))) = trees := by
  simp [forest]

section
variable {allowed : List ClauseKind} {before after : List (Fragment σ)} {f : Fragment σ}
  (hf : f.kind = .whereRows)
include hf

/-- A filter of rows may stand anywhere among the fragments. -/
theorem rearranged_middle : Rearranged (before ++ f :: after) (before ++ after ++ [f]) where
  perm := List.perm_middle.trans (List.perm_append_singleton _ _).symm
  repeatable k hk := by
    have hne : f.kind ≠ k := by
      rintro rfl
      rw [hf] at hk
      exact absurd hk (by decide)
    simp [hne]

theorem accepted_append_iff (hallowed : .whereRows ∈ allowed) {fs : List (Fragment σ)} :
    Accepted allowed [] (fs ++ [f]) ↔
      Accepted allowed [] fs ∧ ∀ g ∈ fs, g.kind ≠ .whereRows := by
  have hcount (k : ClauseKind) : ((fs ++ [f]).filter (·.kind = k)).length =
      (fs.filter (·.kind = k)).length + if k = .whereRows then 1 else 0 := by
    by_cases hk : k = .whereRows
    · simp [hk, hf]
    · simp [hk, hf, Ne.symm hk]
  constructor
  · intro h
    have hsingle := h.single .whereRows rfl
    rw [hcount] at hsingle
    refine ⟨h.of_append, ?_⟩
    exact filter_kind_eq_nil_iff.1 (List.length_eq_zero_iff.1 (by simpa using hsingle))
  · rintro ⟨h, hnone⟩
    refine ⟨List.forall_mem_append.2 ⟨h.allowed, by simpa [hf] using hallowed⟩, fun k hk => ?_⟩
    rw [hcount]
    by_cases hkind : k = .whereRows
    · simp [hkind, filter_kind_eq_nil_iff.2 hnone]
    · simpa [hkind] using h.single k hk

end

variable [Medium σ] {value : Value → σ} {allowed : List ClauseKind}

/-- Conditions among clauses, and the filter that they were built into anywhere among the other
clauses, are arranged alike. -/
theorem arrange_prebuilt (hallowed : .whereRows ∈ allowed) {clauses : List (Clause σ)}
    {body : Template} (hbody : FilterKind.whereRows.ofForest (forest clauses) = .ok body)
    {before after : List (Fragment σ)} (hfragments : fragments clauses = before ++ after) :
    SameFate Error.SameVariant Eq (arrange value allowed clauses)
      (arrange value allowed
        ((before ++ ⟨.whereRows, Template.write value body⟩ :: after).map .fragment)) := by
  generalize hf : (⟨.whereRows, Template.write value body⟩ : Fragment σ) = f
  have hkind : f.kind = .whereRows := by rw [← hf]
  have hmiddle : Rearranged (before ++ f :: after) (before ++ after ++ [f]) :=
    rearranged_middle hkind
  have haccepted : Accepted allowed [] (before ++ after ++ [f]) ↔
      Accepted allowed [] (before ++ after) ∧ ∀ g ∈ before ++ after, g.kind ≠ .whereRows :=
    accepted_append_iff hkind hallowed
  simp only [arrange, hfragments, fragments_map_fragment, forest_map_fragment, withForest_nil]
  cases hprebuilt : check allowed [] (before ++ f :: after) with
  | ok =>
    have hall := hmiddle.accepted (check_eq_ok_iff.1 hprebuilt)
    obtain ⟨hgiven, hnone⟩ := haccepted.1 hall
    rw [check_eq_ok_iff.2 hgiven, ok_bind, withForest_of_body hnone hbody, hf, ok_bind, ok_bind,
      ok_bind, checkHaving_rearranged hmiddle,
      hmiddle.inGrammarOrder (check_eq_ok_iff.1 hprebuilt).toSingle]
    cases checkHaving (before ++ after ++ [f]) with
    | ok => exact .ok rfl
    | error e => exact .error (.same e)
  | error e =>
    obtain ⟨cause, rfl⟩ := check_error hprebuilt
    cases hgiven : check allowed [] (before ++ after) with
    | error e' =>
      obtain ⟨cause', rfl⟩ := check_error hgiven
      exact .error (.invalidFragment cause' cause)
    | ok =>
      -- The other fragments are accepted, so it is a second filter that is refused.
      have hwhere : ¬ ∀ g ∈ before ++ after, g.kind ≠ .whereRows := fun hnone => by
        have hall := haccepted.2 ⟨check_eq_ok_iff.1 hgiven, hnone⟩
        rw [check_eq_ok_iff.2 (hmiddle.symm.accepted hall)] at hprebuilt
        cases hprebuilt
      have hne : forest clauses ≠ [] := fun hnil => by
        rw [hnil] at hbody
        cases hbody
      rw [ok_bind, withForest_beside hwhere hne]
      exact .error (.invalidFragment _ _)

theorem arrange_conditions {trees : List Tree} (hne : trees ≠ []) :
    arrange value allowed (trees.map .condition) =
      (FilterKind.whereRows.ofForest trees).map fun body =>
        [⟨.whereRows, Template.write value body⟩] := by
  simp only [arrange, fragments_map_condition, forest_map_condition, check, ok_bind]
  cases hbody : FilterKind.whereRows.ofForest trees with
  | error e => simp [withForest, hne, hbody]
  | ok body =>
    rw [withForest_of_body (by simp) hbody]
    rfl

end Clause

/-! ## Fragments that are made -/

namespace Builder

/-- The fragments that are made, by a builder or without one.  Texts written by hand are not, nor
are fragments that a filter hands through. -/
inductive Makes (b : Builder) : Fragment → Prop
  | filter (filter : FilterKind) (trees : List Tree) {f : Fragment}
      (h : (b.fragment (.filter filter (trees.map .condition))).2.result = .ok f) : Makes b f
  | union (all : Bool) (table : String) (columns : List String) (clauses : List Clause)
      {f : Fragment} (h : (b.fragment (.union all table columns clauses)).2.result = .ok f) :
      Makes b f
  | groupBy (columns : List String) {f : Fragment} (h : SqlAssembly.groupBy columns = .ok f) :
      Makes b f
  | orderBy (columns : List String) (direction : Direction) {f : Fragment}
      (h : SqlAssembly.orderBy columns direction = .ok f) : Makes b f
  | limit (count : Nat) (offset : Option Nat) : Makes b (SqlAssembly.limit count offset)
  | join (j : Join) {f : Fragment} (h : j.build = .ok f) : Makes b f

theorem Makes.classify_eq {c : Composer} {calls : List Call} {f : Fragment}
    (h : ((fresh c).after calls).Makes f) : classify f.sql.text = f.kind := by
  cases h with
  | filter filter trees h =>
    rw [result_fragment, FragmentRequest.written, filterFragment_conditions, map_eq_bind] at h
    obtain ⟨body, hbody, h⟩ := bind_eq_ok.1 h
    cases h
    exact classify_filter _ hbody
  | union all table columns clauses h =>
    rw [result_fragment, FragmentRequest.written] at h
    obtain ⟨query, -, h⟩ := bind_eq_ok.1 h
    cases h
    exact classify_union all _
  | groupBy columns h => exact classify_groupBy h
  | orderBy columns direction h => exact classify_orderBy h
  | limit count offset => exact classify_limit count offset
  | join j h => exact classify_join h

/-- Whatever was called before, a fragment that was made is recognised for what it is, so that its
text with its parameters stands for it.  A filter made of conditions stands for them among the
clauses of every operation, and conditions that make no filter fail a query of a table for the same
reason. -/
theorem prebuilt_agrees (c : Composer) (calls : List Call) :
    let b := (fresh c).after calls
    (∀ f, b.Makes f →
        classify f.sql.text = f.kind ∧ Fragment.ofText f.sql.text f.sql.params = f) ∧
      ∀ trees : List Tree, trees ≠ [] →
        (∀ f, (b.fragment (.filter .whereRows (trees.map .condition))).2.result = .ok f →
          ∀ (op : Operation) (clauses : List Clause) (before after : List Fragment),
            Clause.forest clauses = trees → Clause.fragments clauses = before ++ after →
            SameFate Error.SameVariant Eq (b.call (op.call clauses)).2.result
              (b.call (op.call ((before ++ f :: after).map .fragment))).2.result) ∧
        ∀ e, (b.fragment (.filter .whereRows (trees.map .condition))).2.result = .error e →
          ∀ (table : String) (columns : List String), Text.trim table ≠ "" →
            (b.statement (.select table columns (trees.map .condition))).2.result = .error e := by
  intro b
  refine ⟨fun f h => ⟨h.classify_eq, Fragment.ofText_eq h.classify_eq⟩, fun trees hne => ?_⟩
  have hfilter : (b.fragment (.filter .whereRows (trees.map .condition))).2.result =
      (FilterKind.whereRows.ofForest trees).map fun body =>
        ⟨.whereRows, Template.write b.composer.rendering.value body⟩ := by
    rw [result_fragment c calls, FragmentRequest.written, filterFragment_conditions]
    rfl
  rw [hfilter]
  cases hbody : FilterKind.whereRows.ofForest trees with
  | error e =>
    refine ⟨fun f h => by simp at h, fun e' he table columns htable => ?_⟩
    rw [result_statement, StatementRequest.written, selectQuery, tableName, if_neg htable, ok_bind,
      withClauses, Clause.arrange_conditions hne, hbody]
    cases he
    rfl
  | ok body =>
    refine ⟨fun f hf op clauses before after hforest hfragments => ?_, fun e h => by simp at h⟩
    cases hf
    rw [← hforest] at hbody
    rw [result_call, result_call]
    cases op.head b.composer.rendering.value with
    | error e => exact .error (.same e)
    | ok head =>
      apply (Clause.arrange_prebuilt op.whereRows_mem_allowed hbody hfragments).bind
      rintro arranged _ rfl
      exact .ok rfl

/-- A deletion with a condition after its limit, the filter of the condition before it, and a query
of a pattern that no filter can be made of. -/
theorem prebuilt_agrees_delete :
    let c := Composer.ofSettings {}
    let one : Tree := .leaf { column := "a", criterion := .typed (.compare .eq (.int 1)) }
    let plain : Tree := .leaf { column := "a", criterion := .typed (.like false (.text "x")) }
    let filtered (tree : Tree) :=
      ((fresh c).fragment (.filter .whereRows [.condition tree])).2.result
    let deleted (clauses : List Clause) :=
      ((fresh c).call ((Operation.delete "users").call clauses)).2.result
    let filter : Fragment := ⟨.whereRows, ⟨" WHERE a = __param__ ", [.int 1]⟩⟩
    let limit : Fragment := limit 5 none
    let users : Reply := .statement
      ⟨.delete, ⟨"DELETE FROM users WHERE a = __param__ LIMIT 5 ", [.int 1]⟩, true⟩
    filtered one = .ok filter ∧ Fragment.ofText filter.sql.text filter.sql.params = filter ∧
      deleted [.fragment limit, .condition one] = .ok users ∧
      deleted [.fragment filter, .fragment limit] = .ok users ∧
      filtered plain = .error (.missingWildcard "x") ∧
      ((fresh c).statement (.select "users" [] [.condition plain])).2.result =
        .error (.missingWildcard "x") := by
  intro c one plain filtered deleted filter limit users
  have hfilter : filtered one = .ok filter := by decide +kernel
  have hdeleted : deleted [.fragment limit, .condition one] = .ok users := by decide +kernel
  have hplain : filtered plain = .error (.missingWildcard "x") := by decide +kernel
  obtain ⟨hmade, htrees⟩ := prebuilt_agrees c []
  have hretold := (hmade filter (.filter .whereRows [one] hfilter)).2
  have hsame : SameFate Error.SameVariant Eq (deleted [.fragment limit, .condition one])
      (deleted [.fragment filter, .fragment limit]) :=
    (htrees [one] (by simp)).1 filter hfilter (.delete "users") _ [] [limit] rfl rfl
  refine ⟨hfilter, hretold, hdeleted, ?_, hplain, ?_⟩
  · rw [hdeleted] at hsame
    generalize deleted [.fragment filter, .fragment limit] = answered at hsame ⊢
    cases hsame with
    | ok h => rw [← h]
  · exact (htrees [plain] (by simp)).2 _ hplain "users" [] (by decide)

end Builder

end SqlAssembly
