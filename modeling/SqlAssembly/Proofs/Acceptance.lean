import SqlAssembly.Proofs.Faults
import SqlAssembly.Proofs.Prebuilt

/-! # Conditions that are accepted

A clause is made of a forest if every part is well formed: the groups have conditions, and every
condition names a column and asks something of it by a verb that takes its values.  Otherwise the
error is the first fault of the forest, or that of the first condition that offends.
-/
namespace SqlAssembly
open Text (SameWords)

/-! ## Values that a verb takes -/

def CompareOp.orders : CompareOp → Bool
  | .lt | .le | .gt | .ge => true
  | .eq | .lessGreater | .bangEq => false

theorem CompareOp.orders_eq_false {op : CompareOp} :
    op.orders = false ↔ op = .eq ∨ op.isNegative = true := by
  cases op <;> decide

/-- A text that can match more than itself. -/
def Wild (pattern : String) : Prop := '%' ∈ pattern.toList ∨ '_' ∈ pattern.toList

/-- The marker has a wildcard in it, so to look for it as well makes no difference. -/
theorem wild_of_contains_marker {pattern : String}
    (h : Text.contains Marker.text.toList pattern.toList = true) : Wild pattern :=
  .inr ((Text.contains_iff.1 h).subset (by decide))

theorem hasWildcard_iff_wild {pattern : String} : hasWildcard pattern = true ↔ Wild pattern := by
  have hwild : (pattern.toList.any fun c => c = '%' ∨ c = '_') = true ↔ Wild pattern := by
    simp only [Wild, List.any_eq_true, decide_eq_true_eq]
    grind
  rw [hasWildcard, Bool.or_eq_true, hwild]
  exact or_iff_left_of_imp wild_of_contains_marker

theorem oneValue_error {column operator : String} {values : List Value} (h : values.length ≠ 1) :
    oneValue column operator values =
      .error (.malformedCondition (.oneValue column operator values.length)) := by
  match values with
  | [] => rfl
  | [_] => simp at h
  | _ :: _ :: _ => rfl

theorem twoBounds_error {column operator : String} {values : List Value} (h : values.length ≠ 2) :
    twoBounds column operator values =
      .error (.malformedCondition (.twoBounds column operator values.length)) := by
  match values with
  | [] => rfl
  | [_] => rfl
  | [_, _] => simp at h
  | _ :: _ :: _ :: _ => rfl

def Criterion.values : Criterion → List Value
  | .typed p => p.values
  | .spelled _ values => values

namespace Verb

/-- As many values as a verb takes; a test for null takes a null at most. -/
def Takes : Verb → List Value → Prop
  | .compare _, values => values.length = 1
  | .like _, values => values.length = 1
  | .oneOf _, _ => True
  | .between _, values => values.length = 2
  | .isNull _, values => values = [] ∨ ∃ v, values = [v] ∧ v.isNullToken = true

/-- Values that a verb can be asked of: a null has no place in an order, and a pattern is neither a
null nor without a wildcard. -/
def Accepts : Verb → List Value → Prop
  | .compare op, values => op.orders = true → ∀ v ∈ values, v.isNullToken = false
  | .like _, values => ∀ v ∈ values, v.isNullToken = false ∧ Wild v.literalText
  | .oneOf _, _ | .between _, _ | .isNull _, _ => True

def miscount (column : String) (got : Nat) (verb : Verb) : Malformation :=
  match verb with
  | .compare _ | .like _ => .oneValue column verb.operator got
  | .between _ => .twoBounds column verb.operator got
  -- Membership takes any values, so that only a test for null is meant.
  | .isNull _ | .oneOf _ => .onlyNull column verb.operator

/-- What is wrong with the values that a verb is given. -/
inductive Offends (column : String) : Verb → List Value → Error → Prop
  | miscounted {verb : Verb} {values : List Value} (h : ¬ verb.Takes values) :
    Offends column verb values (.malformedCondition (verb.miscount column values.length))
  | unordered {op : CompareOp} {v : Value} (hop : op.orders = true) (hv : v.isNullToken = true) :
    Offends column (.compare op) [v]
      (.malformedCondition (.nullComparison (Text.trim column) op))
  | nullPattern {negated : Bool} {v : Value} (hv : v.isNullToken = true) :
    Offends column (.like negated) [v] (.malformedCondition (.nullPattern (Text.trim column)))
  | plainPattern {negated : Bool} {v : Value} (hv : v.isNullToken = false)
      (hwild : ¬ Wild v.literalText) :
    Offends column (.like negated) [v] (.missingWildcard v.literalText)

def test (column : String) (values : List Value) (verb : Verb) : Except Error Test := do
  let p ← verb.predicate column values
  p.test (Text.trim column)

section
variable {column : String} {verb : Verb} {values : List Value}

theorem test_compare (op : CompareOp) (v : Value) :
    (compare op).test column [v] = (Predicate.compare op v).test (Text.trim column) := rfl

theorem test_like (negated : Bool) (v : Value) :
    (like negated).test column [v] = (Predicate.like negated v).test (Text.trim column) := rfl

theorem onlyNull_error {negated : Bool} {operator : String} (h : ¬ (isNull negated).Takes values) :
    onlyNull column operator values =
      .error (.malformedCondition (.onlyNull column operator)) := by
  match values with
  | [] => simp [Takes] at h
  | [v] =>
    have hv : ¬ v.isNullToken = true := by simpa [Takes] using h
    rw [onlyNull, if_neg hv]
  | _ :: _ :: _ => rfl

theorem predicate_of_not_takes (h : ¬ verb.Takes values) :
    verb.predicate column values =
      .error (.malformedCondition (verb.miscount column values.length)) := by
  cases verb with
  | compare op => rw [predicate, oneValue_error h]; rfl
  | like negated => rw [predicate, oneValue_error h]; rfl
  | oneOf negated => exact absurd trivial h
  | between negated => rw [predicate, twoBounds_error h]; rfl
  | isNull negated => rw [predicate, onlyNull_error h]; rfl

theorem Offends.test_eq {e : Error} (h : verb.Offends column values e) :
    verb.test column values = .error e := by
  cases h with
  | miscounted h => rw [test, predicate_of_not_takes h, error_bind]
  | @unordered op v hop hv =>
    have hnull : ¬ op = .eq ∧ ¬ op.isNegative = true := by
      rw [← not_or, ← CompareOp.orders_eq_false, hop]
      simp
    simp [test_compare, Predicate.test, hv, hnull]
  | nullPattern hv => simp [test_like, Predicate.test, hv]
  | plainPattern hv hwild =>
    rw [← hasWildcard_iff_wild] at hwild
    simp [test_like, Predicate.test, hv, hwild]

theorem exists_test (htakes : verb.Takes values) (haccepts : verb.Accepts values) :
    ∃ t, verb.test column values = .ok t := by
  cases verb with
  | compare op =>
    obtain ⟨v, rfl⟩ := List.length_eq_one_iff.1 htakes
    by_cases hv : v.isNullToken = true
    · have hop : op.orders = false := by
        by_contra hop
        simp [Accepts, hop, hv] at haccepts
      rcases CompareOp.orders_eq_false.1 hop with rfl | hnegative
      · simp [test_compare, Predicate.test, hv]
      · by_cases heq : op = .eq <;>
          simp [test_compare, Predicate.test, hv, heq, hnegative]
    · simp [test_compare, Predicate.test, hv]
  | like negated =>
    obtain ⟨v, rfl⟩ := List.length_eq_one_iff.1 htakes
    obtain ⟨hv, hwild⟩ := haccepts v (List.mem_singleton_self v)
    rw [← hasWildcard_iff_wild] at hwild
    simp [test_like, Predicate.test, hv, hwild]
  | oneOf negated => cases values <;> simp [test, predicate, Predicate.test]
  | between negated =>
    obtain ⟨low, high, rfl⟩ := List.length_eq_two.1 htakes
    simp [test, predicate, twoBounds, Predicate.test]
  | isNull negated =>
    rcases htakes with rfl | ⟨v, rfl, hv⟩
    · simp [test, predicate, onlyNull, Predicate.test]
    · simp [test, predicate, onlyNull, Predicate.test, hv]

theorem exists_offends (h : ¬ (verb.Takes values ∧ verb.Accepts values)) :
    ∃ e, verb.Offends column values e := by
  by_cases htakes : verb.Takes values
  · have haccepts : ¬ verb.Accepts values := fun haccepts => h ⟨htakes, haccepts⟩
    cases verb with
    | compare op =>
      obtain ⟨v, rfl⟩ := List.length_eq_one_iff.1 htakes
      obtain ⟨hop, hv⟩ : op.orders = true ∧ v.isNullToken = true := by
        simpa [Accepts] using haccepts
      exact ⟨_, .unordered hop hv⟩
    | like negated =>
      obtain ⟨v, rfl⟩ := List.length_eq_one_iff.1 htakes
      by_cases hv : v.isNullToken = true
      · exact ⟨_, .nullPattern hv⟩
      · have hsolid : v.isNullToken = false := by simpa using hv
        have hwild : ¬ Wild v.literalText := by simpa [Accepts, hsolid] using haccepts
        exact ⟨_, .plainPattern hsolid hwild⟩
    | oneOf negated => exact absurd trivial haccepts
    | between negated => exact absurd trivial haccepts
    | isNull negated => exact absurd trivial haccepts
  · exact ⟨_, .miscounted htakes⟩

end

end Verb

/-! ## Conditions -/

/-- A verb in whose words a criterion is given, and which takes its values. -/
def Criterion.Apt (criterion : Criterion) : Prop :=
  ∃ verb : Verb, SameWords criterion.operator verb.operator ∧
    verb.Takes criterion.values ∧ verb.Accepts criterion.values

namespace Condition

/-- A condition that names a column and asks something of it. -/
structure WellFormed (c : Condition) : Prop where
  column : Text.trim c.column ≠ ""
  criterion : c.criterion.Apt

/-- What is wrong with the criterion of a condition: its words are the operator of nothing, or its
values are wrong. -/
inductive Offends (c : Condition) : Error → Prop
  | unknown (h : ∀ verb : Verb, ¬ SameWords c.criterion.operator verb.operator) :
    Offends c (.unsupportedOperator (Text.trim c.criterion.operator))
  | values {verb : Verb} {e : Error} (h : SameWords c.criterion.operator verb.operator)
      (he : verb.Offends c.column c.criterion.values e) : Offends c e

variable {c : Condition} {e : Error}

theorem test_of_sameWords {verb : Verb} (h : SameWords c.criterion.operator verb.operator) :
    c.test = verb.test c.column c.criterion.values := by
  have hpredicate : c.criterion.predicate c.column =
      verb.predicate c.column c.criterion.values := by
    generalize c.criterion = criterion at h ⊢
    cases criterion with
    | typed p =>
      rw [Criterion.operator, ← p.operator_verb] at h
      rw [← Verb.eq_of_sameWords h, Criterion.values, p.predicate_verb, Criterion.predicate]
    | spelled text values =>
      rw [Criterion.operator] at h
      rw [Criterion.predicate, Predicate.ofSpelling_eq h, Criterion.values]
  rw [test, hpredicate, Verb.test]

theorem Offends.test_eq (h : c.Offends e) : c.test = .error e := by
  cases h with
  | unknown h =>
    rw [test]
    generalize c.criterion = criterion at h ⊢
    cases criterion with
    | typed p =>
      rw [Criterion.operator, ← p.operator_verb] at h
      exact absurd (.refl _) (h p.verb)
    | spelled text values =>
      rw [Criterion.operator] at h ⊢
      rw [Criterion.predicate, Predicate.ofSpelling_of_unknown h, error_bind]
  | values h he => rw [test_of_sameWords h, he.test_eq]

theorem exists_offends (h : ¬ c.criterion.Apt) : ∃ e, c.Offends e := by
  by_cases hverb : ∃ verb : Verb, SameWords c.criterion.operator verb.operator
  · obtain ⟨verb, hwords⟩ := hverb
    have hvalues : ∃ e, verb.Offends c.column c.criterion.values e :=
      Verb.exists_offends fun hfit => h ⟨verb, hwords, hfit⟩
    exact hvalues.imp fun e he => .values hwords he
  · exact ⟨_, .unknown (not_exists.1 hverb)⟩

theorem exists_test_iff : (∃ t, c.test = .ok t) ↔ c.criterion.Apt := by
  constructor
  · rintro ⟨t, ht⟩
    by_contra h
    obtain ⟨e, he⟩ := exists_offends h
    rw [he.test_eq] at ht
    cases ht
  · rintro ⟨verb, hwords, htakes, haccepts⟩
    rw [test_of_sameWords hwords]
    exact Verb.exists_test htakes haccepts

theorem test_eq_error_iff : c.test = .error e ↔ c.Offends e := by
  constructor
  · intro h
    have hinapt : ¬ c.criterion.Apt := by
      rw [← exists_test_iff, h]
      simp
    obtain ⟨e', he'⟩ := exists_offends hinapt
    have heq : e' = e := by simpa [he'.test_eq] using h
    rwa [heq] at he'
  · exact Offends.test_eq

theorem wellFormed_iff : c.WellFormed ↔ c.faults = [] ∧ ∃ t, c.test = .ok t := by
  rw [exists_test_iff]
  constructor
  · rintro ⟨hcolumn, verb, hwords, hvalues⟩
    refine ⟨?_, verb, hwords, hvalues⟩
    rw [faults, if_neg hcolumn, if_neg (Verb.trim_ne_empty hwords), List.append_nil]
  · rintro ⟨hfaults, hcriterion⟩
    refine ⟨fun hcolumn => ?_, hcriterion⟩
    simp [faults, hcolumn] at hfaults

end Condition

/-! ## Clauses -/

/-- What is wrong with a forest that makes no clause. -/
inductive Refused (forest : List Tree) : Error → Prop
  | empty (h : forest = []) : Refused forest (.emptyArgument .conditions)
  | fault {f : Malformation} (h : (forestFaults forest).head? = some f) :
    Refused forest (.malformedCondition f)
  | offence {before after : List Condition} {c : Condition} {e : Error}
      (hfaults : forestFaults forest = [])
      (hsplit : forestConditions forest = before ++ c :: after)
      (hbefore : ∀ b ∈ before, b.WellFormed) (h : c.Offends e) : Refused forest e

section
variable {forest : List Tree} {e : Error}

theorem forestTokens_of_ne (hne : forest ≠ []) :
    forestTokens forest = forestLeaves forest >>= bodyTokens := by
  rw [forestTokens, if_neg (by simpa using hne)]

theorem Refused.forestTokens_eq (h : Refused forest e) : forestTokens forest = .error e := by
  have hreports := forestLeaves_reports forest
  cases h with
  | empty h =>
    rw [h]
    rfl
  | fault h =>
    have hne : forest ≠ [] := by
      rintro rfl
      simp [forestFaults] at h
    rw [forestTokens_of_ne hne, hreports.eq_error_iff.2 ⟨_, h, rfl⟩, error_bind]
  | offence hfaults hsplit hbefore h =>
    have hne : forest ≠ [] := by
      rintro rfl
      simp [forestConditions] at hsplit
    obtain ⟨ls, hls⟩ := hreports.exists_ok_iff.2 hfaults
    rw [forestTokens_of_ne hne, hls, ok_bind, bodyTokens_eq_error_iff,
      map_condition_forestLeaves hls]
    exact ⟨_, _, _, hsplit, fun b hb => (Condition.wellFormed_iff.1 (hbefore b hb)).2, h.test_eq⟩

theorem refused_of_forestTokens (h : forestTokens forest = .error e) : Refused forest e := by
  have hreports := forestLeaves_reports forest
  by_cases hne : forest = []
  · rw [hne] at h
    cases h
    exact .empty hne
  · rw [forestTokens_of_ne hne] at h
    cases hls : forestLeaves forest with
    | error e' =>
      obtain ⟨f, hf, rfl⟩ := hreports.eq_error_iff.1 hls
      rw [hls] at h
      cases h
      exact .fault hf
    | ok ls =>
      have hfaults : forestFaults forest = [] := hreports.exists_ok_iff.1 ⟨ls, hls⟩
      have hcomplete := ((forestFaults_eq_nil_iff forest).1 hfaults).2
      rw [hls, ok_bind, bodyTokens_eq_error_iff, map_condition_forestLeaves hls] at h
      obtain ⟨before, c, after, hsplit, hbefore, h⟩ := h
      refine .offence hfaults hsplit (fun b hb => ?_) (Condition.test_eq_error_iff.1 h)
      have hmem : b ∈ forestConditions forest := by simp [hsplit, hb]
      exact Condition.wellFormed_iff.2 ⟨hcomplete b hmem, hbefore b hb⟩

theorem forestTokens_eq_error_iff : forestTokens forest = .error e ↔ Refused forest e :=
  ⟨refused_of_forestTokens, Refused.forestTokens_eq⟩

theorem exists_forestTokens_iff_wellFormed : (∃ body, forestTokens forest = .ok body) ↔
    forest ≠ [] ∧ (∀ items ∈ forestGroups forest, forestConditions items ≠ []) ∧
      ∀ c ∈ forestConditions forest, c.WellFormed := by
  have hleaves : (forestFilled forest ∧ ∀ c ∈ forestConditions forest, c.check = .ok ()) ↔
      (∀ items ∈ forestGroups forest, forestConditions items ≠ []) ∧
        ∀ c ∈ forestConditions forest, c.faults = [] := by
    rw [← exists_forestLeaves_iff, (forestLeaves_reports forest).exists_ok_iff,
      forestFaults_eq_nil_iff]
  rw [exists_forestTokens_iff]
  apply and_congr_right
  intro _
  constructor
  · rintro ⟨hfilled, hwritable⟩
    obtain ⟨hgroups, hcomplete⟩ := hleaves.1 ⟨hfilled, fun c hc => (hwritable c hc).complete⟩
    exact ⟨hgroups, fun c hc =>
      Condition.wellFormed_iff.2 ⟨hcomplete c hc, (hwritable c hc).tested⟩⟩
  · rintro ⟨hgroups, hformed⟩
    have hformed (c) (hc : c ∈ forestConditions forest) := Condition.wellFormed_iff.1 (hformed c hc)
    obtain ⟨hfilled, hcomplete⟩ := hleaves.2 ⟨hgroups, fun c hc => (hformed c hc).1⟩
    exact ⟨hfilled, fun c hc => ⟨hcomplete c hc, (hformed c hc).2⟩⟩

end

namespace Composer

variable (c : Composer) (filter : FilterKind) (forest : List Tree)

theorem fragmentOf_conditions :
    c.fragmentOf (.filter filter (forest.map .condition)) =
      (forestTokens forest).map fun body =>
        ⟨filter.clauseKind, Template.write c.rendering.value (filter.template body)⟩ := by
  rw [fragmentOf, FragmentRequest.written, filterFragment_conditions, FilterKind.ofForest]
  cases forestTokens forest <;> rfl

/-- Every composer makes a clause of the same forests.  They have conditions in every group, and
their conditions are well formed; a forest that is refused is refused for its first fault in
depth-first order or, if it has none, for the first condition that offends. -/
theorem fragmentOf_accepts :
    ((∃ f, c.fragmentOf (.filter filter (forest.map .condition)) = .ok f) ↔
      forest ≠ [] ∧ (∀ items ∈ forestGroups forest, forestConditions items ≠ []) ∧
        ∀ cond ∈ forestConditions forest, cond.WellFormed) ∧
    (∀ e, c.fragmentOf (.filter filter (forest.map .condition)) = .error e ↔
      Refused forest e) ∧
    ∀ c' : Composer, (c.fragmentOf (.filter filter (forest.map .condition))).map (fun _ => ()) =
      (c'.fragmentOf (.filter filter (forest.map .condition))).map fun _ => () := by
  simp only [fragmentOf_conditions, ← exists_forestTokens_iff_wellFormed,
    ← forestTokens_eq_error_iff]
  cases forestTokens forest <;> simp

/-- A group without conditions is found before an operator that there is not. -/
example : (Composer.ofSettings {}).fragmentOf (.filter .whereRows
      [.condition (.leaf { column := "a", criterion := .spelled "~~" [] }),
        .condition (.group [])]) =
    .error (.malformedCondition .emptyGroup) := by
  decide +kernel

end Composer

end SqlAssembly
