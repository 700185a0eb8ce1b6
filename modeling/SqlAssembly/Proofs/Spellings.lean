import SqlAssembly.Proofs.Acceptance
import SqlAssembly.Proofs.Shapes

/-! # Conditions spelled out

A typed condition may as well be given as a text and a list of values.  Every text of the words of
its operator will do, wherever the condition stands in a forest; a text that is the operator of
nothing is refused.
-/
namespace SqlAssembly
open Text (SameWords)

/-- The same criterion, or a typed one spelled out: words of its operator, and its values in
order. -/
inductive Criterion.Respelled : Criterion → Criterion → Prop
  | same (c : Criterion) : Respelled c c
  | spelled (p : Predicate) {text : String} (h : SameWords text p.operator) :
    Respelled (.typed p) (.spelled text p.values)

/-- Two conditions that differ at most in the spelling of their criterion. -/
structure Condition.Respelled (a b : Condition) : Prop where
  column : a.column = b.column
  criterion : a.criterion.Respelled b.criterion
  combinator : a.combinator = b.combinator
  marker : a.marker = b.marker

/-! ## Spellings of a criterion -/

theorem Predicate.ofSpelling_values (p : Predicate) {column text : String}
    (h : SameWords text p.operator) : ofSpelling column text p.values = .ok p := by
  rw [← p.operator_verb] at h
  rw [ofSpelling_eq h, p.predicate_verb]

theorem Criterion.Respelled.predicate {a b : Criterion} (h : a.Respelled b) (column : String) :
    a.predicate column = b.predicate column := by
  cases h with
  | same => rfl
  | spelled p h => rw [Criterion.predicate, Criterion.predicate, p.ofSpelling_values h]

theorem Condition.Respelled.interchangeable {a b : Condition} (h : a.Respelled b) :
    a.Interchangeable b where
  check := by
    have hcriterion := h.criterion
    rw [Condition.check, Condition.check, h.column]
    generalize a.criterion = c at hcriterion ⊢
    generalize b.criterion = d at hcriterion ⊢
    cases hcriterion with
    | same => rfl
    | @spelled p text htext =>
      rw [← p.operator_verb] at htext
      simp only [Verb.trim_ne_empty htext, if_false]
  test := by rw [Condition.test, Condition.test, h.column, h.criterion.predicate]
  combinator := h.combinator
  marker := h.marker

/-! ## Filters -/

/-- A condition whose text is the operator of nothing is refused: it is missing the operator if the
text is blank, and offends otherwise. -/
theorem Condition.refused_alone {c : Condition} {text : String} {values : List Value}
    (hcriterion : c.criterion = .spelled text values) (hcolumn : Text.trim c.column ≠ "")
    (hunknown : ∀ p : Predicate, ¬ SameWords text p.operator) :
    Refused [.leaf c] (if Text.trim text = "" then .malformedCondition (.missingOperator c.column)
      else .unsupportedOperator (Text.trim text)) := by
  have hoperator : c.criterion.operator = text := by rw [hcriterion, Criterion.operator]
  by_cases htext : Text.trim text = ""
  · rw [if_pos htext]
    apply Refused.fault
    simp [forestFaults, Tree.faults, faults, hcolumn, hoperator, htext]
  · have hfaults : forestFaults [.leaf c] = [] := by
      simp [forestFaults, Tree.faults, faults, hcolumn, hoperator, htext]
    have hsplit : forestConditions [.leaf c] = [] ++ c :: [] := by
      simp [forestConditions, Tree.conditions]
    have hverb (verb : Verb) : ¬ SameWords c.criterion.operator verb.operator := by
      obtain ⟨p, rfl⟩ := verb.exists_predicate
      rw [hoperator, p.operator_verb]
      exact hunknown p
    rw [if_neg htext, ← hoperator]
    exact .offence hfaults hsplit (by simp) (.unknown hverb)

namespace Composer

variable (c : Composer) (filter : FilterKind)

/-- In every dialect and in either mode, conditions spelled out make the fragment that the typed
ones make, or fail with the same error, whatever of a forest is spelled out.  A condition whose text
is the operator of no predicate fails alone: the text is missing if it is blank, and otherwise it is
not supported. -/
theorem fragmentOf_respelled :
    (∀ forest forest' : List Tree, forestShaped Condition.Respelled forest forest' →
      c.fragmentOf (.filter filter (forest.map .condition)) =
        c.fragmentOf (.filter filter (forest'.map .condition))) ∧
    ∀ (cond : Condition) (text : String) (values : List Value),
      cond.criterion = .spelled text values → Text.trim cond.column ≠ "" →
      (∀ p : Predicate, ¬ SameWords text p.operator) →
        c.fragmentOf (.filter filter [.condition (.leaf cond)]) =
          .error (if Text.trim text = "" then .malformedCondition (.missingOperator cond.column)
            else .unsupportedOperator (Text.trim text)) := by
  refine ⟨fun forest forest' h => ?_, fun cond text values hcriterion hcolumn hunknown => ?_⟩
  · rw [fragmentOf_conditions, fragmentOf_conditions,
      forestTokens_shaped (fun _ _ => Condition.Respelled.interchangeable) h]
  · have hfilter := c.fragmentOf_conditions filter [.leaf cond]
    rw [(Condition.refused_alone hcriterion hcolumn hunknown).forestTokens_eq] at hfilter
    exact hfilter

/-- A negated pattern spelled out in a group, an operator that there is not, and a blank one. -/
theorem fragmentOf_respelled_notLike :
    let c := Composer.ofSettings {}
    let asks (criterion : Criterion) : Tree := .leaf { column := "a", criterion }
    let filtered (forest : List Tree) :=
      c.fragmentOf (.filter .whereRows (forest.map .condition))
    let pattern : Value := .text "x%"
    let made : Fragment := ⟨.whereRows, ⟨" WHERE (a NOT LIKE __param__) ", [pattern]⟩⟩
    filtered [.group [asks (.typed (.like true pattern))]] = .ok made ∧
      filtered [.group [asks (.spelled " not\t LIKE" [pattern])]] = .ok made ∧
      filtered [asks (.spelled " ~~" [pattern])] = .error (.unsupportedOperator "~~") ∧
      filtered [asks (.spelled "\t" [pattern])] =
        .error (.malformedCondition (.missingOperator "a")) := by
  intro c asks filtered pattern made
  have hmade : filtered [.group [asks (.typed (.like true pattern))]] = .ok made := by
    decide +kernel
  have hcriterion : Criterion.Respelled (.typed (.like true pattern))
      (.spelled " not\t LIKE" [pattern]) :=
    .spelled (.like true pattern) (by decide)
  have hshaped : forestShaped Condition.Respelled [.group [asks (.typed (.like true pattern))]]
      [.group [asks (.spelled " not\t LIKE" [pattern])]] := by
    simpa [forestShaped, Tree.Shaped] using ⟨rfl, hcriterion, rfl, rfl⟩
  have hunknown {text : String} (h : ∀ verb ∈ Verb.all, ¬ SameWords text verb.operator)
      (p : Predicate) : ¬ SameWords text p.operator := by
    rw [← p.operator_verb]
    exact h p.verb p.verb.mem_all
  obtain ⟨hsame, hrefused⟩ := fragmentOf_respelled c .whereRows
  refine ⟨hmade, (hsame _ _ hshaped).symm.trans hmade, ?_, ?_⟩
  · exact hrefused _ " ~~" [pattern] rfl (by decide) (hunknown (by decide))
  · exact hrefused _ "\t" [pattern] rfl (by decide) (hunknown (by decide))

end Composer

end SqlAssembly
