import SqlAssembly.Proofs.Words

/-! # Verbs of conditions

A verb is what a condition asks of its column.  It has one operator, and an operator given as text
spells the verb if it has the same words; the values given with the text have to be as many as the
verb takes.
-/
namespace SqlAssembly
open Text (SameWords)

/-- What a test asks of its column. -/
inductive Verb where
  | compare (op : CompareOp)
  | like (negated : Bool)
  | oneOf (negated : Bool)
  | between (negated : Bool)
  | isNull (negated : Bool)
deriving DecidableEq

def Predicate.verb : Predicate → Verb
  | .compare op _ => .compare op
  | .like negated _ => .like negated
  | .oneOf negated _ => .oneOf negated
  | .between negated _ _ => .between negated
  | .isNull negated => .isNull negated

namespace Verb

def all : List Verb :=
  CompareOp.all.map compare ++ [false, true].flatMap fun b => [like b, oneOf b, between b, isNull b]

theorem mem_all (verb : Verb) : verb ∈ all := by
  rcases verb with op | b | b | b | b
  · cases op <;> decide
  all_goals cases b <;> decide

def operator : Verb → String
  | .compare op => op.token
  | .like negated => if negated then "NOT LIKE" else "LIKE"
  | .oneOf negated => if negated then "NOT IN" else "IN"
  | .between negated => if negated then "NOT BETWEEN" else "BETWEEN"
  | .isNull negated => if negated then "IS NOT" else "IS"

/-- The predicate of a verb and the values given for it, if they are as many as it takes. -/
def predicate (column : String) (values : List Value) : Verb → Except Error Predicate
  | .compare op => do return .compare op (← oneValue column op.token values)
  | .like negated => do return .like negated (← oneValue column (like negated).operator values)
  | .oneOf negated => .ok (.oneOf negated values)
  | .between negated => do
    let (low, high) ← twoBounds column (between negated).operator values
    return .between negated low high
  | .isNull negated => do
    onlyNull column (isNull negated).operator values
    return .isNull negated

theorem canonicalOperator_operator (verb : Verb) :
    canonicalOperator verb.operator = verb.operator := by
  have hall : ∀ verb ∈ all, canonicalOperator verb.operator = verb.operator := by decide +kernel
  exact hall verb verb.mem_all

theorem operator_ne_empty (verb : Verb) : verb.operator ≠ "" := by
  have hall : ∀ verb ∈ all, verb.operator ≠ "" := by decide
  exact hall verb verb.mem_all

/-- A text comes down to the operator of a verb if it spells the verb. -/
theorem canonicalOperator_eq_operator_iff {text : String} {verb : Verb} :
    canonicalOperator text = verb.operator ↔ SameWords text verb.operator := by
  rw [← canonicalOperator_eq_iff, canonicalOperator_operator]

theorem eq_of_sameWords {v w : Verb} (h : SameWords v.operator w.operator) : v = w := by
  have hall : ∀ v ∈ all, ∀ w ∈ all, v.operator = w.operator → v = w := by decide
  have hoperator : canonicalOperator v.operator = w.operator :=
    canonicalOperator_eq_operator_iff.2 h
  rw [canonicalOperator_operator] at hoperator
  exact hall v v.mem_all w w.mem_all hoperator

theorem trim_ne_empty {text : String} {verb : Verb} (h : SameWords text verb.operator) :
    Text.trim text ≠ "" := by
  intro hblank
  have hempty : SameWords "" verb.operator := (hblank ▸ Text.sameWords_trim text).trans h
  have hoperator : canonicalOperator "" = verb.operator :=
    canonicalOperator_eq_operator_iff.2 hempty
  exact verb.operator_ne_empty hoperator.symm

end Verb

theorem Predicate.operator_verb (p : Predicate) : p.verb.operator = p.operator := by
  cases p <;> rfl

theorem Predicate.trim_operator_ne_empty (p : Predicate) : Text.trim p.operator ≠ "" := by
  rw [← p.operator_verb]
  exact Verb.trim_ne_empty (.refl _)

theorem Verb.exists_predicate (verb : Verb) : ∃ p : Predicate, p.verb = verb := by
  cases verb with
  | compare op => exact ⟨.compare op .null, rfl⟩
  | like negated => exact ⟨.like negated .null, rfl⟩
  | oneOf negated => exact ⟨.oneOf negated [], rfl⟩
  | between negated => exact ⟨.between negated .null .null, rfl⟩
  | isNull negated => exact ⟨.isNull negated, rfl⟩

theorem Predicate.predicate_verb (p : Predicate) (column : String) :
    p.verb.predicate column p.values = .ok p := by
  cases p <;> rfl

/-! ## Spelled verbs -/

namespace Predicate

variable {column text : String} {values : List Value}

theorem ofSpelling_eq {verb : Verb} (h : SameWords text verb.operator) :
    ofSpelling column text values = verb.predicate column values := by
  unfold ofSpelling
  simp only [Verb.canonicalOperator_eq_operator_iff.2 h]
  cases verb with
  | compare op =>
    simp only [Verb.operator, CompareOp.ofToken?_token]
    rfl
  | like negated => cases negated <;> rfl
  | oneOf negated => cases negated <;> rfl
  | between negated => cases negated <;> rfl
  | isNull negated => cases negated <;> rfl

theorem ofToken?_canonicalOperator (h : ∀ op, ¬ SameWords text (Verb.compare op).operator) :
    CompareOp.ofToken? (canonicalOperator text) = none := by
  rw [CompareOp.ofToken?, List.find?_eq_none]
  intro op _
  have hraised : Text.raised (Text.wordChars op.token.toList) = Text.wordChars op.token.toList := by
    cases op <;> decide
  simp only [decide_eq_true_eq]
  intro heq
  refine h op (Text.sameWords_iff.2 ?_)
  calc Text.raised (Text.wordChars text.toList)
      = Text.wordChars (canonicalOperator text).toList := (wordChars_canonicalOperator text).symm
    _ = Text.wordChars op.token.toList := by rw [heq, Text.toList_trim, Text.wordChars_trimChars]
    _ = Text.raised (Text.wordChars op.token.toList) := hraised.symm

/-- A text that spells no verb is refused as it was given, outer blanks aside. -/
theorem ofSpelling_of_unknown (h : ∀ verb : Verb, ¬ SameWords text verb.operator) :
    ofSpelling column text values = .error (.unsupportedOperator (Text.trim text)) := by
  have hne : ∀ verb ∈ Verb.all, canonicalOperator text ≠ verb.operator := fun verb _ heq =>
    h verb (Verb.canonicalOperator_eq_operator_iff.1 heq)
  simp only [Verb.all, List.flatMap_cons, List.flatMap_nil, List.forall_mem_append,
    List.forall_mem_cons, Verb.operator, if_true, Bool.false_eq_true, if_false] at hne
  unfold ofSpelling
  simp only [ofToken?_canonicalOperator fun op => h (.compare op), hne, if_false]

end Predicate

end SqlAssembly
