import Mathlib.Logic.Function.Iterate

/-! # Precedence of the connectives

How SQL reads a sequence of truth values, connectives and parentheses: parentheses bind strongest,
then `NOT`, then `AND`, then `OR`, and the last two associate to the left.  The grammar is stated as
it is written down; that it gives a sequence one value at most is shown by reading the sequence once
from left to right, with the operands that wait for what follows them on a stack.
-/
namespace SqlAssembly

/-- Truth values with the connectives of conditions, about which nothing is assumed. -/
structure Connectives (α : Type) where
  not : α → α
  and : α → α → α
  or : α → α → α

namespace Connectives

def boolean : Connectives Bool := ⟨Bool.not, Bool.and, Bool.or⟩

/-- The three truth values of SQL, `none` the unknown one. -/
def kleene : Connectives (Option Bool) where
  not := Option.map Bool.not
  and
    | some false, _ | _, some false => some false
    | some true, some true => some true
    | _, _ => none
  or
    | some true, _ | _, some true => some true
    | some false, some false => some false
    | _, _ => none

end Connectives

inductive Word (α : Type) where
  | opening
  | closing
  | and
  | or
  | not
  | value (a : α)

/-- How strongly the parts of an expression are bound together. -/
inductive Binding where
  | primary
  | negation
  | conjunction
  | disjunction

/-- The words are an expression bound that strongly, with the value. -/
inductive Reads {α : Type} (L : Connectives α) : Binding → List (Word α) → α → Prop
  | value (a : α) : Reads L .primary [.value a] a
  | parentheses {ws : List (Word α)} {a : α} (h : Reads L .disjunction ws a) :
    Reads L .primary (.opening :: (ws ++ [.closing])) a
  | operand {ws : List (Word α)} {a : α} (h : Reads L .primary ws a) : Reads L .negation ws a
  | not {ws : List (Word α)} {a : α} (h : Reads L .negation ws a) :
    Reads L .negation (.not :: ws) (L.not a)
  | factor {ws : List (Word α)} {a : α} (h : Reads L .negation ws a) : Reads L .conjunction ws a
  | and {us ws : List (Word α)} {a b : α} (hleft : Reads L .conjunction us a)
    (hright : Reads L .negation ws b) : Reads L .conjunction (us ++ .and :: ws) (L.and a b)
  | term {ws : List (Word α)} {a : α} (h : Reads L .conjunction ws a) : Reads L .disjunction ws a
  | or {us ws : List (Word α)} {a b : α} (hleft : Reads L .disjunction us a)
    (hright : Reads L .conjunction ws b) : Reads L .disjunction (us ++ .or :: ws) (L.or a b)

theorem Reads.ne_nil {α : Type} {L : Connectives α} {binding : Binding} {ws : List (Word α)} {a : α}
    (h : Reads L binding ws a) : ws ≠ [] := by
  induction h <;> simp_all

/-! ## Reading from left to right -/

/-- An expression whose next operand is still to come: its alternatives so far, the last of them
apart, and how often the operand will be negated. -/
structure Pending (α : Type) where
  alternatives : Option α := none
  conjunction : Option α := none
  negations : Nat := 0

structure Reading (α : Type) where
  alternatives : Option α
  conjunction : α

variable {α : Type}

def joined (join : α → α → α) : Option α → α → α
  | none, b => b
  | some a, b => join a b

variable (L : Connectives α)

def Pending.operand (p : Pending α) (a : α) : Reading α :=
  ⟨p.alternatives, joined L.and p.conjunction (L.not^[p.negations] a)⟩

def Reading.value (r : Reading α) : α := joined L.or r.alternatives r.conjunction

mutual

def expect (outer : List (Pending α)) (p : Pending α) : List (Word α) → Option α
  | .value a :: ws => proceed outer (p.operand L a) ws
  | .opening :: ws => expect (p :: outer) {} ws
  | .not :: ws => expect outer { p with negations := p.negations + 1 } ws
  | _ => none

/-- The value of an expression after an operand. -/
def proceed (outer : List (Pending α)) (r : Reading α) : List (Word α) → Option α
  | .and :: ws => expect outer { r with conjunction := some r.conjunction } ws
  | .or :: ws => expect outer { alternatives := some (r.value L) } ws
  | .closing :: ws =>
    match outer with
    | [] => none
    | p :: outer => proceed outer (p.operand L (r.value L)) ws
  | [] => if outer.isEmpty then some (r.value L) else none
  | _ => none

end

/-- What an expression does to the reader, whatever comes after them. -/
def Binding.Effect (ws : List (Word α)) (a : α) : Binding → Prop
  | .primary | .negation => ∀ outer p rest,
    expect L outer p (ws ++ rest) = proceed L outer (p.operand L a) rest
  | .conjunction => ∀ outer alternatives rest,
    expect L outer { alternatives } (ws ++ rest) = proceed L outer ⟨alternatives, a⟩ rest
  | .disjunction => ∃ r : Reading α, r.value L = a ∧ ∀ outer rest,
    expect L outer {} (ws ++ rest) = proceed L outer r rest

variable {L} {ws : List (Word α)} {a b : α}

theorem Reads.effect {binding : Binding} (h : Reads L binding ws a) : binding.Effect L ws a := by
  induction h with
  | value a => exact fun outer p rest => rfl
  | parentheses h ih =>
    obtain ⟨r, rfl, hr⟩ := ih
    intro outer p rest
    rw [List.cons_append, List.append_assoc, expect, hr, List.singleton_append, proceed]
  | operand h ih => exact ih
  | not h ih =>
    intro outer p rest
    rw [List.cons_append, expect, ih]
    rfl
  | factor h ih => exact fun outer alternatives rest => ih outer { alternatives } rest
  | and hleft hright ihleft ihright =>
    intro outer alternatives rest
    rw [List.append_assoc, ihleft, List.cons_append, proceed, ihright]
    rfl
  | term h ih => exact ⟨⟨none, _⟩, rfl, fun outer rest => ih outer none rest⟩
  | @or us ws a b hleft hright ihleft ihright =>
    obtain ⟨r, rfl, hr⟩ := ihleft
    refine ⟨⟨some (r.value L), b⟩, rfl, fun outer rest => ?_⟩
    rw [List.append_assoc, hr, List.cons_append, proceed, ihright]

theorem Reads.unique (ha : Reads L .disjunction ws a) (hb : Reads L .disjunction ws b) : a = b := by
  obtain ⟨r, rfl, hr⟩ := ha.effect
  obtain ⟨s, rfl, hs⟩ := hb.effect
  have hends : proceed L [] r [] = proceed L [] s [] := (hr [] []).symm.trans (hs [] [])
  simpa [proceed] using hends

end SqlAssembly
