import Mathlib.Logic.Function.Basic
import Mathlib.Tactic.SplitIfs
import SqlAssembly.Database
import SqlAssembly.Proofs.Builds

/-! # Tasks that take turns

Tasks that share a database take turns in any order.  An operation is built in one turn of its task
and executed in a later one, and between the two any other tasks may build, fail and execute.  A
turn gets its own task on and leaves the others as they are, so a task is done after two turns for
each of its operations.
-/
namespace SqlAssembly

/-! ## What tasks do with a builder -/

/-- What an operation does with a composer: it renders fragments and builds statements, each
depending on the results before, and returns a statement or fails.  It cannot switch how values are
written. -/
inductive Script where
  | done (result : Except Error Statement)
  | fragment (request : FragmentRequest Clause) (next : Except Error Fragment → Script)
  | statement (request : StatementRequest Clause) (next : Except Error Statement → Script)

/-- The script that only builds a statement, as every operation of a database but one does. -/
def Script.build (q : StatementRequest Clause) : Script := .statement q .done

namespace Builder

def perform (b : Builder) : Script → Builder × Except Error Statement
  | .done result => (b, result)
  | .fragment q next => (b.fragment q).1.perform (next (b.fragment q).2.result)
  | .statement q next => (b.statement q).1.perform (next (b.statement q).2.result)

def made (c : Composer) (script : Script) : Except Error Statement := ((fresh c).perform script).2

theorem perform_fresh (c : Composer) (script : Script) :
    (fresh c).perform script = (fresh c, made c script) := by
  have hleft : ((fresh c).perform script).1 = fresh c := by
    induction script with
    | done result => rfl
    | fragment q next ih => simpa only [perform, fragment_fresh] using ih _
    | statement q next ih => simpa only [perform, statement_eq, fresh] using ih _
  exact Prod.ext hleft rfl

end Builder

/-! ## Turns -/

/-- How far a task is: the statement of its operation at hand, if it is built and not yet executed,
and the answers to the operations before. -/
structure Task where
  built : Option Statement := none
  answers : List (Except Error Nat) := []

def Task.answer (t : Task) (answer : Except Error Nat) : Task := ⟨none, t.answers ++ [answer]⟩

/-- How many turns the work of a task amounts to, an operation counting for two. -/
def Task.progress (t : Task) : Nat := 2 * t.answers.length + if t.built.isSome then 1 else 0

theorem Task.progress_lt_answer (t : Task) (answer : Except Error Nat) :
    t.progress < (t.answer answer).progress := by
  simp only [progress, Task.answer, List.length_append, List.length_singleton]
  split_ifs <;> omega

/-- A database and the tasks that share it, each with a list of operations to perform. -/
structure Shared (ι : Type) extends Database where
  operations : ι → List Script
  tasks : ι → Task

namespace Shared

variable {ι : Type}

/-- A database over a client, shared by tasks that have not begun. -/
def start (client : Client) (settings : Settings) (operations : ι → List Script) : Shared ι where
  toDatabase := .ofClient client settings
  operations := operations
  tasks := fun _ => {}

/-- The operation at hand of a task, unless all of them are answered. -/
def next (s : Shared ι) (i : ι) : Option Script := (s.operations i)[(s.tasks i).answers.length]?

section
variable [DecidableEq ι]

def setTask (s : Shared ι) (i : ι) (t : Task) : Shared ι :=
  { s with tasks := Function.update s.tasks i t }

theorem setTask_setTask (s : Shared ι) (i : ι) (t t' : Task) :
    (s.setTask i t).setTask i t' = s.setTask i t' := by
  simp [setTask]

/-- A turn of a task: a statement that it has built is executed, or its next operation is built. -/
def turn (s : Shared ι) (i : ι) : Shared ι :=
  match (s.tasks i).built with
  | some t =>
    let executed := t.execute s.client
    { s with client := executed.1 }.setTask i ((s.tasks i).answer executed.2.result)
  | none =>
    match s.next i with
    | none => s
    | some script =>
      let performed := s.toBuilder.perform script
      let s' := { s with toBuilder := performed.1 }
      match performed.2 with
      | .ok t => s'.setTask i { s.tasks i with built := some t }
      | .error e => s'.setTask i ((s.tasks i).answer (.error e))

def run (s : Shared ι) (schedule : List ι) : Shared ι := schedule.foldl turn s

variable {s : Shared ι} {i j : ι}

theorem tasks_setTask_self (t : Task) : (s.setTask i t).tasks i = t := Function.update_self ..

theorem tasks_setTask_of_ne (h : j ≠ i) (t : Task) : (s.setTask i t).tasks j = s.tasks j :=
  Function.update_of_ne h ..

theorem next_setTask_of_ne (h : j ≠ i) (t : Task) : (s.setTask i t).next j = s.next j := by
  rw [next, tasks_setTask_of_ne h]
  rfl

theorem answers_built (t : Statement) (j : ι) :
    ((s.setTask i { s.tasks i with built := some t }).tasks j).answers = (s.tasks j).answers := by
  by_cases h : j = i
  · subst h
    rw [tasks_setTask_self]
  · rw [tasks_setTask_of_ne h]

theorem answers_answer (answer : Except Error Nat) (j : ι) :
    ((s.setTask i ((s.tasks i).answer answer)).tasks j).answers =
      (s.tasks j).answers ++ if j = i then [answer] else [] := by
  split_ifs with h
  · subst h
    rw [tasks_setTask_self, Task.answer]
  · rw [tasks_setTask_of_ne h, List.append_nil]

theorem answered_iff (answer : Except Error Nat) {j : ι} {n : Nat} :
    n < ((s.setTask i ((s.tasks i).answer answer)).tasks j).answers.length ↔
      n < (s.tasks j).answers.length ∨ (j = i ∧ n = (s.tasks i).answers.length) := by
  rw [answers_answer, List.length_append]
  split_ifs with hji
  · subst hji
    simp only [List.length_singleton, true_and]
    omega
  · simp [hji]

theorem turn_of_built {t : Statement} (hbuilt : (s.tasks i).built = some t) :
    s.turn i = { s with client := (t.execute s.client).1 }.setTask i
      ((s.tasks i).answer (t.execute s.client).2.result) := by
  rw [turn, hbuilt]

section
variable (hbuilt : (s.tasks i).built = none)
include hbuilt

theorem turn_of_done (hnext : s.next i = none) : s.turn i = s := by
  rw [turn, hbuilt, hnext]

variable {script : Script} (hnext : s.next i = some script)
include hnext

theorem turn_of_made {t : Statement} (ht : (s.toBuilder.perform script).2 = .ok t) :
    s.turn i = { s with toBuilder := (s.toBuilder.perform script).1 }.setTask i
      { s.tasks i with built := some t } := by
  rw [turn, hbuilt, hnext]
  simp only [ht]

theorem turn_of_refused {e : Error} (he : (s.toBuilder.perform script).2 = .error e) :
    s.turn i = { s with toBuilder := (s.toBuilder.perform script).1 }.setTask i
      ((s.tasks i).answer (.error e)) := by
  rw [turn, hbuilt, hnext]
  simp only [he]

end

/-- With no turn of another task between them, the turns of an operation that builds a statement do
what a database does that runs it. -/
theorem run_alone (s : Shared ι) (i : ι) {q : StatementRequest Clause}
    (hbuilt : (s.tasks i).built = none) (hnext : s.next i = some (.build q)) :
    ∃ turns ≤ 2, s.run (List.replicate turns i) =
      { s with toDatabase := (s.toDatabase.run q).1 }.setTask i
        ((s.tasks i).answer (s.toDatabase.run q).2.result) := by
  cases hresult : (s.toBuilder.statement q).2.result with
  | error e =>
    refine ⟨1, by omega, (turn_of_refused hbuilt hnext hresult).trans ?_⟩
    simp only [Database.run, Database.executeBuilt, hresult]
    rfl
  | ok t =>
    refine ⟨2, Nat.le_refl 2, ?_⟩
    change (s.turn i).turn i = _
    rw [turn_of_made hbuilt hnext hresult, turn_of_built (by rw [tasks_setTask_self]),
      tasks_setTask_self]
    simp only [Database.run, Database.executeBuilt, hresult]
    exact setTask_setTask
      { s with toBuilder := (s.toBuilder.statement q).1, client := (t.execute s.client).1 } i _ _

/-! ## Progress -/

/-- A turn changes nothing, if its task is done, or gets its task on and changes no other. -/
theorem turn_progresses (s : Shared ι) (i : ι) :
    (s.turn i = s ∧ 2 * (s.operations i).length ≤ (s.tasks i).progress) ∨
      ∃ builder client t, (s.tasks i).progress < t.progress ∧
        s.turn i = { s with toBuilder := builder, client := client }.setTask i t := by
  cases hbuilt : (s.tasks i).built with
  | some t => exact .inr ⟨_, _, _, Task.progress_lt_answer .., turn_of_built hbuilt⟩
  | none =>
    cases hnext : s.next i with
    | none =>
      have hall : (s.operations i).length ≤ (s.tasks i).answers.length :=
        List.getElem?_eq_none_iff.1 hnext
      refine .inl ⟨turn_of_done hbuilt hnext, ?_⟩
      exact Nat.le_trans (Nat.mul_le_mul_left 2 hall) (Nat.le_add_right _ _)
    | some script =>
      cases hmade : (s.toBuilder.perform script).2 with
      | error e =>
        exact .inr ⟨_, _, _, Task.progress_lt_answer .., turn_of_refused hbuilt hnext hmade⟩
      | ok t =>
        refine .inr ⟨_, _, _, ?_, turn_of_made hbuilt hnext hmade⟩
        simp [Task.progress, hbuilt]

theorem operations_turn (s : Shared ι) (i : ι) : (s.turn i).operations = s.operations := by
  obtain ⟨hidle, -⟩ | ⟨builder, client, t, -, hturn⟩ := s.turn_progresses i
  · rw [hidle]
  · rw [hturn]
    rfl

theorem operations_run (s : Shared ι) (schedule : List ι) :
    (s.run schedule).operations = s.operations := by
  induction schedule generalizing s with
  | nil => rfl
  | cons i schedule ih => exact (ih (s.turn i)).trans (s.operations_turn i)

theorem tasks_turn_of_ne (s : Shared ι) {i j : ι} (h : j ≠ i) :
    (s.turn i).tasks j = s.tasks j := by
  obtain ⟨hidle, -⟩ | ⟨builder, client, t, -, hturn⟩ := s.turn_progresses i
  · rw [hidle]
  · rw [hturn, tasks_setTask_of_ne h]

theorem progress_turn (s : Shared ι) (i : ι) :
    min ((s.tasks i).progress + 1) (2 * (s.operations i).length) ≤
      ((s.turn i).tasks i).progress := by
  obtain ⟨hidle, hdone⟩ | ⟨builder, client, t, hprogress, hturn⟩ := s.turn_progresses i
  · rw [hidle]
    omega
  · rw [hturn, tasks_setTask_self]
    omega

/-- Every turn of a task counts until the task is done. -/
theorem progress_run (s : Shared ι) (schedule : List ι) (i : ι) :
    min ((s.tasks i).progress + schedule.count i) (2 * (s.operations i).length) ≤
      ((s.run schedule).tasks i).progress := by
  induction schedule generalizing s with
  | nil => exact Nat.min_le_left _ _
  | cons j schedule ih =>
    have hrest := ih (s.turn j)
    rw [operations_turn] at hrest
    change _ ≤ (((s.turn j).run schedule).tasks i).progress
    by_cases hj : j = i
    · subst hj
      rw [List.count_cons_self]
      have hturn := s.progress_turn j
      omega
    · rw [tasks_turn_of_ne s (Ne.symm hj)] at hrest
      rwa [List.count_cons_of_ne hj]

end

end Shared

end SqlAssembly
