import SqlAssembly.Proofs.Leaves
import SqlAssembly.Proofs.Verbs

/-! # Faults of forests

A forest has no leaves if a condition has no column or no operator, or if a group has no conditions.
The faults are listed in depth-first order, that of a group after those of its items, and the first
one is the error.
-/
namespace SqlAssembly

def Condition.faults (c : Condition) : List Malformation :=
  (if Text.trim c.column = "" then [.missingColumn] else []) ++
    if Text.trim c.criterion.operator = "" then [.missingOperator c.column] else []

mutual

def Tree.faults : Tree → List Malformation
  | .leaf c => c.faults
  | .group items =>
    forestFaults items ++ if forestConditions items = [] then [.emptyGroup] else []

/-- The faults of a forest in depth-first order. -/
def forestFaults : List Tree → List Malformation
  | [] => []
  | tree :: rest => tree.faults ++ forestFaults rest

end

mutual

def Tree.groups : Tree → List (List Tree)
  | .leaf _ => []
  | .group items => items :: forestGroups items

/-- The items of every group of a forest, at whatever depth. -/
def forestGroups : List Tree → List (List Tree)
  | [] => []
  | tree :: rest => tree.groups ++ forestGroups rest

end

/-! ## Steps that report faults -/

/-- A step that goes through if there are no faults, and fails with the first one otherwise. -/
inductive Reports {α : Type} : List Malformation → Except Error α → Prop
  | ok (a : α) : Reports [] (.ok a)
  | error (f : Malformation) (rest : List Malformation) :
    Reports (f :: rest) (.error (.malformedCondition f))

namespace Reports

variable {α β : Type} {fs gs : List Malformation} {x : Except Error α}

/-- The faults of one step come before those of the next. -/
theorem bind {next : α → Except Error β} (h : Reports fs x)
    (hnext : ∀ a, x = .ok a → Reports gs (next a)) : Reports (fs ++ gs) (x >>= next) := by
  cases h with
  | ok a => exact hnext a rfl
  | error f rest => exact .error f (rest ++ gs)

theorem exists_ok_iff (h : Reports fs x) : (∃ a, x = .ok a) ↔ fs = [] := by
  cases h <;> simp

theorem eq_error_iff (h : Reports fs x) {e : Error} :
    x = .error e ↔ ∃ f, fs.head? = some f ∧ .malformedCondition f = e := by
  cases h <;> simp

end Reports

theorem Condition.check_reports (c : Condition) : Reports c.faults c.check := by
  rw [faults, check]
  by_cases hcolumn : Text.trim c.column = ""
  · simp only [hcolumn, if_true]
    exact .error _ _
  · simp only [hcolumn, if_false, List.nil_append]
    cases c.criterion with
    | typed p =>
      rw [Criterion.operator, if_neg p.trim_operator_ne_empty]
      exact .ok ()
    | spelled text values =>
      by_cases htext : Text.trim text = ""
      · simp only [Criterion.operator, htext, if_true]
        exact .error _ []
      · simp only [Criterion.operator, htext, if_false]
        exact .ok ()

mutual

theorem Tree.leaves_reports (tree : Tree) : Reports tree.faults tree.leaves := by
  cases tree with
  | leaf c =>
    have hleaf : Reports (c.faults ++ []) (c.check >>= fun _ => .ok [c.toLeaf]) :=
      c.check_reports.bind fun _ _ => .ok _
    rwa [List.append_nil] at hleaf
  | group items =>
    rw [Tree.faults, Tree.leaves]
    apply (forestLeaves_reports items).bind
    intro ls hls
    have hempty : ls = [] ↔ forestConditions items = [] := by
      rw [← map_condition_forestLeaves hls, List.map_eq_nil_iff]
    by_cases hitems : forestConditions items = []
    · rw [if_pos hitems, if_pos (hempty.2 hitems)]
      exact .error _ []
    · rw [if_neg hitems, if_neg (mt hempty.1 hitems)]
      exact .ok _

theorem forestLeaves_reports (forest : List Tree) :
    Reports (forestFaults forest) (forestLeaves forest) := by
  cases forest with
  | nil => exact .ok []
  | cons tree rest =>
    have hrest (first : List Leaf) :
        Reports (forestFaults rest ++ []) (forestLeaves rest >>= fun ls => .ok (first ++ ls)) :=
      (forestLeaves_reports rest).bind fun _ _ => .ok _
    simp only [List.append_nil] at hrest
    exact tree.leaves_reports.bind fun first _ => hrest first

end

/-! ## Forests without faults -/

mutual

theorem Tree.faults_eq_nil_iff (tree : Tree) : tree.faults = [] ↔
    (∀ items ∈ tree.groups, forestConditions items ≠ []) ∧
      ∀ c ∈ tree.conditions, c.faults = [] := by
  cases tree with
  | leaf c => simp [Tree.faults, Tree.groups, Tree.conditions]
  | group items =>
    have hitems := forestFaults_eq_nil_iff items
    simp only [Tree.faults, Tree.groups, Tree.conditions, List.append_eq_nil_iff, hitems,
      List.forall_mem_cons]
    by_cases hempty : forestConditions items = [] <;> simp [hempty]

/-- A forest is without faults if its groups have conditions, and its conditions miss nothing. -/
theorem forestFaults_eq_nil_iff (forest : List Tree) : forestFaults forest = [] ↔
    (∀ items ∈ forestGroups forest, forestConditions items ≠ []) ∧
      ∀ c ∈ forestConditions forest, c.faults = [] := by
  cases forest with
  | nil => simp [forestFaults, forestGroups, forestConditions]
  | cons tree rest =>
    have htree := tree.faults_eq_nil_iff
    have hrest := forestFaults_eq_nil_iff rest
    simp only [forestFaults, forestGroups, forestConditions, List.append_eq_nil_iff, htree, hrest,
      List.forall_mem_append, and_and_and_comm]

end

end SqlAssembly
