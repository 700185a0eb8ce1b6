import SqlAssembly.Condition.Basic

/-! # Leaves of condition trees

The conditions of a forest in depth-first order.  A group leaves no trace but a parenthesis opened
before its first leaf and one closed after its last, so groups that begin or end together add up.
A blank column, a blank operator and a group without leaves are refused, the first one met.
-/
namespace SqlAssembly

/-- A condition in the order of the text, with the parentheses on either side of it. -/
structure Leaf where
  condition : Condition
  opens : Nat
  closes : Nat
deriving DecidableEq

def Leaf.opened (l : Leaf) : Leaf := { l with opens := l.opens + 1 }

def Leaf.closed (l : Leaf) : Leaf := { l with closes := l.closes + 1 }

def openFirst : List Leaf → List Leaf
  | [] => []
  | l :: ls => l.opened :: ls

def closeLast : List Leaf → List Leaf
  | [] => []
  | [l] => [l.closed]
  | l :: ls => l :: closeLast ls

def enclose (ls : List Leaf) : List Leaf := closeLast (openFirst ls)

@[simp] theorem length_openFirst (ls : List Leaf) : (openFirst ls).length = ls.length := by
  cases ls <;> rfl

@[simp] theorem length_closeLast (ls : List Leaf) : (closeLast ls).length = ls.length := by
  induction ls with
  | nil => rfl
  | cons l ls ih => cases ls <;> simp_all [closeLast]

/-- A condition names a column, and an operator given as text has words. -/
def Condition.check (c : Condition) : Except Error Unit :=
  if Text.trim c.column = "" then .error (.malformedCondition .missingColumn)
  else match c.criterion with
    | .spelled operator _ =>
      if Text.trim operator = "" then .error (.malformedCondition (.missingOperator c.column))
      else .ok ()
    | .typed _ => .ok ()

/-- A condition as a leaf, its own parenthesis counted. -/
def Condition.toLeaf (c : Condition) : Leaf where
  condition := c
  opens := if c.marker = some .opening then 1 else 0
  closes := if c.marker = some .closing then 1 else 0

mutual

def Tree.leaves : Tree → Except Error (List Leaf)
  | .leaf c => do
    c.check
    return [c.toLeaf]
  | .group items => do
    let ls ← forestLeaves items
    if ls = [] then .error (.malformedCondition .emptyGroup) else return enclose ls

def forestLeaves : List Tree → Except Error (List Leaf)
  | [] => return []
  | tree :: rest => do
    let first ← tree.leaves
    return first ++ (← forestLeaves rest)

end

end SqlAssembly
