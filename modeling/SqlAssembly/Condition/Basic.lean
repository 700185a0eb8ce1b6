import SqlAssembly.Error
import SqlAssembly.Value

/-! # Conditions and their trees

A condition asks something of a column, says how it is joined to the next one, and may carry a
parenthesis of its own.  What it asks is a typed predicate, or an operator given as text together
with its values, which is classified only when the clause is built.
-/
namespace SqlAssembly

inductive Predicate where
  | compare (op : CompareOp) (value : Value)
  | like (negated : Bool) (pattern : Value)
  | oneOf (negated : Bool) (values : List Value)
  | between (negated : Bool) (low high : Value)
  | isNull (negated : Bool)
deriving DecidableEq

def Predicate.operator : Predicate → String
  | .compare op _ => op.token
  | .like negated _ => if negated then "NOT LIKE" else "LIKE"
  | .oneOf negated _ => if negated then "NOT IN" else "IN"
  | .between negated _ _ => if negated then "NOT BETWEEN" else "BETWEEN"
  | .isNull negated => if negated then "IS NOT" else "IS"

def Predicate.values : Predicate → List Value
  | .compare _ v => [v]
  | .like _ v => [v]
  | .oneOf _ vs => vs
  | .between _ low high => [low, high]
  | .isNull _ => []

inductive Criterion where
  | typed (predicate : Predicate)
  | spelled (operator : String) (values : List Value)
deriving DecidableEq

def Criterion.operator : Criterion → String
  | .typed p => p.operator
  | .spelled operator _ => operator

/-- A parenthesis attached to a single condition: one opens before it, or one closes after it. -/
inductive GroupMarker where
  | opening
  | closing
deriving DecidableEq, Repr

/-- A test of a column, and how it stands among the conditions around it. -/
structure Condition where
  column : String
  criterion : Criterion
  combinator : Combinator := .and
  marker : Option GroupMarker := none
deriving DecidableEq

inductive Tree where
  | leaf (condition : Condition)
  | group (items : List Tree)

/-- A tree wrapped in `n` groups of one. -/
def Tree.nest (n : Nat) (tree : Tree) : Tree :=
  match n with
  | 0 => tree
  | n + 1 => .group [tree.nest n]

/-! ## Operators given as text -/

/-- An operator in upper case, with one space between its words and none around them. -/
def canonicalOperator (operator : String) : String :=
  " ".intercalate (Text.words (Text.upper operator))

def oneValue (column operator : String) : List Value → Except Error Value
  | [v] => .ok v
  | vs => .error (.malformedCondition (.oneValue column operator vs.length))

def twoBounds (column operator : String) : List Value → Except Error (Value × Value)
  | [low, high] => .ok (low, high)
  | vs => .error (.malformedCondition (.twoBounds column operator vs.length))

/-- Nothing, or a single null, which a test for null may name. -/
def onlyNull (column operator : String) : List Value → Except Error Unit
  | [] => .ok ()
  | [v] =>
    if v.isNullToken then .ok () else .error (.malformedCondition (.onlyNull column operator))
  | _ => .error (.malformedCondition (.onlyNull column operator))

def Predicate.ofSpelling (column operator : String) (values : List Value) :
    Except Error Predicate :=
  let op := canonicalOperator operator
  match CompareOp.ofToken? op with
  | some comparison => do return .compare comparison (← oneValue column op values)
  | none =>
    if op = "LIKE" then do return .like false (← oneValue column op values)
    else if op = "NOT LIKE" then do return .like true (← oneValue column op values)
    else if op = "IN" then .ok (.oneOf false values)
    else if op = "NOT IN" then .ok (.oneOf true values)
    else if op = "BETWEEN" then do
      let (low, high) ← twoBounds column op values
      return .between false low high
    else if op = "NOT BETWEEN" then do
      let (low, high) ← twoBounds column op values
      return .between true low high
    else if op = "IS" then do
      onlyNull column op values
      return .isNull false
    else if op = "IS NOT" then do
      onlyNull column op values
      return .isNull true
    else .error (.unsupportedOperator (Text.trim operator))

def Criterion.predicate (column : String) : Criterion → Except Error Predicate
  | .typed p => .ok p
  | .spelled operator values => Predicate.ofSpelling column operator values

end SqlAssembly
