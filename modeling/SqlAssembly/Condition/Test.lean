import SqlAssembly.Condition.Basic
import SqlAssembly.Sql

/-! # Normal forms of conditions

A condition comes down to one of six tests: a comparison with a value that is not null, a pattern
with a wildcard, membership in a list that is not empty, a range, a test for null, or a constant.
Comparing for equality with null tests for null; membership in an empty list is a constant.
-/
namespace SqlAssembly

/-- A test in normal form, its column trimmed. -/
inductive Test where
  | compare (column : String) (op : CompareOp) (value : Value)
  | like (column : String) (negated : Bool) (pattern : Value)
  | oneOf (column : String) (negated : Bool) (first : Value) (rest : List Value)
  | between (column : String) (negated : Bool) (low high : Value)
  | isNull (column : String) (negated : Bool)
  | constant (holds : Bool)
deriving DecidableEq

/-- A pattern with a wildcard, or with the marker in it. -/
def hasWildcard (pattern : String) : Bool :=
  pattern.toList.any (fun c => c = '%' ∨ c = '_') ||
    Text.contains Marker.text.toList pattern.toList

def Predicate.test (column : String) : Predicate → Except Error Test
  | .compare op v =>
    if v.isNullToken then
      if op = .eq then .ok (.isNull column false)
      else if op.isNegative then .ok (.isNull column true)
      else .error (.malformedCondition (.nullComparison column op))
    else .ok (.compare column op v)
  | .like negated pattern =>
    if pattern.isNullToken then .error (.malformedCondition (.nullPattern column))
    else if hasWildcard pattern.literalText then .ok (.like column negated pattern)
    else .error (.missingWildcard pattern.literalText)
  | .oneOf negated [] => .ok (.constant negated)
  | .oneOf negated (v :: vs) => .ok (.oneOf column negated v vs)
  | .between negated low high => .ok (.between column negated low high)
  | .isNull negated => .ok (.isNull column negated)

def Condition.test (c : Condition) : Except Error Test := do
  let p ← c.criterion.predicate c.column
  p.test (Text.trim c.column)

def Test.template : Test → Template
  | .compare column op v => [.word (column ++ " " ++ op.token ++ " "), .value v]
  | .like column negated v =>
    [.word (column ++ if negated then " NOT LIKE " else " LIKE "), .value v]
  | .oneOf column negated first rest =>
    .word (column ++ if negated then " NOT IN (" else " IN (") ::
      (Template.join ", " ((first :: rest).map fun v => [.value v]) ++ [.word ")"])
  | .between column negated low high =>
    [.word (column ++ if negated then " NOT BETWEEN " else " BETWEEN "), .value low,
      .word " AND ", .value high]
  | .isNull column negated => [.word (column ++ if negated then " IS NOT NULL" else " IS NULL")]
  | .constant holds => [.word (if holds then "1=1" else "1=0")]

end SqlAssembly
