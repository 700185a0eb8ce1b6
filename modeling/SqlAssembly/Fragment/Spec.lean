import SqlAssembly.Fragment.Join

/-! # Descriptions of fragments

The fragments that need no composer, as data.  A text without values of its own is the same as one
with none.
-/
namespace SqlAssembly

inductive FragmentSpec where
  | groupBy (columns : List String)
  | orderBy (columns : List String) (direction : Direction)
  | limit (count : Nat) (offset : Option Nat)
  | text (sql : String) (params : List Value)
  | join (join : Join)
  /-- A join whose kind is given as text. -/
  | joinOf (kind : String) (join : JoinKind → Join)

def FragmentSpec.build : FragmentSpec → Except Error Fragment
  | .groupBy columns => SqlAssembly.groupBy columns
  | .orderBy columns direction => SqlAssembly.orderBy columns direction
  | .limit count offset => .ok (SqlAssembly.limit count offset)
  | .text sql params => .ok (.ofText sql params)
  | .join j => j.build
  | .joinOf kind j => do (j (← JoinKind.parse kind)).build

end SqlAssembly
