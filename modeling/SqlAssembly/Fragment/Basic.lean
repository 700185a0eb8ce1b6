import SqlAssembly.Error
import SqlAssembly.Fragment.Kind
import SqlAssembly.Sql

/-! # Clause fragments

A fragment is a clause already written: its kind, its text, and the values bound in it.  Fragments
are built by the functions here, by the composer, or from a text whose kind is recognised by its
keyword.
-/
namespace SqlAssembly

structure Fragment (σ : Type := Sql) where
  kind : ClauseKind
  sql : σ
deriving DecidableEq

namespace Fragment

/-- A clause written by hand, with the values for its markers. -/
def ofText (text : String) (params : List Value) : Fragment := ⟨classify text, ⟨text, params⟩⟩

def label {σ : Type} [Medium σ] (f : Fragment σ) : String := Medium.quote f.sql

def map {σ τ : Type} (write : σ → τ) (f : Fragment σ) : Fragment τ := ⟨f.kind, write f.sql⟩

end Fragment

/-- The columns of a list, the blank ones left out, with a comma between each two. -/
def columnNames (columns : List String) : Except Error String :=
  match Text.nonBlank columns with
  | [] => .error (.emptyArgument .columnList)
  | names => .ok (", ".intercalate names)

def groupBy (columns : List String) : Except Error Fragment := do
  let names ← columnNames columns
  return ⟨.groupBy, " GROUP BY " ++ names ++ " "⟩

inductive Direction where
  | ascending
  | descending
deriving DecidableEq, Repr

def Direction.keyword : Direction → String
  | .ascending => "ASC"
  | .descending => "DESC"

def orderBy (columns : List String) (direction : Direction) : Except Error Fragment := do
  let names ← columnNames columns
  return ⟨.orderBy, " ORDER BY " ++ names ++ " " ++ direction.keyword ++ " "⟩

def limit (count : Nat) (offset : Option Nat) : Fragment :=
  match offset with
  | some n => ⟨.limit, " LIMIT " ++ Nat.repr count ++ " OFFSET " ++ Nat.repr n ++ " "⟩
  | none => ⟨.limit, " LIMIT " ++ Nat.repr count ++ " "⟩

end SqlAssembly
