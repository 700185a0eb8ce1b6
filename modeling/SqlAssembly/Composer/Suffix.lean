import SqlAssembly.Condition.Clause
import SqlAssembly.Fragment.Basic

/-! # Clauses of a statement

The clauses of a call come in any order and mixture: fragments, and loose conditions that make up a
`WHERE` clause together.  They are checked against what the statement allows, and written in the
order of the grammar, fragments of one kind in the order given.
-/
namespace SqlAssembly
open Medium (ofText)

/-- An argument among the clauses of a call. -/
inductive Clause (σ : Type := Sql) where
  | fragment (f : Fragment σ)
  | condition (t : Tree)

namespace Clause

variable {σ : Type}

def fragments (clauses : List (Clause σ)) : List (Fragment σ) :=
  clauses.filterMap fun
    | .fragment f => some f
    | .condition _ => none

def forest (clauses : List (Clause σ)) : List Tree :=
  clauses.filterMap fun
    | .fragment _ => none
    | .condition t => some t

def ofQueries : List ClauseKind :=
  [.join, .whereRows, .groupBy, .having, .orderBy, .limit, .union]

def ofMutations : List ClauseKind := [.whereRows, .orderBy, .limit]

/-- Groups are filtered only where rows are grouped. -/
def checkHaving (fragments : List (Fragment σ)) : Except Error Unit :=
  if fragments.any (·.kind = .having) ∧ ¬ fragments.any (·.kind = .groupBy) then
    .error .havingWithoutGroupBy
  else .ok ()

def inGrammarOrder (fragments : List (Fragment σ)) : List (Fragment σ) :=
  ClauseKind.grammar.flatMap fun k => fragments.filter (·.kind = k)

variable [Medium σ]

/-- Refuses the first fragment of a kind that is not allowed, or that may not be repeated and is in
`seen` or comes before it. -/
def check (allowed seen : List ClauseKind) : List (Fragment σ) → Except Error Unit
  | [] => .ok ()
  | f :: fs =>
    if f.kind ∉ allowed then .error (.invalidFragment (.unexpected f.label))
    else if f.kind ∈ seen ∧ ¬ f.kind.isRepeatable then
      .error (.invalidFragment (.duplicate f.label))
    else check allowed (f.kind :: seen) fs

/-- The fragments together with the `WHERE` clause of the loose conditions. -/
def withForest (value : Value → σ) (fragments : List (Fragment σ)) (forest : List Tree) :
    Except Error (List (Fragment σ)) :=
  if forest.isEmpty then .ok fragments
  else if fragments.any (·.kind = .whereRows) then .error (.invalidFragment .besideWhere)
  else do
    let body ← FilterKind.whereRows.ofForest forest
    return fragments ++ [⟨.whereRows, Template.write value body⟩]

def arrange (value : Value → σ) (allowed : List ClauseKind) (clauses : List (Clause σ)) :
    Except Error (List (Fragment σ)) := do
  let given := fragments clauses
  check allowed [] given
  let all ← withForest value given (forest clauses)
  checkHaving all
  return inGrammarOrder all

def suffixOf (arranged : List (Fragment σ)) : σ :=
  if arranged.isEmpty then ofText ""
  else ofText " " ++ (Medium.join " " (arranged.map (Medium.trim ·.sql)) ++ ofText " ")

end Clause

end SqlAssembly
