import SqlAssembly.Composer.Suffix
import SqlAssembly.Statement

/-! # Requests

What a composer is asked for: a fragment it has to render, or a statement.  The clauses of a request
are of any type `κ`, so the same requests serve where fragments are referred to by name.
-/
namespace SqlAssembly

inductive FragmentRequest (κ : Type) where
  | filter (kind : FilterKind) (clauses : List κ)
  | union (all : Bool) (table : String) (columns : List String) (clauses : List κ)

inductive StatementRequest (κ : Type) where
  | select (table : String) (columns : List String) (clauses : List κ)
  | insert (table : String) (pairs : List (String × Value))
  | replace (table : String) (pairs : List (String × Value))
  | update (table : String) (pairs : List (String × Value)) (clauses : List κ)
  | delete (table : String) (clauses : List κ)
  | insertSelect (target : String) (columns : List String) (source : String)
      (sourceColumns : List String) (clauses : List κ)
  | createSelect (target source : String) (columns : List String) (clauses : List κ)
  | selectInto (target source : String) (columns : List String) (clauses : List κ)
  | create (table : String) (definitions : List String)
  | alter (table : String) (actions : List String)
  | drop (table : String)

namespace FragmentRequest

/-- The clauses of a request replaced by what `f` makes of all of them. -/
def mapClausesM {κ ι : Type} (f : List κ → Except Error (List ι)) :
    FragmentRequest κ → Except Error (FragmentRequest ι)
  | .filter kind clauses => return .filter kind (← f clauses)
  | .union all table columns clauses => return .union all table columns (← f clauses)

end FragmentRequest

namespace StatementRequest

def kind {κ : Type} : StatementRequest κ → StatementKind
  | .select .. => .select
  | .insert .. => .insert
  | .replace .. => .replace
  | .update .. => .update
  | .delete .. => .delete
  | .insertSelect .. => .insertSelect
  | .createSelect .. => .createSelect
  | .selectInto .. => .selectInto
  | .create .. => .create
  | .alter .. => .alter
  | .drop .. => .drop

/-- The clauses of a request replaced by what `f` makes of all of them. -/
def mapClausesM {κ ι : Type} (f : List κ → Except Error (List ι)) :
    StatementRequest κ → Except Error (StatementRequest ι)
  | .select table columns clauses => return .select table columns (← f clauses)
  | .insert table pairs => return .insert table pairs
  | .replace table pairs => return .replace table pairs
  | .update table pairs clauses => return .update table pairs (← f clauses)
  | .delete table clauses => return .delete table (← f clauses)
  | .insertSelect target columns source sourceColumns clauses =>
    return .insertSelect target columns source sourceColumns (← f clauses)
  | .createSelect target source columns clauses =>
    return .createSelect target source columns (← f clauses)
  | .selectInto target source columns clauses =>
    return .selectInto target source columns (← f clauses)
  | .create table definitions => return .create table definitions
  | .alter table actions => return .alter table actions
  | .drop table => return .drop table

end StatementRequest

end SqlAssembly
