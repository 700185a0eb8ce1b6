import SqlAssembly.Sql

/-! # Finished statements

A statement is prepared when it was built with bound values or carries any.  Only then are the
markers in its text placeholders; in a statement of literals they are data and are left alone.
-/
namespace SqlAssembly

inductive StatementKind where
  | select
  | insert
  | replace
  | update
  | delete
  | insertSelect
  | createSelect
  | selectInto
  | create
  | alter
  | drop
deriving DecidableEq, Repr

def StatementKind.name : StatementKind → String
  | .select => "select"
  | .insert => "insert"
  | .replace => "replace"
  | .update => "update"
  | .delete => "delete"
  | .insertSelect => "insert_select"
  | .createSelect => "create_select"
  | .selectInto => "select_into"
  | .create => "create"
  | .alter => "alter"
  | .drop => "drop"

structure Statement where
  kind : StatementKind
  sql : Sql
  prepared : Bool
deriving DecidableEq

namespace Statement

/-- The statement of some SQL, built with values bound or inlined. -/
def ofSql (kind : StatementKind) (bound : Bool) (sql : Sql) : Statement :=
  { kind, sql, prepared := bound || !sql.params.isEmpty }

def placeholders (s : Statement) : Nat := if s.prepared then Marker.count s.sql.text else 0

def vendorText (s : Statement) (v : Vendor) : String :=
  if s.prepared then Marker.withPlaceholders v.placeholders s.sql.text else s.sql.text

end Statement

end SqlAssembly
