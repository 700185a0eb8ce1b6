import SqlAssembly.Composer.Build

/-! # Executing statements

A client takes statements in its vendor's own placeholders and answers with the number of rows or a
failure; the client here keeps every call and answers as scheduled.  A statement reaches a client
only if it has as many placeholders as parameters, and without a vendor only if it has none.  A
database pairs a client with a composer and executes every statement once.
-/
namespace SqlAssembly

inductive ClientAnswer where
  | rows (affected : Nat)
  | failure (reason : String)
deriving DecidableEq, Repr

/-- A client, the answers it will give, and the calls it has received, oldest first. -/
structure Client where
  dialect : Dialect
  replies : List ClientAnswer := []
  calls : List Sql := []

namespace Client

/-- A call answered: the next scheduled answer, or one row when none is left. -/
def call (c : Client) (sql : Sql) : Client × Except Error Nat :=
  let after := { c with replies := c.replies.tail, calls := c.calls ++ [sql] }
  match c.replies.head? with
  | some (.rows affected) => (after, .ok affected)
  | some (.failure reason) => (after, .error (.query (.refused reason)))
  | none => (after, .ok 1)

end Client

namespace Statement

/-- What is sent to a client of some vendor, if the statement may be sent at all. -/
def forVendor (s : Statement) (vendor : Option Vendor) : Except Error Sql :=
  if s.placeholders ≠ s.sql.params.length then
    .error (.query (.mismatch s.placeholders s.sql.params.length))
  else match vendor with
    | some v => .ok { text := s.vendorText v, params := s.sql.params }
    | none => if s.placeholders = 0 then .ok s.sql else .error .noVendor

def execute (s : Statement) (c : Client) : Client × Outcome Nat :=
  match s.forVendor c.dialect.vendor with
  | .error e => (c, ⟨.error e, []⟩)
  | .ok sql =>
    let (after, answer) := c.call sql
    match answer with
    | .ok affected =>
      (after, ⟨.ok affected, [.executed s.kind s.sql.params.length affected]⟩)
    | .error e => (after, ⟨.error e, []⟩)

end Statement

structure Database extends Builder where
  client : Client

namespace Database

def ofClient (client : Client) (settings : Settings) : Database where
  client := client
  composer := ⟨client.dialect, settings⟩

/-- A statement that was built, executed on a client; a build that failed calls no client. -/
def executeBuilt (client : Client) (built : Outcome Statement) : Client × Outcome Nat :=
  match built.result with
  | .error e => (client, ⟨.error e, built.events⟩)
  | .ok s =>
    let (after, o) := s.execute client
    (after, ⟨o.result, built.events ++ o.events⟩)

def run (db : Database) (q : StatementRequest Clause) : Database × Outcome Nat :=
  let (builder, built) := db.toBuilder.statement q
  let (client, o) := executeBuilt db.client built
  ({ db with toBuilder := builder, client }, o)

end Database

end SqlAssembly
