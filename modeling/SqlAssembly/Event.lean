import SqlAssembly.Error
import SqlAssembly.Statement

/-! # Log events

What the library reports while it works: refused builds, unknown column types, and statements built
and executed.  Every field of an event is text.
-/
namespace SqlAssembly

inductive Level where
  | trace
  | debug
  | warn
deriving DecidableEq, Repr

def Level.name : Level → String
  | .trace => "TRACE"
  | .debug => "DEBUG"
  | .warn => "WARN"

inductive Event where
  | rejected (reason : Error)
  | failed (reason : Error)
  | unknownType (vendor : Vendor) (token : String)
  | built (kind : StatementKind) (params : Nat) (sql : String)
  | executed (kind : StatementKind) (params affected : Nat)
deriving DecidableEq

namespace Event

/-- The channel of an event: one for builds that go wrong, one for statements. -/
def target : Event → String
  | .rejected _ | .failed _ | .unknownType _ _ => "sqlweave.qb"
  | .built .. | .executed .. => "sqlweave.sql"

def level : Event → Level
  | .rejected _ | .built .. => .debug
  | .failed _ | .unknownType _ _ => .warn
  | .executed .. => .trace

def fields : Event → List (String × String)
  | .rejected reason => [("message", "statement build rejected"), ("reason", reason.message)]
  | .failed reason => [("message", "statement build failed"), ("reason", reason.message)]
  | .unknownType vendor token =>
    [("message", "data type not found"), ("vendor", vendor.name), ("token", token)]
  | .built kind params sql =>
    [("message", "statement built"), ("kind", kind.name), ("param_count", Nat.repr params),
      ("sql", sql)]
  | .executed kind params affected =>
    [("message", "statement executed"), ("kind", kind.name), ("param_count", Nat.repr params),
      ("affected", Nat.repr affected)]

end Event

/-- The result of an operation, and what it reported on the way. -/
structure Outcome (α : Type) where
  result : Except Error α
  events : List Event := []

namespace Outcome

def map {α β : Type} (f : α → β) (o : Outcome α) : Outcome β := ⟨o.result.map f, o.events⟩

/-- The report of a build that went wrong: a broken schema fails it, any other cause rejects it. -/
def reportOf (e : Error) : Event := if e.isUnknownDataType then .failed e else .rejected e

/-- A build with its failure reported, and its success by `onSuccess`. -/
def ofBuild {α : Type} (onSuccess : α → List Event) (result : Except Error α) : Outcome α :=
  match result with
  | .ok a => ⟨.ok a, onSuccess a⟩
  | .error e => ⟨.error e, [reportOf e]⟩

@[simp] theorem result_ofBuild {α : Type} (onSuccess : α → List Event)
    (result : Except Error α) : (ofBuild onSuccess result).result = result := by
  cases result <;> rfl

end Outcome

end SqlAssembly
