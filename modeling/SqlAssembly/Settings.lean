import SqlAssembly.Error
import SqlAssembly.Text.Utf8

/-! # Settings of a composer

Whether values are bound or inlined, whether built statements are logged, and how much of their text
the log keeps.  A logged text is cut between characters, at the last place that keeps it within the
limit.
-/
namespace SqlAssembly

structure Settings where
  /-- The vendor of a composer created from the settings alone. -/
  vendor : Option Vendor := none
  /-- Bind values as parameters; otherwise they are inlined as escaped literals. -/
  prepare : Bool := true
  /-- Report every statement that is built. -/
  logSql : Bool := false
  /-- The bytes of a statement that the log keeps; none keeps all. -/
  maxLogLength : Option Nat := some 200
deriving DecidableEq, Repr

namespace Settings

/-- A log limit of zero is refused. -/
def validate (s : Settings) : Except Error Settings :=
  if s.maxLogLength = some 0 then .error (.config .zeroLogLength) else .ok s

def truncate (s : Settings) (sql : String) : String :=
  match s.maxLogLength with
  | none => sql
  | some limit =>
    if Text.byteLength sql.toList ≤ limit then sql
    else
      let cut := Text.boundaryBefore sql.toList limit
      String.ofList (Text.sliceTo cut sql.toList (Text.isBoundary_boundaryBefore ..)) ++ "..."

end Settings

end SqlAssembly
