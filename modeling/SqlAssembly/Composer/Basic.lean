import SqlAssembly.Composer.Request
import SqlAssembly.Event
import SqlAssembly.Settings

/-! # The composer

A composer turns requests into SQL for one dialect.  What a request comes down to depends on the
request and on how values are written, and on nothing else; it is written in any medium, and the
composer's own medium is text with parameters.  Every failed build is reported once, and every
statement once if the settings ask for it.
-/
namespace SqlAssembly
open Medium (ofText)

/-- The dialect and the settings that statements are built with. -/
structure Composer where
  dialect : Dialect
  settings : Settings

/-! ## Parts of statements -/

/-- The columns that a query selects; none at all select everything. -/
def selectedColumns (columns : List String) : String :=
  match Text.nonBlank columns with
  | [] => "*"
  | names => ", ".intercalate names

def tableName (table : String) : Except Error String :=
  if Text.trim table = "" then .error (.emptyArgument .table) else .ok (Text.trim table)

/-- The texts of a list, of which one at least is not blank. -/
def requiredList (what : Argument) (texts : List String) : Except Error String :=
  match Text.nonBlank texts with
  | [] => .error (.emptyArgument what)
  | items => .ok (", ".intercalate items)

def namedPairs (pairs : List (String × Value)) : Except Error (List (String × Value)) :=
  let named := pairs.map fun p => (Text.trim p.1, p.2)
  if named.any (·.1 = "") then .error (.emptyArgument .column)
  else if named.isEmpty then .error (.emptyArgument .values)
  else .ok named

/-- What is written for a value to be stored: null and the current time are keywords, and every
other value is bound or inlined. -/
def slot (v : Value) : Piece :=
  if v.isNullToken then .word "NULL"
  else if v.isCurrentTimeToken then .word "CURRENT_TIMESTAMP()"
  else .value v

def rowTemplate (verb table : String) (pairs : List (String × Value)) : Template :=
  .word (verb ++ " INTO " ++ table ++ " (" ++ ", ".intercalate (pairs.map (·.1)) ++ ") VALUES (") ::
    (Template.join ", " (pairs.map fun p => [slot p.2]) ++ [.word ")"])

def assignmentTemplate (table : String) (pairs : List (String × Value)) : Template :=
  .word ("UPDATE " ++ table ++ " SET ") ::
    Template.join ", " (pairs.map fun p => [.word (p.1 ++ " = "), slot p.2])

/-- Both lists of columns name the same number, unless one of them leaves it open. -/
def checkColumnCounts (target : List String) (selected : List String) : Except Error Unit :=
  if target ≠ [] ∧ selectedColumns selected ≠ "*" ∧ (Text.nonBlank selected).length ≠ target.length
  then .error (.columnMismatch target.length (Text.nonBlank selected).length)
  else .ok ()

def onlyConditions {σ : Type} [Medium σ] (filter : FilterKind) :
    List (Clause σ) → Except Error (List Tree)
  | [] => .ok []
  | .condition t :: rest => do return t :: (← onlyConditions filter rest)
  | .fragment f :: _ => .error (.invalidFragment (.notCombinable f.label filter))

/-! ## Requests written out -/

section
variable {σ : Type} [Medium σ] (value : Value → σ)

def withClauses (head : σ) (allowed : List ClauseKind) (clauses : List (Clause σ)) :
    Except Error σ := do
  return head ++ Clause.suffixOf (← Clause.arrange value allowed clauses)

/-- The filter of a call: a single filter that is already written, or one made of conditions. -/
def filterFragment (filter : FilterKind) (clauses : List (Clause σ)) :
    Except Error (Fragment σ) := do
  match clauses with
  | [.fragment f] =>
    if f.kind = .whereRows ∨ f.kind = .having then return f
    else .error (.invalidFragment (.notCombinable f.label filter))
  | clauses =>
    let forest ← onlyConditions filter clauses
    let body ← filter.ofForest forest
    return ⟨filter.clauseKind, Template.write value body⟩

def selectQuery (table columns : String) (clauses : List (Clause σ)) : Except Error σ := do
  let table ← tableName table
  withClauses value (ofText ("SELECT " ++ columns ++ " FROM " ++ table)) Clause.ofQueries clauses

def FragmentRequest.written : FragmentRequest (Clause σ) → Except Error (Fragment σ)
  | .filter kind clauses => filterFragment value kind clauses
  | .union all table columns clauses => do
    let query ← selectQuery value table (selectedColumns columns) clauses
    let keyword := if all then " UNION ALL " else " UNION "
    return ⟨.union, ofText keyword ++ (Medium.trim query ++ ofText " ")⟩

def StatementRequest.written : StatementRequest (Clause σ) → Except Error σ
  | .select table columns clauses => selectQuery value table (selectedColumns columns) clauses
  | .insert table pairs => do
    let pairs ← namedPairs pairs
    return Template.write value (rowTemplate "INSERT" (← tableName table) pairs)
  | .replace table pairs => do
    let pairs ← namedPairs pairs
    return Template.write value (rowTemplate "REPLACE" (← tableName table) pairs)
  | .update table pairs clauses => do
    let table ← tableName table
    let pairs ← namedPairs pairs
    withClauses value (Template.write value (assignmentTemplate table pairs)) Clause.ofMutations
      clauses
  | .delete table clauses => do
    let table ← tableName table
    withClauses value (ofText ("DELETE FROM " ++ table)) Clause.ofMutations clauses
  | .insertSelect target columns source sourceColumns clauses => do
    let target ← tableName target
    let columns := Text.nonBlank columns
    checkColumnCounts columns sourceColumns
    let query ← selectQuery value source (selectedColumns sourceColumns) clauses
    let names := if columns = [] then "" else "(" ++ ", ".intercalate columns ++ ") "
    return ofText ("INSERT INTO " ++ target ++ " " ++ names) ++ query
  | .createSelect target source columns clauses => do
    let source ← tableName source
    let target ← tableName target
    let head := "CREATE TABLE " ++ target ++ " AS SELECT " ++ selectedColumns columns ++
      " FROM " ++ source
    withClauses value (ofText head) Clause.ofQueries clauses
  | .selectInto target source columns clauses => do
    let source ← tableName source
    let target ← tableName target
    let head := "SELECT " ++ selectedColumns columns ++ " INTO " ++ target ++ " FROM " ++ source
    withClauses value (ofText head) Clause.ofQueries clauses
  | .create table definitions => do
    let table ← tableName table
    let definitions ← requiredList .columnDefinitions definitions
    return ofText ("CREATE TABLE IF NOT EXISTS " ++ table ++ " (" ++ definitions ++ ")")
  | .alter table actions => do
    let table ← tableName table
    let actions ← requiredList .alterActions actions
    return ofText ("ALTER TABLE " ++ table ++ " " ++ actions)
  | .drop table => do
    let table ← tableName table
    return ofText ("DROP TABLE IF EXISTS " ++ table)

end

namespace Composer

/-- The composer of some settings alone, its dialect that of their vendor. -/
def ofSettings (s : Settings) : Composer := ⟨.standard s.vendor, s⟩

def setPrepare (c : Composer) (prepare : Bool) : Composer :=
  { c with settings := { c.settings with prepare } }

def rendering (c : Composer) : Rendering := ⟨c.dialect, c.settings.prepare⟩

def fragmentOf (c : Composer) (q : FragmentRequest Clause) : Except Error Fragment :=
  q.written c.rendering.value

def sqlOf (c : Composer) (q : StatementRequest Clause) : Except Error Sql :=
  q.written c.rendering.value

def statementOf (c : Composer) (q : StatementRequest Clause) : Except Error Statement := do
  return .ofSql q.kind c.settings.prepare (← c.sqlOf q)

/-! ## Reported builds -/

def logOf (c : Composer) (s : Statement) : List Event :=
  if c.settings.logSql then
    [.built s.kind s.sql.params.length (c.settings.truncate s.sql.text)]
  else []

def buildFragment (c : Composer) (q : FragmentRequest Clause) : Outcome Fragment :=
  .ofBuild (fun _ => []) (c.fragmentOf q)

def buildStatement (c : Composer) (q : StatementRequest Clause) : Outcome Statement :=
  .ofBuild c.logOf (c.statementOf q)

end Composer

end SqlAssembly
