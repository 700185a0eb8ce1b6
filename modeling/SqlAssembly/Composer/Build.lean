import SqlAssembly.Composer.Basic

/-! # Builds

A builder is a composer together with the state of its build.  The text of a statement is put
together apart from its parameters, which are collected in the order in which they are written.  A
composite statement sets its source aside for the query that it ends in, and a filter finds the
keyword that it is to be written under.  The state outlives a call: it is emptied by a call that
fails, and before and after every statement.
-/
namespace SqlAssembly

/-- What a composite statement does with the rows of its source. -/
inductive SourceUse where
  | createTable
  | intoTable
deriving DecidableEq, Repr

/-- The parameters collected so far, a source set aside, and the keyword of the next filter. -/
structure BuildContext where
  params : List Value := []
  source : Option (String × SourceUse) := none
  keyword : FilterKind := .whereRows
deriving DecidableEq

/-- A step of a build: it may fail, and what it has changed by then stays changed. -/
abbrev Build := ExceptT Error (StateM BuildContext)

structure Builder where
  composer : Composer
  context : BuildContext := {}

inductive Call where
  | fragment (request : FragmentRequest Clause)
  | statement (request : StatementRequest Clause)
  | setPrepare (prepare : Bool)

inductive Reply where
  | fragment (f : Fragment)
  | statement (s : Statement)
  | settings (s : Settings)
deriving DecidableEq

namespace Build

def exec {α : Type} (step : Build α) (ctx : BuildContext) : Except Error α × BuildContext :=
  step.run.run ctx

def collect (values : List Value) : Build Unit :=
  modify fun ctx => { ctx with params := ctx.params ++ values }

def setSource (source : String) (use : SourceUse) : Build Unit :=
  modify fun ctx => { ctx with source := some (source, use) }

def takeSource : Build (Option (String × SourceUse)) :=
  modifyGet fun ctx => (ctx.source, { ctx with source := none })

section
variable {α β : Type} (ctx : BuildContext)

@[simp] theorem exec_pure (a : α) : (pure a : Build α).exec ctx = (.ok a, ctx) := rfl

@[simp] theorem exec_lift (x : Except Error α) : (liftM x : Build α).exec ctx = (x, ctx) := rfl

theorem exec_bind (step : Build α) (next : α → Build β) :
    (step >>= next).exec ctx = match step.exec ctx with
      | (.ok a, after) => (next a).exec after
      | (.error e, after) => (.error e, after) := by
  simp only [exec, ExceptT.run_bind, StateT.run_bind]
  rcases step.run.run ctx with ⟨_ | _, _⟩ <;> rfl

@[simp] theorem exec_map (f : α → β) (step : Build α) :
    (f <$> step).exec ctx = ((step.exec ctx).1.map f, (step.exec ctx).2) := by
  rw [map_eq_pure_bind, exec_bind]
  rcases step.exec ctx with ⟨_ | _, _⟩ <;> rfl

@[simp] theorem exec_collect (values : List Value) :
    (collect values).exec ctx = (.ok (), { ctx with params := ctx.params ++ values }) := rfl

@[simp] theorem exec_setSource (source : String) (use : SourceUse) :
    (setSource source use).exec ctx = (.ok (), { ctx with source := some (source, use) }) := rfl

@[simp] theorem exec_takeSource :
    takeSource.exec ctx = (.ok ctx.source, { ctx with source := none }) := rfl

end

def piece (r : Rendering) (p : Piece) : Build String := do
  collect (Template.writePiece r.value p).params
  return (Template.writePiece r.value p).text

/-- The text of a clause between its outer blanks, its parameters collected. -/
def clause (f : Fragment) : Build String := do
  collect f.sql.params
  return Text.trim f.sql.text

def suffix (r : Rendering) (allowed : List ClauseKind) (clauses : List Clause) : Build String := do
  let arranged ← Clause.arrange r.value allowed clauses
  if arranged.isEmpty then return ""
  let parts ← arranged.mapM clause
  return " " ++ " ".intercalate parts ++ " "

def queryHead (table columns : String) : Option (String × SourceUse) → String
  | some (source, .createTable) =>
    "CREATE TABLE " ++ table ++ " AS SELECT " ++ columns ++ " FROM " ++ source
  | some (source, .intoTable) => "SELECT " ++ columns ++ " INTO " ++ table ++ " FROM " ++ source
  | none => "SELECT " ++ columns ++ " FROM " ++ table

def query (r : Rendering) (table columns : String) (clauses : List Clause) : Build String := do
  let table ← tableName table
  let head := queryHead table columns (← takeSource)
  return head ++ (← suffix r Clause.ofQueries clauses)

def row (r : Rendering) (verb table : String) (pairs : List (String × Value)) : Build String := do
  let table ← tableName table
  let values ← pairs.mapM fun p => piece r (slot p.2)
  return verb ++ " INTO " ++ table ++ " (" ++ ", ".intercalate (pairs.map (·.1)) ++ ") VALUES (" ++
    ", ".intercalate values ++ ")"

def statement (r : Rendering) : StatementRequest Clause → Build String
  | .select table columns clauses => query r table (selectedColumns columns) clauses
  | .insert table pairs => do row r "INSERT" table (← namedPairs pairs)
  | .replace table pairs => do row r "REPLACE" table (← namedPairs pairs)
  | .update table pairs clauses => do
    let table ← tableName table
    let pairs ← namedPairs pairs
    let sets ← pairs.mapM fun p => do return p.1 ++ " = " ++ (← piece r (slot p.2))
    let suffix ← suffix r Clause.ofMutations clauses
    return "UPDATE " ++ table ++ " SET " ++ ", ".intercalate sets ++ suffix
  | .delete table clauses => do
    let table ← tableName table
    return "DELETE FROM " ++ table ++ (← suffix r Clause.ofMutations clauses)
  | .insertSelect target columns source sourceColumns clauses => do
    let target ← tableName target
    let columns := Text.nonBlank columns
    checkColumnCounts columns sourceColumns
    let select ← query r source (selectedColumns sourceColumns) clauses
    if columns = [] then return "INSERT INTO " ++ target ++ " " ++ select
    else return "INSERT INTO " ++ target ++ " (" ++ ", ".intercalate columns ++ ") " ++ select
  | .createSelect target source columns clauses => do
    setSource (← tableName source) .createTable
    query r target (selectedColumns columns) clauses
  | .selectInto target source columns clauses => do
    setSource (← tableName source) .intoTable
    query r target (selectedColumns columns) clauses
  | .create table definitions => do
    let table ← tableName table
    let definitions ← requiredList .columnDefinitions definitions
    return "CREATE TABLE IF NOT EXISTS " ++ table ++ " (" ++ definitions ++ ")"
  | .alter table actions => do
    let table ← tableName table
    let actions ← requiredList .alterActions actions
    return "ALTER TABLE " ++ table ++ " " ++ actions
  | .drop table => do
    let table ← tableName table
    return "DROP TABLE IF EXISTS " ++ table

end Build

namespace Builder

def reset (b : Builder) : Builder := { b with context := {} }

/-- The builder after a failure, which is reported. -/
def reject {α : Type} (b : Builder) (e : Error) : Builder × Outcome α :=
  (b.reset, ⟨.error e, [Outcome.reportOf e]⟩)

/-- A filter under the keyword that was set for it. -/
def filter (b : Builder) (clauses : List Clause) : Builder × Outcome Fragment :=
  let after := { b with context := { b.context with keyword := .whereRows } }
  match filterFragment b.composer.rendering.value b.context.keyword clauses with
  | .ok f => (after, ⟨.ok f, []⟩)
  | .error e => after.reject e

/-- A query as a fragment.  Its parameters are collected apart from those of the build around it. -/
def union (b : Builder) (all : Bool) (table : String) (columns : List String)
    (clauses : List Clause) : Builder × Outcome Fragment :=
  let build := Build.query b.composer.rendering table (selectedColumns columns) clauses
  let ended := build.exec { b.context with params := [] }
  let after := { b with context := { ended.2 with params := b.context.params } }
  match ended.1 with
  | .ok text =>
    let keyword := if all then " UNION ALL " else " UNION "
    (after, ⟨.ok ⟨.union, ⟨keyword ++ Text.trim text ++ " ", ended.2.params⟩⟩, []⟩)
  | .error e => after.reject e

def fragment (b : Builder) : FragmentRequest Clause → Builder × Outcome Fragment
  | .filter .whereRows clauses => b.filter clauses
  | .filter .havingGroups clauses =>
    { b with context := { b.context with keyword := .havingGroups } }.filter clauses
  | .union all table columns clauses => b.union all table columns clauses

def statement (b : Builder) (q : StatementRequest Clause) : Builder × Outcome Statement :=
  let ended := (Build.statement b.composer.rendering q).exec b.reset.context
  match ended.1 with
  | .ok text =>
    let s := Statement.ofSql q.kind b.composer.settings.prepare ⟨text, ended.2.params⟩
    (b.reset, ⟨.ok s, b.composer.logOf s⟩)
  | .error e => { b with context := ended.2 }.reject e

def call (b : Builder) : Call → Builder × Outcome Reply
  | .fragment q => (b.fragment q).map id (·.map .fragment)
  | .statement q => (b.statement q).map id (·.map .statement)
  | .setPrepare prepare =>
    let c := b.composer.setPrepare prepare
    ({ b with composer := c }, ⟨.ok (.settings c.settings), []⟩)

end Builder

end SqlAssembly
