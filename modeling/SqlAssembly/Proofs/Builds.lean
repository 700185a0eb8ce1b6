import SqlAssembly.Session

/-! # Builds leave nothing behind

A step of a build is described by the SQL that it amounts to: its text is the text of that SQL, and
the parameters of that SQL are what it adds to the ones collected before.  Every call on a builder
with nothing left in it is therefore answered as the composer alone would answer it, and leaves a
builder with nothing left in it, whether it succeeds or fails.
-/
namespace SqlAssembly
open Medium (ofText)

namespace Build

/-- A step that never fails, writes the text of `sql` and collects its parameters. -/
def Writes (step : Build String) (sql : Sql) : Prop :=
  ∀ ctx : BuildContext,
    step.exec ctx = (.ok sql.text, { ctx with params := ctx.params ++ sql.params })

/-- How a build that began in `ctx` ends, given the SQL that it amounts to.  A failed one may leave
anything behind. -/
inductive Ends (ctx : BuildContext) : Except Error Sql → Except Error String × BuildContext → Prop
  | ok (sql : Sql) : Ends ctx (.ok sql)
      (.ok sql.text, { ctx with source := none, params := ctx.params ++ sql.params })
  | error (e : Error) (left : BuildContext) : Ends ctx (.error e) (.error e, left)

/-- What was set aside at the beginning does not show at the end. -/
theorem Ends.of_source {ctx : BuildContext} {source : Option (String × SourceUse)}
    {result : Except Error Sql} {ended : Except Error String × BuildContext}
    (h : Ends { ctx with source } result ended) : Ends ctx result ended := by
  cases h with
  | ok sql => exact .ok sql
  | error e left => exact .error e left

theorem piece_writes (r : Rendering) (p : Piece) :
    (piece r p).Writes (Template.writePiece r.value p) := by
  intro ctx
  simp [piece]

theorem clause_writes (f : Fragment) : (clause f).Writes f.sql.trim := by
  intro ctx
  simp [clause, Sql.trim]

theorem exec_mapM {α : Type} {step : α → Build String} {sql : α → Sql}
    (h : ∀ a, (step a).Writes (sql a)) (as : List α) (ctx : BuildContext) :
    (as.mapM step).exec ctx = (.ok (as.map fun a => (sql a).text),
      { ctx with params := ctx.params ++ as.flatMap fun a => (sql a).params }) := by
  induction as generalizing ctx with
  | nil => simp
  | cons a as ih =>
    rw [List.mapM_cons, exec_bind, h a ctx]
    simp only [exec_bind, ih, exec_pure]
    simp

theorem exec_suffix (r : Rendering) (allowed : List ClauseKind) (clauses : List Clause)
    (ctx : BuildContext) :
    (suffix r allowed clauses).exec ctx = match Clause.arrange r.value allowed clauses with
      | .ok arranged => (.ok (Clause.suffixOf arranged).text,
          { ctx with params := ctx.params ++ (Clause.suffixOf arranged).params })
      | .error e => (.error e, ctx) := by
  rw [suffix, exec_bind, exec_lift]
  cases Clause.arrange r.value allowed clauses with
  | error e => rfl
  | ok arranged =>
    by_cases h : arranged.isEmpty
    · simp [h, Clause.suffixOf]
    · have hparts := exec_mapM clause_writes arranged ctx
      simp only [h, Bool.false_eq_true, if_false, exec_bind, hparts, exec_pure, Clause.suffixOf]
      simp [Sql.text_join, Sql.params_join, Function.comp_def, List.flatMap_map,
        String.append_assoc, Sql.trim, Medium.trim]

/-- A check before a build is a check before the SQL that it amounts to. -/
theorem ends_check {α : Type} {x : Except Error α} {build : α → Build String}
    {sql : α → Except Error Sql} {ctx start : BuildContext}
    (h : ∀ a, Ends ctx (sql a) ((build a).exec start)) :
    Ends ctx (x >>= sql) ((liftM x >>= build : Build String).exec start) := by
  rw [exec_bind, exec_lift]
  cases x with
  | error e => exact .error e start
  | ok a => exact h a

theorem ends_suffix (r : Rendering) (allowed : List ClauseKind) (clauses : List Clause)
    (head : Sql) (ctx : BuildContext) :
    Ends ctx (withClauses r.value head allowed clauses)
      ((do return head.text ++ (← suffix r allowed clauses) : Build String).exec
        { ctx with source := none, params := ctx.params ++ head.params }) := by
  rw [withClauses, exec_bind, exec_suffix]
  cases Clause.arrange r.value allowed clauses with
  | error e => exact .error e _
  | ok arranged =>
    have hok := @Ends.ok ctx (head ++ Clause.suffixOf arranged)
    simpa using hok

theorem ends_query (r : Rendering) (table columns : String) (clauses : List Clause)
    (ctx : BuildContext) :
    Ends ctx (do
        let table ← tableName table
        withClauses r.value (ofText (queryHead table columns ctx.source)) Clause.ofQueries clauses)
      ((query r table columns clauses).exec ctx) := by
  rw [query]
  apply ends_check
  intro table
  rw [exec_bind, exec_takeSource]
  have hend := ends_suffix r Clause.ofQueries clauses (ofText (queryHead table columns ctx.source))
  simpa using hend ctx

theorem ends_composite (r : Rendering) (target source columns : String) (use : SourceUse)
    (clauses : List Clause) (ctx : BuildContext) :
    Ends ctx (do
        let target ← tableName target
        withClauses r.value (ofText (queryHead target columns (some (source, use))))
          Clause.ofQueries clauses)
      ((do setSource source use; query r target columns clauses : Build String).exec ctx) := by
  rw [exec_bind, exec_setSource]
  exact (ends_query r target columns clauses { ctx with source := some (source, use) }).of_source

theorem ends_select (r : Rendering) (table columns : String) (clauses : List Clause)
    {ctx : BuildContext} (h : ctx.source = none) :
    Ends ctx (selectQuery r.value table columns clauses)
      ((query r table columns clauses).exec ctx) := by
  have := ends_query r table columns clauses ctx
  rw [h] at this
  exact this

theorem write_rowTemplate (value : Value → Sql) (verb table : String)
    (pairs : List (String × Value)) :
    Template.write value (rowTemplate verb table pairs) =
      ⟨verb ++ " INTO " ++ table ++ " (" ++ ", ".intercalate (pairs.map (·.1)) ++ ") VALUES (" ++
          ", ".intercalate (pairs.map fun p => (Template.writePiece value (slot p.2)).text) ++
          ")",
        pairs.flatMap fun p => (Template.writePiece value (slot p.2)).params⟩ := by
  rw [rowTemplate, Template.write, Template.write_append, Template.write_join,
    Template.write_singleton]
  ext1 <;> simp [Template.writePiece, Template.write_singleton, Sql.text_join, Sql.params_join,
    Function.comp_def, List.flatMap_map, String.append_assoc]

theorem ends_row (r : Rendering) (verb table : String) (pairs : List (String × Value))
    {ctx : BuildContext} (h : ctx.source = none) :
    Ends ctx (do return Template.write r.value (rowTemplate verb (← tableName table) pairs))
      ((row r verb table pairs).exec ctx) := by
  rw [row]
  apply ends_check
  intro table
  have hvalues := exec_mapM (fun p : String × Value => piece_writes r (slot p.2)) pairs ctx
  have hok := @Ends.ok ctx (Template.write r.value (rowTemplate verb table pairs))
  rw [write_rowTemplate, ← h] at hok
  rw [exec_bind, hvalues, write_rowTemplate]
  exact hok

theorem assignment_writes (r : Rendering) (p : String × Value) :
    Writes (do return p.1 ++ " = " ++ (← piece r (slot p.2)))
      (Template.write r.value [.word (p.1 ++ " = "), slot p.2]) := by
  intro ctx
  have hpiece := piece_writes r (slot p.2) ctx
  simp [hpiece, Template.write, Template.writePiece]

theorem write_assignmentTemplate (value : Value → Sql) (table : String)
    (pairs : List (String × Value)) :
    Template.write value (assignmentTemplate table pairs) =
      ⟨"UPDATE " ++ table ++ " SET " ++ ", ".intercalate (pairs.map fun p =>
          (Template.write value [.word (p.1 ++ " = "), slot p.2]).text),
        pairs.flatMap fun p =>
          (Template.write value [.word (p.1 ++ " = "), slot p.2]).params⟩ := by
  rw [assignmentTemplate, Template.write, Template.write_join]
  ext1 <;> simp [Template.writePiece, Sql.text_join, Sql.params_join, Function.comp_def,
    List.flatMap_map]

theorem ends_update (r : Rendering) (table : String) (pairs : List (String × Value))
    (clauses : List Clause) {ctx : BuildContext} (h : ctx.source = none) :
    Ends ctx (StatementRequest.written r.value (.update table pairs clauses))
      ((statement r (.update table pairs clauses)).exec ctx) := by
  rw [statement, StatementRequest.written]
  apply ends_check
  intro table
  apply ends_check
  intro pairs
  have hsets := exec_mapM (assignment_writes r) pairs ctx
  have hend := ends_suffix r Clause.ofMutations clauses
    (Template.write r.value (assignmentTemplate table pairs)) ctx
  rw [write_assignmentTemplate, ← h] at hend
  rw [exec_bind, hsets, write_assignmentTemplate]
  exact hend

theorem Ends.after {ctx : BuildContext} {result : Except Error Sql} {build : Build String}
    (text : String) (h : Ends ctx result (build.exec ctx)) :
    Ends ctx (do return ofText text ++ (← result))
      ((do return text ++ (← build) : Build String).exec ctx) := by
  rw [exec_bind]
  generalize build.exec ctx = ended at h
  cases h with
  | error e left => exact .error e left
  | ok sql => exact .ok (ofText text ++ sql)

theorem ends_insertSelect (r : Rendering) (target : String) (columns : List String)
    (source : String) (sourceColumns : List String) (clauses : List Clause) {ctx : BuildContext}
    (h : ctx.source = none) :
    Ends ctx (StatementRequest.written r.value (.insertSelect target columns source sourceColumns
        clauses))
      ((statement r (.insertSelect target columns source sourceColumns clauses)).exec ctx) := by
  rw [statement, StatementRequest.written]
  apply ends_check
  intro target
  apply ends_check
  intro _
  have hselect := ends_select r source (selectedColumns sourceColumns) clauses h
  by_cases hc : Text.nonBlank columns = []
  · simpa [hc] using hselect.after ("INSERT INTO " ++ target ++ " ")
  · have htext : "INSERT INTO " ++ target ++ " " ++
          ("(" ++ ", ".intercalate (Text.nonBlank columns) ++ ") ") =
        "INSERT INTO " ++ target ++ " (" ++ ", ".intercalate (Text.nonBlank columns) ++ ") " := by
      rw [← String.toList_inj]
      simp
    simpa [hc, htext] using hselect.after
      ("INSERT INTO " ++ target ++ " (" ++ ", ".intercalate (Text.nonBlank columns) ++ ") ")

theorem ends_text {ctx : BuildContext} (text : String) (h : ctx.source = none) :
    Ends ctx (.ok (ofText text)) ((pure text : Build String).exec ctx) := by
  have hok := @Ends.ok ctx (ofText text)
  simpa [← h] using hok

/-- A statement is built as its request is written, given that no source has been set aside. -/
theorem ends_statement (r : Rendering) (q : StatementRequest Clause) {ctx : BuildContext}
    (h : ctx.source = none) :
    Ends ctx (q.written r.value) ((statement r q).exec ctx) := by
  cases q with
  | update table pairs clauses => exact ends_update r table pairs clauses h
  | insertSelect target columns source sourceColumns clauses =>
    exact ends_insertSelect r target columns source sourceColumns clauses h
  | select table columns clauses => exact ends_select r table _ clauses h
  | insert table pairs => exact ends_check fun pairs => ends_row r "INSERT" table pairs h
  | replace table pairs => exact ends_check fun pairs => ends_row r "REPLACE" table pairs h
  | delete table clauses =>
    apply ends_check
    intro table
    have hend := ends_suffix r Clause.ofMutations clauses (ofText ("DELETE FROM " ++ table)) ctx
    simpa [← h] using hend
  | createSelect target source columns clauses =>
    exact ends_check fun source => ends_composite r target source _ .createTable clauses ctx
  | selectInto target source columns clauses =>
    exact ends_check fun source => ends_composite r target source _ .intoTable clauses ctx
  | create table definitions =>
    exact ends_check fun table => ends_check fun definitions => ends_text _ h
  | alter table actions =>
    exact ends_check fun table => ends_check fun actions => ends_text _ h
  | drop table => exact ends_check fun table => ends_text _ h

end Build

namespace Composer

/-- The composer after a call: only the mode of writing values can change. -/
def heed (c : Composer) : Call → Composer
  | .setPrepare prepare => c.setPrepare prepare
  | _ => c

def answer (c : Composer) : Call → Outcome Reply
  | .fragment q => (c.buildFragment q).map .fragment
  | .statement q => (c.buildStatement q).map .statement
  | .setPrepare prepare => ⟨.ok (.settings (c.setPrepare prepare).settings), []⟩

end Composer

namespace Builder

def fresh (c : Composer) : Builder := { composer := c }

theorem filter_fresh (c : Composer) (filter : FilterKind) (clauses : List Clause) :
    (Builder.mk c { keyword := filter }).filter clauses =
      (fresh c, c.buildFragment (.filter filter clauses)) := by
  have hwritten : c.fragmentOf (.filter filter clauses) =
    filterFragment c.rendering.value filter clauses := rfl
  rw [Builder.filter, Composer.buildFragment, hwritten]
  cases filterFragment c.rendering.value filter clauses <;> rfl

theorem union_fresh (c : Composer) (all : Bool) (table : String) (columns : List String)
    (clauses : List Clause) :
    (fresh c).union all table columns clauses =
      (fresh c, c.buildFragment (.union all table columns clauses)) := by
  have hquery := Build.ends_select c.rendering table (selectedColumns columns) clauses
    (rfl : (fresh c).context.source = none)
  have hwritten : c.fragmentOf (.union all table columns clauses) = do
      let query ← selectQuery c.rendering.value table (selectedColumns columns) clauses
      return ⟨.union, ofText (if all then " UNION ALL " else " UNION ") ++
        (Medium.trim query ++ ofText " ")⟩ := rfl
  rw [Builder.union, Composer.buildFragment, hwritten]
  generalize selectQuery c.rendering.value table (selectedColumns columns) clauses = result
    at hquery
  change Build.Ends {} _ ((Build.query c.rendering table (selectedColumns columns) clauses).exec {})
    at hquery
  simp only [fresh]
  generalize (Build.query c.rendering table (selectedColumns columns) clauses).exec {} = ended
    at hquery
  cases hquery with
  | error e left => rfl
  | ok sql => simp [Outcome.ofBuild, Sql.ext_iff, String.append_assoc]

theorem fragment_fresh (c : Composer) (q : FragmentRequest Clause) :
    (fresh c).fragment q = (fresh c, c.buildFragment q) := by
  rcases q with ⟨_ | _, clauses⟩ | ⟨all, table, columns, clauses⟩
  · exact filter_fresh c .whereRows clauses
  · exact filter_fresh c .havingGroups clauses
  · exact union_fresh c all table columns clauses

/-- A statement is built as the composer alone would build it, whatever is left in the builder. -/
theorem statement_eq (b : Builder) (q : StatementRequest Clause) :
    b.statement q = (fresh b.composer, b.composer.buildStatement q) := by
  have hbuild := Build.ends_statement b.composer.rendering q (rfl : b.reset.context.source = none)
  have hsql : b.composer.sqlOf q = q.written b.composer.rendering.value := rfl
  rw [Builder.statement, Composer.buildStatement, Composer.statementOf, hsql]
  generalize q.written b.composer.rendering.value = result at hbuild
  generalize (Build.statement b.composer.rendering q).exec b.reset.context = ended at hbuild
  cases hbuild with
  | error e left => rfl
  | ok sql => simp [fresh, reset, Outcome.ofBuild]

theorem call_fresh (c : Composer) (call : Call) :
    (fresh c).call call = (fresh (c.heed call), c.answer call) := by
  cases call with
  | fragment q => simp [Builder.call, fragment_fresh, Composer.heed, Composer.answer]
  | statement q => simp [Builder.call, statement_eq, Composer.heed, Composer.answer, fresh]
  | setPrepare prepare => rfl

def after (b : Builder) : List Call → Builder
  | [] => b
  | call :: calls => (b.call call).1.after calls

/-- After any calls a builder is as good as new, save for the mode of writing values. -/
theorem after_fresh (c : Composer) (calls : List Call) :
    (fresh c).after calls = fresh (calls.foldl Composer.heed c) := by
  induction calls generalizing c with
  | nil => rfl
  | cons call calls ih => rw [after, call_fresh, ih, List.foldl_cons]

theorem result_statement (b : Builder) (q : StatementRequest Clause) :
    (b.statement q).2.result =
      (q.written b.composer.rendering.value).map (.ofSql q.kind b.composer.settings.prepare) := by
  rw [statement_eq, Composer.buildStatement, Outcome.result_ofBuild, map_eq_bind]
  rfl

theorem result_fragment (c : Composer) (calls : List Call) (q : FragmentRequest Clause) :
    let b := (fresh c).after calls
    (b.fragment q).2.result = q.written b.composer.rendering.value := by
  intro b
  rw [show b = _ from after_fresh c calls, fragment_fresh, Composer.buildFragment,
    Outcome.result_ofBuild]
  rfl

/-- After any calls, successful or failed, nothing of a build is left, and the next call is answered
as a new builder of the same dialect and the settings then in force would answer it.  The settings
are the first ones under the switches made since; no failed call changes them. -/
theorem call_after_calls (c : Composer) (calls : List Call) (call : Call) :
    let b := (fresh c).after calls
    b.composer = calls.foldl Composer.heed c ∧ b.composer.dialect = c.dialect ∧
      b.context = {} ∧ (b.call call).1.context = {} ∧
      (b.call call).2 = ((fresh ⟨c.dialect, b.composer.settings⟩).call call).2 ∧
      ∀ e, (b.call call).2.result = .error e → (b.call call).1.composer = b.composer := by
  have hdialect : (calls.foldl Composer.heed c).dialect = c.dialect := by
    induction calls generalizing c with
    | nil => rfl
    | cons call calls ih => cases call <;> exact ih _
  intro b
  have hb : b = fresh (calls.foldl Composer.heed c) := after_fresh c calls
  rw [hb, call_fresh]
  refine ⟨rfl, hdialect, rfl, rfl, ?_, fun e he => ?_⟩
  · rw [← hdialect]
    exact congrArg Prod.snd (call_fresh _ call).symm
  · cases call with
    | setPrepare prepare => simp [Composer.answer] at he
    | _ => rfl

/-- A composite statement that fails after it has set its source aside. -/
theorem failed_createSelect_leaves_nothing :
    let c : Composer := ⟨.standard (some .postgreSql), { prepare := false }⟩
    let call := Call.statement (.createSelect "" "users" ["*"] [])
    ((fresh c).call call).2.result = .error (.emptyArgument .table) ∧
      ((fresh c).call call).1.context = {} ∧ ((fresh c).call call).1.composer = c := by
  intro c call
  have hfails : ((fresh c).call call).2.result = .error (.emptyArgument .table) := by
    rw [call_fresh]
    rfl
  have h := call_after_calls c [] call
  exact ⟨hfails, h.2.2.2.1, h.2.2.2.2.2 _ hfails⟩

end Builder

end SqlAssembly
