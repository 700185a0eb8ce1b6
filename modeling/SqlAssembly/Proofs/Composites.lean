import Mathlib.Logic.Basic
import SqlAssembly.Proofs.Builds

/-! # Composite statements

A statement that stores what a query yields, and a union of a query with the one before it, are
their own words and the query.  Given that the rest of the request is acceptable each stands or
falls with the query: it carries the parameters of the query and no others, and where the query
fails it fails for the same reason.
-/
namespace SqlAssembly
open Medium (ofText)

/-- A result that stands or falls with a query.  It is a success if and only if its own request is
`acceptable` and the query succeeds, and is then what can be `made` of the query; if the request is
acceptable it fails as the query fails. -/
structure StandsOn {α : Type} (query : Except Error Statement) (acceptable : Prop)
    (made : Statement → α → Prop) (result : Except Error α) : Prop where
  ok_iff (a : α) : result = .ok a ↔ acceptable ∧ ∃ s, query = .ok s ∧ made s a
  error {e : Error} (h : acceptable) (hquery : query = .error e) : result = .error e

/-- A query and a result that finish one part, the result only if it is acceptable. -/
theorem StandsOn.of_map {α : Type} {part : Except Error Sql} {query : Except Error Statement}
    {acceptable : Prop} {made : Statement → α → Prop} {result : Except Error α}
    {select : Sql → Statement} {finish : Sql → α} (hquery : query = part.map select)
    (haccepted : acceptable → result = part.map finish)
    (hrefused : ¬ acceptable → ∃ e, result = .error e)
    (hmade : ∀ sql, part = .ok sql → ∀ a, made (select sql) a ↔ a = finish sql) :
    StandsOn query acceptable made result where
  ok_iff a := by
    rw [hquery]
    by_cases hacceptable : acceptable
    · rw [haccepted hacceptable]
      cases part with
      | error e => simp
      | ok sql => simp [hacceptable, hmade sql rfl a, eq_comm]
    · obtain ⟨e, he⟩ := hrefused hacceptable
      simp [he, hacceptable]
  error {e} hacceptable he := by
    rw [haccepted hacceptable]
    rw [hquery] at he
    cases part with
    | error e' => simpa using he
    | ok sql => simp at he

/-! ## Tables -/

theorem tableName_of_blank {table : String} (h : Text.trim table = "") :
    tableName table = .error (.emptyArgument .table) := if_pos h

theorem tableName_of_ne {table : String} (h : Text.trim table ≠ "") :
    tableName table = .ok (Text.trim table) := if_neg h

theorem tableName_eq_ok {table name : String} (h : tableName table = .ok name) :
    name = Text.trim table := by
  by_cases hblank : Text.trim table = ""
  · simp [tableName_of_blank hblank] at h
  · rw [tableName_of_ne hblank] at h
    exact (Except.ok.inj h).symm

/-- A blank table is refused, whatever is wrong with the one before it. -/
theorem tableName_second_blank {α : Type} {second : String} (h : Text.trim second = "")
    (first : String) (next : String → String → Except Error α) :
    (do next (← tableName first) (← tableName second)) = .error (.emptyArgument .table) := by
  rw [tableName_of_blank h]
  by_cases hfirst : Text.trim first = ""
  · rw [tableName_of_blank hfirst, error_bind]
  · rw [tableName_of_ne hfirst, ok_bind, error_bind]

/-- The columns of an insertion are as many as the selected ones, unless either are left open. -/
theorem checkColumnCounts_eq_ok_iff {names columns : List String} :
    checkColumnCounts names columns = .ok () ↔ names.length = (Text.nonBlank columns).length ∨
      names = [] ∨ selectedColumns columns = "*" := by
  rw [checkColumnCounts]
  split <;> grind

/-! ## Statements that end in a query -/

section
variable {σ : Type} [Medium σ] (value : Value → σ)

def queryTail (source : String) (clauses : List (Clause σ)) : Except Error σ := do
  let source ← tableName source
  withClauses value (ofText (" FROM " ++ source)) Clause.ofQueries clauses

theorem queryTail_eq_ok {value : Value → σ} {source : String} {clauses : List (Clause σ)} {tail : σ}
    (h : queryTail value source clauses = .ok tail) :
    ∃ rest, tail = ofText (" FROM " ++ Text.trim source) ++ rest := by
  obtain ⟨name, hname, h⟩ := bind_eq_ok.1 h
  obtain ⟨arranged, -, h⟩ := bind_eq_ok.1 h
  rw [tableName_eq_ok hname] at h
  exact ⟨_, (Except.ok.inj h).symm⟩

theorem written_insertSelect {target : String} (h : Text.trim target ≠ "")
    {names columns : List String}
    (hcounts : checkColumnCounts (Text.nonBlank names) columns = .ok ()) (source : String)
    (clauses : List (Clause σ)) :
    (StatementRequest.insertSelect target names source columns clauses).written value =
      (selectQuery value source (selectedColumns columns) clauses).map
        (ofText ("INSERT INTO " ++ Text.trim target ++ " " ++ if Text.nonBlank names = [] then ""
          else "(" ++ ", ".intercalate (Text.nonBlank names) ++ ") ") ++ ·) := by
  simp only [StatementRequest.written, tableName_of_ne h, hcounts, ok_bind, map_eq_bind, pure_eq_ok]

theorem written_insertSelect_refused {target : String} {names columns : List String}
    (h : ¬ (Text.trim target ≠ "" ∧
      checkColumnCounts (Text.nonBlank names) columns = .ok ())) (source : String)
    (clauses : List (Clause σ)) :
    ∃ e, (StatementRequest.insertSelect target names source columns clauses).written value =
      .error e := by
  simp only [StatementRequest.written]
  by_cases htarget : Text.trim target = ""
  · exact ⟨_, by rw [tableName_of_blank htarget, error_bind]⟩
  · rw [tableName_of_ne htarget, ok_bind]
    cases hcounts : checkColumnCounts (Text.nonBlank names) columns with
    | ok => exact absurd ⟨htarget, hcounts⟩ h
    | error e => exact ⟨e, rfl⟩

variable [LawfulMedium σ]

theorem map_withClauses (start : String) (head : σ) (allowed : List ClauseKind)
    (clauses : List (Clause σ)) :
    (withClauses value head allowed clauses).map (ofText start ++ ·) =
      withClauses value (ofText start ++ head) allowed clauses := by
  simp only [withClauses, map_eq_bind, bind_assoc, pure_eq_ok, ok_bind, LawfulMedium.append_assoc]

theorem map_queryTail (start source : String) (clauses : List (Clause σ)) :
    (queryTail value source clauses).map (ofText start ++ ·) = (do
      let source ← tableName source
      withClauses value (ofText (start ++ (" FROM " ++ source))) Clause.ofQueries clauses) := by
  simp only [queryTail, LawfulMedium.ofText_append start, ← map_withClauses, map_eq_bind,
    bind_assoc]

theorem selectQuery_eq (source columns : String) (clauses : List (Clause σ)) :
    selectQuery value source columns clauses =
      (queryTail value source clauses).map (ofText ("SELECT " ++ columns) ++ ·) := by
  simp only [map_queryTail, selectQuery, String.append_assoc]

theorem written_createSelect {target : String} (h : Text.trim target ≠ "") (source : String)
    (columns : List String) (clauses : List (Clause σ)) :
    (StatementRequest.createSelect target source columns clauses).written value =
      (selectQuery value source (selectedColumns columns) clauses).map
        (ofText ("CREATE TABLE " ++ Text.trim target ++ " AS ") ++ ·) := by
  have hwords (name : String) : "CREATE TABLE " ++ Text.trim target ++ " AS SELECT " ++
        selectedColumns columns ++ " FROM " ++ name =
      "CREATE TABLE " ++ Text.trim target ++ " AS " ++
        ("SELECT " ++ selectedColumns columns ++ " FROM " ++ name) := by
    rw [← String.toList_inj]
    simp
  simp only [StatementRequest.written, selectQuery, tableName_of_ne h, ok_bind, map_eq_bind,
    bind_assoc, hwords, LawfulMedium.ofText_append ("CREATE TABLE " ++ Text.trim target ++ " AS "),
    ← map_withClauses]

theorem written_selectInto {target : String} (h : Text.trim target ≠ "") (source : String)
    (columns : List String) (clauses : List (Clause σ)) :
    (StatementRequest.selectInto target source columns clauses).written value =
      (queryTail value source clauses).map
        (ofText ("SELECT " ++ selectedColumns columns ++ " INTO " ++ Text.trim target) ++ ·) := by
  simp only [map_queryTail, StatementRequest.written, tableName_of_ne h, ok_bind,
    String.append_assoc]

end

namespace Builder

theorem result_of_written (b : Builder) {q : StatementRequest Clause} {part : Except Error Sql}
    {finish : Sql → Sql} (h : q.written b.composer.rendering.value = part.map finish) :
    (b.statement q).2.result =
      part.map fun sql => .ofSql q.kind b.composer.settings.prepare (finish sql) := by
  rw [result_statement, h]
  cases part <;> rfl

/-- Whatever was called before, the statements and fragments that end in a query stand or fall with
that query. -/
theorem composites_stand_on_select (c : Composer) (calls : List Call) (target source : String)
    (names columns : List String) (all : Bool) (clauses : List Clause) :
    let b := (fresh c).after calls
    let query := (b.statement (.select source columns clauses)).2.result
    let target' := Text.trim target
    let names' := Text.nonBlank names
    StandsOn query (target' ≠ "")
        (fun s t => t = { s with
          kind := .createSelect, sql.text := "CREATE TABLE " ++ target' ++ " AS " ++ s.sql.text })
        (b.statement (.createSelect target source columns clauses)).2.result ∧
      StandsOn query (target' ≠ "")
        (fun s t => ∃ rest,
          s.sql.text = "SELECT " ++ selectedColumns columns ++
            (" FROM " ++ Text.trim source ++ rest) ∧
          t = { s with
            kind := .selectInto,
            sql.text := "SELECT " ++ selectedColumns columns ++ " INTO " ++ target' ++
              (" FROM " ++ Text.trim source ++ rest) })
        (b.statement (.selectInto target source columns clauses)).2.result ∧
      StandsOn query (target' ≠ "" ∧ (names'.length = (Text.nonBlank columns).length ∨
          names' = [] ∨ selectedColumns columns = "*"))
        (fun s t => t = { s with
          kind := .insertSelect,
          sql.text := "INSERT INTO " ++ target' ++ " " ++
            (if names' = [] then "" else "(" ++ ", ".intercalate names' ++ ") ") ++ s.sql.text })
        (b.statement (.insertSelect target names source columns clauses)).2.result ∧
      StandsOn query True
        (fun s f => f = ⟨.union, { s.sql with
          text := (if all then " UNION ALL " else " UNION ") ++ Text.trim s.sql.text ++ " " }⟩)
        (b.fragment (.union all source columns clauses)).2.result := by
  intro b query target' names'
  let value := b.composer.rendering.value
  have hquery : query = (selectQuery value source (selectedColumns columns) clauses).map
      (.ofSql .select b.composer.settings.prepare) := result_statement b _
  have hrefused {q : StatementRequest Clause} (h : ∃ e, q.written value = .error e) :
      ∃ e, (b.statement q).2.result = .error e := by
    obtain ⟨e, he⟩ := h
    exact ⟨e, by rw [result_statement, he, map_error]⟩
  refine ⟨?_, ?_, ?_, ?_⟩
  · refine .of_map hquery (fun h => result_of_written b (written_createSelect _ h _ _ _))
      (fun h => hrefused ⟨.emptyArgument .table, ?_⟩) fun sql _ t => .rfl
    exact tableName_second_blank (not_not.1 h) source _
  · refine .of_map (result_of_written b (selectQuery_eq _ _ _ _))
      (fun h => result_of_written b (written_selectInto _ h source columns clauses))
      (fun h => hrefused ⟨.emptyArgument .table, ?_⟩) fun sql hsql t => ?_
    · exact tableName_second_blank (not_not.1 h) source _
    · -- What follows the source is read off the text of the query.
      obtain ⟨rest, rfl⟩ := queryTail_eq_ok hsql
      constructor
      · rintro ⟨text, htext, rfl⟩
        have hrest : rest.text = text := by simpa [Statement.ofSql] using htext
        rw [← hrest]
        rfl
      · rintro rfl
        exact ⟨rest.text, rfl, rfl⟩
  · simp only [target', names', ← checkColumnCounts_eq_ok_iff]
    exact .of_map hquery (fun h => result_of_written b (written_insertSelect _ h.1 h.2 _ _))
      (fun h => hrefused (written_insertSelect_refused _ h _ _)) fun sql _ t => .rfl
  · have hfragment : (b.fragment (.union all source columns clauses)).2.result =
        (selectQuery value source (selectedColumns columns) clauses).map fun sql =>
          ⟨.union, ofText (if all then " UNION ALL " else " UNION ") ++
            (Medium.trim sql ++ ofText " ")⟩ := by
      rw [result_fragment c calls, FragmentRequest.written, map_eq_bind]
      rfl
    refine .of_map hquery (fun _ => hfragment) (absurd trivial) fun sql _ f => ?_
    have hunion : (ofText (if all then " UNION ALL " else " UNION ") ++
          (Medium.trim sql ++ ofText " ") : Sql) =
        ⟨(if all then " UNION ALL " else " UNION ") ++ Text.trim sql.text ++ " ", sql.params⟩ := by
      ext1 <;> simp [String.append_assoc]
    rw [hunion]
    rfl

/-- A table made of a query with a parameter, and one that fails as its query fails. -/
theorem composites_stand_on_select_users :
    let b := fresh (Composer.ofSettings {})
    let clauses : List Clause :=
      [.condition (.leaf { column := "id", criterion := .typed (.compare .gt (.int 7)) })]
    let query (source : String) := (b.statement (.select source ["id"] clauses)).2.result
    let stored (source : String) :=
      (b.statement (.createSelect " kept " source ["id"] clauses)).2.result
    let users : Statement :=
      ⟨.select, ⟨"SELECT id FROM users WHERE id > __param__ ", [.int 7]⟩, true⟩
    let kept : Statement := ⟨.createSelect,
      ⟨"CREATE TABLE kept AS SELECT id FROM users WHERE id > __param__ ", [.int 7]⟩, true⟩
    query "users" = .ok users ∧ stored "users" = .ok kept ∧
      query " " = .error (.emptyArgument .table) ∧ stored " " = .error (.emptyArgument .table) := by
  intro b clauses query stored users kept
  have hquery : query "users" = .ok users := by decide +kernel
  have hrefused : query " " = .error (.emptyArgument .table) := by decide +kernel
  have hcomposite (source : String) :=
    (composites_stand_on_select (.ofSettings {}) [] " kept " source [] ["id"] false clauses).1
  have hstored : stored "users" = .ok kept :=
    ((hcomposite "users").ok_iff kept).2 ⟨by decide, users, hquery, by decide⟩
  exact ⟨hquery, hstored, hrefused, (hcomposite " ").error (by decide) hrefused⟩

end Builder

end SqlAssembly
