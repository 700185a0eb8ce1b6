import SqlAssembly.Proofs.Arrangement
import SqlAssembly.Proofs.Builds

/-! # Operations that take clauses

Every operation that takes clauses checks its other arguments, writes its head from them, and then
writes the clauses that it is given, arranged.  Its answer depends on the clauses through their
arrangement alone.
-/
namespace SqlAssembly
open Medium (ofText)

/-- An operation that takes clauses, with its other arguments. -/
inductive Operation where
  | select (table : String) (columns : List String)
  | union (all : Bool) (table : String) (columns : List String)
  | update (table : String) (pairs : List (String × Value))
  | delete (table : String)
  | insertSelect (target : String) (columns : List String) (source : String)
      (sourceColumns : List String)
  | createSelect (target source : String) (columns : List String)
  | selectInto (target source : String) (columns : List String)

namespace Operation

def call (clauses : List Clause) : Operation → Call
  | .select table columns => .statement (.select table columns clauses)
  | .union all table columns => .fragment (.union all table columns clauses)
  | .update table pairs => .statement (.update table pairs clauses)
  | .delete table => .statement (.delete table clauses)
  | .insertSelect target columns source sourceColumns =>
    .statement (.insertSelect target columns source sourceColumns clauses)
  | .createSelect target source columns =>
    .statement (.createSelect target source columns clauses)
  | .selectInto target source columns => .statement (.selectInto target source columns clauses)

def allowed : Operation → List ClauseKind
  | .update .. | .delete .. => Clause.ofMutations
  | _ => Clause.ofQueries

def head (value : Value → Sql) : Operation → Except Error Sql
  | .select table columns | .union _ table columns => do
    return ofText ("SELECT " ++ selectedColumns columns ++ " FROM " ++ (← tableName table))
  | .update table pairs => do
    let table ← tableName table
    let pairs ← namedPairs pairs
    return Template.write value (assignmentTemplate table pairs)
  | .delete table => do return ofText ("DELETE FROM " ++ (← tableName table))
  | .insertSelect target columns source sourceColumns => do
    let target ← tableName target
    let columns := Text.nonBlank columns
    checkColumnCounts columns sourceColumns
    let source ← tableName source
    let names := if columns = [] then "" else "(" ++ ", ".intercalate columns ++ ") "
    return ofText ("INSERT INTO " ++ target ++ " " ++ names) ++
      ofText ("SELECT " ++ selectedColumns sourceColumns ++ " FROM " ++ source)
  | .createSelect target source columns => do
    let source ← tableName source
    let target ← tableName target
    return ofText ("CREATE TABLE " ++ target ++ " AS SELECT " ++ selectedColumns columns ++
      " FROM " ++ source)
  | .selectInto target source columns => do
    let source ← tableName source
    let target ← tableName target
    return ofText ("SELECT " ++ selectedColumns columns ++ " INTO " ++ target ++ " FROM " ++ source)

/-- What an operation answers once its SQL is written, with values bound or inlined. -/
def reply (bound : Bool) (sql : Sql) : Operation → Reply
  | .select .. => .statement (.ofSql .select bound sql)
  | .union all .. =>
    .fragment ⟨.union, ofText (if all then " UNION ALL " else " UNION ") ++
      (Medium.trim sql ++ ofText " ")⟩
  | .update .. => .statement (.ofSql .update bound sql)
  | .delete .. => .statement (.ofSql .delete bound sql)
  | .insertSelect .. => .statement (.ofSql .insertSelect bound sql)
  | .createSelect .. => .statement (.ofSql .createSelect bound sql)
  | .selectInto .. => .statement (.ofSql .selectInto bound sql)

theorem raw_notMem_allowed (op : Operation) : .raw ∉ op.allowed := by
  cases op <;> simp [allowed, Clause.ofQueries, Clause.ofMutations]

theorem whereRows_mem_allowed (op : Operation) : .whereRows ∈ op.allowed := by
  cases op <;> simp [allowed, Clause.ofQueries, Clause.ofMutations]

end Operation

/-- An operation writes its head and then its clauses, arranged. -/
theorem Composer.answer_call (c : Composer) (op : Operation) (clauses : List Clause) :
    (c.answer (op.call clauses)).result = (do
      let head ← op.head c.rendering.value
      let arranged ← Clause.arrange c.rendering.value op.allowed clauses
      return op.reply c.settings.prepare (head ++ Clause.suffixOf arranged)) := by
  cases op <;>
    simp only [Operation.call, Composer.answer, Composer.buildStatement, Composer.buildFragment,
      Outcome.map, Outcome.result_ofBuild, Composer.statementOf, Composer.fragmentOf,
      Composer.sqlOf, StatementRequest.written, FragmentRequest.written, selectQuery, withClauses,
      Operation.head, Operation.allowed, map_eq_bind, bind_assoc, pure_eq_ok, ok_bind,
      Operation.reply, StatementRequest.kind, LawfulMedium.append_assoc]

theorem Builder.result_call (c : Composer) (calls : List Call) (op : Operation)
    (clauses : List Clause) :
    let b := (fresh c).after calls
    (b.call (op.call clauses)).2.result = (do
      let head ← op.head b.composer.rendering.value
      let arranged ← Clause.arrange b.composer.rendering.value op.allowed clauses
      return op.reply b.composer.settings.prepare (head ++ Clause.suffixOf arranged)) := by
  intro b
  rw [show b = _ from after_fresh c calls, call_fresh, Composer.answer_call]
  rfl

/-- Whatever was called before, an operation answers the same to its clauses in another order, or
fails both times: for the same reason, or for clauses that do not fit.  What it answers is its head
and then the clauses, arranged by the grammar. -/
theorem Operation.call_reordered (c : Composer) (calls : List Call) (op : Operation)
    {clauses clauses' : List Clause} (h : Clause.Reordered clauses clauses') :
    let b := (Builder.fresh c).after calls
    SameFate Error.SameVariant Eq (b.call (op.call clauses)).2.result
        (b.call (op.call clauses')).2.result ∧
      ∀ reply, (b.call (op.call clauses)).2.result = .ok reply → ∃ head arranged,
        op.head b.composer.rendering.value = .ok head ∧
        Clause.Arranged b.composer.rendering.value op.allowed clauses arranged ∧
        reply = op.reply b.composer.settings.prepare (head ++ Clause.suffixOf arranged) := by
  intro b
  have hb : b = Builder.fresh (calls.foldl Composer.heed c) := Builder.after_fresh c calls
  rw [hb, Builder.call_fresh, Builder.call_fresh]
  generalize calls.foldl Composer.heed c = c'
  simp only [Composer.answer_call, Builder.fresh]
  constructor
  · cases op.head c'.rendering.value with
    | error e => exact .error (.same e)
    | ok head =>
      apply (Clause.arrange_reordered c'.rendering.value op.allowed h).bind
      rintro arranged _ rfl
      exact .ok rfl
  · intro reply hreply
    obtain ⟨head, hhead, hreply⟩ := bind_eq_ok.1 hreply
    obtain ⟨arranged, harranged, hreply⟩ := bind_eq_ok.1 hreply
    exact ⟨head, arranged, hhead, Clause.arrange_ok op.raw_notMem_allowed harranged,
      (Except.ok.inj hreply).symm⟩

/-- A deletion whose limit and order are given among its conditions. -/
theorem Operation.delete_reordered :
    let c := Composer.ofSettings {}
    let test (column : String) : Clause :=
      .condition (.leaf { column, criterion := .typed (.compare .eq (.int 1)) })
    let limit : Clause := .fragment (limit 5 none)
    let order : Clause := .fragment ⟨.orderBy, " ORDER BY id DESC "⟩
    let answer (clauses : List Clause) :=
      ((Builder.fresh c).call ((delete "users").call clauses)).2.result
    let deleted : Reply := .statement ⟨.delete,
      ⟨"DELETE FROM users WHERE a = __param__ AND b = __param__ ORDER BY id DESC LIMIT 5 ",
        [.int 1, .int 1]⟩, true⟩
    Clause.Reordered [test "a", test "b", order, limit] [limit, test "a", order, test "b"] ∧
      answer [test "a", test "b", order, limit] = .ok deleted ∧
      answer [limit, test "a", order, test "b"] = .ok deleted := by
  intro c test limit order answer deleted
  have hreordered :
      Clause.Reordered [test "a", test "b", order, limit] [limit, test "a", order, test "b"] := by
    refine ⟨?_, rfl, rfl, rfl⟩
    have hfront : [test "a", test "b", order, limit].Perm [limit, test "a", test "b", order] :=
      List.perm_append_singleton limit [test "a", test "b", order]
    exact hfront.trans (((List.Perm.swap order (test "b") []).cons (test "a")).cons limit)
  have hanswer : answer [test "a", test "b", order, limit] = .ok deleted := by decide +kernel
  have h : SameFate Error.SameVariant Eq (answer [test "a", test "b", order, limit])
      (answer [limit, test "a", order, test "b"]) :=
    (Operation.call_reordered c [] (.delete "users") hreordered).1
  refine ⟨hreordered, hanswer, ?_⟩
  rw [hanswer] at h
  generalize answer [limit, test "a", order, test "b"] = answered at h ⊢
  cases h with
  | ok h => rw [← h]

end SqlAssembly
