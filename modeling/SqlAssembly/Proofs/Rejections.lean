import SqlAssembly.Proofs.Refusals

/-! # Rejections and their reports

Whatever a composer is asked for, it fails only by refusing what it was given, never with the
failure of a schema, a configuration or a query.  A call that fails reports so once, a statement is
reported once if statements are logged, and there are no other reports. -/
namespace SqlAssembly
open Medium (ofText)

/-! ## Reports -/

structure Record where
  target : String
  level : Level
  fields : List (String × String)
deriving DecidableEq

def Event.record (e : Event) : Record := ⟨e.target, e.level, e.fields⟩

def Record.rejected (e : Error) : Record where
  target := "sqlweave.qb"
  level := .debug
  fields := [("message", "statement build rejected"), ("reason", e.message)]

/-- The record of a statement, its text as far as the log keeps it. -/
def Record.built (settings : Settings) (s : Statement) : Record where
  target := "sqlweave.sql"
  level := .debug
  fields := [("message", "statement built"), ("kind", s.kind.name),
    ("param_count", Nat.repr s.sql.params.length), ("sql", settings.truncate s.sql.text)]

/-- What a call answers and puts on record, given the settings. -/
inductive OnRecord (settings : Settings) : Call → Except Error Reply → List Record → Prop
  | rejected (call : Call) {e : Error} (h : e.isSoft = true) :
    OnRecord settings call (.error e) [.rejected e]
  | fragment (q : FragmentRequest Clause) (f : Fragment) :
    OnRecord settings (.fragment q) (.ok (.fragment f)) []
  | logged {q : StatementRequest Clause} {s : Statement} (hkind : s.kind = q.kind)
      (h : settings.logSql = true) :
    OnRecord settings (.statement q) (.ok (.statement s)) [.built settings s]
  | unlogged {q : StatementRequest Clause} {s : Statement} (hkind : s.kind = q.kind)
      (h : settings.logSql = false) : OnRecord settings (.statement q) (.ok (.statement s)) []
  | switched (prepare : Bool) (s : Settings) :
    OnRecord settings (.setPrepare prepare) (.ok (.settings s)) []

/-- How values are written has no part in what is put on record. -/
theorem OnRecord.of_prepare {settings : Settings} {prepare : Bool} {call : Call}
    {result : Except Error Reply} {records : List Record}
    (h : OnRecord { settings with prepare } call result records) :
    OnRecord settings call result records := by
  cases h with
  | rejected _ h => exact .rejected call h
  | fragment q f => exact .fragment q f
  | logged hkind h => exact .logged hkind h
  | unlogged hkind h => exact .unlogged hkind h
  | switched prepare s => exact .switched prepare s

theorem record_reportOf {e : Error} (h : e.isSoft = true) :
    (Outcome.reportOf e).record = .rejected e := by
  rw [Outcome.reportOf, Error.isUnknownDataType_of_isSoft h]
  rfl

theorem Composer.kind_statementOf {c : Composer} {q : StatementRequest Clause} {s : Statement}
    (h : c.statementOf q = .ok s) : s.kind = q.kind := by
  obtain ⟨sql, -, h⟩ := bind_eq_ok.1 h
  cases h
  rfl

theorem Composer.answer_onRecord (c : Composer) (call : Call) :
    OnRecord c.settings call (c.answer call).result ((c.answer call).events.map Event.record) := by
  cases call with
  | fragment q =>
    rw [answer, buildFragment]
    cases hresult : c.fragmentOf q with
    | ok f => exact .fragment q f
    | error e =>
      have h := (q.written_refusable c.rendering.value e hresult).isSoft
      simp only [Outcome.ofBuild, Outcome.map, map_error, List.map_cons, List.map_nil,
        record_reportOf h]
      exact .rejected _ h
  | statement q =>
    have hrefusable := (q.written_refusable c.rendering.value).bind
      fun sql => .ok (Statement.ofSql q.kind c.settings.prepare sql)
    rw [answer, buildStatement]
    cases hresult : c.statementOf q with
    | ok s =>
      have hkind := kind_statementOf hresult
      simp only [Outcome.ofBuild, Outcome.map, map_ok, logOf]
      by_cases hlog : c.settings.logSql = true
      · rw [if_pos hlog]
        exact .logged hkind hlog
      · rw [if_neg hlog]
        exact .unlogged hkind (by simpa using hlog)
    | error e =>
      have h := (hrefusable e hresult).isSoft
      simp only [Outcome.ofBuild, Outcome.map, map_error, List.map_cons, List.map_nil,
        record_reportOf h]
      exact .rejected _ h
  | setPrepare prepare => exact .switched prepare _

namespace Builder

def answers (b : Builder) : List Call → List (Outcome Reply)
  | [] => []
  | call :: calls => (b.call call).2 :: (b.call call).1.answers calls

theorem answers_onRecord (c : Composer) (calls : List Call) :
    List.Forall₂ (fun call o => OnRecord c.settings call o.result (o.events.map Event.record))
      calls ((fresh c).answers calls) := by
  induction calls generalizing c with
  | nil => exact .nil
  | cons call calls ih =>
    rw [answers, call_fresh]
    refine .cons (c.answer_onRecord call) ?_
    cases call with
    | fragment q => exact ih c
    | statement q => exact ih c
    | setPrepare prepare => exact (ih (c.setPrepare prepare)).imp fun _ _ h => h.of_prepare

/-- In any run of calls, every failure is soft and is all that its call reports; no success reports
a refusal, and a statement is reported once if statements are logged.  Fragments report nothing, and
no build is reported as one that a broken schema failed. -/
theorem calls_report_once (c : Composer) (calls : List Call) :
    List.Forall₂ (fun call o =>
      (∀ e, o.result = .error e →
        e.isSoft = true ∧ o.events.map Event.record = [.rejected e]) ∧
      (∀ reply, o.result = .ok reply →
        ∀ r ∈ o.events.map Event.record, r.target ≠ "sqlweave.qb") ∧
      (∀ q reply, call = .statement q → o.result = .ok reply →
        ∃ s, reply = .statement s ∧ s.kind = q.kind ∧ o.events.map Event.record =
          if c.settings.logSql then [.built c.settings s] else []) ∧
      (∀ q, call = .fragment q →
        ∀ r ∈ o.events.map Event.record, r.target ≠ "sqlweave.sql") ∧
      ∀ r ∈ o.events.map Event.record, ("message", "statement build failed") ∉ r.fields)
    calls ((fresh c).answers calls) := by
  refine (answers_onRecord c calls).imp fun call o h => ?_
  generalize o.result = result at h
  generalize o.events.map Event.record = records at h
  cases h with
  | rejected call hsoft => simp [Record.rejected, hsoft]
  | fragment q f => simp
  | logged hkind hlog => simp [Record.built, hkind, hlog]
  | unlogged hkind hlog => simp [hkind, hlog]
  | switched prepare s => simp

/-- A logged statement, cut short, and a refused one. -/
theorem calls_report_once_deletes :
    let c : Composer := ⟨.standard none, { logSql := true, maxLogLength := some 8 }⟩
    let answers := (fresh c).answers [.statement (.delete "t" []), .statement (.delete " " [])]
    let s : Statement := ⟨.delete, ⟨"DELETE FROM t", []⟩, true⟩
    let e : Error := .emptyArgument .table
    answers.map (·.result) = [.ok (.statement s), .error e] ∧ e.isSoft = true ∧
      answers.map (·.events.map Event.record) =
        [[⟨"sqlweave.sql", .debug, [("message", "statement built"), ("kind", "delete"),
            ("param_count", "0"), ("sql", "DELETE F...")]⟩],
          [⟨"sqlweave.qb", .debug, [("message", "statement build rejected"),
            ("reason", e.message)]⟩]] := by
  intro c answers s e
  have hresults : answers.map (·.result) = [.ok (.statement s), .error e] := by decide +kernel
  have hdeleted : ((fresh c).call (.statement (.delete "t" []))).2.result = .ok (.statement s) :=
    (List.cons.inj hresults).1
  have hrefused : (((fresh c).call (.statement (.delete "t" []))).1.call
      (.statement (.delete " " []))).2.result = .error e :=
    (List.cons.inj (List.cons.inj hresults).2).1
  obtain ⟨⟨-, -, hbuilt, -⟩, hrest⟩ := List.forall₂_cons.1 (calls_report_once c
    [.statement (.delete "t" []), .statement (.delete " " [])])
  obtain ⟨⟨hrejected, -⟩, -⟩ := List.forall₂_cons.1 hrest
  obtain ⟨_, hs, -, hbuilt⟩ := hbuilt _ _ rfl hdeleted
  obtain ⟨hsoft, hrejected⟩ := hrejected e hrefused
  cases hs
  refine ⟨hresults, hsoft, ?_⟩
  have hrecord : Record.built c.settings s = ⟨"sqlweave.sql", .debug,
    [("message", "statement built"), ("kind", "delete"), ("param_count", "0"),
      ("sql", "DELETE F...")]⟩ := by decide +kernel
  rw [← hrecord]
  exact congrArg₂ List.cons hbuilt (congrArg₂ List.cons hrejected rfl)

end Builder

end SqlAssembly
