import SqlAssembly.Proofs.Builds

/-! # Programs in a medium

The steps of a session can be written in any medium, with fragments of that medium stored.  A
session runs the same program in text with parameters: no build leaves anything behind that a later
step would find.
-/
namespace SqlAssembly

/-- How a medium takes values, bound or inlined, and SQL that needs no composer. -/
structure Manner (σ : Type) where
  value : Bool → Value → σ
  raw : Sql → σ

inductive Written (σ : Type) where
  | fragment (f : Fragment σ)
  | statement (kind : StatementKind) (bound : Bool) (sql : σ)
  | switched (bound : Bool)

/-- The mode of writing values, and the fragments stored so far, newest first. -/
structure Desk (σ : Type) where
  bound : Bool
  stored : List (String × Fragment σ) := []

def Desk.keep {σ : Type} (desk : Desk σ) (name : Option String) :
    Except Error (Fragment σ) → Desk σ × Except Error (Written σ)
  | .ok f =>
    match name with
    | some n => ({ desk with stored := (n, f) :: desk.stored }, .ok (.fragment f))
    | none => (desk, .ok (.fragment f))
  | .error e => (desk, .error e)

namespace Manner

variable {σ : Type} [Medium σ] (m : Manner σ)

def resolve (desk : Desk σ) : List ClauseSource → Except Error (List (Clause σ)) :=
  SqlAssembly.resolve m.raw desk.stored

def fragmentOf (desk : Desk σ) (q : FragmentRequest ClauseSource) : Except Error (Fragment σ) := do
  (← q.mapClausesM (m.resolve desk)).written (m.value desk.bound)

def sqlOf (desk : Desk σ) (q : StatementRequest ClauseSource) : Except Error σ := do
  (← q.mapClausesM (m.resolve desk)).written (m.value desk.bound)

def step (desk : Desk σ) : Step → Desk σ × Except Error (Written σ)
  | .fragment q name => desk.keep name (m.fragmentOf desk q)
  | .spec f name => desk.keep name (f.build.map (·.map m.raw))
  | .statement q => (desk, (m.sqlOf desk q).map (.statement q.kind desk.bound))
  | .setPrepare bound => ({ desk with bound }, .ok (.switched bound))

def run (desk : Desk σ) : List Step → List (Except Error (Written σ))
  | [] => []
  | step :: rest => (m.step desk step).2 :: run (m.step desk step).1 rest

end Manner

/-- Values bound behind markers or inlined as literals of a dialect, and SQL as it is. -/
def Dialect.manner (d : Dialect) : Manner Sql := ⟨fun bound => (Rendering.mk d bound).value, id⟩

def Written.reply (s : Settings) : Written Sql → Reply
  | .fragment f => .fragment f
  | .statement kind bound sql => .statement (.ofSql kind bound sql)
  | .switched bound => .settings { s with prepare := bound }

theorem StatementRequest.kind_of_mapClausesM {κ ι : Type} {f : List κ → Except Error (List ι)}
    {q : StatementRequest κ} {q' : StatementRequest ι} (h : q.mapClausesM f = .ok q') :
    q'.kind = q.kind := by
  cases q with
  | insert | replace | create | alter | drop =>
    cases h
    rfl
  | select _ _ clauses | update _ _ clauses | delete _ clauses | insertSelect _ _ _ _ clauses
  | createSelect _ _ _ clauses | selectInto _ _ _ clauses =>
    simp only [mapClausesM] at h
    cases hf : f clauses with
    | error e => simp [hf] at h
    | ok clauses' =>
      simp only [hf, ok_bind, pure_eq_ok, Except.ok.injEq] at h
      exact h ▸ rfl

namespace Session

/-- A session whose composer is not at work. -/
def resting (c : Composer) (stored : List (String × Fragment)) : Session :=
  ⟨Builder.fresh c, stored⟩

theorem keep_resting (c : Composer) (stored : List (String × Fragment)) (name : Option String)
    (o : Outcome Fragment) :
    let desk := (⟨c.settings.prepare, stored⟩ : Desk Sql).keep name o.result
    ((resting c stored).keep name o).1 = resting (c.setPrepare desk.1.bound) desk.1.stored ∧
      ((resting c stored).keep name o).2.result = desk.2.map (Written.reply c.settings) := by
  rcases o with ⟨_ | f, events⟩
  · exact ⟨rfl, rfl⟩
  · cases name <;> exact ⟨rfl, rfl⟩

/-- A step writes what it writes in the medium of text with parameters, and leaves the composer
resting. -/
theorem step_resting (c : Composer) (stored : List (String × Fragment)) (step : Step) :
    let desk := c.dialect.manner.step ⟨c.settings.prepare, stored⟩ step
    ((resting c stored).step step).1 = resting (c.setPrepare desk.1.bound) desk.1.stored ∧
      ((resting c stored).step step).2.result = desk.2.map (Written.reply c.settings) := by
  have hresolve : (resting c stored).resolve =
    c.dialect.manner.resolve ⟨c.settings.prepare, stored⟩ := rfl
  cases step with
  | fragment q name =>
    simp only [Session.step, Manner.step, Manner.fragmentOf, hresolve]
    cases q.mapClausesM (c.dialect.manner.resolve ⟨c.settings.prepare, stored⟩) with
    | error e => exact ⟨rfl, rfl⟩
    | ok q =>
      have hbuilt : (c.buildFragment q).result = q.written (c.dialect.manner.value
          c.settings.prepare) := Outcome.result_ofBuild _ _
      have hfresh : (resting c stored).toBuilder.fragment q =
        (Builder.fresh c, c.buildFragment q) := Builder.fragment_fresh c q
      simp only [ok_bind, ← hbuilt, hfresh]
      exact keep_resting c stored name (c.buildFragment q)
  | spec f name =>
    have hmap : f.build.map (·.map c.dialect.manner.raw) = f.build := by
      cases f.build <;> rfl
    simp only [Session.step, Manner.step, hmap]
    exact keep_resting c stored name ⟨f.build, []⟩
  | statement q =>
    simp only [Session.step, Manner.step, Manner.sqlOf, hresolve]
    cases h : q.mapClausesM (c.dialect.manner.resolve ⟨c.settings.prepare, stored⟩) with
    | error e => exact ⟨rfl, rfl⟩
    | ok q' =>
      have hbuilt : (c.buildStatement q').result = (q'.written (c.dialect.manner.value
          c.settings.prepare)).map (.ofSql q'.kind c.settings.prepare) := by
        rw [Composer.buildStatement, Outcome.result_ofBuild, Composer.statementOf]
        rfl
      have hfresh : (resting c stored).toBuilder.statement q' =
        (Builder.fresh c, c.buildStatement q') := Builder.statement_eq (Builder.fresh c) q'
      simp only [ok_bind, hfresh, ← StatementRequest.kind_of_mapClausesM h]
      refine ⟨rfl, ?_⟩
      change (c.buildStatement q').result.map Reply.statement = _
      rw [hbuilt]
      cases q'.written (c.dialect.manner.value c.settings.prepare) <;> rfl
  | setPrepare prepare => exact ⟨rfl, rfl⟩

theorem results_run (c : Composer) (stored : List (String × Fragment)) (steps : List Step) :
    ((resting c stored).run steps).map (·.result) =
      (c.dialect.manner.run ⟨c.settings.prepare, stored⟩ steps).map
        (·.map (Written.reply c.settings)) := by
  induction steps generalizing c stored with
  | nil => rfl
  | cons step steps ih =>
    obtain ⟨hsession, hresult⟩ := step_resting c stored step
    have hreply : ∀ bound, Written.reply (c.setPrepare bound).settings =
        Written.reply c.settings := by
      intro bound
      funext w
      cases w <;> rfl
    simp only [Session.run, Manner.run, List.map_cons, hresult, hsession, ih, hreply]
    rfl

end Session

end SqlAssembly
