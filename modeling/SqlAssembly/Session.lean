import SqlAssembly.Composer.Build
import SqlAssembly.Fragment.Spec

/-! # Sessions

A session runs steps on one composer and keeps the fragments that steps name, so that later steps
can use them again.  A step that fails stores nothing and the next step goes on with the same
composer.  The clauses of a step are all built, in order, before the composer is called.
-/
namespace SqlAssembly

inductive ClauseSource where
  | text (sql : String)
  | spec (fragment : FragmentSpec)
  /-- The fragment last stored under a name; a name that stores nothing stands for no clause. -/
  | stored (name : String)
  | condition (t : Tree)

inductive Step where
  /-- Render a fragment, and store it under a name if there is one. -/
  | fragment (request : FragmentRequest ClauseSource) (name : Option String)
  /-- Build a described fragment, and store it likewise. -/
  | spec (fragment : FragmentSpec) (name : Option String)
  | statement (request : StatementRequest ClauseSource)
  | setPrepare (prepare : Bool)

/-- A composer at work and the fragments stored so far, newest first. -/
structure Session extends Builder where
  stored : List (String × Fragment) := []

/-- The clauses that sources stand for, given the fragments stored so far, and how SQL that needs no
composer is put into their medium. -/
def resolve {σ : Type} (raw : Sql → σ) (stored : List (String × Fragment σ)) :
    List ClauseSource → Except Error (List (Clause σ))
  | [] => .ok []
  | .text sql :: rest => do
    return .fragment ((Fragment.ofText sql []).map raw) :: (← resolve raw stored rest)
  | .spec f :: rest => do
    let fragment ← f.build
    return .fragment (fragment.map raw) :: (← resolve raw stored rest)
  | .stored name :: rest => do
    let clauses ← resolve raw stored rest
    match stored.lookup name with
    | some f => return .fragment f :: clauses
    | none => return clauses
  | .condition t :: rest => do
    return .condition t :: (← resolve raw stored rest)

namespace Session

/-- The clauses that sources stand for in a session. -/
def resolve (s : Session) : List ClauseSource → Except Error (List Clause) :=
  SqlAssembly.resolve id s.stored

def store (s : Session) (name : Option String) (f : Fragment) : Session :=
  match name with
  | some n => { s with stored := (n, f) :: s.stored }
  | none => s

/-- The session and the answer after a fragment was built, which is kept under its name. -/
def keep (s : Session) (name : Option String) (o : Outcome Fragment) : Session × Outcome Reply :=
  match o.result with
  | .ok f => (s.store name f, ⟨.ok (.fragment f), o.events⟩)
  | .error e => (s, ⟨.error e, o.events⟩)

/-- A statement request built, the failures of its clauses not reported. -/
def buildStatement (s : Session) (q : StatementRequest ClauseSource) : Outcome Statement :=
  match q.mapClausesM s.resolve with
  | .ok q => (s.toBuilder.statement q).2
  | .error e => ⟨.error e, []⟩

def step (s : Session) : Step → Session × Outcome Reply
  | .fragment q name =>
    match q.mapClausesM s.resolve with
    | .ok q =>
      let (builder, o) := s.toBuilder.fragment q
      { s with toBuilder := builder }.keep name o
    | .error e => (s, ⟨.error e, []⟩)
  | .spec f name => s.keep name ⟨f.build, []⟩
  | .statement q =>
    match q.mapClausesM s.resolve with
    | .ok q =>
      let (builder, o) := s.toBuilder.statement q
      ({ s with toBuilder := builder }, o.map .statement)
    | .error e => (s, ⟨.error e, []⟩)
  | .setPrepare prepare =>
    let (builder, o) := s.toBuilder.call (.setPrepare prepare)
    ({ s with toBuilder := builder }, o)

def run (s : Session) : List Step → List (Outcome Reply)
  | [] => []
  | step :: rest => (s.step step).2 :: (s.step step).1.run rest

end Session

end SqlAssembly
