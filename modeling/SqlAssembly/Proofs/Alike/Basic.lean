import Mathlib.Data.List.Forall2
import SqlAssembly.Proofs.Programs
import SqlAssembly.Proofs.Texts

/-! # Programs that are alike

Two programs are alike if they are the same step by step and part by part but for their values and
the SQL written by hand, which may differ as an accord allows.  The accord also says what the texts
of the caller satisfy, so that a single program obeys an accord if it is alike to itself.
-/
namespace SqlAssembly

open List (Forall₂)

/-! ## Results -/

/-- Two results that are both successes, with related values, or both failures, with related
errors. -/
inductive SameFate {α β : Type} (E : Error → Error → Prop) (R : α → β → Prop) :
    Except Error α → Except Error β → Prop
  | ok {a : α} {b : β} (h : R a b) : SameFate E R (.ok a) (.ok b)
  | error {e f : Error} (h : E e f) : SameFate E R (.error e) (.error f)

namespace SameFate

variable {α β γ δ : Type} {E : Error → Error → Prop} {R : α → β → Prop} {S : γ → δ → Prop}
  {x : Except Error α} {y : Except Error β}

theorem bind {f : α → Except Error γ} {g : β → Except Error δ} (h : SameFate E R x y)
    (hnext : ∀ a b, R a b → SameFate E S (f a) (g b)) : SameFate E S (x >>= f) (y >>= g) := by
  cases h with
  | ok hab => exact hnext _ _ hab
  | error he => exact .error he

/-- Two results that are the same, and go on alike with anything that they can be. -/
theorem bind_meets {P : α → Prop} {x y : Except Error α} {f : α → Except Error γ}
    {g : α → Except Error δ} (h : SameFate E (fun a b => a = b ∧ P a) x y)
    (hnext : ∀ a, P a → SameFate E S (f a) (g a)) : SameFate E S (x >>= f) (y >>= g) := by
  apply h.bind
  rintro a b ⟨rfl, ha⟩
  exact hnext a ha

theorem map {f : α → γ} {g : β → δ} (h : SameFate E R x y)
    (hnext : ∀ a b, R a b → S (f a) (g b)) : SameFate E S (x.map f) (y.map g) := by
  cases h with
  | ok hab => exact .ok (hnext _ _ hab)
  | error he => exact .error he

theorem imp {R' : α → β → Prop} (h : SameFate E R x y) (himp : ∀ a b, R a b → R' a b) :
    SameFate E R' x y := by
  cases h with
  | ok hab => exact .ok (himp _ _ hab)
  | error he => exact .error he

theorem imp_error {E' : Error → Error → Prop} (h : SameFate E R x y)
    (himp : ∀ e f, x = .error e → y = .error f → E e f → E' e f) : SameFate E' R x y := by
  cases h with
  | ok hab => exact .ok hab
  | error he => exact .error (himp _ _ rfl rfl he)

end SameFate

/-- Two errors that are the same but for a clause quoted in them, or a pattern. -/
inductive Error.Alike (quotes patterns : String → String → Prop) : Error → Error → Prop
  | same (e : Error) : Alike quotes patterns e e
  | notCombinable {s t : String} (filter : FilterKind) (h : quotes s t) :
    Alike quotes patterns (.invalidFragment (.notCombinable s filter))
      (.invalidFragment (.notCombinable t filter))
  | unexpected {s t : String} (h : quotes s t) :
    Alike quotes patterns (.invalidFragment (.unexpected s)) (.invalidFragment (.unexpected t))
  | duplicate {s t : String} (h : quotes s t) :
    Alike quotes patterns (.invalidFragment (.duplicate s)) (.invalidFragment (.duplicate t))
  | missingWildcard {s t : String} (h : patterns s t) :
    Alike quotes patterns (.missingWildcard s) (.missingWildcard t)

theorem SameFate.same {α : Type} {quotes patterns : String → String → Prop} (x : Except Error α) :
    SameFate (Error.Alike quotes patterns) Eq x x := by
  cases x with
  | ok a => exact .ok rfl
  | error e => exact .error (.same e)

/-! ## Accords -/

/-- What two programs that are alike agree in. -/
structure Accord where
  /-- The names of tables and columns. -/
  text : String → Prop
  /-- The definitions and actions that statements about tables list. -/
  definition : String → Prop
  /-- SQL written by hand, with the values for its markers. -/
  raw : Sql → Sql → Prop
  value : Value → Value → Prop
  /-- The modes of writing values that a program may switch to. -/
  mode : Bool → Prop

/-- An accord that composers respect: its texts may be put together, and no value turns into a null
or ceases to be one. -/
structure Accord.Lawful (W : Accord) : Prop where
  text : Closed W.text
  definition : Closed W.definition
  definition_of_text {s : String} : W.text s → W.definition s
  raw_of_text {s : String} : W.text s → W.raw ⟨s, []⟩ ⟨s, []⟩
  isNullToken {v w : Value} : W.value v w → v.isNullToken = w.isNullToken

/-! ## Conditions -/

/-- Two patterns of which both have a wildcard, or neither. -/
structure Accord.Pattern (W : Accord) (v w : Value) : Prop where
  value : W.value v w
  wildcard : hasWildcard v.literalText = hasWildcard w.literalText

inductive Predicate.Alike (W : Accord) : Predicate → Predicate → Prop
  | compare (op : CompareOp) {v w : Value} (h : W.value v w) :
    Alike W (.compare op v) (.compare op w)
  | like (negated : Bool) {v w : Value} (h : W.Pattern v w) :
    Alike W (.like negated v) (.like negated w)
  | oneOf (negated : Bool) {vs ws : List Value} (h : Forall₂ W.value vs ws) :
    Alike W (.oneOf negated vs) (.oneOf negated ws)
  | between (negated : Bool) {low low' high high' : Value} (hlow : W.value low low')
      (hhigh : W.value high high') :
    Alike W (.between negated low high) (.between negated low' high')
  | isNull (negated : Bool) : Alike W (.isNull negated) (.isNull negated)

def AsksForPattern (operator : String) : Prop :=
  canonicalOperator operator = "LIKE" ∨ canonicalOperator operator = "NOT LIKE"

inductive Criterion.Alike (W : Accord) : Criterion → Criterion → Prop
  | typed {p q : Predicate} (h : p.Alike W q) : Alike W (.typed p) (.typed q)
  | spelled (operator : String) {vs ws : List Value} (h : Forall₂ W.value vs ws)
      (hpattern : AsksForPattern operator → Forall₂ W.Pattern vs ws) :
    Alike W (.spelled operator vs) (.spelled operator ws)

structure Condition.Alike (W : Accord) (a b : Condition) : Prop where
  column : a.column = b.column
  text : W.text a.column
  criterion : a.criterion.Alike W b.criterion
  combinator : a.combinator = b.combinator
  marker : a.marker = b.marker

mutual

def Tree.Alike (W : Accord) : Tree → Tree → Prop
  | .leaf a, .leaf b => a.Alike W b
  | .group ts, .group us => forestAlike W ts us
  | _, _ => False

def forestAlike (W : Accord) : List Tree → List Tree → Prop
  | [], [] => True
  | t :: ts, u :: us => t.Alike W u ∧ forestAlike W ts us
  | _, _ => False

end

section
variable {W : Accord} (hvalue : ∀ v, W.value v v)
include hvalue

theorem Predicate.alike_refl (p : Predicate) : p.Alike W p := by
  cases p with
  | compare op v => exact .compare op (hvalue v)
  | like negated v => exact .like negated ⟨hvalue v, rfl⟩
  | oneOf negated vs => exact .oneOf negated (List.forall₂_same.2 fun v _ => hvalue v)
  | between negated low high => exact .between negated (hvalue low) (hvalue high)
  | isNull negated => exact .isNull negated

theorem Criterion.alike_refl (c : Criterion) : c.Alike W c := by
  cases c with
  | typed p => exact .typed (p.alike_refl hvalue)
  | spelled operator vs =>
    exact .spelled operator (List.forall₂_same.2 fun v _ => hvalue v) fun _ =>
      List.forall₂_same.2 fun v _ => ⟨hvalue v, rfl⟩

/-- If values may stay as they are, a condition obeys an accord as soon as its column does. -/
theorem Tree.leaf_alike_refl (c : Condition) (hcolumn : W.text c.column) :
    (Tree.leaf c).Alike W (.leaf c) := by
  have hcriterion := c.criterion.alike_refl hvalue
  simpa only [Tree.Alike] using ⟨rfl, hcolumn, hcriterion, rfl, rfl⟩

end

/-! ## Fragments and requests -/

def Join.Names (P : String → Prop) (j : Join) : Prop :=
  P j.left ∧ P j.right ∧ P j.leftColumn ∧ (∀ s ∈ j.rightColumn, P s) ∧ ∀ s ∈ j.shortName, P s

inductive FragmentSpec.Alike (W : Accord) : FragmentSpec → FragmentSpec → Prop
  | groupBy {columns : List String} (h : ∀ s ∈ columns, W.text s) :
    Alike W (.groupBy columns) (.groupBy columns)
  | orderBy {columns : List String} (direction : Direction) (h : ∀ s ∈ columns, W.text s) :
    Alike W (.orderBy columns direction) (.orderBy columns direction)
  | limit (count : Nat) (offset : Option Nat) : Alike W (.limit count offset) (.limit count offset)
  | text {sql : String} {vs ws : List Value} (h : W.raw ⟨sql, vs⟩ ⟨sql, ws⟩) :
    Alike W (.text sql vs) (.text sql ws)
  | join {j : Join} (h : j.Names W.text) : Alike W (.join j) (.join j)
  | joinOf (kind : String) {join : JoinKind → Join} (h : ∀ k, (join k).Names W.text) :
    Alike W (.joinOf kind join) (.joinOf kind join)

inductive ClauseSource.Alike (W : Accord) : ClauseSource → ClauseSource → Prop
  | text {sql : String} (h : W.raw ⟨sql, []⟩ ⟨sql, []⟩) : Alike W (.text sql) (.text sql)
  | spec {f g : FragmentSpec} (h : f.Alike W g) : Alike W (.spec f) (.spec g)
  | stored (name : String) : Alike W (.stored name) (.stored name)
  | condition {t u : Tree} (h : t.Alike W u) : Alike W (.condition t) (.condition u)

/-- Two columns of one name, each with the value to be stored there. -/
structure Accord.Pair (W : Accord) (p q : String × Value) : Prop where
  column : p.1 = q.1
  text : W.text p.1
  value : W.value p.2 q.2
  isCurrentTimeToken : p.2.isCurrentTimeToken = q.2.isCurrentTimeToken

section
variable {κ ι : Type}

inductive FragmentRequest.Alike (W : Accord) (K : κ → ι → Prop) :
    FragmentRequest κ → FragmentRequest ι → Prop
  | filter (kind : FilterKind) {clauses : List κ} {clauses' : List ι}
      (h : Forall₂ K clauses clauses') : Alike W K (.filter kind clauses) (.filter kind clauses')
  | union (all : Bool) {table : String} {columns : List String} {clauses : List κ}
      {clauses' : List ι} (htable : W.text table) (hcolumns : ∀ s ∈ columns, W.text s)
      (h : Forall₂ K clauses clauses') :
    Alike W K (.union all table columns clauses) (.union all table columns clauses')

inductive StatementRequest.Alike (W : Accord) (K : κ → ι → Prop) :
    StatementRequest κ → StatementRequest ι → Prop
  | select {table : String} {columns : List String} {clauses : List κ} {clauses' : List ι}
      (htable : W.text table) (hcolumns : ∀ s ∈ columns, W.text s)
      (h : Forall₂ K clauses clauses') :
    Alike W K (.select table columns clauses) (.select table columns clauses')
  | insert {table : String} {pairs pairs' : List (String × Value)} (htable : W.text table)
      (h : Forall₂ W.Pair pairs pairs') : Alike W K (.insert table pairs) (.insert table pairs')
  | replace {table : String} {pairs pairs' : List (String × Value)} (htable : W.text table)
      (h : Forall₂ W.Pair pairs pairs') : Alike W K (.replace table pairs) (.replace table pairs')
  | update {table : String} {pairs pairs' : List (String × Value)} {clauses : List κ}
      {clauses' : List ι} (htable : W.text table) (hpairs : Forall₂ W.Pair pairs pairs')
      (h : Forall₂ K clauses clauses') :
    Alike W K (.update table pairs clauses) (.update table pairs' clauses')
  | delete {table : String} {clauses : List κ} {clauses' : List ι} (htable : W.text table)
      (h : Forall₂ K clauses clauses') :
    Alike W K (.delete table clauses) (.delete table clauses')
  | insertSelect {target source : String} {columns sourceColumns : List String} {clauses : List κ}
      {clauses' : List ι} (htarget : W.text target) (hcolumns : ∀ s ∈ columns, W.text s)
      (hsource : W.text source) (hsourceColumns : ∀ s ∈ sourceColumns, W.text s)
      (h : Forall₂ K clauses clauses') :
    Alike W K (.insertSelect target columns source sourceColumns clauses)
      (.insertSelect target columns source sourceColumns clauses')
  | createSelect {target source : String} {columns : List String} {clauses : List κ}
      {clauses' : List ι} (htarget : W.text target) (hsource : W.text source)
      (hcolumns : ∀ s ∈ columns, W.text s) (h : Forall₂ K clauses clauses') :
    Alike W K (.createSelect target source columns clauses)
      (.createSelect target source columns clauses')
  | selectInto {target source : String} {columns : List String} {clauses : List κ}
      {clauses' : List ι} (htarget : W.text target) (hsource : W.text source)
      (hcolumns : ∀ s ∈ columns, W.text s) (h : Forall₂ K clauses clauses') :
    Alike W K (.selectInto target source columns clauses)
      (.selectInto target source columns clauses')
  | create {table : String} {definitions : List String} (htable : W.text table)
      (h : ∀ s ∈ definitions, W.definition s) :
    Alike W K (.create table definitions) (.create table definitions)
  | alter {table : String} {actions : List String} (htable : W.text table)
      (h : ∀ s ∈ actions, W.definition s) : Alike W K (.alter table actions) (.alter table actions)
  | drop {table : String} (htable : W.text table) : Alike W K (.drop table) (.drop table)

end

inductive Step.Alike (W : Accord) : Step → Step → Prop
  | fragment {q r : FragmentRequest ClauseSource} (name : Option String)
      (h : q.Alike W (ClauseSource.Alike W) r) : Alike W (.fragment q name) (.fragment r name)
  | spec {f g : FragmentSpec} (name : Option String) (h : f.Alike W g) :
    Alike W (.spec f name) (.spec g name)
  | statement {q r : StatementRequest ClauseSource} (h : q.Alike W (ClauseSource.Alike W) r) :
    Alike W (.statement q) (.statement r)
  | setPrepare {bound : Bool} (h : W.mode bound) : Alike W (.setPrepare bound) (.setPrepare bound)

/-! ## The accord that asks nothing -/

/-- Nothing but that the two programs are the same. -/
def Accord.any : Accord where
  text _ := True
  definition _ := True
  raw := Eq
  value := Eq
  mode _ := True

theorem Accord.lawful_any : Accord.any.Lawful where
  text := closed_any
  definition := closed_any
  definition_of_text := id
  raw_of_text _ := rfl
  isNullToken h := congrArg Value.isNullToken h

mutual

theorem Tree.alike_any (t : Tree) : t.Alike .any t := by
  match t with
  | .leaf c => exact Tree.leaf_alike_refl (fun _ => rfl) c trivial
  | .group ts =>
    rw [Tree.Alike]
    exact forestAlike_any ts

theorem forestAlike_any (ts : List Tree) : forestAlike .any ts ts := by
  match ts with
  | [] => exact trivial
  | t :: ts =>
    rw [forestAlike]
    exact ⟨t.alike_any, forestAlike_any ts⟩

end

theorem FragmentSpec.alike_any (f : FragmentSpec) : f.Alike .any f := by
  cases f with
  | groupBy columns => exact .groupBy fun _ _ => trivial
  | orderBy columns direction => exact .orderBy direction fun _ _ => trivial
  | limit count offset => exact .limit count offset
  | text sql vs => exact .text rfl
  | join j => exact .join (by simp [Join.Names, Accord.any])
  | joinOf kind join => exact .joinOf kind (by simp [Join.Names, Accord.any])

theorem ClauseSource.alike_any (c : ClauseSource) : c.Alike .any c := by
  cases c with
  | text sql => exact .text rfl
  | spec f => exact .spec f.alike_any
  | stored name => exact .stored name
  | condition t => exact .condition t.alike_any

theorem Step.alike_any (s : Step) : s.Alike .any s := by
  have hclauses (cs : List ClauseSource) : Forall₂ (ClauseSource.Alike .any) cs cs :=
    List.forall₂_same.2 fun c _ => c.alike_any
  have hpairs (pairs : List (String × Value)) : Forall₂ Accord.any.Pair pairs pairs :=
    List.forall₂_same.2 fun p _ => ⟨rfl, trivial, rfl, rfl⟩
  have htexts (texts : List String) : ∀ s ∈ texts, Accord.any.text s := fun _ _ => trivial
  cases s with
  | fragment q name =>
    refine .fragment name ?_
    cases q with
    | filter kind clauses => exact .filter kind (hclauses clauses)
    | union all table columns clauses =>
      exact .union all trivial (htexts columns) (hclauses clauses)
  | spec f name => exact .spec name f.alike_any
  | setPrepare bound => exact .setPrepare trivial
  | statement q =>
    refine .statement ?_
    cases q with
    | select table columns clauses => exact .select trivial (htexts columns) (hclauses clauses)
    | insert table pairs => exact .insert trivial (hpairs pairs)
    | replace table pairs => exact .replace trivial (hpairs pairs)
    | update table pairs clauses => exact .update trivial (hpairs pairs) (hclauses clauses)
    | delete table clauses => exact .delete trivial (hclauses clauses)
    | insertSelect target columns source sourceColumns clauses =>
      exact .insertSelect trivial (htexts columns) trivial (htexts sourceColumns)
        (hclauses clauses)
    | createSelect target source columns clauses =>
      exact .createSelect trivial trivial (htexts columns) (hclauses clauses)
    | selectInto target source columns clauses =>
      exact .selectInto trivial trivial (htexts columns) (hclauses clauses)
    | create table definitions => exact .create trivial fun _ _ => trivial
    | alter table actions => exact .alter trivial fun _ _ => trivial
    | drop table => exact .drop trivial

end SqlAssembly
