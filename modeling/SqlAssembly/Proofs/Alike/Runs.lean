import SqlAssembly.Proofs.Alike.Requests

/-! # Runs that are alike

Two programs that are alike answer alike at every step, and store fragments that are alike.
-/
namespace SqlAssembly
open Medium (ofText)
open List (Forall₂)
open Text (isSeparator isSpacer)

/-! ## Fragments that need no composer -/

/-- One fragment, without values, whose text satisfies a property. -/
def Fragment.Bare (P : String → Prop) (f g : Fragment) : Prop :=
  f = g ∧ f.sql.params = [] ∧ P f.sql.text

section
variable {W : Accord} (hW : W.Lawful) {quotes patterns : String → String → Prop}
include hW

theorem columnNames_meets {columns : List String} (h : ∀ s ∈ columns, W.text s) :
    SameFate (Error.Alike quotes patterns) (fun s t => s = t ∧ W.text s) (columnNames columns)
      (columnNames columns) := by
  rw [columnNames]
  cases hnames : Text.nonBlank columns with
  | nil => exact .error (.same _)
  | cons s names => exact .ok ⟨rfl, hW.text.intercalate (hnames ▸ hW.text.nonBlank h)⟩

theorem groupBy_bare {columns : List String} (h : ∀ s ∈ columns, W.text s) :
    SameFate (Error.Alike quotes patterns) (Fragment.Bare W.text) (groupBy columns)
      (groupBy columns) := by
  apply (columnNames_meets hW h).bind_meets
  intro names hnames
  exact .ok ⟨rfl, rfl, hW.text.trailing (by decide) (hW.text.leading (by decide) hnames)⟩

theorem orderBy_bare {columns : List String} (direction : Direction)
    (h : ∀ s ∈ columns, W.text s) :
    SameFate (Error.Alike quotes patterns) (Fragment.Bare W.text) (orderBy columns direction)
      (orderBy columns direction) := by
  have hkeyword : isSpacer direction.keyword = true := by cases direction <;> decide
  apply (columnNames_meets hW h).bind_meets
  intro names hnames
  refine .ok ⟨rfl, rfl, hW.text.trailing (by decide) (hW.text.trailing hkeyword ?_)⟩
  exact hW.text.trailing (by decide) (hW.text.leading (by decide) hnames)

theorem limit_bare (count : Nat) (offset : Option Nat) :
    Fragment.Bare W.text (limit count offset) (limit count offset) := by
  have hcount : W.text (" LIMIT " ++ Nat.repr count) :=
    hW.text.trailing (Text.isSpacer_repr count) (hW.text.ofSpacer (by decide))
  cases offset with
  | none => exact ⟨rfl, rfl, hW.text.trailing (by decide) hcount⟩
  | some n =>
    have hoffset : W.text (" LIMIT " ++ Nat.repr count ++ " OFFSET " ++ Nat.repr n) :=
      hW.text.trailing (Text.isSpacer_repr n) (hW.text.trailing (by decide) hcount)
    exact ⟨rfl, rfl, hW.text.trailing (by decide) hoffset⟩

theorem join_bare {j : Join} (h : j.Names W.text) :
    SameFate (Error.Alike quotes patterns) (Fragment.Bare W.text) j.build j.build := by
  obtain ⟨hleft, hright, hleftColumn, hrightColumn, hname⟩ := h
  have hkeyword : isSpacer (" " ++ j.kind.keyword) = true := by cases j.kind <;> decide
  rw [Join.build]
  dsimp only
  split_ifs
  · exact .error (.same _)
  · exact .error (.same _)
  · cases CompareOp.ofToken? j.comparison with
    | none => exact .error (.same _)
    | some op =>
      have hname := hW.text.trimmedOr (hW.text.trim hright) hname
      have hrightColumn := hW.text.trimmedOr (hW.text.trim hleftColumn) hrightColumn
      refine .ok ⟨rfl, rfl, hW.text.trailing (by decide) (hW.text.spaced (by decide) ?_ ?_)⟩
      · have hjoined := hW.text.trim hright
        refine hW.text.spaced (by decide) ?_ hname
        exact hW.text.spaced (by decide) (hW.text.ofSpacer hkeyword) hjoined
      · have hop := hW.text.ofSpacer (Text.isSpacer_token op)
        apply hW.text.spaced (by decide) _ hrightColumn
        apply hW.text.spaced (by decide) _ hname
        apply hW.text.spaced (by decide) _ hop
        exact hW.text.spaced (by decide) (hW.text.trim hleft) (hW.text.trim hleftColumn)

end

namespace Likeness

variable {W : Accord} (hW : W.Lawful) {σ τ : Type} [Medium σ] [Medium τ] (L : Likeness W σ τ)

/-- Fragments that need no composer and are alike once they are in their media. -/
abbrev Raws (f g : Fragment) : Prop :=
  (f.map L.left.raw).Alike L.script (g.map L.right.raw)

include hW in
theorem raws_of_bare {f g : Fragment} (h : Fragment.Bare W.text f g) : L.Raws f g := by
  obtain ⟨heq, hparams, htext⟩ := h
  subst heq
  have hsql : f.sql = ⟨f.sql.text, []⟩ := Sql.ext rfl hparams
  have hraw : L.script (L.left.raw f.sql) (L.right.raw f.sql) := by
    rw [hsql]
    exact L.raw (hW.raw_of_text htext)
  exact ⟨rfl, hraw⟩

include hW in
theorem FragmentSpec.Alike.build {f g : FragmentSpec} (h : f.Alike W g) :
    SameFate L.SameError L.Raws f.build g.build := by
  have hbare {x y : Except Error Fragment}
      (hxy : SameFate L.SameError (Fragment.Bare W.text) x y) : SameFate L.SameError L.Raws x y :=
    hxy.imp fun _ _ => L.raws_of_bare hW
  cases h with
  | text h => exact .ok ⟨rfl, L.raw h⟩
  | groupBy h => exact hbare (groupBy_bare hW h)
  | orderBy direction h => exact hbare (orderBy_bare hW direction h)
  | limit count offset => exact hbare (.ok (limit_bare hW count offset))
  | join h => exact hbare (join_bare hW h)
  | joinOf kind h =>
    apply hbare
    apply (SameFate.same (JoinKind.parse kind)).bind
    rintro k _ rfl
    exact join_bare hW (h k)

/-! ## Steps -/

abbrev Stored : List (String × Fragment σ) → List (String × Fragment τ) → Prop :=
  Forall₂ fun p q => p.1 = q.1 ∧ p.2.Alike L.script q.2

theorem Stored.lookup {L : Likeness W σ τ} {fs : List (String × Fragment σ)}
    {gs : List (String × Fragment τ)} (h : L.Stored fs gs) (name : String) :
    Option.Rel (Fragment.Alike L.script) (fs.lookup name) (gs.lookup name) := by
  induction h with
  | nil => exact .none
  | @cons p q fs gs hpq _ ih =>
    rw [List.lookup_cons, List.lookup_cons, hpq.1]
    cases name == q.1 with
    | true => exact .some hpq.2
    | false => exact ih

include hW in
theorem resolve_alike {fs : List (String × Fragment σ)} {gs : List (String × Fragment τ)}
    (hstored : L.Stored fs gs) {cs ds : List ClauseSource}
    (h : Forall₂ (ClauseSource.Alike W) cs ds) :
    SameFate L.SameError L.Clauses (resolve L.left.raw fs cs) (resolve L.right.raw gs ds) := by
  induction h with
  | nil => exact .ok .nil
  | cons hcd _ ih =>
    cases hcd with
    | text h => exact ih.bind fun _ _ hrest => .ok (.cons (.fragment ⟨rfl, L.raw h⟩) hrest)
    | condition h => exact ih.bind fun _ _ hrest => .ok (.cons (.condition h) hrest)
    | spec h =>
      exact (FragmentSpec.Alike.build hW L h).bind fun _ _ hfg =>
        ih.bind fun _ _ hrest => .ok (.cons (.fragment hfg) hrest)
    | stored name =>
      apply ih.bind
      intro _ _ hrest
      have hlookup := hstored.lookup name
      generalize fs.lookup name = f at hlookup ⊢
      generalize gs.lookup name = g at hlookup ⊢
      cases hlookup with
      | none => exact .ok hrest
      | some hfg => exact .ok (.cons (.fragment hfg) hrest)

/-- Desks in modes that belong together, with fragments stored that are alike. -/
structure Desks (d : Desk σ) (e : Desk τ) : Prop where
  modes : L.modes d.bound e.bound
  stored : L.Stored d.stored e.stored

inductive Answers : Written σ → Written τ → Prop
  | fragment {f : Fragment σ} {g : Fragment τ} (h : f.Alike L.script g) :
    Answers (.fragment f) (.fragment g)
  | statement (kind : StatementKind) {bound bound' : Bool} (hmodes : L.modes bound bound') {a : σ}
      {b : τ} (h : L.whole a b) : Answers (.statement kind bound a) (.statement kind bound' b)
  | switched {bound : Bool} (hmodes : L.modes bound bound) :
    Answers (.switched bound) (.switched bound)

theorem Desks.keep {L : Likeness W σ τ} {d : Desk σ} {e : Desk τ} (h : L.Desks d e)
    (name : Option String) {x : Except Error (Fragment σ)} {y : Except Error (Fragment τ)}
    (hxy : SameFate L.SameError (Fragment.Alike L.script) x y) :
    L.Desks (d.keep name x).1 (e.keep name y).1 ∧
      SameFate L.SameError L.Answers (d.keep name x).2 (e.keep name y).2 := by
  cases hxy with
  | error he => exact ⟨h, .error he⟩
  | ok hfg =>
    cases name with
    | none => exact ⟨h, .ok (.fragment hfg)⟩
    | some n => exact ⟨⟨h.modes, .cons ⟨rfl, hfg⟩ h.stored⟩, .ok (.fragment hfg)⟩

variable [LawfulMedium σ] [LawfulMedium τ]

include hW in
theorem Desks.fragmentOf {L : Likeness W σ τ} {d : Desk σ} {e : Desk τ} (h : L.Desks d e)
    {q r : FragmentRequest ClauseSource} (hqr : q.Alike W (ClauseSource.Alike W) r) :
    SameFate L.SameError (Fragment.Alike L.script) (L.left.fragmentOf d q)
      (L.right.fragmentOf e r) := by
  have hresolved : SameFate L.SameError (FragmentRequest.Alike W (Clause.Alike W L.script))
      (q.mapClausesM (L.left.resolve d)) (r.mapClausesM (L.right.resolve e)) := by
    cases hqr with
    | filter kind hclauses =>
      exact (L.resolve_alike hW h.stored hclauses).bind fun _ _ hcd => .ok (.filter kind hcd)
    | union all htable hcolumns hclauses =>
      exact (L.resolve_alike hW h.stored hclauses).bind fun _ _ hcd =>
        .ok (.union all htable hcolumns hcd)
  exact hresolved.bind fun _ _ hqr => FragmentRequest.Alike.written hW L h.modes hqr

include hW in
theorem Desks.sqlOf {L : Likeness W σ τ} {d : Desk σ} {e : Desk τ} (h : L.Desks d e)
    {q r : StatementRequest ClauseSource} (hqr : q.Alike W (ClauseSource.Alike W) r) :
    SameFate L.SameError L.whole (L.left.sqlOf d q) (L.right.sqlOf e r) := by
  have hresolve {cs ds : List ClauseSource} (hcd : Forall₂ (ClauseSource.Alike W) cs ds) :
    SameFate L.SameError L.Clauses (L.left.resolve d cs) (L.right.resolve e ds) :=
      L.resolve_alike hW h.stored hcd
  have hresolved : SameFate L.SameError (StatementRequest.Alike W (Clause.Alike W L.script))
      (q.mapClausesM (L.left.resolve d)) (r.mapClausesM (L.right.resolve e)) := by
    cases hqr with
    | select htable hcolumns hclauses =>
      exact (hresolve hclauses).bind fun _ _ hcd => .ok (.select htable hcolumns hcd)
    | insert htable hpairs => exact .ok (.insert htable hpairs)
    | replace htable hpairs => exact .ok (.replace htable hpairs)
    | update htable hpairs hclauses =>
      exact (hresolve hclauses).bind fun _ _ hcd => .ok (.update htable hpairs hcd)
    | delete htable hclauses =>
      exact (hresolve hclauses).bind fun _ _ hcd => .ok (.delete htable hcd)
    | insertSelect htarget hcolumns hsource hsourceColumns hclauses =>
      exact (hresolve hclauses).bind fun _ _ hcd =>
        .ok (.insertSelect htarget hcolumns hsource hsourceColumns hcd)
    | createSelect htarget hsource hcolumns hclauses =>
      exact (hresolve hclauses).bind fun _ _ hcd =>
        .ok (.createSelect htarget hsource hcolumns hcd)
    | selectInto htarget hsource hcolumns hclauses =>
      exact (hresolve hclauses).bind fun _ _ hcd => .ok (.selectInto htarget hsource hcolumns hcd)
    | create htable hdefinitions => exact .ok (.create htable hdefinitions)
    | alter htable hactions => exact .ok (.alter htable hactions)
    | drop htable => exact .ok (.drop htable)
  exact hresolved.bind fun _ _ hqr => StatementRequest.Alike.written hW L h.modes hqr

include hW in
theorem Desks.step {L : Likeness W σ τ} {d : Desk σ} {e : Desk τ} (h : L.Desks d e) {s t : Step}
    (hst : s.Alike W t) :
    L.Desks (L.left.step d s).1 (L.right.step e t).1 ∧
      SameFate L.SameError L.Answers (L.left.step d s).2 (L.right.step e t).2 := by
  cases hst with
  | fragment name hqr => exact h.keep name (h.fragmentOf hW hqr)
  | spec name hfg =>
    have hbuilt := FragmentSpec.Alike.build hW L hfg
    exact h.keep name (hbuilt.map fun _ _ hxy => hxy)
  | setPrepare hmode => exact ⟨⟨L.switch hmode, h.stored⟩, .ok (.switched (L.switch hmode))⟩
  | @statement q r hqr =>
    have hkind : q.kind = r.kind := by cases hqr <;> rfl
    refine ⟨h, ?_⟩
    apply (h.sqlOf hW hqr).map
    intro a b hab
    rw [hkind]
    exact .statement _ h.modes hab

include hW in
theorem Desks.run {L : Likeness W σ τ} {d : Desk σ} {e : Desk τ} (h : L.Desks d e)
    {steps steps' : List Step} (hsteps : Forall₂ (Step.Alike W) steps steps') :
    Forall₂ (SameFate L.SameError L.Answers) (L.left.run d steps) (L.right.run e steps') := by
  induction hsteps generalizing d e with
  | nil => exact .nil
  | cons hst _ ih =>
    obtain ⟨hdesks, hanswer⟩ := h.step hW hst
    exact .cons hanswer (ih hdesks)

end Likeness

end SqlAssembly
