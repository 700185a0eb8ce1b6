import SqlAssembly.Proofs.Alike.Likeness

/-! # Requests that are alike

Alike clauses are checked, arranged and written alike, and so are the requests that carry them.
What a clause is quoted as in an error may differ as the clauses do.
-/
namespace SqlAssembly
open Medium (ofText)
open List (Forall₂)
open Text (isSeparator isSpacer)

structure Fragment.Alike {σ τ : Type} (R : σ → τ → Prop) (f : Fragment σ) (g : Fragment τ) :
    Prop where
  kind : f.kind = g.kind
  sql : R f.sql g.sql

inductive Clause.Alike {σ τ : Type} (W : Accord) (R : σ → τ → Prop) : Clause σ → Clause τ → Prop
  | fragment {f : Fragment σ} {g : Fragment τ} (h : f.Alike R g) :
    Alike W R (.fragment f) (.fragment g)
  | condition {t u : Tree} (h : t.Alike W u) : Alike W R (.condition t) (.condition u)

theorem tableName_meets {W : Accord} (hW : W.Lawful) {quotes patterns : String → String → Prop}
    {table : String} (h : W.text table) :
    SameFate (Error.Alike quotes patterns) (fun s t => s = t ∧ W.text s) (tableName table)
      (tableName table) := by
  rw [tableName]
  split_ifs
  · exact .error (.same _)
  · exact .ok ⟨rfl, hW.text.trim h⟩

theorem requiredList_meets {W : Accord} (hW : W.Lawful)
    {quotes patterns : String → String → Prop} (what : Argument) {texts : List String}
    (h : ∀ s ∈ texts, W.definition s) :
    SameFate (Error.Alike quotes patterns) (fun s t => s = t ∧ W.definition s)
      (requiredList what texts) (requiredList what texts) := by
  rw [requiredList]
  cases hitems : Text.nonBlank texts with
  | nil => exact .error (.same _)
  | cons s items =>
    exact .ok ⟨rfl, hW.definition.intercalate (hitems ▸ hW.definition.nonBlank h)⟩

theorem namedPairs_alike {W : Accord} (hW : W.Lawful) {quotes patterns : String → String → Prop}
    {pairs pairs' : List (String × Value)} (h : Forall₂ W.Pair pairs pairs') :
    SameFate (Error.Alike quotes patterns) (Forall₂ W.Pair) (namedPairs pairs)
      (namedPairs pairs') := by
  have hnamed : Forall₂ W.Pair (pairs.map fun p => (Text.trim p.1, p.2))
      (pairs'.map fun p => (Text.trim p.1, p.2)) := by
    rw [List.forall₂_map_left_iff, List.forall₂_map_right_iff]
    exact h.imp fun p q hpq =>
      { hpq with column := congrArg Text.trim hpq.column, text := hW.text.trim hpq.text }
  simp only [namedPairs]
  generalize (pairs.map fun p => (Text.trim p.1, p.2)) = named at hnamed ⊢
  generalize (pairs'.map fun p => (Text.trim p.1, p.2)) = named' at hnamed ⊢
  have hblank : named.any (·.1 = "") = named'.any (·.1 = "") := by
    induction hnamed with
    | nil => rfl
    | cons hpq _ ih => simp only [List.any_cons, hpq.column, ih]
  have hempty : named.isEmpty = named'.isEmpty := by cases hnamed <;> rfl
  rw [hblank, hempty]
  split_ifs
  · exact .error (.same _)
  · exact .error (.same _)
  · exact .ok hnamed

theorem columns_eq {W : Accord} {pairs pairs' : List (String × Value)}
    (h : Forall₂ W.Pair pairs pairs') :
    pairs.map (·.1) = pairs'.map (·.1) ∧ ∀ s ∈ pairs.map (·.1), W.text s := by
  induction h with
  | nil => simp
  | cons hpq _ ih =>
    constructor
    · simp only [List.map_cons, hpq.column, ih.1]
    · rw [List.map_cons, List.forall_mem_cons]
      exact ⟨hpq.text, ih.2⟩

namespace Likeness

variable {W : Accord} (hW : W.Lawful) {σ τ : Type} [Medium σ] [Medium τ] (L : Likeness W σ τ)

abbrev Fragments : List (Fragment σ) → List (Fragment τ) → Prop :=
  Forall₂ (Fragment.Alike L.script)

abbrev Clauses : List (Clause σ) → List (Clause τ) → Prop := Forall₂ (Clause.Alike W L.script)

/-! ## Clauses -/

section
variable {L} {fs : List (Fragment σ)} {gs : List (Fragment τ)} {cs : List (Clause σ)}
  {ds : List (Clause τ)}

theorem Fragments.any_kind (h : L.Fragments fs gs) (k : ClauseKind) :
    fs.any (·.kind = k) = gs.any (·.kind = k) := by
  induction h with
  | nil => rfl
  | cons hfg _ ih => simp only [List.any_cons, hfg.kind, ih]

theorem Clauses.fragments (h : L.Clauses cs ds) :
    L.Fragments (Clause.fragments cs) (Clause.fragments ds) := by
  induction h with
  | nil => exact .nil
  | cons hcd _ ih =>
    cases hcd with
    | fragment hfg => exact .cons hfg ih
    | condition _ => exact ih

theorem Clauses.forest (h : L.Clauses cs ds) :
    forestAlike W (Clause.forest cs) (Clause.forest ds) := by
  induction h with
  | nil => exact trivial
  | cons hcd _ ih =>
    cases hcd with
    | fragment _ => exact ih
    | condition htu => exact ⟨htu, ih⟩

theorem Fragments.check (h : L.Fragments fs gs) (allowed seen : List ClauseKind) :
    SameFate L.SameError Eq (Clause.check allowed seen fs) (Clause.check allowed seen gs) := by
  induction h generalizing seen with
  | nil => exact .ok rfl
  | cons hfg _ ih =>
    rw [Clause.check, Clause.check, ← hfg.kind]
    split_ifs
    · exact .error (.duplicate (L.quote hfg.sql))
    · exact ih _
    · exact .error (.unexpected (L.quote hfg.sql))

theorem Fragments.checkHaving (h : L.Fragments fs gs) :
    Clause.checkHaving fs = Clause.checkHaving gs := by
  rw [Clause.checkHaving, Clause.checkHaving, h.any_kind, h.any_kind]

theorem Fragments.inGrammarOrder (h : L.Fragments fs gs) :
    L.Fragments (Clause.inGrammarOrder fs) (Clause.inGrammarOrder gs) := by
  apply List.rel_flatMap (List.forall₂_same.2 fun k _ => rfl)
  rintro k _ rfl
  dsimp only
  induction h with
  | nil => exact .nil
  | cons hfg _ ih =>
    rw [List.filter_cons, List.filter_cons, hfg.kind]
    split_ifs
    · exact .cons hfg ih
    · exact ih

theorem Clauses.onlyConditions (h : L.Clauses cs ds) (filter : FilterKind) :
    SameFate L.SameError (forestAlike W) (onlyConditions filter cs) (onlyConditions filter ds) := by
  induction h with
  | nil => exact .ok trivial
  | cons hcd _ ih =>
    cases hcd with
    | fragment hfg => exact .error (.notCombinable filter (L.quote hfg.sql))
    | condition htu => exact ih.bind fun ts us hrest => .ok ⟨htu, hrest⟩

variable [LawfulMedium σ] [LawfulMedium τ]
include hW

/-- What follows a head, if anything does, stands apart from it. -/
theorem Fragments.suffixOf (h : L.Fragments fs gs) {a : σ} {b : τ} (hab : L.script a b) :
    L.script (a ++ Clause.suffixOf fs) (b ++ Clause.suffixOf gs) := by
  cases h with
  | nil => simpa only [Clause.suffixOf, List.isEmpty_nil, if_true, LawfulMedium.append_empty]
  | @cons f g fs gs hfg hrest =>
    have hparts : Forall₂ L.script ((f :: fs).map (Medium.trim ·.sql))
        ((g :: gs).map (Medium.trim ·.sql)) := by
      rw [List.forall₂_map_left_iff, List.forall₂_map_right_iff]
      exact (Forall₂.cons hfg hrest).imp fun f g h => L.trim h.sql
    refine L.spaced hW (by decide) hab (L.trailing hW (by decide) ?_)
    exact L.join hW (by decide) hparts

end

section
variable [LawfulMedium σ] [LawfulMedium τ] {bound bound' : Bool} (hmodes : L.modes bound bound')
include hW hmodes

theorem withForest_alike {fs : List (Fragment σ)} {gs : List (Fragment τ)}
    (h : L.Fragments fs gs) {ts us : List Tree} (hforest : forestAlike W ts us) :
    SameFate L.SameError L.Fragments (Clause.withForest (L.left.value bound) fs ts)
      (Clause.withForest (L.right.value bound') gs us) := by
  have hempty : ts.isEmpty = us.isEmpty := by
    cases ts <;> cases us <;> simp_all [forestAlike]
  rw [Clause.withForest, Clause.withForest, hempty, h.any_kind]
  split_ifs
  · exact .ok h
  · exact .error (.same _)
  · exact (L.ofForest_alike hW hmodes .whereRows hforest).bind fun t u htu =>
      .ok (List.rel_append h (.cons ⟨rfl, htu⟩ .nil))

theorem arrange_alike (allowed : List ClauseKind) {cs : List (Clause σ)} {ds : List (Clause τ)}
    (h : L.Clauses cs ds) :
    SameFate L.SameError L.Fragments (Clause.arrange (L.left.value bound) allowed cs)
      (Clause.arrange (L.right.value bound') allowed ds) := by
  apply (h.fragments.check allowed []).bind
  intro _ _ _
  apply (L.withForest_alike hW hmodes h.fragments h.forest).bind
  intro fs gs hfg
  rw [hfg.checkHaving]
  exact (SameFate.same _).bind fun _ _ _ => .ok hfg.inGrammarOrder

/-! ## Queries and fragments -/

theorem withClauses_alike (allowed : List ClauseKind) {cs : List (Clause σ)}
    {ds : List (Clause τ)} (h : L.Clauses cs ds) {a : σ} {b : τ} (hab : L.script a b) :
    SameFate L.SameError L.script (withClauses (L.left.value bound) a allowed cs)
      (withClauses (L.right.value bound') b allowed ds) :=
  (L.arrange_alike hW hmodes allowed h).bind fun _ _ hfg => .ok (hfg.suffixOf hW hab)

theorem filterFragment_alike (filter : FilterKind) {cs : List (Clause σ)} {ds : List (Clause τ)}
    (h : L.Clauses cs ds) :
    SameFate L.SameError (Fragment.Alike L.script)
      (filterFragment (L.left.value bound) filter cs)
      (filterFragment (L.right.value bound') filter ds) := by
  have hconditions : SameFate L.SameError (Fragment.Alike L.script)
      (do return ⟨filter.clauseKind, Template.write (L.left.value bound)
        (← filter.ofForest (← onlyConditions filter cs))⟩)
      (do return ⟨filter.clauseKind, Template.write (L.right.value bound')
        (← filter.ofForest (← onlyConditions filter ds))⟩) :=
    (h.onlyConditions filter).bind fun ts us htu =>
      (L.ofForest_alike hW hmodes filter htu).bind fun t u hmatch => .ok ⟨rfl, hmatch⟩
  cases h with
  | nil => exact hconditions
  | cons hcd hrest =>
    cases hcd with
    | condition htu => exact hconditions
    | fragment hfg =>
      cases hrest with
      | cons _ _ => exact hconditions
      | nil =>
        simp only [filterFragment, hfg.kind]
        split_ifs
        · exact .ok hfg
        · exact .error (.notCombinable filter (L.quote hfg.sql))

theorem selectQuery_alike {table columns : String} (htable : W.text table)
    (hcolumns : W.text columns) {cs : List (Clause σ)} {ds : List (Clause τ)}
    (h : L.Clauses cs ds) :
    SameFate L.SameError L.script (selectQuery (L.left.value bound) table columns cs)
      (selectQuery (L.right.value bound') table columns ds) := by
  apply (tableName_meets hW htable).bind_meets
  intro table htable
  refine L.withClauses_alike hW hmodes _ h (L.text ?_)
  exact hW.text.spaced (by decide) (hW.text.leading (by decide) hcolumns) htable

theorem FragmentRequest.Alike.written {q : FragmentRequest (Clause σ)}
    {r : FragmentRequest (Clause τ)} (h : q.Alike W (Clause.Alike W L.script) r) :
    SameFate L.SameError (Fragment.Alike L.script) (q.written (L.left.value bound))
      (r.written (L.right.value bound')) := by
  cases h with
  | filter kind h => exact L.filterFragment_alike hW hmodes kind h
  | union all htable hcolumns h =>
    have hquery := L.selectQuery_alike hW hmodes htable (hW.text.selectedColumns hcolumns) h
    apply hquery.bind
    intro a b hab
    have htrimmed := L.trim hab
    cases all <;>
      exact .ok ⟨rfl, L.leading hW (by decide) (L.trailing hW (by decide) htrimmed)⟩

/-! ## Rows -/

theorem matches_slot {v w : Value} (h : W.value v w)
    (hnow : v.isCurrentTimeToken = w.isCurrentTimeToken) :
    L.Matches bound bound' [slot v] [slot w] := by
  rw [slot, slot, ← hW.isNullToken h, ← hnow]
  split_ifs
  · exact L.matches_word (hW.text.ofSpacer (by decide))
  · exact L.matches_word hW.text.now
  · exact L.matches_value hmodes h

theorem matches_row {verb table : String} (hverb : isSpacer verb = true) (htable : W.text table)
    {pairs pairs' : List (String × Value)} (h : Forall₂ W.Pair pairs pairs') :
    L.Matches bound bound' (rowTemplate verb table pairs) (rowTemplate verb table pairs') := by
  obtain ⟨hcolumns, htexts⟩ := columns_eq h
  rw [rowTemplate, rowTemplate, ← hcolumns]
  refine L.matches_headed hW (by decide) ?_ (L.matches_trailing hW (by decide) ?_)
  · have hhead := hW.text.ofSpacer hverb
    exact hW.text.spaced (by decide) (hW.text.spaced (by decide) hhead htable)
      (hW.text.intercalate htexts)
  · refine L.matches_join hW (by decide) ?_
    rw [List.forall₂_map_left_iff, List.forall₂_map_right_iff]
    exact h.imp fun p q hpq => L.matches_slot hW hmodes hpq.value hpq.isCurrentTimeToken

theorem matches_assignments {table : String} (htable : W.text table)
    {pairs pairs' : List (String × Value)} (h : Forall₂ W.Pair pairs pairs') :
    L.Matches bound bound' (assignmentTemplate table pairs) (assignmentTemplate table pairs') := by
  refine L.matches_headed hW (by decide) (hW.text.leading (by decide) htable) ?_
  apply L.matches_join hW (by decide)
  rw [List.forall₂_map_left_iff, List.forall₂_map_right_iff]
  apply h.imp
  intro p q hpq
  rw [← hpq.column]
  exact L.matches_headed hW (by decide) hpq.text
    (L.matches_slot hW hmodes hpq.value hpq.isCurrentTimeToken)

/-! ## Statements -/

theorem row_alike {verb table : String} (hverb : isSpacer verb = true) (htable : W.text table)
    {pairs pairs' : List (String × Value)} (h : Forall₂ W.Pair pairs pairs') :
    SameFate L.SameError L.script
      (do
        let pairs ← namedPairs pairs
        return Template.write (L.left.value bound) (rowTemplate verb (← tableName table) pairs))
      (do
        let pairs ← namedPairs pairs'
        return Template.write (L.right.value bound')
          (rowTemplate verb (← tableName table) pairs)) := by
  apply (namedPairs_alike hW h).bind
  intro pairs pairs' hpairs
  apply (tableName_meets hW htable).bind_meets
  intro table htable
  exact .ok (L.matches_row hW hmodes hverb htable hpairs)

theorem update_alike {table : String} (htable : W.text table)
    {pairs pairs' : List (String × Value)} (hpairs : Forall₂ W.Pair pairs pairs')
    {cs : List (Clause σ)} {ds : List (Clause τ)} (h : L.Clauses cs ds) :
    SameFate L.SameError L.script
      (StatementRequest.written (L.left.value bound) (.update table pairs cs))
      (StatementRequest.written (L.right.value bound') (.update table pairs' ds)) := by
  apply (tableName_meets hW htable).bind_meets
  intro table htable
  apply (namedPairs_alike hW hpairs).bind
  intro pairs pairs' hpairs
  exact L.withClauses_alike hW hmodes _ h (L.matches_assignments hW hmodes htable hpairs)

theorem insertSelect_alike {target source : String} {columns sourceColumns : List String}
    (htarget : W.text target) (hcolumns : ∀ s ∈ columns, W.text s) (hsource : W.text source)
    (hsourceColumns : ∀ s ∈ sourceColumns, W.text s) {cs : List (Clause σ)}
    {ds : List (Clause τ)} (h : L.Clauses cs ds) :
    SameFate L.SameError L.script
      (StatementRequest.written (L.left.value bound)
        (.insertSelect target columns source sourceColumns cs))
      (StatementRequest.written (L.right.value bound')
        (.insertSelect target columns source sourceColumns ds)) := by
  apply (tableName_meets hW htarget).bind_meets
  intro target htarget
  apply (SameFate.same (checkColumnCounts (Text.nonBlank columns) sourceColumns)).bind
  intro _ _ _
  apply (L.selectQuery_alike hW hmodes hsource (hW.text.selectedColumns hsourceColumns) h).bind
  intro a b hab
  apply SameFate.ok
  have hinto : W.text ("INSERT INTO " ++ target) := hW.text.leading (by decide) htarget
  split_ifs
  · rw [String.append_empty]
    exact L.headed hW (by decide) hinto hab
  · rw [← String.append_assoc]
    have hnames := hW.text.intercalate (hW.text.nonBlank hcolumns)
    refine L.headed hW (by decide) ?_ hab
    exact hW.text.spaced (by decide) hinto (hW.text.leading (by decide) hnames)

theorem composite_alike (head : String → String → String)
    (hhead : ∀ s t, W.text s → W.text t → W.text (head s t)) {target source : String}
    (htarget : W.text target) (hsource : W.text source) {cs : List (Clause σ)}
    {ds : List (Clause τ)} (h : L.Clauses cs ds) :
    SameFate L.SameError L.script
      (do
        let source ← tableName source
        let target ← tableName target
        withClauses (L.left.value bound) (ofText (head target source)) Clause.ofQueries cs)
      (do
        let source ← tableName source
        let target ← tableName target
        withClauses (L.right.value bound') (ofText (head target source)) Clause.ofQueries ds) := by
  apply (tableName_meets hW hsource).bind_meets
  intro source hsource
  apply (tableName_meets hW htarget).bind_meets
  intro target htarget
  exact L.withClauses_alike hW hmodes _ h (L.text (hhead target source htarget hsource))

theorem StatementRequest.Alike.written {q : StatementRequest (Clause σ)}
    {r : StatementRequest (Clause τ)} (h : q.Alike W (Clause.Alike W L.script) r) :
    SameFate L.SameError L.whole (q.written (L.left.value bound))
      (r.written (L.right.value bound')) := by
  have hwhole {x : Except Error σ} {y : Except Error τ} (h : SameFate L.SameError L.script x y) :
    SameFate L.SameError L.whole x y := h.imp fun _ _ => L.whole_of_script
  cases h with
  | select htable hcolumns h =>
    exact hwhole (L.selectQuery_alike hW hmodes htable (hW.text.selectedColumns hcolumns) h)
  | insert htable h => exact hwhole (L.row_alike hW hmodes (by decide) htable h)
  | replace htable h => exact hwhole (L.row_alike hW hmodes (by decide) htable h)
  | update htable hpairs h => exact hwhole (L.update_alike hW hmodes htable hpairs h)
  | delete htable h =>
    apply hwhole
    apply (tableName_meets hW htable).bind_meets
    intro table htable
    exact L.withClauses_alike hW hmodes _ h (L.text (hW.text.leading (by decide) htable))
  | insertSelect htarget hcolumns hsource hsourceColumns h =>
    exact hwhole (L.insertSelect_alike hW hmodes htarget hcolumns hsource hsourceColumns h)
  | createSelect htarget hsource hcolumns h =>
    apply hwhole
    apply L.composite_alike hW hmodes _ _ htarget hsource h
    intro s t hs ht
    have hselected := hW.text.selectedColumns hcolumns
    refine hW.text.spaced (by decide) ?_ ht
    exact hW.text.spaced (by decide) (hW.text.leading (by decide) hs) hselected
  | selectInto htarget hsource hcolumns h =>
    apply hwhole
    apply L.composite_alike hW hmodes _ _ htarget hsource h
    intro s t hs ht
    have hselected := hW.text.selectedColumns hcolumns
    refine hW.text.spaced (by decide) ?_ ht
    exact hW.text.spaced (by decide) (hW.text.leading (by decide) hselected) hs
  | create htable h =>
    apply (tableName_meets hW htable).bind_meets
    intro table htable
    apply (requiredList_meets hW _ h).bind_meets
    intro items hitems
    have htable := hW.definition_of_text htable
    apply SameFate.ok
    apply L.whole_text
    apply hW.definition.trailing (by decide)
    exact hW.definition.spaced (by decide) (hW.definition.leading (by decide) htable) hitems
  | alter htable h =>
    apply (tableName_meets hW htable).bind_meets
    intro table htable
    apply (requiredList_meets hW _ h).bind_meets
    intro items hitems
    have htable := hW.definition_of_text htable
    apply SameFate.ok
    apply L.whole_text
    exact hW.definition.spaced (by decide) (hW.definition.leading (by decide) htable) hitems
  | drop htable =>
    apply hwhole
    apply (tableName_meets hW htable).bind_meets
    intro table htable
    exact .ok (L.text (hW.text.leading (by decide) htable))

end

end Likeness

end SqlAssembly
