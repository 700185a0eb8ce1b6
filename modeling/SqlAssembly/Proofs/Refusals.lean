import SqlAssembly.Proofs.Acceptance
import SqlAssembly.Proofs.Programs

/-! # Refusals

Whatever a request fails with refuses the input.  Only a clause that does not fit is quoted in a
refusal, and of these only the first one: the clauses before it would have been taken without it.
-/
namespace SqlAssembly

/-- The text of the clause that an error quotes. -/
def Error.quoted? : Error → Option String
  | .invalidFragment (.notCombinable text _) => some text
  | .invalidFragment (.unexpected text) => some text
  | .invalidFragment (.duplicate text) => some text
  | _ => none

/-- An error that quotes a clause, but for the clause. -/
inductive Quotation where
  | notCombinable (filter : FilterKind)
  | unexpected
  | duplicate

def Quotation.error (text : String) : Quotation → Error
  | .notCombinable filter => .invalidFragment (.notCombinable text filter)
  | .unexpected => .invalidFragment (.unexpected text)
  | .duplicate => .invalidFragment (.duplicate text)

theorem Quotation.quoted?_error (q : Quotation) (text : String) :
    (q.error text).quoted? = some text := by
  cases q <;> rfl

theorem Error.quoted?_eq_some_iff {e : Error} {text : String} :
    e.quoted? = some text ↔ ∃ q : Quotation, e = q.error text := by
  constructor
  · intro h
    unfold quoted? at h
    split at h <;> simp only [Option.some.injEq, reduceCtorEq] at h <;> subst h
    · exact ⟨.notCombinable _, rfl⟩
    · exact ⟨.unexpected, rfl⟩
    · exact ⟨.duplicate, rfl⟩
  · rintro ⟨q, rfl⟩
    exact q.quoted?_error text

/-- A soft error that quotes no clause but those of `quotable`. -/
structure Error.Refuses (quotable : String → Prop) (e : Error) : Prop where
  isSoft : e.isSoft = true
  quoted : ∀ text, e.quoted? = some text → quotable text

theorem Error.Refuses.silent {quotable : String → Prop} {e : Error} (hsoft : e.isSoft = true)
    (hquoted : e.quoted? = none) : e.Refuses quotable :=
  ⟨hsoft, fun text htext => by simp [hquoted] at htext⟩

theorem Error.Refuses.quoted?_eq_none {e : Error} (h : e.Refuses fun _ => False) :
    e.quoted? = none :=
  Option.eq_none_iff_forall_ne_some.2 h.quoted

def Refusable {α : Type} (quotable : String → Prop) (x : Except Error α) : Prop :=
  ∀ e, x = .error e → e.Refuses quotable

namespace Refusable

variable {α β : Type} {quotable : String → Prop} {x : Except Error α}

theorem ok (a : α) : Refusable quotable (.ok a) := by
  intro e h
  cases h

theorem error {e : Error} (h : e.Refuses quotable) :
    Refusable quotable (.error e : Except Error α) := by
  intro e' he
  cases he
  exact h

theorem silent {e : Error} (hsoft : e.isSoft = true) (hquoted : e.quoted? = none) :
    Refusable quotable (.error e : Except Error α) :=
  error (.silent hsoft hquoted)

theorem bind {next : α → Except Error β} (h : Refusable quotable x)
    (hnext : ∀ a, Refusable quotable (next a)) : Refusable quotable (x >>= next) := by
  cases x with
  | ok a => exact hnext a
  | error e => exact error (h e rfl)

theorem map {f : α → β} (h : Refusable quotable x) : Refusable quotable (x.map f) := by
  rw [map_eq_bind]
  exact h.bind fun a => .ok (f a)

theorem mono {quotable' : String → Prop} (h : Refusable quotable x)
    (himp : ∀ text, quotable text → quotable' text) : Refusable quotable' x :=
  fun e he => ⟨(h e he).isSoft, fun text htext => himp text ((h e he).quoted text htext)⟩

end Refusable

/-! ## Parts that quote nothing -/

section
variable {quotable : String → Prop}

theorem Verb.Offends.refuses {column : String} {verb : Verb} {values : List Value} {e : Error}
    (h : verb.Offends column values e) : e.Refuses quotable := by
  cases h <;> exact .silent rfl rfl

theorem Refused.refuses {forest : List Tree} {e : Error} (h : Refused forest e) :
    e.Refuses quotable := by
  cases h with
  | empty h => exact .silent rfl rfl
  | fault h => exact .silent rfl rfl
  | offence hfaults hsplit hbefore h =>
    cases h with
    | unknown h => exact .silent rfl rfl
    | values h he => exact he.refuses

theorem ofForest_refusable (filter : FilterKind) (forest : List Tree) :
    Refusable quotable (filter.ofForest forest) := by
  have htokens : Refusable quotable (forestTokens forest) :=
    fun e he => (refused_of_forestTokens he).refuses
  exact htokens.bind fun tokens => .ok (filter.template tokens)

theorem tableName_refusable (table : String) : Refusable quotable (tableName table) := by
  rw [tableName]
  split
  · exact .silent rfl rfl
  · exact .ok _

theorem requiredList_refusable (what : Argument) (texts : List String) :
    Refusable quotable (requiredList what texts) := by
  rw [requiredList]
  split
  · exact .silent rfl rfl
  · exact .ok _

theorem namedPairs_refusable (pairs : List (String × Value)) :
    Refusable quotable (namedPairs pairs) := by
  rw [namedPairs]
  split
  · exact .silent rfl rfl
  · split
    · exact .silent rfl rfl
    · exact .ok _

theorem checkColumnCounts_refusable (target selected : List String) :
    Refusable quotable (checkColumnCounts target selected) := by
  rw [checkColumnCounts]
  split
  · exact .silent rfl rfl
  · exact .ok ()

theorem columnNames_refusable (columns : List String) :
    Refusable quotable (columnNames columns) := by
  rw [columnNames]
  split
  · exact .silent rfl rfl
  · exact .ok _

theorem Join.build_refusable (j : Join) : Refusable quotable j.build := by
  rw [Join.build]
  dsimp only
  split
  · exact .silent rfl rfl
  · split
    · exact .silent rfl rfl
    · split
      · exact .silent rfl rfl
      · exact .ok _

theorem JoinKind.parse_refusable (text : String) : Refusable quotable (JoinKind.parse text) := by
  unfold JoinKind.parse
  dsimp only
  split
  · exact .ok _
  · exact .silent rfl rfl

theorem FragmentSpec.build_refusable (f : FragmentSpec) : Refusable quotable f.build := by
  cases f with
  | groupBy columns => exact (columnNames_refusable columns).bind fun names => .ok _
  | orderBy columns direction => exact (columnNames_refusable columns).bind fun names => .ok _
  | limit count offset => exact .ok _
  | text sql params => exact .ok _
  | join j => exact j.build_refusable
  | joinOf kind j => exact (JoinKind.parse_refusable kind).bind fun k => (j k).build_refusable

end

/-! ## The first clause that does not fit -/

namespace Clause

section
variable {σ τ : Type} {allowed seen : List ClauseKind} {clauses : List (Clause σ)}
  {f g : Fragment σ}

/-- The first fragment among clauses that may not be taken with those before it. -/
def FirstMisfit (allowed : List ClauseKind) (clauses : List (Clause σ)) (f : Fragment σ) : Prop :=
  ∃ before after, clauses = before ++ .fragment f :: after ∧
    Accepted allowed [] (fragments before) ∧ ¬ Accepted allowed [] (fragments before ++ [f])

theorem Accepted.of_before {before before' mid : List (Clause σ)}
    (h : Accepted allowed seen (fragments before'))
    (hbefore : before' = before ++ .fragment f :: mid) :
    Accepted allowed seen (fragments before ++ [f]) := by
  have hsplit : fragments before' = fragments before ++ [f] ++ fragments mid := by
    simp [hbefore, fragments]
  rw [hsplit] at h
  exact h.of_append

theorem FirstMisfit.unique (hf : FirstMisfit allowed clauses f)
    (hg : FirstMisfit allowed clauses g) : f = g := by
  obtain ⟨before, after, rfl, haccepted, hrefused⟩ := hf
  obtain ⟨before', after', hclauses, haccepted', hrefused'⟩ := hg
  -- Were one of them to come first, it would have been taken by those before the other.
  obtain ⟨mid, hbefore, hmid⟩ | ⟨mid, hbefore, hmid⟩ := List.append_eq_append_iff.1 hclauses
  · cases mid with
    | nil => simpa using (List.cons.inj hmid).1
    | cons clause mid =>
      obtain ⟨rfl, -⟩ := List.cons.inj hmid
      exact absurd (haccepted'.of_before hbefore) hrefused
  · cases mid with
    | nil => simpa using (List.cons.inj hmid).1.symm
    | cons clause mid =>
      obtain ⟨rfl, -⟩ := List.cons.inj hmid
      exact absurd (haccepted.of_before hbefore) hrefused'

theorem FirstMisfit.cons_condition (h : FirstMisfit allowed clauses f) (t : Tree) :
    FirstMisfit allowed (.condition t :: clauses) f := by
  obtain ⟨before, after, rfl, haccepted, hrefused⟩ := h
  exact ⟨.condition t :: before, after, rfl, haccepted, hrefused⟩

/-- Where nothing may be taken, the first fragment does not fit. -/
theorem firstMisfit_cons (f : Fragment σ) (rest : List (Clause σ)) :
    FirstMisfit [] (.fragment f :: rest) f :=
  ⟨[], rest, rfl, ⟨by simp [fragments], by simp [fragments]⟩,
    fun h => by simpa using h.allowed f (by simp)⟩

def map (write : σ → τ) : Clause σ → Clause τ
  | .fragment f => .fragment (f.map write)
  | .condition t => .condition t

theorem fragments_map (write : σ → τ) (clauses : List (Clause σ)) :
    fragments (clauses.map (map write)) = (fragments clauses).map (.map write) := by
  induction clauses with
  | nil => rfl
  | cons clause rest ih =>
    cases clause with
    | fragment f => exact congrArg (f.map write :: ·) ih
    | condition t => exact ih

theorem accepted_map_iff (write : σ → τ) {fs : List (Fragment σ)} :
    Accepted allowed seen (fs.map (Fragment.map write)) ↔ Accepted allowed seen fs := by
  have hkind (k : ClauseKind) : ((fs.map (Fragment.map write)).filter (·.kind = k)).length =
      (fs.filter (·.kind = k)).length := by
    rw [List.filter_map, List.length_map]
    rfl
  constructor
  · rintro ⟨hallowed, hsingle⟩
    simp only [hkind] at hsingle
    exact ⟨fun f hf => hallowed _ (List.mem_map_of_mem hf), hsingle⟩
  · rintro ⟨hallowed, hsingle⟩
    refine ⟨List.forall_mem_map.2 hallowed, ?_⟩
    simpa only [hkind] using hsingle

/-- The misfit stays in its place when SQL is replaced. -/
theorem FirstMisfit.map (h : FirstMisfit allowed clauses f) (write : σ → τ) :
    FirstMisfit allowed (clauses.map (.map write)) (f.map write) := by
  obtain ⟨before, after, rfl, haccepted, hrefused⟩ := h
  have hmisfit : (Clause.fragments before).map (.map write) ++ [f.map write] =
      (Clause.fragments before ++ [f]).map (.map write) := by simp
  refine ⟨before.map (.map write), after.map (.map write), by simp [Clause.map], ?_, ?_⟩
  · rwa [fragments_map, accepted_map_iff]
  · rwa [fragments_map, hmisfit, accepted_map_iff]

theorem exists_of_fragments_eq {before after : List (Fragment σ)}
    (h : fragments clauses = before ++ f :: after) :
    ∃ given rest, clauses = given ++ .fragment f :: rest ∧ fragments given = before := by
  obtain ⟨given, tail, rfl, hgiven, htail⟩ := List.filterMap_eq_append_iff.1 h
  obtain ⟨loose, clause, rest, rfl, hloose, hclause, -⟩ := List.filterMap_eq_cons_iff.1 htail
  have hnone : fragments loose = [] := List.filterMap_eq_nil_iff.2 hloose
  cases clause with
  | fragment g =>
    obtain rfl : g = f := Option.some.inj hclause
    refine ⟨given ++ loose, rest, by simp, ?_⟩
    have happend : fragments (given ++ loose) = fragments given ++ fragments loose :=
      List.filterMap_append
    rw [happend, hnone, List.append_nil]
    exact hgiven
  | condition t => cases hclause

end

variable {σ : Type} [Medium σ] {allowed seen : List ClauseKind}

/-- The label of the first clause that does not fit. -/
def Quotable (allowed : List ClauseKind) (clauses : List (Clause σ)) (text : String) : Prop :=
  ∃ f, FirstMisfit allowed clauses f ∧ text = f.label

theorem check_error_split {fs : List (Fragment σ)} {e : Error}
    (h : check allowed seen fs = .error e) :
    ∃ before f after, fs = before ++ f :: after ∧ check allowed seen before = .ok () ∧
      check allowed seen (before ++ [f]) = .error e ∧ e.Refuses (· = f.label) := by
  induction fs generalizing seen with
  | nil => simp [check] at h
  | cons f fs ih =>
    by_cases hallowed : f.kind ∈ allowed
    · by_cases hseen : f.kind ∈ seen ∧ ¬ f.kind.isRepeatable
      · have hcheck (gs : List (Fragment σ)) : check allowed seen (f :: gs) =
            .error (.invalidFragment (.duplicate f.label)) := by
          rw [check, if_neg (not_not.2 hallowed), if_pos hseen]
        rw [hcheck] at h
        cases h
        exact ⟨[], f, fs, rfl, rfl, hcheck [], rfl, fun text h => (Option.some.inj h).symm⟩
      · have hcheck (gs : List (Fragment σ)) : check allowed seen (f :: gs) =
            check allowed (f.kind :: seen) gs := by
          rw [check, if_neg (not_not.2 hallowed), if_neg hseen]
        rw [hcheck] at h
        obtain ⟨before, g, after, rfl, hbefore, hg, hrefuses⟩ := ih h
        exact ⟨f :: before, g, after, rfl, (hcheck before).trans hbefore,
          (hcheck (before ++ [g])).trans hg, hrefuses⟩
    · have hcheck (gs : List (Fragment σ)) : check allowed seen (f :: gs) =
          .error (.invalidFragment (.unexpected f.label)) := by
        rw [check, if_pos hallowed]
      rw [hcheck] at h
      cases h
      exact ⟨[], f, fs, rfl, rfl, hcheck [], rfl, fun text h => (Option.some.inj h).symm⟩

theorem check_refusable (allowed : List ClauseKind) (clauses : List (Clause σ)) :
    Refusable (Quotable allowed clauses) (check allowed [] (fragments clauses)) := by
  intro e he
  obtain ⟨before, f, after, hfragments, hbefore, hcheck, hrefuses⟩ := check_error_split he
  obtain ⟨given, rest, rfl, rfl⟩ := exists_of_fragments_eq hfragments
  have hrefused : ¬ Accepted allowed [] (fragments given ++ [f]) := fun haccepted => by
    rw [check_eq_ok_iff.2 haccepted] at hcheck
    cases hcheck
  have hmisfit : FirstMisfit allowed (given ++ .fragment f :: rest) f :=
    ⟨given, rest, rfl, check_eq_ok_iff.1 hbefore, hrefused⟩
  exact ⟨hrefuses.isSoft, fun text htext => ⟨f, hmisfit, hrefuses.quoted text htext⟩⟩

omit [Medium σ] in
theorem checkHaving_refusable {quotable : String → Prop} (fragments : List (Fragment σ)) :
    Refusable quotable (checkHaving fragments) := by
  rw [checkHaving]
  split
  · exact .silent rfl rfl
  · exact .ok ()

variable (value : Value → σ)

theorem withForest_refusable {quotable : String → Prop} (fragments : List (Fragment σ))
    (forest : List Tree) : Refusable quotable (withForest value fragments forest) := by
  rw [withForest]
  split
  · exact .ok fragments
  · split
    · exact .silent rfl rfl
    · exact (ofForest_refusable _ _).bind fun body => .ok _

theorem arrange_refusable (allowed : List ClauseKind) (clauses : List (Clause σ)) :
    Refusable (Quotable allowed clauses) (arrange value allowed clauses) := by
  apply (check_refusable allowed clauses).bind
  intro _
  apply (withForest_refusable value _ _).bind
  intro all
  exact (checkHaving_refusable all).bind fun _ => .ok _

end Clause

/-! ## Requests -/

section
variable {κ ι : Type}

def FragmentRequest.clauses : FragmentRequest κ → List κ
  | .filter _ clauses | .union _ _ _ clauses => clauses

/-- The kinds of fragments that a request takes.  A filter only hands one through. -/
def FragmentRequest.allowed : FragmentRequest κ → List ClauseKind
  | .filter .. => []
  | .union .. => Clause.ofQueries

def StatementRequest.clauses : StatementRequest κ → List κ
  | .select _ _ clauses | .update _ _ clauses | .delete _ clauses
  | .insertSelect _ _ _ _ clauses | .createSelect _ _ _ clauses
  | .selectInto _ _ _ clauses => clauses
  | .insert .. | .replace .. | .create .. | .alter .. | .drop .. => []

def StatementRequest.allowed : StatementRequest κ → List ClauseKind
  | .select .. | .insertSelect .. | .createSelect .. | .selectInto .. => Clause.ofQueries
  | .update .. | .delete .. => Clause.ofMutations
  | .insert .. | .replace .. | .create .. | .alter .. | .drop .. => []

variable {f : List κ → Except Error (List ι)} {clauses : List ι} {e : Error}

theorem FragmentRequest.mapClausesM_ok {q : FragmentRequest κ} (h : f q.clauses = .ok clauses) :
    ∃ q', q.mapClausesM f = .ok q' ∧ q'.clauses = clauses ∧ q'.allowed = q.allowed := by
  cases q <;> exact ⟨_, congrArg (· >>= _) h, rfl, rfl⟩

theorem FragmentRequest.mapClausesM_error {q : FragmentRequest κ} (h : f q.clauses = .error e) :
    q.mapClausesM f = .error e := by
  cases q <;> exact congrArg (· >>= _) h

theorem StatementRequest.mapClausesM_ok {q : StatementRequest κ} (h : f q.clauses = .ok clauses)
    (hnil : f [] = .ok []) :
    ∃ q', q.mapClausesM f = .ok q' ∧ q'.clauses = clauses ∧ q'.allowed = q.allowed := by
  cases q with
  | insert | replace | create | alter | drop =>
    exact ⟨_, rfl, Except.ok.inj (hnil.symm.trans h), rfl⟩
  | select | update | delete | insertSelect | createSelect | selectInto =>
    exact ⟨_, congrArg (· >>= _) h, rfl, rfl⟩

theorem StatementRequest.mapClausesM_error {q : StatementRequest κ} (h : f q.clauses = .error e)
    (hnil : f [] = .ok []) : q.mapClausesM f = .error e := by
  cases q with
  | insert | replace | create | alter | drop => cases hnil.symm.trans h
  | select | update | delete | insertSelect | createSelect | selectInto =>
    exact congrArg (· >>= _) h

end

section
variable {σ : Type} [Medium σ]

theorem onlyConditions_refusable (filter : FilterKind) (clauses : List (Clause σ)) :
    Refusable (Clause.Quotable [] clauses) (onlyConditions filter clauses) := by
  induction clauses with
  | nil => exact .ok []
  | cons clause rest ih =>
    cases clause with
    | condition t =>
      have hrest : Refusable (Clause.Quotable [] (.condition t :: rest))
          (onlyConditions filter rest) :=
        ih.mono fun text ⟨f, hf, htext⟩ => ⟨f, hf.cons_condition t, htext⟩
      exact hrest.bind fun trees => .ok (t :: trees)
    | fragment f =>
      exact .error ⟨rfl, fun text h =>
        ⟨f, Clause.firstMisfit_cons f rest, (Option.some.inj h).symm⟩⟩

variable (value : Value → σ)

theorem withClauses_refusable (head : σ) (allowed : List ClauseKind) (clauses : List (Clause σ)) :
    Refusable (Clause.Quotable allowed clauses) (withClauses value head allowed clauses) :=
  (Clause.arrange_refusable value allowed clauses).bind fun _ => .ok _

theorem filterFragment_refusable (filter : FilterKind) (clauses : List (Clause σ)) :
    Refusable (Clause.Quotable [] clauses) (filterFragment value filter clauses) := by
  unfold filterFragment
  split
  case h_1 f =>
    split
    · exact .ok _
    · exact .error ⟨rfl, fun text h =>
        ⟨f, Clause.firstMisfit_cons f [], (Option.some.inj h).symm⟩⟩
  case h_2 =>
    apply (onlyConditions_refusable filter clauses).bind
    intro forest
    exact (ofForest_refusable filter forest).bind fun body => .ok _

theorem selectQuery_refusable (table columns : String) (clauses : List (Clause σ)) :
    Refusable (Clause.Quotable Clause.ofQueries clauses)
      (selectQuery value table columns clauses) :=
  (tableName_refusable table).bind fun _ => withClauses_refusable value _ _ clauses

theorem FragmentRequest.written_refusable (q : FragmentRequest (Clause σ)) :
    Refusable (Clause.Quotable q.allowed q.clauses) (q.written value) := by
  cases q with
  | filter kind clauses => exact filterFragment_refusable value kind clauses
  | union all table columns clauses =>
    exact (selectQuery_refusable value table _ clauses).bind fun query => .ok _

theorem StatementRequest.written_refusable (q : StatementRequest (Clause σ)) :
    Refusable (Clause.Quotable q.allowed q.clauses) (q.written value) := by
  cases q with
  | select table columns clauses => exact selectQuery_refusable value table _ clauses
  | insert table pairs | replace table pairs =>
    apply (namedPairs_refusable pairs).bind
    intro pairs
    exact (tableName_refusable table).bind fun table => .ok _
  | update table pairs clauses =>
    apply (tableName_refusable table).bind
    intro table
    apply (namedPairs_refusable pairs).bind
    intro pairs
    exact withClauses_refusable value _ _ clauses
  | delete table clauses =>
    exact (tableName_refusable table).bind fun table => withClauses_refusable value _ _ clauses
  | insertSelect target columns source sourceColumns clauses =>
    apply (tableName_refusable target).bind
    intro target
    apply (checkColumnCounts_refusable _ sourceColumns).bind
    intro _
    exact (selectQuery_refusable value source _ clauses).bind fun query => .ok _
  | createSelect target source columns clauses | selectInto target source columns clauses =>
    apply (tableName_refusable source).bind
    intro source
    exact (tableName_refusable target).bind fun target => withClauses_refusable value _ _ clauses
  | create table items | alter table items =>
    apply (tableName_refusable table).bind
    intro table
    exact (requiredList_refusable _ items).bind fun items => .ok _
  | drop table => exact (tableName_refusable table).bind fun table => .ok _

end

/-! ## Steps -/

theorem resolve_refusable {σ : Type} {quotable : String → Prop} (raw : Sql → σ)
    (stored : List (String × Fragment σ)) (sources : List ClauseSource) :
    Refusable quotable (resolve raw stored sources) := by
  induction sources with
  | nil => exact .ok []
  | cons source rest ih =>
    cases source with
    | text sql => exact ih.bind fun clauses => .ok _
    | condition t => exact ih.bind fun clauses => .ok _
    | spec f => exact f.build_refusable.bind fun fragment => ih.bind fun clauses => .ok _
    | stored name =>
      apply ih.bind
      intro clauses
      split <;> exact .ok _

def Step.sources : Step → List ClauseSource
  | .fragment q _ => q.clauses
  | .statement q => q.clauses
  | .spec .. | .setPrepare _ => []

def Step.allowed : Step → List ClauseKind
  | .fragment q _ => q.allowed
  | .statement q => q.allowed
  | .spec .. | .setPrepare _ => []

theorem Desk.keep_snd {σ : Type} (desk : Desk σ) (name : Option String)
    (x : Except Error (Fragment σ)) : (desk.keep name x).2 = x.map .fragment := by
  cases x with
  | error e => rfl
  | ok f => cases name <;> rfl

namespace Manner

variable {σ : Type} [Medium σ] {m : Manner σ} {desk : Desk σ} {step : Step}

/-- A step fails as its clauses do. -/
theorem step_unresolved {e : Error} (h : m.resolve desk step.sources = .error e) :
    (m.step desk step).2 = .error e := by
  cases step with
  | fragment q name =>
    have hq : q.mapClausesM (m.resolve desk) = .error e := FragmentRequest.mapClausesM_error h
    rw [Manner.step, Desk.keep_snd, fragmentOf, hq]
    rfl
  | statement q =>
    have hq : q.mapClausesM (m.resolve desk) = .error e :=
      StatementRequest.mapClausesM_error h rfl
    simp only [Manner.step, sqlOf, hq]
    rfl
  | spec | setPrepare => cases h

theorem step_refusable {clauses : List (Clause σ)}
    (h : m.resolve desk step.sources = .ok clauses) :
    Refusable (Clause.Quotable step.allowed clauses) (m.step desk step).2 := by
  cases step with
  | fragment q name =>
    obtain ⟨q', hq', rfl, hallowed⟩ :
        ∃ q', q.mapClausesM (m.resolve desk) = .ok q' ∧ q'.clauses = clauses ∧
          q'.allowed = q.allowed := FragmentRequest.mapClausesM_ok h
    rw [Manner.step, Desk.keep_snd, fragmentOf, hq', Step.allowed, ← hallowed]
    exact (q'.written_refusable _).map
  | statement q =>
    obtain ⟨q', hq', rfl, hallowed⟩ :
        ∃ q', q.mapClausesM (m.resolve desk) = .ok q' ∧ q'.clauses = clauses ∧
          q'.allowed = q.allowed := StatementRequest.mapClausesM_ok h rfl
    simp only [Manner.step, sqlOf, hq', Step.allowed, ← hallowed]
    exact (q'.written_refusable _).map
  | spec f name =>
    rw [Manner.step, Desk.keep_snd]
    exact f.build_refusable.map.map
  | setPrepare prepare => exact .ok _

end Manner

end SqlAssembly
