import SqlAssembly.Proofs.Lockstep
import SqlAssembly.Proofs.Refusals

/-! # The two modes of writing values

Run with values bound and run with values inlined, a program takes the same course.  What it writes
differs in the values only: put in the place of its marker, all at once, the literal of every
parameter turns the one text into the other.  So it does with the clause that a refusal quotes.
-/
namespace SqlAssembly
open Medium (ofText)
open List (Forall₂)
open Text (Pieces isSeparator)

/-- The text with its markers replaced by the texts of a list, in order and all at once.  Markers
that no text is left for stay. -/
def Marker.substitute (texts : List String) (sql : String) : String :=
  String.ofList ((pieces sql).fillFrom (fun k => (texts[k]?.getD text).toList) 0)

def Sql.escaped (d : Dialect) (x : Sql) : Sql :=
  ⟨Marker.substitute (x.params.map d.literal) x.text, []⟩

abbrev Fragment.escaped (d : Dialect) (f : Fragment) : Fragment := f.map (Sql.escaped d)

abbrev Clause.escaped (d : Dialect) : Clause → Clause := Clause.map (Sql.escaped d)

theorem Sql.escaped_ofText (d : Dialect) (s : String) :
    (ofText s : Sql).escaped d = ofText s := by
  have hfill : (Marker.pieces s).fill Marker.text.toList = s.toList :=
    Text.fill_pieces (by decide) s.toList
  ext1
  · simp only [Sql.escaped, Marker.substitute, Sql.params_ofText, Sql.text_ofText, List.map_nil,
      List.getElem?_nil, Option.getD_none]
    exact (congrArg String.ofList hfill).trans String.ofList_toList
  · rfl

/-! ## Drafts with their values inlined -/

def Glyph.inlined : Glyph → Glyph
  | .char c => .char c
  | .value _ v => .value false v

namespace Draft

def inlined (draft : Draft) : Draft := draft.map Glyph.inlined

theorem inlined_ofChars (cs : List Char) : inlined (Glyph.ofChars cs) = Glyph.ofChars cs := by
  simp [inlined, Glyph.ofChars, Glyph.inlined]

theorem trim_inlined (draft : Draft) : trim (inlined draft) = inlined (trim draft) := by
  have hblank : Glyph.isBlank ∘ Glyph.inlined = Glyph.isBlank := by
    funext g
    cases g <;> rfl
  rw [trim, inlined, List.dropWhile_map, hblank, ← List.map_reverse, List.dropWhile_map, hblank,
    ← List.map_reverse]
  rfl

theorem params_inlined (draft : Draft) : (inlined draft).flatMap Glyph.params = [] := by
  induction draft with
  | nil => rfl
  | cons g draft ih => cases g <;> exact ih

/-- Filling the gaps of a draft with the literals of its values writes out the values inlined. -/
theorem fillFrom_gaps (d : Dialect) (draft : Draft) {fill : Nat → List Char} {k : Nat}
    (hfill : ∀ i v, (values draft)[i]? = some v → fill (k + i) = (d.literal v).toList) :
    (gaps draft).fillFrom fill k = chars d (inlined draft) := by
  induction draft generalizing k with
  | nil => rfl
  | cons g draft ih =>
    cases g with
    | char c => exact congrArg (c :: ·) (ih hfill)
    | value bound v =>
      have hfirst : fill k = (d.literal v).toList := hfill 0 v rfl
      have hrest := ih (k := k + 1) fun i w hw => by
        rw [Nat.add_assoc, Nat.add_comm 1 i]
        exact hfill (i + 1) w hw
      have hcut := Pieces.fillFrom_cut fill k (gaps draft)
      rw [hfirst, hrest] at hcut
      exact hcut

/-- Of a clean draft, the escaped form is the draft with its values inlined. -/
theorem Clean.escaped {d : Dialect} {draft : Draft} (h : draft.Clean d) :
    (draft.sql d).escaped d = draft.inlined.sql d := by
  have hplaces := h.places
  ext1
  · rw [Sql.escaped, Marker.substitute, hplaces.pieces, hplaces.params, text_sql]
    apply congrArg String.ofList
    apply fillFrom_gaps
    intro i v hv
    simp [hv]
  · exact (params_inlined draft).symm

theorem exists_ofText (d : Dialect) {s : String} (h : Marker.Free s) :
    ∃ draft : Draft, draft.Clean d ∧ ofText s = draft.sql d ∧ ofText s = draft.inlined.sql d := by
  have hinlined : inlined (ofText s) = ofText s := inlined_ofChars s.toList
  refine ⟨ofText s, .ofText h, (sql_ofText d s).symm, ?_⟩
  rw [hinlined, sql_ofText]

end Draft

/-! ## Programs -/

/-- Texts without the marker, and no parameters in SQL written by hand.  Definitions may be any, and
so may values. -/
def Accord.plain : Accord where
  text := Marker.Free
  definition _ := True
  raw x y := x = y ∧ x.params = [] ∧ Marker.Free x.text
  value := Eq
  mode _ := False

instance (s : String) : Decidable (Accord.plain.text s) :=
  inferInstanceAs (Decidable (Marker.Free s))

theorem Accord.lawful_plain : Accord.plain.Lawful where
  text := Marker.closed_free
  definition := closed_any
  definition_of_text _ := trivial
  raw_of_text h := ⟨rfl, rfl, h⟩
  isNullToken h := congrArg Value.isNullToken h

/-- What is written while values are bound, and while they are inlined. -/
def Likeness.escaped (d : Dialect) : Likeness Accord.plain Sql Sql where
  left := d.manner
  right := d.manner
  modes bound bound' := bound = true ∧ bound' = false
  script x y := ∃ draft : Draft, draft.Clean d ∧ x = draft.sql d ∧ y = draft.inlined.sql d
  whole x y := y = x.escaped d
  quotes _ _ := True
  patterns := Eq
  text h := Draft.exists_ofText d h
  joined {a a' b b' c} hc h h' := by
    obtain ⟨draft, hclean, rfl, rfl⟩ := h
    obtain ⟨draft', hclean', rfl, rfl⟩ := h'
    have hinlined : (draft ++ .char c :: draft').inlined =
        draft.inlined ++ .char c :: draft'.inlined := by
      simp [Draft.inlined, Glyph.inlined]
    refine ⟨draft ++ .char c :: draft', hclean.joined hc hclean', ?_, ?_⟩
    · exact (Draft.sql_joined d draft draft' c).symm
    · rw [hinlined, Draft.sql_joined]
  trim {a b} h := by
    obtain ⟨draft, hclean, rfl, rfl⟩ := h
    refine ⟨draft.trim, hclean.trim, (Draft.sql_trim d draft).symm, ?_⟩
    rw [← Draft.trim_inlined, Draft.sql_trim]
  value {bound bound' v w} hmodes hvw := by
    obtain ⟨rfl, rfl⟩ := hmodes
    obtain rfl : v = w := hvw
    exact ⟨[.value true v], .value v, (Draft.sql_value d true v).symm,
      (Draft.sql_value d false v).symm⟩
  raw {x y} h := by
    obtain ⟨rfl, hparams, hfree⟩ := h
    have hx : x = ofText x.text := Sql.ext rfl hparams
    rw [hx]
    exact Draft.exists_ofText d hfree
  whole_of_script {a b} h := by
    obtain ⟨draft, hclean, rfl, rfl⟩ := h
    exact hclean.escaped.symm
  whole_text _ := (Sql.escaped_ofText d _).symm
  quote _ := trivial
  pattern h := congrArg Value.literalText h
  switch h := h.elim

/-- A reply while values are bound, and the reply in its place while they are inlined. -/
inductive Reply.Escapes (d : Dialect) : Reply → Reply → Prop
  | fragment (kind : ClauseKind) (x : Sql) :
    Escapes d (.fragment ⟨kind, x⟩) (.fragment ⟨kind, x.escaped d⟩)
  | statement (kind : StatementKind) (x : Sql) :
    Escapes d (.statement ⟨kind, x, true⟩) (.statement ⟨kind, x.escaped d, false⟩)

/-- An error while values are bound, and the error in its place while they are inlined: the same
one, or one that quotes the first clause that does not fit, as it stands in either run. -/
inductive Error.Escapes (d : Dialect) (allowed : List ClauseKind) (clauses : List Clause) :
    Error → Error → Prop
  | same {e : Error} (h : e.quoted? = none) : Escapes d allowed clauses e e
  | quoted (q : Quotation) {f : Fragment} (h : Clause.FirstMisfit allowed clauses f) :
    Escapes d allowed clauses (q.error f.label) (q.error (f.escaped d).label)

/-- A step of a run: the clauses that its sources stood for, and the answer. -/
structure Taken where
  step : Step
  clauses : Except Error (List Clause)
  result : Except Error Reply

def Session.taken (s : Session) : List Step → List Taken
  | [] => []
  | step :: rest =>
    ⟨step, s.resolve step.sources, (s.step step).2.result⟩ :: (s.step step).1.taken rest

/-- A step taken while values are bound, and the same step while they are inlined. -/
inductive Taken.Escapes (d : Dialect) : Taken → Taken → Prop
  | unresolved (step : Step) {e : Error} (h : e.quoted? = none) :
    Escapes d ⟨step, .error e, .error e⟩ ⟨step, .error e, .error e⟩
  | resolved (step : Step) (clauses : List Clause) {x y : Except Error Reply}
      (h : SameFate (Error.Escapes d step.allowed clauses) (Reply.Escapes d) x y) :
    Escapes d ⟨step, .ok clauses, x⟩ ⟨step, .ok (clauses.map (.escaped d)), y⟩

theorem Error.Alike.same_or_quoted {quotes : String → String → Prop} {e e' : Error}
    (h : Error.Alike quotes Eq e e') : (e.quoted? = none ∧ e' = e) ∨
      ∃ (q : Quotation) (s t : String), e = q.error s ∧ e' = q.error t := by
  cases h with
  | same e =>
    cases hquoted : e.quoted? with
    | none => exact .inl ⟨rfl, rfl⟩
    | some s =>
      obtain ⟨q, rfl⟩ := Error.quoted?_eq_some_iff.1 hquoted
      exact .inr ⟨q, s, s, rfl, rfl⟩
  | notCombinable filter _ => exact .inr ⟨.notCombinable filter, _, _, rfl, rfl⟩
  | unexpected _ => exact .inr ⟨.unexpected, _, _, rfl, rfl⟩
  | duplicate _ => exact .inr ⟨.duplicate, _, _, rfl, rfl⟩
  | missingWildcard h =>
    cases h
    exact .inl ⟨rfl, rfl⟩

/-- Either run quotes the first misfit among its clauses, which are the same but for their
values. -/
theorem Error.Escapes.of_alike {d : Dialect} {allowed : List ClauseKind} {clauses : List Clause}
    {quotes : String → String → Prop} {e e' : Error} (h : Error.Alike quotes Eq e e')
    (hbound : e.Refuses (Clause.Quotable allowed clauses))
    (hinlined : e'.Refuses (Clause.Quotable allowed (clauses.map (.escaped d)))) :
    Error.Escapes d allowed clauses e e' := by
  obtain ⟨hquoted, rfl⟩ | ⟨q, s, t, rfl, rfl⟩ := h.same_or_quoted
  · exact .same hquoted
  · obtain ⟨f, hf, rfl⟩ := hbound.quoted s (q.quoted?_error s)
    obtain ⟨g, hg, rfl⟩ := hinlined.quoted t (q.quoted?_error t)
    obtain rfl : g = f.escaped d := hg.unique (hf.map (Sql.escaped d))
    exact .quoted q hf

/-! ## Runs -/

section
variable {d : Dialect} {fs gs : List (String × Fragment)}

theorem Likeness.escaped_fragment {f g : Fragment} (h : f.Alike (Likeness.escaped d).script g) :
    g = f.escaped d := by
  rcases f with ⟨kind, x⟩
  rcases g with ⟨kind', y⟩
  obtain rfl : kind = kind' := h.kind
  obtain rfl : y = x.escaped d := (Likeness.escaped d).whole_of_script h.sql
  rfl

/-- The clauses of a step are the same in both runs but for their values. -/
theorem resolve_escaped (hstored : (Likeness.escaped d).Stored fs gs) {sources : List ClauseSource}
    (h : ∀ source ∈ sources, source.Alike .plain source) :
    resolve id gs sources = (resolve id fs sources).map (·.map (.escaped d)) := by
  -- A fragment without values is the same in both runs.
  have hcons {f : Fragment} (hf : f = f.escaped d) (x : Except Error (List Clause)) :
      (x.map (·.map (.escaped d)) >>= fun clauses => .ok (Clause.fragment f :: clauses)) =
        (x >>= fun clauses => .ok (Clause.fragment f :: clauses)).map (·.map (.escaped d)) := by
    cases x with
    | error e => rfl
    | ok clauses =>
      exact congrArg (fun g => Except.ok (Clause.fragment g :: clauses.map (.escaped d))) hf
  induction sources with
  | nil => rfl
  | cons source rest ih =>
    obtain ⟨hsource, hrest⟩ := List.forall_mem_cons.1 h
    have ih := ih hrest
    cases hsource with
    | @text sql hraw =>
      have htext : Fragment.ofText sql [] = (Fragment.ofText sql []).escaped d :=
        Likeness.escaped_fragment ⟨rfl, (Likeness.escaped d).raw hraw⟩
      rw [resolve, resolve, ih]
      exact hcons htext _
    | @spec f _ hf =>
      have hbuilt := Likeness.FragmentSpec.Alike.build Accord.lawful_plain (Likeness.escaped d) hf
      rw [resolve, resolve, ih]
      cases hfragment : f.build with
      | error e => rfl
      | ok fragment =>
        rw [hfragment] at hbuilt
        cases hbuilt with
        | ok hraws => exact hcons (Likeness.escaped_fragment hraws) _
    | stored name =>
      have hlookup := hstored.lookup name
      rw [resolve, resolve, ih]
      cases resolve id fs rest with
      | error e => rfl
      | ok clauses =>
        generalize fs.lookup name = x at hlookup
        generalize gs.lookup name = y at hlookup
        cases hlookup with
        | none => rfl
        | some hfg =>
          rw [Likeness.escaped_fragment hfg]
          rfl
    | condition _ =>
      rw [resolve, resolve, ih]
      cases resolve id fs rest <;> rfl

theorem Reply.escapes_of_answers {E : Error → Error → Prop} {s t : Settings}
    {x y : Except Error (Written Sql)} (h : SameFate E (Likeness.escaped d).Answers x y) :
    SameFate E (Reply.Escapes d) (x.map (Written.reply s)) (y.map (Written.reply t)) := by
  apply h.map
  intro a b hab
  cases hab with
  | @fragment f g hfg =>
    rw [Likeness.escaped_fragment hfg]
    exact .fragment f.kind f.sql
  | @statement kind bound bound' hmodes x y hxy =>
    obtain ⟨rfl, rfl⟩ := hmodes
    obtain rfl : y = x.escaped d := hxy
    exact .statement kind x
  | switched hmodes => exact absurd (hmodes.1.symm.trans hmodes.2) (by decide)

end

theorem Step.sources_alike {W : Accord} {step : Step} (h : step.Alike W step) :
    ∀ source ∈ step.sources, source.Alike W source := by
  have hsources : Forall₂ (ClauseSource.Alike W) step.sources step.sources := by
    cases h with
    | fragment name hq => cases hq <;> assumption
    | statement hq => cases hq <;> first | assumption | exact .nil
    | spec name hf => exact .nil
    | setPrepare hmode => exact .nil
  exact List.forall₂_same.1 hsources

namespace Session

/-- A step takes the same course in both runs, and leaves fragments stored that are the same but for
their values. -/
theorem step_escapes (c : Composer) {fs gs : List (String × Fragment)}
    (hstored : (Likeness.escaped c.dialect).Stored fs gs) {step : Step}
    (hstep : step.Alike .plain step) :
    let s := resting (c.setPrepare true) fs
    let t := resting (c.setPrepare false) gs
    Taken.Escapes c.dialect ⟨step, s.resolve step.sources, (s.step step).2.result⟩
        ⟨step, t.resolve step.sources, (t.step step).2.result⟩ ∧
      ∃ fs' gs', (Likeness.escaped c.dialect).Stored fs' gs' ∧
        (s.step step).1 = resting (c.setPrepare true) fs' ∧
        (t.step step).1 = resting (c.setPrepare false) gs' := by
  intro s t
  have hdesks : (Likeness.escaped c.dialect).Desks ⟨true, fs⟩ ⟨false, gs⟩ := ⟨⟨rfl, rfl⟩, hstored⟩
  obtain ⟨hafter, hanswer⟩ := hdesks.step Accord.lawful_plain hstep
  obtain ⟨hs, hx⟩ := step_resting (c.setPrepare true) fs step
  obtain ⟨ht, hy⟩ := step_resting (c.setPrepare false) gs step
  have hresolve : t.resolve step.sources =
      (s.resolve step.sources).map (·.map (.escaped c.dialect)) :=
    resolve_escaped hstored (Step.sources_alike hstep)
  constructor
  · cases hclauses : s.resolve step.sources with
    | error e =>
      have hinlined : t.resolve step.sources = .error e := by rw [hresolve, hclauses, map_error]
      have hleft : (c.dialect.manner.step ⟨true, fs⟩ step).2 = .error e :=
        Manner.step_unresolved hclauses
      have hright : (c.dialect.manner.step ⟨false, gs⟩ step).2 = .error e :=
        Manner.step_unresolved hinlined
      rw [hinlined, hx.trans (congrArg (Except.map _) hleft),
        hy.trans (congrArg (Except.map _) hright)]
      exact .unresolved step (resolve_refusable id fs step.sources e hclauses).quoted?_eq_none
    | ok clauses =>
      have hinlined : t.resolve step.sources = .ok (clauses.map (.escaped c.dialect)) := by
        rw [hresolve, hclauses, map_ok]
      have hleft : Refusable (Clause.Quotable step.allowed clauses)
          (c.dialect.manner.step ⟨true, fs⟩ step).2 := Manner.step_refusable hclauses
      have hright : Refusable (Clause.Quotable step.allowed (clauses.map (.escaped c.dialect)))
          (c.dialect.manner.step ⟨false, gs⟩ step).2 := Manner.step_refusable hinlined
      rw [hinlined, hx, hy]
      refine .resolved step clauses ((Reply.escapes_of_answers hanswer).imp_error ?_)
      intro e e' he he' h
      exact .of_alike h (hleft.map e he) (hright.map e' he')
  · refine ⟨_, _, hafter.stored, hs.trans ?_, ht.trans ?_⟩
    · exact congrArg (fun bound => resting (c.setPrepare bound) _) hafter.modes.1
    · exact congrArg (fun bound => resting (c.setPrepare bound) _) hafter.modes.2

/-- Step by step, the run with values bound and the run with values inlined both succeed, or both
fail for the same reason; and the text with values inlined is the other text with each marker
replaced by the literal of its parameter.  A clause that is quoted in an error is the first one that
does not fit, and it is quoted as it stands in either run: before and after this replacement. -/
theorem run_escapes (c : Composer) (steps : List Step)
    (hsteps : ∀ step ∈ steps, step.Alike .plain step) :
    Forall₂ (Taken.Escapes c.dialect) ((resting (c.setPrepare true) []).taken steps)
      ((resting (c.setPrepare false) []).taken steps) := by
  have hrun (fs gs : List (String × Fragment))
      (hstored : (Likeness.escaped c.dialect).Stored fs gs) :
      Forall₂ (Taken.Escapes c.dialect) ((resting (c.setPrepare true) fs).taken steps)
        ((resting (c.setPrepare false) gs).taken steps) := by
    induction steps generalizing fs gs with
    | nil => exact .nil
    | cons step steps ih =>
      obtain ⟨hstep, hsteps⟩ := List.forall_mem_cons.1 hsteps
      obtain ⟨htaken, fs', gs', hstored', hs, ht⟩ := step_escapes c hstored hstep
      rw [taken, taken, hs, ht]
      exact .cons htaken (ih hsteps fs' gs' hstored')
  exact hrun [] [] .nil

end Session

/-- A stored filter on a list with a null in it, in an update and, given twice, in a query. -/
theorem Session.run_escapes_update :
    let name : Condition :=
      ⟨"name", .spelled "in" [.text "it's", .null, .text Marker.text], .or, none⟩
    let steps : List Step :=
      [.fragment (.filter .whereRows [.condition (.group [.leaf name, .leaf name])]) (some "w"),
        .statement (.update "t" [("b", .text "__param__\\"), ("c", .text "Null")] [.stored "w"]),
        .statement (.select "t" [] [.stored "w", .stored "w"])]
    let taken (prepare : Bool) :=
      (Session.resting (.ofSettings { vendor := some .mySql, prepare }) []).taken steps
    Forall₂ (Taken.Escapes (.standard (some .mySql))) (taken true) (taken false) ∧
      ((taken false).map (·.result))[1]? = some (.ok (.statement ⟨.update,
        ⟨"UPDATE t SET b = '__param__\\\\', c = NULL WHERE (name IN ('it''s', NULL, '__param__')" ++
          " OR name IN ('it''s', NULL, '__param__')) ", []⟩, false⟩)) ∧
      ((taken true).map (·.result))[2]? = some (.error (.invalidFragment (.duplicate
        ("WHERE (name IN (__param__, __param__, __param__)" ++
          " OR name IN (__param__, __param__, __param__))")))) ∧
      ((taken false).map (·.result))[2]? = some (.error (.invalidFragment (.duplicate
        ("WHERE (name IN ('it''s', NULL, '__param__')" ++
          " OR name IN ('it''s', NULL, '__param__'))")))) := by
  intro name steps taken
  have hname : (Tree.leaf name).Alike .plain (.leaf name) :=
    Tree.leaf_alike_refl (fun _ => rfl) name (by decide)
  have hgroup : (Tree.group [.leaf name, .leaf name]).Alike .plain
      (.group [.leaf name, .leaf name]) := by
    simpa only [Tree.Alike, forestAlike, and_true] using ⟨hname, hname⟩
  refine ⟨Session.run_escapes (.ofSettings { vendor := some .mySql }) steps fun step hstep => ?_,
    by decide +kernel⟩
  simp only [steps, List.mem_cons, List.not_mem_nil, or_false] at hstep
  rcases hstep with rfl | rfl | rfl
  · exact .fragment _ (.filter _ (.cons (.condition hgroup) .nil))
  · exact .statement (.update (by decide) (.cons ⟨rfl, by decide, rfl, rfl⟩
      (.cons ⟨rfl, by decide, rfl, rfl⟩ .nil)) (.cons (.stored _) .nil))
  · exact .statement (.select (by decide) (by simp) (.cons (.stored _) (.cons (.stored _) .nil)))

/-- A clause that is given twice is quoted as each mode writes it: the errors are not the same. -/
theorem Session.run_errors_differ :
    let condition : Condition := ⟨"a", .typed (.compare .eq (.int 1)), .and, none⟩
    let steps : List Step :=
      [.fragment (.filter .whereRows [.condition (.leaf condition)]) (some "w"),
        .statement (.select "t" [] [.stored "w", .stored "w"])]
    let answers (prepare : Bool) :=
      ((Session.resting (.ofSettings { prepare }) []).run steps).map (·.result)
    (∀ step ∈ steps, step.Alike .plain step) ∧
      ¬ Forall₂ (SameFate Eq (Reply.Escapes (.standard none))) (answers true) (answers false) := by
  intro condition steps answers
  have hleaf : (Tree.leaf condition).Alike .plain (.leaf condition) :=
    Tree.leaf_alike_refl (fun _ => rfl) condition (by decide)
  constructor
  · intro step hstep
    simp only [steps, List.mem_cons, List.not_mem_nil, or_false] at hstep
    rcases hstep with rfl | rfl
    · exact .fragment _ (.filter _ (.cons (.condition hleaf) .nil))
    · exact .statement (.select (by decide) (by simp) (.cons (.stored _) (.cons (.stored _) .nil)))
  · intro hsame
    have hbound : answers true =
        [.ok (.fragment ⟨.whereRows, ⟨" WHERE a = __param__ ", [.int 1]⟩⟩),
          .error (.invalidFragment (.duplicate "WHERE a = __param__"))] := by decide +kernel
    have hinlined : answers false =
        [.ok (.fragment ⟨.whereRows, ⟨" WHERE a = '1' ", []⟩⟩),
          .error (.invalidFragment (.duplicate "WHERE a = '1'"))] := by decide +kernel
    rw [hbound, hinlined] at hsame
    rcases hsame with _ | ⟨-, _ | ⟨hsecond, -⟩⟩
    cases hsecond with
    | error he => exact absurd he (by decide)

end SqlAssembly
