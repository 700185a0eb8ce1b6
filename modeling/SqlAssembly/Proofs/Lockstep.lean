import SqlAssembly.Database
import SqlAssembly.Proofs.Markings

/-! # Markers and parameters in step

While values are bound, the markers of every text that a session hands out are the places of its
parameters, one after another.  Run in drafts, where a value and its place are one, a program says
which place is whose; written out, its drafts are the texts and parameters of the session, and no
marker comes about or is lost where texts are put together.
-/
namespace SqlAssembly
open Medium (ofText)
open List (Forall₂)
open Text (Pieces isSeparator)

namespace Draft

/-- A draft whose values are all bound and, once it is written out, are its only markers. -/
structure Clean (d : Dialect) (draft : Draft) : Prop where
  bound : ∀ v, Glyph.value false v ∉ draft
  pieces : Text.pieces Marker.text.toList (chars d draft) = gapsBefore { first := [] } draft

theorem marked_gapsBefore (d : Dialect) {draft : Draft} (h : ∀ v, Glyph.value false v ∉ draft) :
    (gapsBefore { first := [] } draft).marked = marked d draft := by
  induction draft with
  | nil => rfl
  | cons g draft ih =>
    have ih := ih fun v hv => h v (List.mem_cons_of_mem g hv)
    rcases g with c | ⟨_ | _, v⟩
    · simp [gapsBefore, ih]
    · exact absurd (List.mem_cons_self ..) (h v)
    · simp [gapsBefore, ih]

/-- Characters and gaps, each gap filled with a bound value. -/
def filled : List (Option Char) → List Value → Draft
  | some c :: ms, vs => .char c :: filled ms vs
  | none :: ms, v :: vs => .value true v :: filled ms vs
  | _, _ => []

/-- A draft of bound values is known from its characters and its parameters. -/
theorem filled_marked (d : Dialect) {draft : Draft} (h : ∀ v, Glyph.value false v ∉ draft) :
    filled (marked d draft) (draft.flatMap Glyph.params) = draft := by
  induction draft with
  | nil => rfl
  | cons g draft ih =>
    have ih := ih fun v hv => h v (List.mem_cons_of_mem g hv)
    rcases g with c | ⟨_ | _, v⟩
    · exact congrArg (Glyph.char c :: ·) ih
    · exact absurd (List.mem_cons_self ..) (h v)
    · exact congrArg (Glyph.value true v :: ·) ih

namespace Clean

variable {d : Dialect} {a b : Draft}

theorem legible (h : Clean d a) : Legible d a := by
  rw [Legible, Marker.marked, h.pieces, marked_gapsBefore d h.bound]

theorem ofLegible (hbound : ∀ v, Glyph.value false v ∉ a) (h : Legible d a) : Clean d a where
  bound := hbound
  pieces := by
    apply Pieces.marked_injective
    rw [marked_gapsBefore d hbound]
    exact h

theorem ofText {s : String} (h : Marker.Free s) : Clean d (ofText s) :=
  ofLegible (by simp [Medium.ofText, Glyph.ofChars]) (.ofText h)

theorem joined {c : Char} (hc : isSeparator c = true) (ha : Clean d a) (hb : Clean d b) :
    Clean d (a ++ .char c :: b) := by
  refine ofLegible (fun v hv => ?_) (ha.legible.joined hc hb.legible)
  rcases List.mem_append.1 hv with h | h
  · exact ha.bound v h
  · exact hb.bound v (by simpa using h)

theorem value (v : Value) : Clean d [.value true v] := ofLegible (by simp) (.value true v)

theorem trim (h : Clean d a) : Clean d (Draft.trim a) := by
  have hpart : Draft.trim a <:+: a := Text.infix_of_dropWhile Glyph.isBlank a
  exact ofLegible (fun v hv => h.bound v (hpart.subset hv)) h.legible.trim

theorem ofSql {x : Sql} (h : Marker.count x.text = x.params.length) :
    Clean d (Draft.ofSql x) :=
  ofLegible (fun v => inlined_not_mem_ofTexts v _ _ _) (.ofSql h)

theorem sql_injective (ha : Clean d a) (hb : Clean d b) (h : sql d a = sql d b) : a = b := by
  have htext : chars d a = chars d b := by
    have := congrArg Sql.text h
    rwa [text_sql, text_sql, String.ofList_inj] at this
  have hmarked : marked d a = marked d b := by rw [← ha.legible, ← hb.legible, htext]
  have hparams : a.flatMap Glyph.params = b.flatMap Glyph.params := congrArg Sql.params h
  rw [← filled_marked d ha.bound, hmarked, hparams, filled_marked d hb.bound]

end Clean

end Draft

/-! ## Programs -/

/-- Texts without the marker, apart from SQL written by hand, which has as many markers as it has
parameters.  Values are bound throughout, and may be any. -/
def Accord.lockstep : Accord where
  text := Marker.Free
  definition := Marker.Free
  raw x y := x = y ∧ Marker.count x.text = x.params.length
  value := Eq
  mode bound := bound = true

instance (s : String) : Decidable (Accord.lockstep.text s) :=
  inferInstanceAs (Decidable (Marker.Free s))

theorem Accord.lawful_lockstep : Accord.lockstep.Lawful where
  text := Marker.closed_free
  definition := Marker.closed_free
  definition_of_text := id
  raw_of_text {s} h := by
    have hpieces : Text.pieces Marker.text.toList s.toList = { first := s.toList } :=
      Text.pieces_of_not_mem h
    exact ⟨rfl, by rw [Marker.count, Text.occurrences, hpieces]; rfl⟩
  isNullToken h := congrArg Value.isNullToken h

/-- Drafts and what they are written out as, while values are bound. -/
def Likeness.lockstep (d : Dialect) : Likeness Accord.lockstep Draft Sql where
  left := Draft.manner
  right := d.manner
  modes bound bound' := bound = true ∧ bound' = true
  script draft x := x = draft.sql d ∧ draft.Clean d
  whole draft x := x = draft.sql d ∧ draft.Clean d
  quotes _ _ := True
  patterns := Eq
  text h := ⟨(Draft.sql_ofText d _).symm, .ofText h⟩
  joined {a a' b b' c} hc ha hb := by
    obtain ⟨rfl, ha⟩ := ha
    obtain ⟨rfl, hb⟩ := hb
    rw [Draft.append_singleton, Draft.sql_joined]
    exact ⟨rfl, ha.joined hc hb⟩
  trim {a b} h := ⟨h.1 ▸ (Draft.sql_trim d a).symm, h.2.trim⟩
  value {bound bound' v w} hmodes hvw := by
    obtain ⟨rfl, rfl⟩ := hmodes
    obtain rfl : v = w := hvw
    exact ⟨(Draft.sql_value d true v).symm, .value v⟩
  raw {x y} h := by
    obtain ⟨rfl, hcount⟩ := h
    exact ⟨(Draft.sql_ofSql d hcount).symm, .ofSql hcount⟩
  whole_of_script h := h
  whole_text h := ⟨(Draft.sql_ofText d _).symm, .ofText h⟩
  quote _ := trivial
  pattern h := congrArg Value.literalText h
  switch h := ⟨h, h⟩

/-- The values of a draft are the parameters of `x`, and their places are its markers. -/
structure Draft.Places (d : Dialect) (draft : Draft) (x : Sql) : Prop where
  text : x.text = String.ofList (draft.chars d)
  params : x.params = draft.values
  pieces : Marker.pieces x.text = draft.gaps
  count : Marker.count x.text = x.params.length

theorem Draft.length_rest_gapsBefore (p : Pieces) (draft : Draft) :
    (gapsBefore p draft).rest.length = p.rest.length + draft.values.length := by
  induction draft with
  | nil => rfl
  | cons g draft ih =>
    cases g with
    | char c => exact ih
    | value bound v =>
      simp only [gapsBefore, Pieces.rest_cut, List.length_cons, ih, values, List.flatMap_cons,
        Glyph.values, List.singleton_append]
      omega

theorem Draft.Clean.places {d : Dialect} {draft : Draft} (h : draft.Clean d) :
    draft.Places d (draft.sql d) := by
  have hparams : (draft.sql d).params = draft.values := by
    have hbound := h.bound
    clear h
    induction draft with
    | nil => rfl
    | cons g draft ih =>
      have ih := ih fun v hv => hbound v (List.mem_cons_of_mem g hv)
      rcases g with c | ⟨_ | _, v⟩
      · exact ih
      · exact absurd (List.mem_cons_self ..) (hbound v)
      · exact congrArg (v :: ·) ih
  have hpieces : Marker.pieces (draft.sql d).text = draft.gaps := by
    rw [Draft.text_sql, Marker.pieces, String.toList_ofList, h.pieces]
    rfl
  refine ⟨rfl, hparams, hpieces, ?_⟩
  change (Marker.pieces (draft.sql d).text).rest.length = _
  rw [hpieces, hparams]
  exact (Draft.length_rest_gapsBefore { first := [] } draft).trans (Nat.zero_add _)

/-- What a statement fails with once it is sent is never that its markers and its parameters differ
in number. -/
def Statement.NeverMismatched (s : Statement) : Prop :=
  ∀ (client : Client) (placeholders parameters : Nat),
    (s.execute client).2.result ≠ .error (.query (.mismatch placeholders parameters))

theorem Client.call_ne_mismatch (c : Client) (sql : Sql) (placeholders parameters : Nat) :
    (c.call sql).2 ≠ .error (.query (.mismatch placeholders parameters)) := by
  rw [Client.call]
  rcases c.replies.head? with _ | ⟨_ | _⟩ <;> simp

theorem Statement.forVendor_ne_mismatch {s : Statement}
    (h : s.placeholders = s.sql.params.length) (vendor : Option Vendor)
    (placeholders parameters : Nat) :
    s.forVendor vendor ≠ .error (.query (.mismatch placeholders parameters)) := by
  unfold Statement.forVendor
  rw [if_neg (not_not.2 h)]
  cases vendor with
  | some v => simp
  | none =>
    dsimp only
    split_ifs <;> simp

theorem Statement.neverMismatched {s : Statement} (h : s.placeholders = s.sql.params.length) :
    s.NeverMismatched := by
  intro client placeholders parameters hresult
  have hvendor := s.forVendor_ne_mismatch h client.dialect.vendor placeholders parameters
  rw [Statement.execute] at hresult
  cases hsql : s.forVendor client.dialect.vendor with
  | error e =>
    rw [hsql] at hresult hvendor
    exact hvendor (congrArg Except.error (Except.error.inj hresult))
  | ok sql =>
    have hcall := client.call_ne_mismatch sql placeholders parameters
    rw [hsql] at hresult
    cases hanswer : (client.call sql).2 with
    | error e =>
      simp only [hanswer] at hresult hcall
      exact hcall hresult
    | ok affected => simp [hanswer] at hresult

/-- An answer of a session, and the draft that shows whose places its markers are. -/
inductive Reply.Places (d : Dialect) : Written Draft → Reply → Prop
  | fragment {f : Fragment} {draft : Draft} (h : draft.Places d f.sql) :
    Places d (.fragment ⟨f.kind, draft⟩) (.fragment f)
  | statement {s : Statement} {draft : Draft} (h : draft.Places d s.sql)
      (hprepared : s.prepared = true) (hexecute : s.NeverMismatched) :
    Places d (.statement s.kind true draft) (.statement s)
  | settings {s : Settings} (h : s.prepare = true) : Places d (.switched true) (.settings s)

/-- While values are bound, every answer has as many markers as it has parameters, each marker in
the place of its own parameter, and every statement may be sent. -/
theorem Session.run_places (c : Composer) (hprepare : c.settings.prepare = true)
    (steps : List Step) (hsteps : ∀ step ∈ steps, step.Alike .lockstep step) :
    Forall₂ (SameFate (Error.Alike (fun _ _ => True) Eq) (Reply.Places c.dialect))
      (Draft.manner.run ⟨true, []⟩ steps)
      (((Session.resting c []).run steps).map (·.result)) := by
  have hdesks : (Likeness.lockstep c.dialect).Desks ⟨true, []⟩ ⟨true, []⟩ := ⟨⟨rfl, rfl⟩, .nil⟩
  have hrun := hdesks.run Accord.lawful_lockstep (List.forall₂_same.2 hsteps)
  rw [Session.results_run, hprepare, List.forall₂_map_right_iff]
  apply hrun.imp
  intro x y hxy
  cases hxy with
  | error he => exact .error he
  | ok hanswer =>
    cases hanswer with
    | @fragment f g h =>
      have hplaces : f.sql.Places c.dialect g.sql := h.sql.1 ▸ h.sql.2.places
      rcases f with ⟨kind, draft⟩
      obtain rfl : kind = g.kind := h.kind
      exact .ok (.fragment hplaces)
    | @statement kind bound bound' hmodes draft x h =>
      obtain ⟨rfl, rfl⟩ := hmodes
      have hplaces : draft.Places c.dialect x := h.1 ▸ h.2.places
      exact .ok (.statement (s := .ofSql kind true x) hplaces rfl
        (Statement.neverMismatched hplaces.count))
    | @switched bound hmodes =>
      obtain rfl : bound = true := hmodes.1
      exact .ok (.settings rfl)

/-- A condition on the marker itself, stored, nested through a union, and moved in front of a clause
written by hand. -/
theorem Session.run_places_union :
    let condition : Condition := ⟨"a", .typed (.compare .eq (.text Marker.text)), .and, none⟩
    let steps : List Step :=
      [.fragment (.filter .whereRows [.condition (.leaf condition)]) (some "w"),
        .fragment (.union false "u" [] [.stored "w"]) (some "x"),
        .statement (.select "t" [] [.stored "x", .spec (.text "LIMIT __param__" [.int 3]),
          .stored "w"])]
    let answers := ((Session.resting (.ofSettings {}) []).run steps).map (·.result)
    Forall₂ (SameFate (Error.Alike (fun _ _ => True) Eq) (Reply.Places (.standard none)))
        (Draft.manner.run ⟨true, []⟩ steps) answers ∧
      answers[2]? = some (.ok (.statement ⟨.select,
        ⟨"SELECT * FROM t WHERE a = __param__ LIMIT __param__ UNION " ++
          "SELECT * FROM u WHERE a = __param__ ",
          [.text Marker.text, .int 3, .text Marker.text]⟩, true⟩)) := by
  intro condition steps answers
  have hlimit : (ClauseSource.spec (.text "LIMIT __param__" [.int 3])).Alike .lockstep
      (.spec (.text "LIMIT __param__" [.int 3])) := .spec (.text ⟨rfl, by decide⟩)
  have hleaf : (Tree.leaf condition).Alike .lockstep (.leaf condition) :=
    Tree.leaf_alike_refl (fun _ => rfl) condition (by decide)
  refine ⟨Session.run_places (.ofSettings {}) rfl steps fun step hstep => ?_, by decide +kernel⟩
  simp only [steps, List.mem_cons, List.not_mem_nil, or_false] at hstep
  rcases hstep with rfl | rfl | rfl
  · exact .fragment _ (.filter _ (.cons (.condition hleaf) .nil))
  · exact .fragment _ (.union _ (by decide) (by simp) (.cons (.stored _) .nil))
  · exact .statement (.select (by decide) (by simp)
      (.cons (.stored _) (.cons hlimit (.cons (.stored _) .nil))))

end SqlAssembly
