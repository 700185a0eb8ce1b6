import SqlAssembly.Proofs.Lockstep

/-! # Switching between the modes

A program may switch between binding and inlining values whenever it likes, also between building a
fragment and using it.  A statement is then sent as it was meant unless it is prepared and has a
literal with the marker in it: such a marker is counted, and replaced, like the place of a value.
-/
namespace SqlAssembly
open Medium (ofText)
open List (Forall₂)
open Text (Pieces isSeparator)

namespace Text.Pieces

theorem length_fillMarked {fill : Nat → List Char} {n : Nat} (hfill : ∀ k, (fill k).length = n + 1)
    (k : Nat) (ms : List (Option Char)) :
    (fillMarked fill k ms).length = ms.length + n * ms.count none := by
  induction ms generalizing k with
  | nil => simp [fillMarked]
  | cons m ms ih =>
    cases m with
    | some c => simp [fillMarked, ih, Nat.add_right_comm]
    | none =>
      simp only [fillMarked, List.length_append, hfill, ih, List.length_cons, List.count_cons_self,
        Nat.mul_succ]
      omega

end Text.Pieces

/-- Every marker made out stands for the characters of the marker. -/
theorem Marker.length_marked (cs : List Char) :
    (marked cs).length + 8 * (marked cs).count none = cs.length := by
  have hfilled : Pieces.fillMarked (fun _ => text.toList) 0 (marked cs) = cs := by
    rw [marked, ← Pieces.fillFrom_eq]
    exact Text.fill_pieces (by decide) cs
  have hmarker : text.toList.length = 8 + 1 := by decide
  have hlength := Pieces.length_fillMarked (fun _ => hmarker) 0 (marked cs)
  rw [← hlength, hfilled]

namespace Draft

/-- A draft as it is meant to be sent: placeholders, counted from `k`, in the places of the bound
values, and literals as they are. -/
def sent (d : Dialect) (placeholder : Nat → List Char) (k : Nat) : Draft → List Char
  | [] => []
  | .char c :: draft => c :: sent d placeholder k draft
  | .value true _ :: draft => placeholder k ++ sent d placeholder (k + 1) draft
  | .value false v :: draft => (d.literal v).toList ++ sent d placeholder k draft

/-- A draft whose literals do not have the marker in them. -/
def Unmarked (d : Dialect) (draft : Draft) : Prop :=
  ∀ v, Glyph.value false v ∈ draft → Marker.Free (d.literal v)

section
variable {d : Dialect} {draft : Draft}

@[simp] theorem unmarked_nil : Unmarked d [] := fun _ hv => absurd hv List.not_mem_nil

@[simp] theorem unmarked_char (c : Char) : Unmarked d (.char c :: draft) ↔ Unmarked d draft := by
  simp [Unmarked]

@[simp] theorem unmarked_bound (v : Value) :
    Unmarked d (.value true v :: draft) ↔ Unmarked d draft := by
  simp [Unmarked]

@[simp] theorem unmarked_inlined (v : Value) :
    Unmarked d (.value false v :: draft) ↔ Marker.Free (d.literal v) ∧ Unmarked d draft := by
  simp [Unmarked, or_imp, forall_and]

/-- A marker in a literal has no parameter, so that there are more markers than parameters as soon
as there is one. -/
theorem count_marked (d : Dialect) (draft : Draft) :
    (draft.flatMap Glyph.params).length ≤ (marked d draft).count none ∧
      ((marked d draft).count none = (draft.flatMap Glyph.params).length ↔ Unmarked d draft) := by
  induction draft with
  | nil => simp [marked]
  | cons g draft ih =>
    rw [List.flatMap_cons, List.length_append]
    rcases g with c | ⟨_ | _, v⟩
    · have hnone : (Glyph.char c).params.length = 0 := rfl
      rw [marked_char, List.count_cons_of_ne (by simp), unmarked_char, hnone, Nat.zero_add]
      exact ih
    · have hnone : (Glyph.value false v).params.length = 0 := rfl
      have hfree :
          Marker.Free (d.literal v) ↔ (Marker.marked (d.literal v).toList).count none = 0 :=
        Marker.count_marked_eq_zero.symm
      rw [marked_inlined, List.count_append, unmarked_inlined, ← ih.2, hfree, hnone]
      omega
    · have hone : (Glyph.value true v).params.length = 1 := rfl
      rw [marked_bound, List.count_cons_self, unmarked_bound, ← ih.2, hone]
      omega

theorem fillMarked_marked {placeholder : Nat → List Char} (h : Unmarked d draft) (k : Nat) :
    Pieces.fillMarked placeholder k (marked d draft) = sent d placeholder k draft := by
  induction draft generalizing k with
  | nil => rfl
  | cons g draft ih =>
    rcases g with c | ⟨_ | _, v⟩
    · exact congrArg (c :: ·) (ih (by simpa using h) k)
    · obtain ⟨hfree, hrest⟩ := (unmarked_inlined v).1 h
      have hliteral : Marker.marked (d.literal v).toList = (d.literal v).toList.map some :=
        Marker.marked_free hfree
      rw [sent, ← ih hrest k, ← Pieces.fillMarked_chars, ← hliteral]
      rfl
    · exact congrArg (placeholder k ++ ·) (ih (by simpa using h) (k + 1))

/-- With placeholders of one character, a text from which a marker in a literal has been replaced is
shorter than it was meant to be. -/
theorem length_sent {placeholder : Nat → List Char} (hone : ∀ k, (placeholder k).length = 1)
    (k : Nat) (draft : Draft) :
    (marked d draft).length ≤ (sent d placeholder k draft).length ∧
      ((marked d draft).length = (sent d placeholder k draft).length → Unmarked d draft) := by
  induction draft generalizing k with
  | nil => simp [marked, sent]
  | cons g draft ih =>
    rcases g with c | ⟨_ | _, v⟩
    · simpa [sent] using ih k
    · have hliteral := Marker.length_marked (d.literal v).toList
      obtain ⟨hle, hunmarked⟩ := ih k
      rw [marked_inlined, sent, List.length_append, List.length_append, unmarked_inlined]
      refine ⟨by omega, fun h => ?_⟩
      exact ⟨Marker.count_marked_eq_zero.1 (by omega), hunmarked (by omega)⟩
    · simpa [sent, hone, Nat.add_comm 1] using ih (k + 1)

theorem params_eq_nil {draft : Draft} :
    draft.flatMap Glyph.params = [] ↔ ∀ v, Glyph.value true v ∉ draft := by
  induction draft with
  | nil => simp
  | cons g draft ih =>
    rcases g with c | ⟨_ | _, v⟩
    · simpa [Glyph.params] using ih
    · simpa [Glyph.params] using ih
    · simp only [List.flatMap_cons, Glyph.params, List.singleton_append, reduceCtorEq, false_iff]
      exact fun h => h v (by simp)

/-- Without bound values there are no placeholders to be put anywhere. -/
theorem sent_eq_chars (h : ∀ v, Glyph.value true v ∉ draft) (placeholder : Nat → List Char)
    (k : Nat) : sent d placeholder k draft = chars d draft := by
  induction draft with
  | nil => rfl
  | cons g draft ih =>
    have ih := ih fun v hv => h v (List.mem_cons_of_mem g hv)
    rcases g with c | ⟨_ | _, v⟩
    · exact congrArg (c :: ·) ih
    · exact congrArg ((d.literal v).toList ++ ·) ih
    · exact absurd (List.mem_cons_self ..) (h v)

end

end Draft

/-! ## Statements -/

/-- What becomes of a statement that was drafted, given the mode in which it was built.  It is
prepared if it was built with values bound or has any bound value in it. -/
structure Statement.Switched (d : Dialect) (bound : Bool) (draft : Draft) (s : Statement) :
    Prop where
  sql : s.sql = draft.sql d
  prepared : s.prepared = true ↔ bound = true ∨ ∃ v, Glyph.value true v ∈ draft
  /-- It has as many placeholders as it has parameters. -/
  placeholders : s.placeholders = s.sql.params.length ↔ (s.prepared = true → draft.Unmarked d)
  /-- Every vendor's text has placeholders for the bound values, and the literals as they are. -/
  vendorText : (∀ v : Vendor, s.vendorText v =
    String.ofList (draft.sent d v.placeholders.placeholder 1)) ↔
      (s.prepared = true → draft.Unmarked d)

namespace Draft.Legible

variable {d : Dialect} {draft : Draft} (h : draft.Legible d) {s : Statement}
  (hs : s.sql = draft.sql d)
include h hs

theorem marked_text : Marker.marked s.sql.text.toList = draft.marked d := by
  rw [hs, text_sql, String.toList_ofList]
  exact h

theorem placeholders_iff (hp : s.prepared = true) :
    s.placeholders = s.sql.params.length ↔ draft.Unmarked d := by
  have hcount : Marker.count s.sql.text = (draft.marked d).count none := by
    rw [Marker.count_eq, h.marked_text hs]
  rw [Statement.placeholders, if_pos hp, hcount, hs]
  exact (count_marked d draft).2

theorem vendorText_iff (hp : s.prepared = true) :
    (∀ v : Vendor, s.vendorText v =
      String.ofList (draft.sent d v.placeholders.placeholder 1)) ↔ draft.Unmarked d := by
  have htext (v : Vendor) : s.vendorText v =
      String.ofList (Pieces.fillMarked v.placeholders.placeholder 1 (draft.marked d)) := by
    rw [Statement.vendorText, if_pos hp, ← h.marked_text hs, Marker.marked, ← Pieces.fillFrom_eq]
    rfl
  simp only [htext, String.ofList_inj]
  constructor
  · intro hsent
    -- The placeholders of this vendor are all of one character.
    have hone (k : Nat) : (Vendor.mySql.placeholders.placeholder k).length = 0 + 1 := rfl
    have hlength := congrArg List.length (hsent .mySql)
    rw [Pieces.length_fillMarked hone, Nat.zero_mul] at hlength
    exact (length_sent hone 1 draft).2 hlength
  · exact fun hunmarked v => fillMarked_marked hunmarked 1

omit h in
theorem unprepared (hbound : ∀ v, Glyph.value true v ∉ draft) (hp : s.prepared = false) :
    s.placeholders = s.sql.params.length ∧
      ∀ v : Vendor, s.vendorText v =
        String.ofList (draft.sent d v.placeholders.placeholder 1) := by
  have hparams : s.sql.params = [] := by
    rw [hs]
    exact params_eq_nil.2 hbound
  constructor
  · simp [Statement.placeholders, hp, hparams]
  · simp [Statement.vendorText, hp, sent_eq_chars hbound, hs]

omit hs in
theorem switched (kind : StatementKind) (bound : Bool) :
    (Statement.ofSql kind bound (draft.sql d)).Switched d bound draft := by
  have hsql : (Statement.ofSql kind bound (draft.sql d)).sql = draft.sql d := rfl
  have hprepared : (Statement.ofSql kind bound (draft.sql d)).prepared = true ↔
      bound = true ∨ ∃ v, Glyph.value true v ∈ draft := by
    have hnone : (draft.sql d).params = [] ↔ ∀ v, Glyph.value true v ∉ draft := params_eq_nil
    simp only [Statement.ofSql, Bool.or_eq_true, Bool.not_eq_true', List.isEmpty_eq_false_iff,
      ne_eq, hnone, not_forall, not_not]
  generalize Statement.ofSql kind bound (draft.sql d) = s at hsql hprepared
  cases hp : s.prepared with
  | true =>
    exact ⟨hsql, hprepared, by simpa [hp] using h.placeholders_iff hsql hp,
      by simpa [hp] using h.vendorText_iff hsql hp⟩
  | false =>
    have hbound : ∀ v, Glyph.value true v ∉ draft := fun v hv => by
      simp [hprepared.2 (.inr ⟨v, hv⟩)] at hp
    obtain ⟨hplaceholders, htext⟩ := unprepared hsql hbound hp
    exact ⟨hsql, hprepared, by simpa [hp] using hplaceholders, by simpa [hp] using htext⟩

end Draft.Legible

/-! ## Programs -/

/-- Texts without the marker, apart from SQL written by hand, which has as many markers as it has
parameters.  Values may be any, and so may switches of the mode. -/
def Accord.switching : Accord := { Accord.lockstep with mode := fun _ => True }

instance (s : String) : Decidable (Accord.switching.text s) :=
  inferInstanceAs (Decidable (Marker.Free s))

theorem Accord.lawful_switching : Accord.switching.Lawful where
  text := Accord.lawful_lockstep.text
  definition := Accord.lawful_lockstep.definition
  definition_of_text := Accord.lawful_lockstep.definition_of_text
  raw_of_text := Accord.lawful_lockstep.raw_of_text
  isNullToken := Accord.lawful_lockstep.isNullToken

/-- Drafts and what they are written out as, in the same mode. -/
def Likeness.switching (d : Dialect) : Likeness Accord.switching Draft Sql where
  left := Draft.manner
  right := d.manner
  modes := Eq
  script draft x := x = draft.sql d ∧ draft.Legible d
  whole draft x := x = draft.sql d ∧ draft.Legible d
  quotes _ _ := True
  patterns := Eq
  text h := ⟨(Draft.sql_ofText d _).symm, .ofText h⟩
  joined {a a' b b' c} hc ha hb := by
    obtain ⟨rfl, ha⟩ := ha
    obtain ⟨rfl, hb⟩ := hb
    rw [Draft.append_singleton, Draft.sql_joined]
    exact ⟨rfl, ha.joined hc hb⟩
  trim {a b} h := ⟨h.1 ▸ (Draft.sql_trim d a).symm, h.2.trim⟩
  value {bound bound' v w} hmodes hvw := by
    obtain rfl : bound = bound' := hmodes
    obtain rfl : v = w := hvw
    exact ⟨(Draft.sql_value d bound v).symm, .value bound v⟩
  raw {x y} h := by
    obtain ⟨rfl, hcount⟩ := h
    exact ⟨(Draft.sql_ofSql d hcount).symm, .ofSql hcount⟩
  whole_of_script h := h
  whole_text h := ⟨(Draft.sql_ofText d _).symm, .ofText h⟩
  quote _ := trivial
  pattern h := congrArg Value.literalText h
  switch _ := rfl

/-- An answer of a session, and what was drafted for it. -/
inductive Reply.Switched (d : Dialect) : Written Draft → Reply → Prop
  | fragment (kind : ClauseKind) (draft : Draft) :
    Switched d (.fragment ⟨kind, draft⟩) (.fragment ⟨kind, draft.sql d⟩)
  | statement (kind : StatementKind) {bound : Bool} {draft : Draft} {s : Statement}
      (hkind : s.kind = kind) (h : s.Switched d bound draft) :
    Switched d (.statement kind bound draft) (.statement s)
  | settings {bound : Bool} {s : Settings} (h : s.prepare = bound) :
    Switched d (.switched bound) (.settings s)

/-- However a program switches between the modes, a statement that it is given has as many
placeholders as parameters, and is sent with its literals as they are, exactly if it is not prepared
or none of its literals has the marker in it. -/
theorem Session.run_switched (c : Composer) (steps : List Step)
    (hsteps : ∀ step ∈ steps, step.Alike .switching step) :
    Forall₂ (SameFate (Error.Alike (fun _ _ => True) Eq) (Reply.Switched c.dialect))
      (Draft.manner.run ⟨c.settings.prepare, []⟩ steps)
      (((Session.resting c []).run steps).map (·.result)) := by
  have hdesks : (Likeness.switching c.dialect).Desks ⟨c.settings.prepare, []⟩
    ⟨c.settings.prepare, []⟩ := ⟨rfl, .nil⟩
  have hrun := hdesks.run Accord.lawful_switching (List.forall₂_same.2 hsteps)
  rw [Session.results_run, List.forall₂_map_right_iff]
  apply hrun.imp
  intro x y hxy
  cases hxy with
  | error he => exact .error he
  | ok hanswer =>
    cases hanswer with
    | @fragment f g h =>
      rcases f with ⟨kind, draft⟩
      rcases g with ⟨kind', x⟩
      obtain rfl : kind = kind' := h.kind
      obtain rfl : x = draft.sql c.dialect := h.sql.1
      exact .ok (.fragment kind draft)
    | @statement kind bound bound' hmodes draft x h =>
      obtain rfl : bound = bound' := hmodes
      obtain rfl : x = draft.sql c.dialect := h.1
      exact .ok (.statement kind rfl (h.2.switched kind bound))
    | @switched bound _ => exact .ok (.settings rfl)

/-- A filter with a value bound in it goes into an update whose value is inlined, and a row of text
with the marker in it is sent as it is. -/
theorem Session.run_switched_update :
    let condition : Condition := ⟨"a", .typed (.compare .eq (.text Marker.text)), .and, none⟩
    let steps : List Step :=
      [.fragment (.filter .whereRows [.condition (.leaf condition)]) (some "w"),
        .setPrepare false, .statement (.update "t" [("b", .text "it's")] [.stored "w"]),
        .statement (.insert "notes" [("body", .text "see __param__ docs")])]
    let answers := ((Session.resting (.ofSettings { vendor := some .postgreSql }) []).run
      steps).map (·.result)
    let update : Statement := ⟨.update,
      ⟨"UPDATE t SET b = 'it''s' WHERE a = __param__ ", [.text Marker.text]⟩, true⟩
    let insert : Statement :=
      ⟨.insert, ⟨"INSERT INTO notes (body) VALUES ('see __param__ docs')", []⟩, false⟩
    Forall₂ (SameFate (Error.Alike (fun _ _ => True) Eq)
        (Reply.Switched (.standard (some .postgreSql)))) (Draft.manner.run ⟨true, []⟩ steps)
        answers ∧
      answers[2]? = some (.ok (.statement update)) ∧ answers[3]? = some (.ok (.statement insert)) ∧
      update.vendorText .postgreSql = "UPDATE t SET b = 'it''s' WHERE a = $1 " ∧
      insert.vendorText .postgreSql = insert.sql.text := by
  intro condition steps answers update insert
  have hleaf : (Tree.leaf condition).Alike .switching (.leaf condition) :=
    Tree.leaf_alike_refl (fun _ => rfl) condition (by decide)
  refine ⟨Session.run_switched (.ofSettings { vendor := some .postgreSql }) steps
    fun step hstep => ?_, by decide +kernel⟩
  simp only [steps, List.mem_cons, List.not_mem_nil, or_false] at hstep
  rcases hstep with rfl | rfl | rfl | rfl
  · exact .fragment _ (.filter _ (.cons (.condition hleaf) .nil))
  · exact .setPrepare trivial
  · exact .statement (.update (by decide) (.cons ⟨rfl, by decide, rfl, rfl⟩ .nil)
      (.cons (.stored _) .nil))
  · exact .statement (.insert (by decide) (.cons ⟨rfl, by decide, rfl, rfl⟩ .nil))

/-- A filter whose literal has the marker in it makes a statement that is built with values bound
impossible to send, and its literal would not be left as it is. -/
theorem Session.run_switched_mismatch :
    let condition : Condition := ⟨"a", .typed (.compare .eq (.text Marker.text)), .and, none⟩
    let steps : List Step :=
      [.fragment (.filter .whereRows [.condition (.leaf condition)]) (some "w"),
        .setPrepare true, .statement (.delete "t" [.stored "w"])]
    let c : Composer := .ofSettings { vendor := some .mySql, prepare := false }
    let s : Statement := ⟨.delete, ⟨"DELETE FROM t WHERE a = '__param__' ", []⟩, true⟩
    (∀ step ∈ steps, step.Alike .switching step) ∧
      (((Session.resting c []).run steps).map (·.result))[2]? = some (.ok (.statement s)) ∧
      s.placeholders ≠ s.sql.params.length ∧
      s.vendorText .mySql = "DELETE FROM t WHERE a = '?' " := by
  intro condition steps c s
  have hleaf : (Tree.leaf condition).Alike .switching (.leaf condition) :=
    Tree.leaf_alike_refl (fun _ => rfl) condition (by decide)
  refine ⟨fun step hstep => ?_, by decide +kernel⟩
  simp only [steps, List.mem_cons, List.not_mem_nil, or_false] at hstep
  rcases hstep with rfl | rfl | rfl
  · exact .fragment _ (.filter _ (.cons (.condition hleaf) .nil))
  · exact .setPrepare trivial
  · exact .statement (.delete (by decide) (.cons (.stored _) .nil))

end SqlAssembly
