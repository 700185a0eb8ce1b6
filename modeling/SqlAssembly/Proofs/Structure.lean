import SqlAssembly.Proofs.Drafts
import SqlAssembly.Proofs.Lexemes

/-! # Values stay values

No value changes the structure of a text.  While values are bound, programs that differ in their
values only write the same texts; while values are inlined, a database reads the same characters
outside of literals, one literal in the place of each inlined value, and in it that value.
-/
namespace SqlAssembly
open Medium (ofText)
open List (Forall₂)
open Text (isSeparator)

def Lexeme.blanked : Lexeme → Lexeme
  | .literal _ => .literal []
  | l => l

/-- What is read of a glyph: a null is a keyword, any other inlined value one literal. -/
def Glyph.lexemes (vendor : Option Vendor) : Glyph → List Lexeme
  | .char c => [.char c]
  | .value true _ => Marker.text.toList.map .char
  | .value false v =>
    if v = .null then "NULL".toList.map .char
    else [.literal (Lexer.kept vendor v.literalText.toList)]

namespace Draft

def lexemes (vendor : Option Vendor) (draft : Draft) : List Lexeme :=
  draft.flatMap (Glyph.lexemes vendor)

/-- A draft without quotes of its own and without inlined values side by side. -/
structure Apart (draft : Draft) : Prop where
  unquoted : Glyph.char '\'' ∉ draft
  between : ∀ v w, ¬ [Glyph.value false v, .value false w] <:+: draft

namespace Apart

variable {a b : Draft}

theorem part (h : b.Apart) (hab : a <:+: b) : a.Apart where
  unquoted hquote := h.unquoted (hab.subset hquote)
  between v w hadjacent := h.between v w (hadjacent.trans hab)

theorem trim (h : a.Apart) : (Draft.trim a).Apart :=
  h.part (Text.infix_of_dropWhile Glyph.isBlank a)

theorem joined {c : Char} (hc : isSeparator c = true) (ha : a.Apart) (hb : b.Apart) :
    (a ++ .char c :: b).Apart where
  unquoted hquote := by
    have hne : '\'' ≠ c := by
      rintro rfl
      exact absurd hc (by decide)
    rcases List.mem_append.1 hquote with h | h
    · exact ha.unquoted h
    · exact hb.unquoted (by simpa [hne] using h)
  between v w hadjacent := by
    rcases Text.infix_beside (by simp) hadjacent with h | h
    · exact ha.between v w h
    · exact hb.between v w h

theorem value (bound : Bool) (v : Value) : Apart [.value bound v] where
  unquoted := by simp
  between v' w hadjacent := absurd hadjacent.length_le (by simp)

/-- Without inlined values, only quotes matter. -/
theorem of_not_mem (hquote : Glyph.char '\'' ∉ a) (hvalue : ∀ v, Glyph.value false v ∉ a) :
    a.Apart where
  unquoted := hquote
  between v _ hadjacent := hvalue v (hadjacent.subset (by simp))

theorem ofText {s : String} (h : Unquoted s) : Apart (ofText s) :=
  of_not_mem (by simpa [Medium.ofText, Glyph.ofChars] using h.1)
    (by simp [Medium.ofText, Glyph.ofChars])

theorem ofSql {x : Sql} (h : Unquoted x.text) : (Draft.ofSql x).Apart := by
  apply of_not_mem
  · intro hquote
    apply h.1
    rw [← chars_ofSql (.standard none) x]
    exact List.mem_flatMap.2 ⟨_, hquote, List.mem_singleton.2 rfl⟩
  · exact fun v => inlined_not_mem_ofTexts v _ _ _

theorem head_ne {d : Dialect} {v : Value} (h : Apart (.value false v :: a)) :
    (chars d a).head? ≠ some '\'' := by
  cases a with
  | nil => simp [chars]
  | cons g a =>
    cases g with
    | char c =>
      have hc : c ≠ '\'' := by
        rintro rfl
        exact h.unquoted (by simp)
      rw [chars_char]
      simpa using hc
    | value bound w =>
      cases bound with
      | true => simp [Glyph.chars, Marker.text]
      | false => exact absurd (List.prefix_append _ a).isInfix (h.between v w)

theorem lex (vendor : Option Vendor) (h : a.Apart) :
    Lexer.lex vendor .outside (chars (.standard vendor) a) = lexemes vendor a := by
  induction a with
  | nil => rfl
  | cons g a ih =>
    have ih := ih (h.part (List.suffix_cons g a).isInfix)
    have hhead (cs : List Char) (hcs : '\'' ∉ cs) :
        Lexer.lex vendor .outside (cs ++ chars (.standard vendor) a) =
          cs.map .char ++ lexemes vendor a := by
      rw [Lexer.lex_chars vendor hcs, ih]
    rcases g with c | ⟨_ | _, v⟩
    · have hc : '\'' ≠ c := by
        rintro rfl
        exact h.unquoted (by simp)
      exact hhead [c] (by simpa using hc)
    · by_cases hv : v = .null
      · subst hv
        exact hhead "NULL".toList (by decide)
      · have hliteral := Lexer.lex_literal vendor hv (h.head_ne (d := .standard vendor))
        rw [ih] at hliteral
        simpa [lexemes, Glyph.lexemes, Glyph.chars, hv] using hliteral
    · exact hhead Marker.text.toList (by decide)

end Apart

end Draft

/-! ## Programs -/

/-- Two values of which both are null or neither is, and both spell a null or neither does. -/
structure Value.SameNull (v w : Value) : Prop where
  null : v = .null ↔ w = .null
  isNullToken : v.isNullToken = w.isNullToken

/-- Texts without quotes and backslashes, and values of any contents. -/
def Accord.unquoted (mode : Bool → Prop) : Accord where
  text := Unquoted
  definition := Unquoted
  raw x y := x.text = y.text ∧ Unquoted x.text ∧ Forall₂ Value.SameNull x.params y.params
  value := Value.SameNull
  mode := mode

instance (mode : Bool → Prop) (s : String) : Decidable ((Accord.unquoted mode).text s) :=
  inferInstanceAs (Decidable (Unquoted s))

theorem Accord.lawful_unquoted (mode : Bool → Prop) : (Accord.unquoted mode).Lawful where
  text := closed_unquoted
  definition := closed_unquoted
  definition_of_text := id
  raw_of_text h := ⟨rfl, h, .nil⟩
  isNullToken h := h.isNullToken

/-- Glyphs that are the same but for their values. -/
inductive Glyph.Alike : Glyph → Glyph → Prop
  | char (c : Char) : Alike (.char c) (.char c)
  | value (bound : Bool) {v w : Value} (h : v.SameNull w) : Alike (.value bound v) (.value bound w)

namespace Draft

def Alike : Draft → Draft → Prop := Forall₂ Glyph.Alike

namespace Alike

theorem ofChars (cs : List Char) : Alike (Glyph.ofChars cs) (Glyph.ofChars cs) := by
  apply List.forall₂_same.2
  intro g hg
  obtain ⟨c, -, rfl⟩ := List.mem_map.1 hg
  exact .char c

theorem append {a a' b b' : Draft} (h : Alike a b) (h' : Alike a' b') :
    Alike (a ++ a') (b ++ b') := List.rel_append h h'

theorem dropWhile {a b : Draft} (h : Alike a b) :
    Alike (a.dropWhile Glyph.isBlank) (b.dropWhile Glyph.isBlank) := by
  induction h with
  | nil => exact .nil
  | @cons g g' a b hg hrest ih =>
    have hblank : g.isBlank = g'.isBlank := by cases hg <;> rfl
    rw [List.dropWhile_cons, List.dropWhile_cons, hblank]
    split_ifs
    · exact ih
    · exact .cons hg hrest

theorem trim {a b : Draft} (h : Alike a b) : Alike (Draft.trim a) (Draft.trim b) :=
  List.rel_reverse (dropWhile (List.rel_reverse h.dropWhile))

theorem ofTexts (first : List Char) (rest : List (List Char)) {vs ws : List Value}
    (h : Forall₂ Value.SameNull vs ws) :
    Alike (Draft.ofTexts first rest vs) (Draft.ofTexts first rest ws) := by
  induction rest generalizing first vs ws with
  | nil => cases h <;> exact ofChars first
  | cons cs rest ih =>
    cases h with
    | nil => exact (((ofChars first).append (ofChars _)).append (ih cs .nil))
    | cons hv hrest => exact (ofChars first).append (.cons (.value true hv) (ih cs hrest))

theorem blanked {a b : Draft} (h : Alike a b) (vendor : Option Vendor) :
    (lexemes vendor a).map Lexeme.blanked = (lexemes vendor b).map Lexeme.blanked := by
  induction h with
  | nil => rfl
  | @cons g g' a b hg _ ih =>
    have hglyph : (g.lexemes vendor).map Lexeme.blanked =
        (g'.lexemes vendor).map Lexeme.blanked := by
      cases hg with
      | char c => rfl
      | @value bound v w h =>
        cases bound with
        | true => rfl
        | false =>
          simp only [Glyph.lexemes, h.null]
          split_ifs <;> rfl
    simp only [lexemes, List.flatMap_cons, List.map_append, hglyph] at ih ⊢
    rw [ih]

end Alike

end Draft

/-- Drafts of programs that differ in their values only. -/
def Likeness.drafts (mode : Bool → Prop) : Likeness (.unquoted mode) Draft Draft where
  left := Draft.manner
  right := Draft.manner
  modes bound bound' := bound = bound' ∧ mode bound
  script a b := a.Alike b ∧ a.Apart ∧ b.Apart
  whole a b := a.Alike b ∧ a.Apart ∧ b.Apart
  quotes _ _ := True
  patterns _ _ := True
  text h := ⟨.ofChars _, .ofText h, .ofText h⟩
  joined {a a' b b' c} hc h h' := by
    rw [Draft.append_singleton, Draft.append_singleton]
    exact ⟨h.1.append (.cons (.char c) h'.1), h.2.1.joined hc h'.2.1, h.2.2.joined hc h'.2.2⟩
  trim h := ⟨h.1.trim, h.2.1.trim, h.2.2.trim⟩
  value {bound bound' v w} hmodes hvw := by
    obtain ⟨rfl, -⟩ := hmodes
    exact ⟨.cons (.value bound hvw) .nil, .value bound v, .value bound w⟩
  raw {x y} h := by
    obtain ⟨htext, hunquoted, hparams⟩ := h
    refine ⟨?_, .ofSql hunquoted, .ofSql (htext ▸ hunquoted)⟩
    change Draft.Alike (Draft.ofSql x) (Draft.ofSql y)
    rw [Draft.ofSql, Draft.ofSql, htext]
    exact .ofTexts _ _ hparams
  whole_of_script h := h
  whole_text h := ⟨.ofChars _, .ofText h, .ofText h⟩
  quote _ := trivial
  pattern _ := trivial
  switch h := ⟨rfl, h⟩

/-- Drafts and the texts that they are written out as, in any mode. -/
def Likeness.texts (d : Dialect) : Likeness .any Draft Sql where
  left := Draft.manner
  right := d.manner
  modes := Eq
  script draft x := x.text = (draft.sql d).text
  whole draft x := x.text = (draft.sql d).text
  quotes _ _ := True
  patterns _ _ := True
  text {s} _ := (congrArg Sql.text (Draft.sql_ofText d s)).symm
  joined {a a' b b' c} _ h h' := by
    rw [Draft.append_singleton, Draft.sql_joined]
    simp only [Sql.text_append, h, h']
  trim {a b} h := by
    change Text.trim b.text = ((Draft.trim a).sql d).text
    rw [Draft.sql_trim, h]
    rfl
  value {bound bound' v w} hmodes hvw := by
    obtain rfl : bound = bound' := hmodes
    obtain rfl : v = w := hvw
    exact (congrArg Sql.text (Draft.sql_value d bound v)).symm
  raw {x y} h := by
    obtain rfl : x = y := h
    change x.text = String.ofList ((Draft.ofSql x).chars d)
    rw [Draft.chars_ofSql, String.ofList_toList]
  whole_of_script h := h
  whole_text {s} _ := (congrArg Sql.text (Draft.sql_ofText d s)).symm
  quote _ := trivial
  pattern _ := trivial
  switch _ := rfl

/-- Texts of programs that differ in their values only, while values are bound. -/
def Likeness.bound (d : Dialect) (mode : Bool → Prop) (hmode : ∀ bound, mode bound → bound = true) :
    Likeness (.unquoted mode) Sql Sql where
  left := d.manner
  right := d.manner
  modes bound bound' := bound = true ∧ bound' = true
  script x y := x.text = y.text
  whole x y := x.text = y.text
  quotes _ _ := True
  patterns _ _ := True
  text _ := rfl
  joined {a a' b b' c} _ h h' := by simp [h, h']
  trim h := congrArg Text.trim h
  value {bound bound' v w} hmodes _ := by
    obtain ⟨rfl, rfl⟩ := hmodes
    rfl
  raw h := h.1
  whole_of_script h := h
  whole_text _ := rfl
  quote _ := trivial
  pattern _ := trivial
  switch h := ⟨hmode _ h, hmode _ h⟩

/-- An answer whose text is a draft written out. -/
inductive Reply.Drafted (d : Dialect) (s : Settings) : Written Draft → Reply → Prop
  | fragment (kind : ClauseKind) {a : Draft} {x : Sql} (h : x.text = (a.sql d).text) :
    Drafted d s (.fragment ⟨kind, a⟩) (.fragment ⟨kind, x⟩)
  | statement (kind : StatementKind) (bound : Bool) {a : Draft} {x : Sql}
      (h : x.text = (a.sql d).text) :
    Drafted d s (.statement kind bound a) (.statement (.ofSql kind bound x))
  | settings (bound : Bool) : Drafted d s (.switched bound) (.settings { s with prepare := bound })

/-- Whatever the program and the modes that it switches to, a session writes out its drafts. -/
theorem Session.run_drafted (c : Composer) (steps : List Step) :
    Forall₂ (SameFate (Likeness.texts c.dialect).SameError (Reply.Drafted c.dialect c.settings))
      (Draft.manner.run ⟨c.settings.prepare, []⟩ steps)
      (((Session.resting c []).run steps).map (·.result)) := by
  have hdesks : (Likeness.texts c.dialect).Desks ⟨c.settings.prepare, []⟩
    ⟨c.settings.prepare, []⟩ := ⟨rfl, .nil⟩
  have hany : Forall₂ (Step.Alike .any) steps steps :=
    List.forall₂_same.2 fun step _ => step.alike_any
  rw [Session.results_run, List.forall₂_map_right_iff]
  apply (hdesks.run Accord.lawful_any hany).imp
  intro x y hxy
  cases hxy with
  | error he => exact .error he
  | ok hanswer =>
    cases hanswer with
    | @fragment f g h =>
      rcases f with ⟨kind, a⟩
      obtain rfl : kind = g.kind := h.kind
      exact .ok (.fragment g.kind h.sql)
    | @statement kind bound bound' hmodes a x h =>
      obtain rfl : bound = bound' := hmodes
      exact .ok (.statement kind bound h)
    | @switched bound hmodes => exact .ok (.settings bound)

/-- Two texts that a database reads alike, each as it was meant: the same characters outside of
literals, and literals in the same places. -/
structure Draft.SameStructure (vendor : Option Vendor) (a b : Draft) (x y : String) : Prop where
  left : Lexer.lex vendor .outside x.toList = a.lexemes vendor
  right : Lexer.lex vendor .outside y.toList = b.lexemes vendor
  blanked : (a.lexemes vendor).map Lexeme.blanked = (b.lexemes vendor).map Lexeme.blanked

abbrev Traced := Except Error (Written Draft) × Except Error Reply

/-- What a session drafts and what it answers, step by step. -/
def Session.traced (c : Composer) (steps : List Step) : List Traced :=
  (Draft.manner.run ⟨c.settings.prepare, []⟩ steps).zip
    (((Session.resting c []).run steps).map (·.result))

/-- Two answers of one form whose texts have the same structure, or two failures. -/
inductive Traced.SameStructure (vendor : Option Vendor) : Traced → Traced → Prop
  | fragment (kind : ClauseKind) {a b : Draft} {x y : Sql}
      (h : Draft.SameStructure vendor a b x.text y.text) :
    SameStructure vendor (.ok (.fragment ⟨kind, a⟩), .ok (.fragment ⟨kind, x⟩))
      (.ok (.fragment ⟨kind, b⟩), .ok (.fragment ⟨kind, y⟩))
  | statement (kind : StatementKind) (bound : Bool) {a b : Draft} {x y : Sql}
      (h : Draft.SameStructure vendor a b x.text y.text) :
    SameStructure vendor
      (.ok (.statement kind bound a), .ok (.statement (.ofSql kind bound x)))
      (.ok (.statement kind bound b), .ok (.statement (.ofSql kind bound y)))
  | settings (bound : Bool) (s : Settings) :
    SameStructure vendor (.ok (.switched bound), .ok (.settings s))
      (.ok (.switched bound), .ok (.settings s))
  | error (e e' f f' : Error) : SameStructure vendor (.error e, .error e') (.error f, .error f')

/-- Two answers of one form with the same text. -/
inductive Reply.SameText : Reply → Reply → Prop
  | fragment (kind : ClauseKind) {x y : Sql} (h : x.text = y.text) :
    SameText (.fragment ⟨kind, x⟩) (.fragment ⟨kind, y⟩)
  | statement (kind : StatementKind) {x y : Sql} (h : x.text = y.text) :
    SameText (.statement ⟨kind, x, true⟩) (.statement ⟨kind, y, true⟩)
  | settings (s : Settings) : SameText (.settings s) (.settings s)

theorem Draft.sameStructure {vendor : Option Vendor} {a b : Draft} {x y : Sql}
    (h : a.Alike b ∧ a.Apart ∧ b.Apart) (hx : x.text = (a.sql (.standard vendor)).text)
    (hy : y.text = (b.sql (.standard vendor)).text) :
    Draft.SameStructure vendor a b x.text y.text where
  left := by rw [hx, text_sql, String.toList_ofList, h.2.1.lex]
  right := by rw [hy, text_sql, String.toList_ofList, h.2.2.lex]
  blanked := h.1.blanked vendor

theorem forall₂_zip_zip {α β α' β' : Type} {R : α → β → Prop} {R' : α' → β' → Prop}
    {S : α → α' → Prop} {T : α × β → α' × β' → Prop}
    (h : ∀ a b a' b', S a a' → R a b → R' a' b' → T (a, b) (a', b')) {as : List α} {bs : List β}
    {as' : List α'} {bs' : List β'} (hs : Forall₂ S as as') (hr : Forall₂ R as bs)
    (hr' : Forall₂ R' as' bs') : Forall₂ T (as.zip bs) (as'.zip bs') := by
  induction hs generalizing bs bs' with
  | nil =>
    cases hr
    exact .nil
  | cons hab _ ih =>
    rcases hr with _ | ⟨hb, hrest⟩
    rcases hr' with _ | ⟨hb', hrest'⟩
    exact .cons (h _ _ _ _ hab hb hb') (ih hrest hrest')

theorem Traced.sameStructure {vendor : Option Vendor} {s : Settings} {mode : Bool → Prop}
    {x y : Except Error (Written Draft)} {x' y' : Except Error Reply}
    (h : SameFate (Likeness.drafts mode).SameError (Likeness.drafts mode).Answers x y)
    (hx : SameFate (Likeness.texts (.standard vendor)).SameError
      (Reply.Drafted (.standard vendor) s) x x')
    (hy : SameFate (Likeness.texts (.standard vendor)).SameError
      (Reply.Drafted (.standard vendor) s) y y') :
    Traced.SameStructure vendor (x, x') (y, y') := by
  cases h with
  | error he =>
    cases hx
    cases hy
    exact .error _ _ _ _
  | ok hanswer =>
    cases hx with | ok hx => ?_
    cases hy with | ok hy => ?_
    cases hanswer with
    | fragment hfg =>
      cases hx with | fragment kind hx => ?_
      cases hy with | fragment kind' hy => ?_
      obtain rfl : kind = kind' := hfg.kind
      exact .fragment kind (Draft.sameStructure hfg.sql hx hy)
    | statement kind hmodes hab =>
      obtain ⟨rfl, -⟩ := hmodes
      cases hx with | statement _ bound hx => ?_
      cases hy with | statement _ _ hy => ?_
      exact .statement kind _ (Draft.sameStructure hab hx hy)
    | switched hmodes =>
      cases hx
      cases hy
      exact .settings _ _

/-- Programs that differ in their values only answer alike: while values are bound their texts are
the same, and in any mode a database reads them alike, each value as one literal that is its
text. -/
theorem Session.run_same_structure (vendor : Option Vendor) (settings : Settings)
    (mode : Bool → Prop) (hmode : mode settings.prepare) {steps steps' : List Step}
    (hsteps : Forall₂ (Step.Alike (.unquoted mode)) steps steps') :
    let c : Composer := ⟨.standard vendor, settings⟩
    Forall₂ (Traced.SameStructure vendor) (Session.traced c steps) (Session.traced c steps') ∧
      ((∀ bound, mode bound → bound = true) →
        Forall₂ (SameFate (fun _ _ => True) Reply.SameText)
          (((Session.resting c []).run steps).map (·.result))
          (((Session.resting c []).run steps').map (·.result))) := by
  intro c
  constructor
  · have hdesks : (Likeness.drafts mode).Desks ⟨settings.prepare, []⟩ ⟨settings.prepare, []⟩ :=
      ⟨⟨rfl, hmode⟩, .nil⟩
    exact forall₂_zip_zip (fun _ _ _ _ h hx hy => Traced.sameStructure h hx hy)
      (hdesks.run (Accord.lawful_unquoted mode) hsteps) (run_drafted c steps)
      (run_drafted c steps')
  · intro hbound
    have hdesks : (Likeness.bound c.dialect mode hbound).Desks ⟨settings.prepare, []⟩
      ⟨settings.prepare, []⟩ := ⟨⟨hbound _ hmode, hbound _ hmode⟩, .nil⟩
    rw [results_run, results_run, List.forall₂_map_left_iff, List.forall₂_map_right_iff]
    apply (hdesks.run (Accord.lawful_unquoted mode) hsteps).imp
    intro x y hxy
    cases hxy with
    | error he => exact .error trivial
    | ok hanswer =>
      cases hanswer with
      | @fragment f g h =>
        rcases f with ⟨kind, x⟩
        obtain rfl : kind = g.kind := h.kind
        exact .ok (.fragment g.kind h.sql)
      | @statement kind bound bound' hmodes x y h =>
        obtain ⟨rfl, rfl⟩ := hmodes
        exact .ok (.statement kind h)
      | switched hmodes => exact .ok (.settings _)

/-- A value that would end its literal, and one that would not, in a filter and in a row. -/
theorem Session.run_same_structure_quote :
    let steps (v : Value) : List Step :=
      [.fragment (.filter .whereRows [.condition (.leaf ⟨"name", .typed (.compare .eq v), .and,
          none⟩)]) (some "w"),
        .statement (.update "t" [("a", v), ("b", .null)] [.stored "w"])]
    let c : Composer := ⟨.standard (some .mySql), { prepare := false }⟩
    let attack : Value := .text "\\' OR 1=1 -- "
    Forall₂ (Traced.SameStructure (some .mySql)) (Session.traced c (steps attack))
        (Session.traced c (steps (.int 1))) ∧
      (((Session.resting c []).run (steps attack)).map (·.result))[1]? =
        some (.ok (.statement ⟨.update, ⟨"UPDATE t SET a = '\\\\'' OR 1=1 -- ', b = NULL " ++
          "WHERE name = '\\\\'' OR 1=1 -- ' ", []⟩, false⟩)) := by
  intro steps c attack
  have hvalue : attack.SameNull (.int 1) := ⟨by decide, by decide⟩
  have hnull : Value.null.SameNull .null := ⟨Iff.rfl, rfl⟩
  have hleaf : (Tree.leaf ⟨"name", .typed (.compare .eq attack), .and, none⟩).Alike
      (.unquoted fun _ => True) (.leaf ⟨"name", .typed (.compare .eq (.int 1)), .and, none⟩) := by
    simpa only [Tree.Alike] using ⟨rfl, by decide, .typed (.compare .eq hvalue), rfl, rfl⟩
  have hsteps : Forall₂ (Step.Alike (.unquoted fun _ => True)) (steps attack) (steps (.int 1)) := by
    refine .cons (.fragment _ (.filter _ (.cons (.condition hleaf) .nil))) (.cons ?_ .nil)
    exact .statement (.update (by decide) (.cons ⟨rfl, by decide, hvalue, by decide⟩
      (.cons ⟨rfl, by decide, hnull, rfl⟩ .nil)) (.cons (.stored _) .nil))
  exact ⟨(Session.run_same_structure (some .mySql) { prepare := false } _ trivial hsteps).1,
    by decide +kernel⟩

end SqlAssembly
