import SqlAssembly.Proofs.Alike.Conditions

/-! # Likenesses of media

A likeness relates what two alike programs write, each in its own medium.  It has to relate equal
texts and the values and the SQL of the accord, and to survive trimming and being put together at a
separator; then it relates everything that the programs write, because a composer puts separators
around every value.
-/
namespace SqlAssembly
open Medium (ofText)
open List (Forall₂)
open Text (isSeparator isSpacer)

/-- A relation between what is written in two media. -/
structure Likeness (W : Accord) (σ τ : Type) [Medium σ] [Medium τ] where
  left : Manner σ
  right : Manner τ
  /-- The modes of writing values on either side. -/
  modes : Bool → Bool → Prop
  script : σ → τ → Prop
  /-- The relation between whole statements, which need not be put together with anything. -/
  whole : σ → τ → Prop
  quotes : String → String → Prop
  patterns : String → String → Prop
  text {s : String} : W.text s → script (ofText s) (ofText s)
  joined {a a' : σ} {b b' : τ} {c : Char} : isSeparator c = true → script a b → script a' b' →
    script (a ++ (ofText (String.singleton c) ++ a')) (b ++ (ofText (String.singleton c) ++ b'))
  trim {a : σ} {b : τ} : script a b → script (Medium.trim a) (Medium.trim b)
  value {bound bound' : Bool} {v w : Value} : modes bound bound' → W.value v w →
    script (left.value bound v) (right.value bound' w)
  raw {x y : Sql} : W.raw x y → script (left.raw x) (right.raw y)
  whole_of_script {a : σ} {b : τ} : script a b → whole a b
  whole_text {s : String} : W.definition s → whole (ofText s) (ofText s)
  quote {a : σ} {b : τ} : script a b → quotes (Medium.quote a) (Medium.quote b)
  pattern {v w : Value} : W.value v w → patterns v.literalText w.literalText
  switch {bound : Bool} : W.mode bound → modes bound bound

namespace Likeness

variable {W : Accord} (hW : W.Lawful) {σ τ : Type} [Medium σ] [Medium τ] [LawfulMedium σ]
  [LawfulMedium τ] (L : Likeness W σ τ) {a a' : σ} {b b' : τ} {spacer s : String}

abbrev SameError : Error → Error → Prop := Error.Alike L.quotes L.patterns

/-! ## Separators -/

include hW in
theorem spaced (hspacer : isSpacer spacer = true) (h : L.script a b) (h' : L.script a' b') :
    L.script (a ++ (ofText spacer ++ a')) (b ++ (ofText spacer ++ b')) := by
  have hany : ∀ a b, L.script a b →
      L.script (a ++ (ofText spacer ++ a')) (b ++ (ofText spacer ++ b')) := by
    apply Text.spacer_induction (Q := fun spacer => ∀ a b, L.script a b →
      L.script (a ++ (ofText spacer ++ a')) (b ++ (ofText spacer ++ b'))) _ _ hspacer
    · intro c hc a b h
      exact L.joined hc h h'
    · intro c spacer hc ih a b h
      have hfirst := ih _ _ (L.joined hc h (L.text hW.text.empty))
      simpa only [LawfulMedium.ofText_append, LawfulMedium.append_assoc,
        LawfulMedium.append_empty] using hfirst
  exact hany a b h

include hW in
theorem leading (hspacer : isSpacer spacer = true) (h : L.script a b) :
    L.script (ofText spacer ++ a) (ofText spacer ++ b) := by
  simpa only [LawfulMedium.empty_append] using L.spaced hW hspacer (L.text hW.text.empty) h

include hW in
theorem trailing (hspacer : isSpacer spacer = true) (h : L.script a b) :
    L.script (a ++ ofText spacer) (b ++ ofText spacer) := by
  simpa only [LawfulMedium.append_empty] using L.spaced hW hspacer h (L.text hW.text.empty)

include hW in
/-- A text that ends in a spacer goes in front of anything. -/
theorem headed (hspacer : isSpacer spacer = true) (hs : W.text s) (h : L.script a b) :
    L.script (ofText (s ++ spacer) ++ a) (ofText (s ++ spacer) ++ b) := by
  simpa only [LawfulMedium.ofText_append, LawfulMedium.append_assoc] using
    L.spaced hW hspacer (L.text hs) h

include hW in
theorem join (hspacer : isSpacer spacer = true) {as : List σ} {bs : List τ}
    (h : Forall₂ L.script as bs) :
    L.script (Medium.join spacer as) (Medium.join spacer bs) := by
  induction h with
  | nil => exact L.text hW.text.empty
  | cons hab hrest ih =>
    cases hrest with
    | nil => exact hab
    | cons _ _ => exact L.spaced hW hspacer hab ih

/-! ## Templates -/

/-- Two templates that are related when they are written in two modes. -/
def Matches (bound bound' : Bool) (t u : Template) : Prop :=
  L.script (t.write (L.left.value bound)) (u.write (L.right.value bound'))

section
variable {bound bound' : Bool} (hmodes : L.modes bound bound')
include hW

omit hW in
theorem matches_word (hs : W.text s) : L.Matches bound bound' [.word s] [.word s] := by
  simpa only [Matches, Template.write_singleton, Template.writePiece] using L.text hs

omit hW in
include hmodes in
theorem matches_value {v w : Value} (h : W.value v w) :
    L.Matches bound bound' [.value v] [.value w] := by
  simpa only [Matches, Template.write_singleton, Template.writePiece] using L.value hmodes h

theorem matches_headed {t u : Template} (hspacer : isSpacer spacer = true) (hs : W.text s)
    (h : L.Matches bound bound' t u) :
    L.Matches bound bound' (.word (s ++ spacer) :: t) (.word (s ++ spacer) :: u) :=
  L.headed hW hspacer hs h

theorem matches_leading {t u : Template} (hspacer : isSpacer spacer = true)
    (h : L.Matches bound bound' t u) :
    L.Matches bound bound' (.word spacer :: t) (.word spacer :: u) :=
  L.leading hW hspacer h

theorem matches_trailing {t u : Template} (hspacer : isSpacer spacer = true)
    (h : L.Matches bound bound' t u) :
    L.Matches bound bound' (t ++ [.word spacer]) (u ++ [.word spacer]) := by
  simpa only [Matches, Template.write_append, Template.write_singleton, Template.writePiece] using
    L.trailing hW hspacer h

theorem matches_spaced {t t' u u' : Template} (hspacer : isSpacer spacer = true)
    (h : L.Matches bound bound' t u) (h' : L.Matches bound bound' t' u') :
    L.Matches bound bound' (t ++ .word spacer :: t') (u ++ .word spacer :: u') := by
  simpa only [Matches, Template.write_append, Template.write, Template.writePiece] using
    L.spaced hW hspacer h h'

theorem matches_join {ts us : List Template} (hspacer : isSpacer spacer = true)
    (h : Forall₂ (L.Matches bound bound') ts us) :
    L.Matches bound bound' (Template.join spacer ts) (Template.join spacer us) := by
  rw [Matches, Template.write_join, Template.write_join]
  apply L.join hW hspacer
  rw [List.forall₂_map_left_iff, List.forall₂_map_right_iff]
  exact h

include hmodes

theorem matches_values {vs ws : List Value} (h : Forall₂ W.value vs ws) :
    L.Matches bound bound' (Template.join ", " (vs.map fun v => [.value v]))
      (Template.join ", " (ws.map fun v => [.value v])) := by
  apply L.matches_join hW (by decide)
  rw [List.forall₂_map_left_iff, List.forall₂_map_right_iff]
  exact h.imp fun v w => L.matches_value hmodes

theorem matches_test {t u : Test} (h : t.Alike W u) :
    L.Matches bound bound' t.template u.template := by
  cases h with
  | compare hcolumn op h =>
    have hop : isSpacer (" " ++ op.token ++ " ") = true := by cases op <;> decide
    have hhead := L.matches_headed hW hop hcolumn (L.matches_value hmodes h)
    simpa only [Test.template, String.append_assoc] using hhead
  | like hcolumn negated h =>
    cases negated <;> exact L.matches_headed hW (by decide) hcolumn (L.matches_value hmodes h)
  | oneOf hcolumn negated h =>
    have hvalues := L.matches_values hW hmodes h
    cases negated <;>
      exact L.matches_headed hW (by decide) hcolumn (L.matches_trailing hW (by decide) hvalues)
  | between hcolumn negated hlow hhigh =>
    have hbounds : L.Matches bound bound' [.value _, .word " AND ", .value _]
        [.value _, .word " AND ", .value _] :=
      L.matches_spaced hW (by decide) (L.matches_value hmodes hlow) (L.matches_value hmodes hhigh)
    cases negated <;> exact L.matches_headed hW (by decide) hcolumn hbounds
  | isNull hcolumn negated =>
    cases negated <;> exact L.matches_word (hW.text.trailing (by decide) hcolumn)
  | constant holds => cases holds <;> exact L.matches_word (hW.text.ofSpacer (by decide))

omit hmodes in
theorem matches_opened (n : Nat) {t u : Template} (h : L.Matches bound bound' t u) :
    L.Matches bound bound'
      ((List.replicate n ClauseToken.opening).flatMap ClauseToken.template ++ t)
      ((List.replicate n ClauseToken.opening).flatMap ClauseToken.template ++ u) := by
  induction n with
  | zero => exact h
  | succ n ih => exact L.matches_leading hW (by decide) ih

omit hmodes in
theorem matches_closed (n : Nat) {t u : Template} (h : L.Matches bound bound' t u) :
    L.Matches bound bound'
      (t ++ (List.replicate n ClauseToken.closing).flatMap ClauseToken.template)
      (u ++ (List.replicate n ClauseToken.closing).flatMap ClauseToken.template) := by
  induction n with
  | zero => simpa using h
  | succ n ih =>
    rw [List.replicate_succ', List.flatMap_append, ← List.append_assoc, ← List.append_assoc]
    exact L.matches_trailing hW (by decide) ih

theorem matches_leaf (l : Leaf) {t u : Test} (h : t.Alike W u) :
    L.Matches bound bound' ((l.tokens t).flatMap ClauseToken.template)
      ((l.tokens u).flatMap ClauseToken.template) := by
  rw [Leaf.tokens, Leaf.tokens, List.flatMap_append, List.flatMap_append]
  exact L.matches_opened hW l.opens (L.matches_closed hW l.closes (L.matches_test hW hmodes h))

theorem matches_body {ts us : List ClauseToken} (h : BodyAlike W ts us) :
    L.Matches bound bound' (ts.flatMap ClauseToken.template)
      (us.flatMap ClauseToken.template) := by
  induction h with
  | none => simpa [Matches, Template.write] using L.text hW.text.empty
  | last l h => exact L.matches_leaf hW hmodes l h
  | more l combinator h hrest ih =>
    have hjoiner : isSpacer (" " ++ combinator.token ++ " ") = true := by
      cases combinator <;> decide
    rw [List.flatMap_append, List.flatMap_append]
    exact L.matches_spaced hW hjoiner (L.matches_leaf hW hmodes l h) ih

theorem matches_filter (filter : FilterKind) {ts us : List ClauseToken} (h : BodyAlike W ts us) :
    L.Matches bound bound' (filter.template ts) (filter.template us) := by
  have hkeyword : isSpacer (" " ++ filter.keyword ++ " ") = true := by cases filter <;> decide
  have hbody := L.matches_body hW hmodes h
  exact L.matches_leading hW hkeyword (L.matches_trailing hW (by decide) hbody)

theorem ofForest_alike (filter : FilterKind) {ts us : List Tree} (h : forestAlike W ts us) :
    SameFate L.SameError (L.Matches bound bound') (filter.ofForest ts) (filter.ofForest us) :=
  (forestTokens_alike hW (fun _ _ hvw => L.pattern hvw) h).bind fun _ _ hbody =>
    .ok (L.matches_filter hW hmodes filter hbody)

end

end Likeness

end SqlAssembly
