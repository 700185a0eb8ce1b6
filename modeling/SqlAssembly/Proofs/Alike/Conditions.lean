import SqlAssembly.Proofs.Shapes

/-! # Conditions that are alike

Alike conditions are accepted or refused together, and come down to tests of the same form: whether
a value is null decides the form of a comparison, and nothing else about a value does.
-/
namespace SqlAssembly

open List (Forall₂)

inductive Test.Alike (W : Accord) : Test → Test → Prop
  | compare {column : String} (hcolumn : W.text column) (op : CompareOp) {v w : Value}
      (h : W.value v w) : Alike W (.compare column op v) (.compare column op w)
  | like {column : String} (hcolumn : W.text column) (negated : Bool) {v w : Value}
      (h : W.value v w) : Alike W (.like column negated v) (.like column negated w)
  | oneOf {column : String} (hcolumn : W.text column) (negated : Bool) {v w : Value}
      {vs ws : List Value} (h : Forall₂ W.value (v :: vs) (w :: ws)) :
    Alike W (.oneOf column negated v vs) (.oneOf column negated w ws)
  | between {column : String} (hcolumn : W.text column) (negated : Bool)
      {low low' high high' : Value} (hlow : W.value low low') (hhigh : W.value high high') :
    Alike W (.between column negated low high) (.between column negated low' high')
  | isNull {column : String} (hcolumn : W.text column) (negated : Bool) :
    Alike W (.isNull column negated) (.isNull column negated)
  | constant (holds : Bool) : Alike W (.constant holds) (.constant holds)

structure Leaf.Alike (W : Accord) (l m : Leaf) : Prop where
  condition : l.condition.Alike W m.condition
  opens : l.opens = m.opens
  closes : l.closes = m.closes

/-- The tokens of two bodies with alike tests in the same places. -/
inductive BodyAlike (W : Accord) : List ClauseToken → List ClauseToken → Prop
  | none : BodyAlike W [] []
  | last (l : Leaf) {t u : Test} (h : t.Alike W u) : BodyAlike W (l.tokens t) (l.tokens u)
  | more (l : Leaf) (combinator : Combinator) {t u : Test} {ts us : List ClauseToken}
      (h : t.Alike W u) (hrest : BodyAlike W ts us) :
    BodyAlike W (l.tokens t ++ .joiner combinator :: ts) (l.tokens u ++ .joiner combinator :: us)

section
variable {W : Accord} (hW : W.Lawful) {quotes patterns : String → String → Prop}
  (hpatterns : ∀ v w, W.value v w → patterns v.literalText w.literalText)

/-! ## Operators given as text -/

theorem oneValue_alike {R : Value → Value → Prop} (column operator : String) {vs ws : List Value}
    (h : Forall₂ R vs ws) :
    SameFate (Error.Alike quotes patterns) R (oneValue column operator vs)
      (oneValue column operator ws) := by
  rcases h with _ | ⟨hv, _ | ⟨-, hrest⟩⟩
  · exact .error (.same _)
  · exact .ok hv
  · simp only [oneValue, List.length_cons, hrest.length_eq]
    exact .error (.same _)

theorem twoBounds_alike {R : Value → Value → Prop} (column operator : String)
    {vs ws : List Value} (h : Forall₂ R vs ws) :
    SameFate (Error.Alike quotes patterns) (fun p q => R p.1 q.1 ∧ R p.2 q.2)
      (twoBounds column operator vs) (twoBounds column operator ws) := by
  rcases h with _ | ⟨hv, _ | ⟨hw, _ | ⟨-, hrest⟩⟩⟩
  · exact .error (.same _)
  · exact .error (.same _)
  · exact .ok ⟨hv, hw⟩
  · simp only [twoBounds, List.length_cons, hrest.length_eq]
    exact .error (.same _)

include hW in
theorem onlyNull_alike (column operator : String) {vs ws : List Value}
    (h : Forall₂ W.value vs ws) : onlyNull column operator vs = onlyNull column operator ws := by
  rcases h with _ | ⟨hv, _ | ⟨-, -⟩⟩
  · rfl
  · simp only [onlyNull, hW.isNullToken hv]
  · rfl

include hW in
theorem ofSpelling_alike (column operator : String) {vs ws : List Value}
    (h : Forall₂ W.value vs ws) (hpattern : AsksForPattern operator → Forall₂ W.Pattern vs ws) :
    SameFate (Error.Alike quotes patterns) (Predicate.Alike W)
      (Predicate.ofSpelling column operator vs) (Predicate.ofSpelling column operator ws) := by
  unfold Predicate.ofSpelling
  rw [AsksForPattern] at hpattern
  dsimp only
  generalize canonicalOperator operator = op at hpattern ⊢
  cases CompareOp.ofToken? op with
  | some comparison =>
    exact (oneValue_alike _ _ h).bind fun v w hvw => .ok (.compare comparison hvw)
  | none =>
    dsimp only
    rw [onlyNull_alike hW column op h]
    split_ifs with hlike hnotLike
    · exact (oneValue_alike _ _ (hpattern (.inl hlike))).bind fun v w hvw => .ok (.like false hvw)
    · exact (oneValue_alike _ _ (hpattern (.inr hnotLike))).bind fun v w hvw =>
        .ok (.like true hvw)
    · exact .ok (.oneOf false h)
    · exact .ok (.oneOf true h)
    · exact (twoBounds_alike _ _ h).bind fun p q hpq => .ok (.between false hpq.1 hpq.2)
    · exact (twoBounds_alike _ _ h).bind fun p q hpq => .ok (.between true hpq.1 hpq.2)
    · exact (SameFate.same (onlyNull column op ws)).bind fun _ _ _ => .ok (.isNull false)
    · exact (SameFate.same (onlyNull column op ws)).bind fun _ _ _ => .ok (.isNull true)
    · exact .error (.same _)

/-! ## Tests -/

include hW hpatterns in
theorem Predicate.Alike.test {column : String} (hcolumn : W.text column) {p q : Predicate}
    (h : p.Alike W q) :
    SameFate (Error.Alike quotes patterns) (Test.Alike W) (p.test column) (q.test column) := by
  cases h with
  | compare op h =>
    simp only [Predicate.test, ← hW.isNullToken h]
    split_ifs
    · exact .ok (.isNull hcolumn false)
    · exact .ok (.isNull hcolumn true)
    · exact .error (.same _)
    · exact .ok (.compare hcolumn op h)
  | like negated h =>
    simp only [Predicate.test, ← hW.isNullToken h.value, ← h.wildcard]
    split_ifs
    · exact .error (.same _)
    · exact .ok (.like hcolumn negated h.value)
    · exact .error (.missingWildcard (hpatterns _ _ h.value))
  | oneOf negated h =>
    cases h with
    | nil => exact .ok (.constant negated)
    | cons hv hvs => exact .ok (.oneOf hcolumn negated (.cons hv hvs))
  | between negated hlow hhigh => exact .ok (.between hcolumn negated hlow hhigh)
  | isNull negated => exact .ok (.isNull hcolumn negated)

include hW in
theorem Criterion.Alike.predicate (column : String) {c d : Criterion} (h : c.Alike W d) :
    SameFate (Error.Alike quotes patterns) (Predicate.Alike W) (c.predicate column)
      (d.predicate column) := by
  cases h with
  | typed h => exact .ok h
  | spelled operator h hpattern =>
    rw [Criterion.predicate, Criterion.predicate]
    exact ofSpelling_alike hW column operator h hpattern

include hW hpatterns in
theorem Condition.Alike.test {a b : Condition} (h : a.Alike W b) :
    SameFate (Error.Alike quotes patterns) (Test.Alike W) a.test b.test := by
  rw [Condition.test, Condition.test, ← h.column]
  have hpredicate : SameFate (Error.Alike quotes patterns) (Predicate.Alike W)
    (a.criterion.predicate a.column) (b.criterion.predicate a.column) :=
      h.criterion.predicate hW a.column
  apply hpredicate.bind
  intro p q hpq
  exact hpq.test hW hpatterns (hW.text.trim h.text)

/-! ## Leaves -/

theorem Condition.Alike.check {a b : Condition} (h : a.Alike W b) : a.check = b.check := by
  have hcriterion := h.criterion
  rw [Condition.check, Condition.check, h.column]
  generalize a.criterion = c at hcriterion ⊢
  generalize b.criterion = d at hcriterion ⊢
  cases hcriterion <;> rfl

mutual

theorem Tree.Alike.shaped {t u : Tree} (h : t.Alike W u) : t.Shaped (Condition.Alike W) u := by
  match t, u with
  | .leaf a, .leaf b => simpa only [Tree.Alike, Tree.Shaped] using h
  | .group ts, .group us =>
    rw [Tree.Shaped]
    exact forestShaped_of_alike (by simpa only [Tree.Alike] using h)
  | .leaf _, .group _ => simp [Tree.Alike] at h
  | .group _, .leaf _ => simp [Tree.Alike] at h

theorem forestShaped_of_alike {ts us : List Tree} (h : forestAlike W ts us) :
    forestShaped (Condition.Alike W) ts us := by
  match ts, us with
  | [], [] => trivial
  | t :: ts, u :: us =>
    obtain ⟨htu, hrest⟩ : t.Alike W u ∧ forestAlike W ts us := by
      simpa only [forestAlike] using h
    exact ⟨htu.shaped, forestShaped_of_alike hrest⟩
  | [], _ :: _ => simp [forestAlike] at h
  | _ :: _, [] => simp [forestAlike] at h

end

theorem forestLeaves_alike {ts us : List Tree} (h : forestAlike W ts us) :
    SameFate (Error.Alike quotes patterns) (Forall₂ (Leaf.Alike W)) (forestLeaves ts)
      (forestLeaves us) := by
  have hleaves : SameFate (Error.Alike quotes patterns) (Forall₂ (Leaf.Shaped (Condition.Alike W)))
      (forestLeaves ts) (forestLeaves us) :=
    forestLeaves_shaped .same (fun a b hab => ⟨hab.check, hab.marker⟩) (forestShaped_of_alike h)
  exact hleaves.imp fun ls ms hlm => hlm.imp fun l m hl => ⟨hl.condition, hl.opens, hl.closes⟩

/-! ## Bodies -/

theorem Leaf.Alike.tokens {l m : Leaf} (h : l.Alike W m) (t : Test) : l.tokens t = m.tokens t := by
  rw [Leaf.tokens, Leaf.tokens, h.opens, h.closes]

include hW hpatterns in
theorem bodyTokens_alike {ls ms : List Leaf} (h : Forall₂ (Leaf.Alike W) ls ms) :
    SameFate (Error.Alike quotes patterns) (BodyAlike W) (bodyTokens ls) (bodyTokens ms) := by
  induction h with
  | nil => exact .ok .none
  | @cons l m ls ms hl hls ih =>
    have htest : SameFate (Error.Alike quotes patterns) (Test.Alike W) l.condition.test
      m.condition.test := hl.condition.test hW hpatterns
    cases hls with
    | nil =>
      apply htest.bind
      intro t u htu
      rw [hl.tokens]
      exact .ok (.last m htu)
    | cons hl' hls' =>
      apply htest.bind
      intro t u htu
      apply ih.bind
      intro ts us hts
      rw [hl.tokens, hl.condition.combinator]
      exact .ok (.more m _ htu hts)

include hW hpatterns in
theorem forestTokens_alike {ts us : List Tree} (h : forestAlike W ts us) :
    SameFate (Error.Alike quotes patterns) (BodyAlike W) (forestTokens ts) (forestTokens us) := by
  rw [forestTokens, forestTokens]
  match ts, us with
  | [], [] => exact .error (.same _)
  | t :: ts, u :: us =>
    exact (forestLeaves_alike h).bind fun ls ms hlm => bodyTokens_alike hW hpatterns hlm
  | [], _ :: _ => simp [forestAlike] at h
  | _ :: _, [] => simp [forestAlike] at h

end

end SqlAssembly
