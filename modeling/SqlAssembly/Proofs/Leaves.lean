import Mathlib.Data.List.Forall2
import SqlAssembly.Condition.Clause

/-! # Leaves and tokens

The leaves of a forest are its conditions in depth-first order, and the tokens of a clause body are
those of its leaves once each of them is tested.
-/
namespace SqlAssembly
open List (Forall₂)

/-! ## Conditions -/

mutual

def Tree.conditions : Tree → List Condition
  | .leaf c => [c]
  | .group items => forestConditions items

/-- The conditions of a forest in depth-first order. -/
def forestConditions : List Tree → List Condition
  | [] => []
  | tree :: rest => tree.conditions ++ forestConditions rest

end

@[simp] theorem map_condition_openFirst (ls : List Leaf) :
    (openFirst ls).map (·.condition) = ls.map (·.condition) := by
  cases ls <;> rfl

theorem closeLast_cons_cons (l m : Leaf) (ls : List Leaf) :
    closeLast (l :: m :: ls) = l :: closeLast (m :: ls) := rfl

@[simp] theorem map_condition_closeLast (ls : List Leaf) :
    (closeLast ls).map (·.condition) = ls.map (·.condition) := by
  induction ls with
  | nil => rfl
  | cons l ls ih =>
    cases ls with
    | nil => rfl
    | cons m ls => exact congrArg (l.condition :: ·) ih

@[simp] theorem map_condition_enclose (ls : List Leaf) :
    (enclose ls).map (·.condition) = ls.map (·.condition) := by
  simp [enclose]

theorem enclose_ne_nil {ls : List Leaf} (h : ls ≠ []) : enclose ls ≠ [] := by
  rw [← List.length_pos_iff] at h ⊢
  simpa [enclose] using h

theorem Tree.leaves_leaf_eq_ok {c : Condition} {ls : List Leaf} :
    (Tree.leaf c).leaves = .ok ls ↔ c.check = .ok () ∧ [c.toLeaf] = ls := by
  rw [Tree.leaves, bind_eq_ok]
  simp only [pure_eq_ok, Except.ok.injEq, exists_and_right]
  exact and_congr_left fun _ => ⟨fun ⟨_, h⟩ => h, fun h => ⟨(), h⟩⟩

theorem Tree.leaves_group_eq_ok {items : List Tree} {ls : List Leaf} :
    (Tree.group items).leaves = .ok ls ↔
      ∃ inner, forestLeaves items = .ok inner ∧ inner ≠ [] ∧ enclose inner = ls := by
  rw [Tree.leaves, bind_eq_ok]
  refine exists_congr fun inner => and_congr_right fun _ => ?_
  split_ifs with hinner <;> simp [hinner]

theorem forestLeaves_cons_eq_ok {tree : Tree} {rest : List Tree} {ls : List Leaf} :
    forestLeaves (tree :: rest) = .ok ls ↔ ∃ first, tree.leaves = .ok first ∧
      ∃ others, forestLeaves rest = .ok others ∧ first ++ others = ls := by
  simp only [forestLeaves, bind_eq_ok, pure_eq_ok, Except.ok.injEq]

theorem Tree.leaves_ne_nil {tree : Tree} {ls : List Leaf} (h : tree.leaves = .ok ls) : ls ≠ [] := by
  cases tree with
  | leaf c =>
    obtain ⟨-, rfl⟩ := leaves_leaf_eq_ok.1 h
    simp
  | group items =>
    obtain ⟨inner, -, hne, rfl⟩ := leaves_group_eq_ok.1 h
    exact enclose_ne_nil hne

theorem forestLeaves_ne_nil {forest : List Tree} {ls : List Leaf} (h : forestLeaves forest = .ok ls)
    (hne : forest ≠ []) : ls ≠ [] := by
  obtain ⟨tree, rest, rfl⟩ := List.exists_cons_of_ne_nil hne
  obtain ⟨first, hfirst, others, -, rfl⟩ := forestLeaves_cons_eq_ok.1 h
  simp [Tree.leaves_ne_nil hfirst]

mutual

theorem Tree.map_condition_leaves {tree : Tree} {ls : List Leaf} (h : tree.leaves = .ok ls) :
    ls.map (·.condition) = tree.conditions := by
  cases tree with
  | leaf c =>
    obtain ⟨-, rfl⟩ := Tree.leaves_leaf_eq_ok.1 h
    rfl
  | group items =>
    obtain ⟨inner, hinner, -, rfl⟩ := Tree.leaves_group_eq_ok.1 h
    rw [map_condition_enclose, map_condition_forestLeaves hinner, Tree.conditions]

theorem map_condition_forestLeaves {forest : List Tree} {ls : List Leaf}
    (h : forestLeaves forest = .ok ls) : ls.map (·.condition) = forestConditions forest := by
  cases forest with
  | nil =>
    cases h
    rfl
  | cons tree rest =>
    obtain ⟨first, hfirst, others, hothers, rfl⟩ := forestLeaves_cons_eq_ok.1 h
    rw [List.map_append, Tree.map_condition_leaves hfirst, map_condition_forestLeaves hothers,
      forestConditions]

end

/-! ## Tokens -/

structure TestedLeaf where
  opens : Nat
  test : Test
  closes : Nat
  combinator : Combinator
deriving DecidableEq

def Leaf.tested (l : Leaf) : Except Error TestedLeaf := do
  return ⟨l.opens, ← l.condition.test, l.closes, l.condition.combinator⟩

def TestedLeaf.tokens (l : TestedLeaf) : List ClauseToken :=
  List.replicate l.opens .opening ++ .test l.test :: List.replicate l.closes .closing

/-- The tokens of leaves, each combinator but the last between two of them. -/
def testedTokens : List TestedLeaf → List ClauseToken
  | [] => []
  | [l] => l.tokens
  | l :: ls => l.tokens ++ .joiner l.combinator :: testedTokens ls

theorem testedTokens_cons_cons (l m : TestedLeaf) (ls : List TestedLeaf) :
    testedTokens (l :: m :: ls) = l.tokens ++ .joiner l.combinator :: testedTokens (m :: ls) := rfl

theorem Leaf.tested_eq_ok {l : Leaf} {m : TestedLeaf} : l.tested = .ok m ↔
    l.condition.test = .ok m.test ∧ l.opens = m.opens ∧ l.closes = m.closes ∧
      l.condition.combinator = m.combinator := by
  rw [Leaf.tested, bind_eq_ok]
  cases m
  simp only [pure_eq_ok, Except.ok.injEq, TestedLeaf.mk.injEq]
  grind

theorem bodyTokens_eq_ok {ls : List Leaf} {body : List ClauseToken} (h : bodyTokens ls = .ok body) :
    ∃ ms, Forall₂ (fun l m => l.tested = .ok m) ls ms ∧ body = testedTokens ms := by
  induction ls generalizing body with
  | nil =>
    cases h
    exact ⟨[], .nil, rfl⟩
  | cons l ls ih =>
    cases ls with
    | nil =>
      obtain ⟨test, htest, h⟩ := bind_eq_ok.1 (by simpa only [bodyTokens] using h)
      cases h
      refine ⟨[⟨l.opens, test, l.closes, l.condition.combinator⟩], .cons ?_ .nil, rfl⟩
      exact Leaf.tested_eq_ok.2 ⟨htest, rfl, rfl, rfl⟩
    | cons l' ls =>
      obtain ⟨test, htest, h⟩ := bind_eq_ok.1 (by simpa only [bodyTokens] using h)
      obtain ⟨others, hothers, h⟩ := bind_eq_ok.1 h
      cases h
      obtain ⟨_, hms, rfl⟩ := ih hothers
      cases hms with
      | @cons _ m _ ms hm hms =>
        refine ⟨⟨l.opens, test, l.closes, l.condition.combinator⟩ :: m :: ms,
          .cons ?_ (.cons hm hms), rfl⟩
        exact Leaf.tested_eq_ok.2 ⟨htest, rfl, rfl, rfl⟩

def ClauseToken.test? : ClauseToken → Option Test
  | .test t => some t
  | _ => none

theorem filterMap_test?_testedTokens (ms : List TestedLeaf) :
    (testedTokens ms).filterMap ClauseToken.test? = ms.map (·.test) := by
  have hparentheses (n : Nat) {token : ClauseToken} (htoken : token.test? = none) :
      (List.replicate n token).filterMap ClauseToken.test? = [] := by
    rw [List.filterMap_eq_nil_iff]
    intro a ha
    rw [List.eq_of_mem_replicate ha, htoken]
  have htokens (m : TestedLeaf) : m.tokens.filterMap ClauseToken.test? = [m.test] := by
    rw [TestedLeaf.tokens, List.filterMap_append, hparentheses _ rfl,
      List.filterMap_cons_some (f := ClauseToken.test?) rfl, hparentheses _ rfl, List.nil_append]
  induction ms with
  | nil => rfl
  | cons m ms ih =>
    cases ms with
    | nil => exact htokens m
    | cons m' ms =>
      rw [testedTokens_cons_cons, List.filterMap_append, htokens, List.filterMap_cons_none rfl, ih]
      rfl

theorem forestTokens_eq_ok {forest : List Tree} {body : List ClauseToken}
    (h : forestTokens forest = .ok body) : ∃ ls ms, forestLeaves forest = .ok ls ∧ ls ≠ [] ∧
      Forall₂ (fun l m => l.tested = .ok m) ls ms ∧ body = testedTokens ms := by
  rw [forestTokens] at h
  split_ifs at h with hne
  obtain ⟨ls, hls, h⟩ := bind_eq_ok.1 h
  obtain ⟨ms, hms, hbody⟩ := bodyTokens_eq_ok h
  exact ⟨ls, ms, hls, forestLeaves_ne_nil hls (by simpa using hne), hms, hbody⟩

theorem FilterKind.ofForest_eq_ok {filter : FilterKind} {forest : List Tree} {clause : Template}
    (h : filter.ofForest forest = .ok clause) : ∃ ls ms, forestLeaves forest = .ok ls ∧ ls ≠ [] ∧
      Forall₂ (fun l m => l.tested = .ok m) ls ms ∧
      clause = filter.template (testedTokens ms) := by
  obtain ⟨body, hbody, h⟩ := bind_eq_ok.1 h
  obtain ⟨ls, ms, hls, hne, hms, rfl⟩ := forestTokens_eq_ok hbody
  exact ⟨ls, ms, hls, hne, hms, (Except.ok.inj h).symm⟩

/-- The tests of a body are those of the conditions, in depth-first order. -/
theorem forestTokens_tests {forest : List Tree} {body : List ClauseToken}
    (h : forestTokens forest = .ok body) :
    Forall₂ (fun c t => c.test = .ok t) (forestConditions forest)
      (body.filterMap ClauseToken.test?) := by
  obtain ⟨ls, ms, hls, -, hms, rfl⟩ := forestTokens_eq_ok h
  rw [filterMap_test?_testedTokens, ← map_condition_forestLeaves hls, List.forall₂_map_left_iff,
    List.forall₂_map_right_iff]
  exact hms.imp fun l m h => (Leaf.tested_eq_ok.1 h).1

/-! ## Forests that make a clause -/

mutual

def Tree.Filled : Tree → Prop
  | .leaf _ => True
  | .group items => items ≠ [] ∧ forestFilled items

def forestFilled : List Tree → Prop
  | [] => True
  | tree :: rest => tree.Filled ∧ forestFilled rest

end

mutual

theorem Tree.exists_leaves_iff (tree : Tree) : (∃ ls, tree.leaves = .ok ls) ↔
    tree.Filled ∧ ∀ c ∈ tree.conditions, c.check = .ok () := by
  cases tree with
  | leaf c => simp [Tree.leaves_leaf_eq_ok, Tree.Filled, Tree.conditions]
  | group items =>
    have hitems := exists_forestLeaves_iff items
    have hempty {inner : List Leaf} (hinner : forestLeaves items = .ok inner) :
        inner ≠ [] ↔ items ≠ [] := by
      refine ⟨?_, forestLeaves_ne_nil hinner⟩
      rintro hne rfl
      exact hne (Except.ok.inj hinner).symm
    simp only [Tree.leaves_group_eq_ok, Tree.Filled, Tree.conditions, and_assoc, ← hitems]
    constructor
    · rintro ⟨_, inner, hinner, hne, rfl⟩
      exact ⟨(hempty hinner).1 hne, inner, hinner⟩
    · rintro ⟨hne, inner, hinner⟩
      exact ⟨_, inner, hinner, (hempty hinner).2 hne, rfl⟩

/-- A forest has leaves if its groups have items and its conditions are complete. -/
theorem exists_forestLeaves_iff (forest : List Tree) : (∃ ls, forestLeaves forest = .ok ls) ↔
    forestFilled forest ∧ ∀ c ∈ forestConditions forest, c.check = .ok () := by
  cases forest with
  | nil => simp [forestLeaves, forestFilled, forestConditions]
  | cons tree rest =>
    have htree := tree.exists_leaves_iff
    have hrest := exists_forestLeaves_iff rest
    simp only [forestLeaves_cons_eq_ok, forestFilled, forestConditions, List.forall_mem_append]
    rw [and_and_and_comm, ← htree, ← hrest]
    constructor
    · rintro ⟨_, first, hfirst, others, hothers, -⟩
      exact ⟨⟨first, hfirst⟩, others, hothers⟩
    · rintro ⟨⟨first, hfirst⟩, others, hothers⟩
      exact ⟨_, first, hfirst, others, hothers, rfl⟩

end

theorem bodyTokens_cons_cons (l m : Leaf) (ls : List Leaf) : bodyTokens (l :: m :: ls) = (do
    let test ← l.condition.test
    let rest ← bodyTokens (m :: ls)
    return l.tokens test ++ .joiner l.condition.combinator :: rest) := rfl

theorem exists_bodyTokens_iff (ls : List Leaf) : (∃ body, bodyTokens ls = .ok body) ↔
    ∀ l ∈ ls, ∃ t, l.condition.test = .ok t := by
  induction ls with
  | nil => simp [bodyTokens]
  | cons l ls ih =>
    rw [List.forall_mem_cons, ← ih]
    cases ls with
    | nil => cases h : l.condition.test <;> simp [bodyTokens, h]
    | cons m ls =>
      rw [bodyTokens_cons_cons]
      cases l.condition.test <;> cases bodyTokens (m :: ls) <;> simp

theorem bodyTokens_cons_eq_error {l : Leaf} {ls : List Leaf} {e : Error} :
    bodyTokens (l :: ls) = .error e ↔
      l.condition.test = .error e ∨ (∃ t, l.condition.test = .ok t) ∧ bodyTokens ls = .error e := by
  cases ls with
  | nil => cases h : l.condition.test <;> simp [bodyTokens, h]
  | cons m ls =>
    rw [bodyTokens_cons_cons]
    cases l.condition.test <;> cases bodyTokens (m :: ls) <;> simp

theorem bodyTokens_eq_error_iff {ls : List Leaf} {e : Error} : bodyTokens ls = .error e ↔
    ∃ before c after, ls.map (·.condition) = before ++ c :: after ∧
      (∀ b ∈ before, ∃ t, b.test = .ok t) ∧ c.test = .error e := by
  induction ls with
  | nil => simp [bodyTokens]
  | cons l ls ih =>
    rw [bodyTokens_cons_eq_error, ih]
    constructor
    · rintro (h | ⟨hl, before, c, after, hsplit, hbefore, h⟩)
      · exact ⟨[], _, _, rfl, by simp, h⟩
      · exact ⟨l.condition :: before, c, after, congrArg (l.condition :: ·) hsplit,
          List.forall_mem_cons.2 ⟨hl, hbefore⟩, h⟩
    · rintro ⟨before, c, after, hsplit, hbefore, h⟩
      cases before with
      | nil =>
        obtain ⟨rfl, -⟩ := List.cons.inj hsplit
        exact .inl h
      | cons b before =>
        obtain ⟨rfl, hrest⟩ := List.cons.inj hsplit
        obtain ⟨hl, hbefore⟩ := List.forall_mem_cons.1 hbefore
        exact .inr ⟨hl, before, c, after, hrest, hbefore, h⟩

/-- A condition that can be written: it is complete, and its operator fits its values. -/
structure Condition.Writable (c : Condition) : Prop where
  complete : c.check = .ok ()
  tested : ∃ t, c.test = .ok t

theorem exists_forestTokens_iff (forest : List Tree) :
    (∃ body, forestTokens forest = .ok body) ↔
      forest ≠ [] ∧ forestFilled forest ∧ ∀ c ∈ forestConditions forest, c.Writable := by
  cases forest with
  | nil => simp [forestTokens]
  | cons tree rest =>
    generalize hforest : tree :: rest = forest
    have hne : forest ≠ [] := by simp [← hforest]
    simp only [forestTokens, List.isEmpty_iff, hne, if_false, ne_eq, not_false_iff, true_and]
    constructor
    · rintro ⟨body, h⟩
      obtain ⟨ls, hls, h⟩ := bind_eq_ok.1 h
      obtain ⟨hfilled, hcomplete⟩ := (exists_forestLeaves_iff forest).1 ⟨ls, hls⟩
      have htested := (exists_bodyTokens_iff ls).1 ⟨body, h⟩
      rw [← map_condition_forestLeaves hls, List.forall_mem_map] at hcomplete ⊢
      exact ⟨hfilled, fun l hl => ⟨hcomplete l hl, htested l hl⟩⟩
    · rintro ⟨hfilled, hwritable⟩
      obtain ⟨ls, hls⟩ := (exists_forestLeaves_iff forest).2
        ⟨hfilled, fun c hc => (hwritable c hc).complete⟩
      rw [← map_condition_forestLeaves hls, List.forall_mem_map] at hwritable
      rw [hls, ok_bind]
      exact (exists_bodyTokens_iff ls).2 fun l hl => (hwritable l hl).tested

/-! ## Tests and what joins them -/

def ClauseToken.isWord : ClauseToken → Bool
  | .opening | .closing => false
  | .joiner _ | .test _ => true

/-- Tests, each joined to the next one by the combinator given with it. -/
def joinedTests : List (Test × Combinator) → List ClauseToken
  | [] => []
  | [(t, _)] => [.test t]
  | (t, c) :: rest => .test t :: .joiner c :: joinedTests rest

theorem filter_testedTokens (ms : List TestedLeaf) :
    (testedTokens ms).filter ClauseToken.isWord =
      joinedTests (ms.map fun m => (m.test, m.combinator)) := by
  have htokens (m : TestedLeaf) : m.tokens.filter ClauseToken.isWord = [.test m.test] := by
    rw [TestedLeaf.tokens, List.filter_append, List.filter_cons_of_pos rfl]
    simp [ClauseToken.isWord]
  induction ms with
  | nil => rfl
  | cons m ms ih =>
    cases ms with
    | nil => exact htokens m
    | cons m' ms =>
      rw [testedTokens_cons_cons, List.filter_append, htokens, List.filter_cons_of_pos rfl, ih]
      rfl

/-- Parentheses aside, a body is the tests of the conditions in depth-first order, each joined to
the next by the combinator of its condition. -/
theorem forestTokens_joined {forest : List Tree} {body : List ClauseToken}
    (h : forestTokens forest = .ok body) : ∃ tests : List (Test × Combinator),
      Forall₂ (fun c t => c.test = .ok t.1 ∧ c.combinator = t.2) (forestConditions forest) tests ∧
      body.filter ClauseToken.isWord = joinedTests tests := by
  obtain ⟨ls, ms, hls, -, hms, rfl⟩ := forestTokens_eq_ok h
  refine ⟨_, ?_, filter_testedTokens ms⟩
  rw [← map_condition_forestLeaves hls, List.forall₂_map_left_iff, List.forall₂_map_right_iff]
  refine hms.imp fun l m h => ?_
  obtain ⟨htest, -, -, hcombinator⟩ := Leaf.tested_eq_ok.1 h
  exact ⟨htest, hcombinator⟩

end SqlAssembly
