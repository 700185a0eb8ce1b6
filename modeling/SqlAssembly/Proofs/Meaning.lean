import SqlAssembly.Proofs.Leaves
import SqlAssembly.Proofs.Precedence

/-! # The meaning of a condition forest

A forest has a value of its own once its leaves have: a group counts as one operand, and the
operands of a level are joined by the combinators that trail them, the one that trails a group being
that of its last leaf.  The tokens written for the forest, read as SQL reads them, have that value.
-/
namespace SqlAssembly
open List (Forall₂)

variable {α : Type} (L : Connectives α)

/-! ## The value of a forest -/

/-- An operand of a level, and what joins it to the next one. -/
structure Operand (α : Type) where
  value : α
  joiner : Combinator

/-- The value of a level of which `r` is read already and `c` joins it to the operands.  After
`AND NOT` an operand is negated, and `OR` begins a new alternative; `NOT` alone joins nothing. -/
def chain (r : Reading α) (c : Combinator) : List (Operand α) → Option α
  | [] => some (r.value L)
  | b :: rest =>
    match c with
    | .and => chain ⟨r.alternatives, L.and r.conjunction b.value⟩ b.joiner rest
    | .andNot => chain ⟨r.alternatives, L.and r.conjunction (L.not b.value)⟩ b.joiner rest
    | .or => chain ⟨some (r.value L), b.value⟩ b.joiner rest
    | .not => none

def levelValue : List (Operand α) → Option α
  | [] => none
  | a :: rest => chain L ⟨none, a.value⟩ a.joiner rest

/-- What trails a list of conditions: the combinator of the last one. -/
def trailing (cs : List Condition) : Combinator := (cs.getLast?.map (·.combinator)).getD .and

section
variable (ν : Nat → α)

mutual

/-- The value of a tree whose leaves are numbered from `n` on, `ν` being their values. -/
def Tree.value (n : Nat) : Tree → Option α
  | .leaf _ => some (ν n)
  | .group items => do levelValue L (← operands n items)

def operands (n : Nat) : List Tree → Option (List (Operand α))
  | [] => some []
  | tree :: rest => do
    let a ← tree.value n
    return ⟨a, trailing tree.conditions⟩ :: (← operands (n + tree.conditions.length) rest)

end

/-- The value of a forest whose leaves have the values `ν 0`, `ν 1` and so on. -/
def forestValue (forest : List Tree) : Option α := do levelValue L (← operands L ν 0 forest)

end

/-! ## The words of a clause body -/

def Combinator.words : Combinator → List (Word α)
  | .and => [.and]
  | .or => [.or]
  | .not => [.not]
  | .andNot => [.and, .not]

/-- The words of tokens whose tests are numbered from `n` on, `ν` being their values. -/
def wordsFrom (ν : Nat → α) (n : Nat) : List ClauseToken → List (Word α)
  | [] => []
  | .opening :: rest => .opening :: wordsFrom ν n rest
  | .closing :: rest => .closing :: wordsFrom ν n rest
  | .joiner c :: rest => c.words ++ wordsFrom ν n rest
  | .test _ :: rest => .value (ν n) :: wordsFrom ν (n + 1) rest

def Leaf.words (l : Leaf) (a : α) : List (Word α) :=
  List.replicate l.opens .opening ++ .value a :: List.replicate l.closes .closing

/-- The words of leaves numbered from `n` on, each combinator but the last between two of them. -/
def leafWords (ν : Nat → α) (n : Nat) : List Leaf → List (Word α)
  | [] => []
  | [l] => l.words (ν n)
  | l :: ls => l.words (ν n) ++ (l.condition.combinator.words ++ leafWords ν (n + 1) ls)

variable {L} {ν : Nat → α}

theorem leafWords_cons_cons (n : Nat) (l m : Leaf) (ls : List Leaf) :
    leafWords ν n (l :: m :: ls) =
      l.words (ν n) ++ (l.condition.combinator.words ++ leafWords ν (n + 1) (m :: ls)) := rfl

theorem leafWords_ne_nil {n : Nat} {ls : List Leaf} (hls : ls ≠ []) : leafWords ν n ls ≠ [] := by
  match ls with
  | [l] => simp [leafWords, Leaf.words]
  | l :: m :: ls => simp [leafWords_cons_cons, Leaf.words]

theorem leafWords_append (n : Nat) {ls ms : List Leaf} (hls : ls ≠ []) (hms : ms ≠ []) :
    leafWords ν n (ls ++ ms) = leafWords ν n ls ++
      ((trailing (ls.map (·.condition))).words ++ leafWords ν (n + ls.length) ms) := by
  obtain ⟨m, ms, rfl⟩ := List.exists_cons_of_ne_nil hms
  induction ls generalizing n with
  | nil => exact absurd rfl hls
  | cons l ls ih =>
    cases ls with
    | nil => rfl
    | cons l' ls =>
      have hnext : n + 1 + (l' :: ls).length = n + (l :: l' :: ls).length := by
        simp only [List.length_cons]
        omega
      have htrailing : trailing ((l :: l' :: ls).map (·.condition)) =
          trailing ((l' :: ls).map (·.condition)) := by
        simp [trailing]
      rw [htrailing, ← hnext, List.cons_append, List.cons_append, leafWords_cons_cons,
        leafWords_cons_cons, ← List.cons_append, ih (n + 1) (List.cons_ne_nil _ _)]
      simp only [List.append_assoc]

theorem leafWords_openFirst (n : Nat) {ls : List Leaf} (hls : ls ≠ []) :
    leafWords ν n (openFirst ls) = .opening :: leafWords ν n ls := by
  match ls with
  | [l] => rfl
  | l :: m :: ls => rfl

theorem leafWords_closeLast (n : Nat) {ls : List Leaf} (hls : ls ≠ []) :
    leafWords ν n (closeLast ls) = leafWords ν n ls ++ [.closing] := by
  induction ls generalizing n with
  | nil => exact absurd rfl hls
  | cons l ls ih =>
    cases ls with
    | nil => simp [closeLast, leafWords, Leaf.words, Leaf.closed, List.replicate_succ']
    | cons m ls =>
      have hm : closeLast (m :: ls) ≠ [] := by
        rw [← List.length_pos_iff, length_closeLast]
        exact Nat.succ_pos _
      obtain ⟨m', ms, hms⟩ := List.exists_cons_of_ne_nil hm
      rw [closeLast_cons_cons, hms, leafWords_cons_cons, ← hms, ih (n + 1) (List.cons_ne_nil _ _),
        leafWords_cons_cons]
      simp only [List.append_assoc]

theorem leafWords_enclose (n : Nat) {ls : List Leaf} (hls : ls ≠ []) :
    leafWords ν n (enclose ls) = .opening :: (leafWords ν n ls ++ [.closing]) := by
  have hopen : openFirst ls ≠ [] := by
    rw [← List.length_pos_iff] at hls ⊢
    rwa [length_openFirst]
  rw [enclose, leafWords_closeLast n hopen, leafWords_openFirst n hls, List.cons_append]

theorem wordsFrom_testedTokens (n : Nat) {ls : List Leaf} {ms : List TestedLeaf}
    (h : Forall₂ (fun l m => l.tested = .ok m) ls ms) :
    wordsFrom ν n (testedTokens ms) = leafWords ν n ls := by
  have hopening (n k : Nat) (rest : List ClauseToken) :
      wordsFrom ν n (List.replicate k .opening ++ rest) =
        List.replicate k .opening ++ wordsFrom ν n rest := by
    induction k with
    | zero => rfl
    | succ k ih => simp [List.replicate_succ, wordsFrom, ih]
  have hclosing (n k : Nat) (rest : List ClauseToken) :
      wordsFrom ν n (List.replicate k .closing ++ rest) =
        List.replicate k .closing ++ wordsFrom ν n rest := by
    induction k with
    | zero => rfl
    | succ k ih => simp [List.replicate_succ, wordsFrom, ih]
  have hleaf (n : Nat) {l : Leaf} {m : TestedLeaf} (hm : l.tested = .ok m)
      (rest : List ClauseToken) :
      wordsFrom ν n (m.tokens ++ rest) = l.words (ν n) ++ wordsFrom ν (n + 1) rest := by
    obtain ⟨-, hopens, hcloses, -⟩ := Leaf.tested_eq_ok.1 hm
    rw [TestedLeaf.tokens, Leaf.words, List.append_assoc, hopening, List.cons_append, wordsFrom,
      hclosing, hopens, hcloses, List.append_assoc, List.cons_append]
  induction h generalizing n with
  | nil => rfl
  | @cons l m ls ms hm hms ih =>
    cases hms with
    | nil => simpa [wordsFrom, testedTokens, leafWords] using hleaf n hm []
    | @cons l' m' ls ms hm' hms =>
      rw [testedTokens_cons_cons, hleaf n hm, wordsFrom, ih (n + 1), leafWords_cons_cons,
        (Leaf.tested_eq_ok.1 hm).2.2.2]

/-! ## Levels -/

/-- An operand together with the words that are written for it. -/
structure Item (α : Type) extends Operand α where
  words : List (Word α)

/-- The words of items that `c` joins to what comes before them. -/
def joinedWords (c : Combinator) : List (Item α) → List (Word α)
  | [] => []
  | i :: is => c.words ++ (i.words ++ joinedWords i.joiner is)

def levelWords : List (Item α) → List (Word α)
  | [] => []
  | i :: is => i.words ++ joinedWords i.joiner is

/-- An item whose words have its value, and that something may follow. -/
structure Item.Sound (L : Connectives α) (i : Item α) : Prop where
  reads : Reads L .primary i.words i.value
  joiner : i.joiner ≠ .not

/-- Words read as far as the last alternative. -/
inductive Begun (L : Connectives α) : List (Word α) → Reading α → Prop
  | first {ws : List (Word α)} {a : α} (h : Reads L .conjunction ws a) : Begun L ws ⟨none, a⟩
  | next {us ws : List (Word α)} {a b : α} (hus : Reads L .disjunction us a)
    (hws : Reads L .conjunction ws b) : Begun L (us ++ .or :: ws) ⟨some a, b⟩

theorem Begun.reads {ws : List (Word α)} {r : Reading α} (h : Begun L ws r) :
    Reads L .disjunction ws (r.value L) := by
  cases h with
  | first h => exact .term h
  | next hus hws => exact .or hus hws

theorem Begun.and {us ws : List (Word α)} {r : Reading α} (h : Begun L us r) {b : α}
    (hws : Reads L .negation ws b) :
    Begun L (us ++ .and :: ws) ⟨r.alternatives, L.and r.conjunction b⟩ := by
  cases h with
  | first h => exact .first (.and h hws)
  | next hus hus' =>
    rw [List.append_assoc, List.cons_append]
    exact .next hus (.and hus' hws)

/-- The rest of a level, after words that are read already. -/
theorem chain_reads {us : List (Word α)} {r : Reading α} (hr : Begun L us r) {c : Combinator}
    (hc : c ≠ .not) {is : List (Item α)} (h : ∀ i ∈ is, i.Sound L) :
    ∃ a, chain L r c (is.map Item.toOperand) = some a ∧
      Reads L .disjunction (us ++ joinedWords c is) a := by
  induction is generalizing us r c with
  | nil => exact ⟨r.value L, rfl, by simpa [joinedWords] using hr.reads⟩
  | cons i is ih =>
    obtain ⟨hi, his⟩ := List.forall_mem_cons.1 h
    -- Whatever `c` is, the words are begun once more with the operand read.
    have hstep {vs : List (Word α)} {s : Reading α} (hs : Begun L vs s) :=
      ih hs hi.joiner his
    cases c with
    | and =>
      have hnext := hstep (hr.and (.operand hi.reads))
      simpa [chain, joinedWords, Combinator.words] using hnext
    | or =>
      have hnext := hstep (.next hr.reads (.factor (.operand hi.reads)))
      simpa [chain, joinedWords, Combinator.words] using hnext
    | andNot =>
      have hnext := hstep (hr.and (.not (.operand hi.reads)))
      simpa [chain, joinedWords, Combinator.words] using hnext
    | not => exact absurd rfl hc

theorem level_reads {is : List (Item α)} (hne : is ≠ []) (h : ∀ i ∈ is, i.Sound L) :
    ∃ a, levelValue L (is.map Item.toOperand) = some a ∧
      Reads L .disjunction (levelWords is) a := by
  obtain ⟨i, is, rfl⟩ := List.exists_cons_of_ne_nil hne
  obtain ⟨hi, his⟩ := List.forall_mem_cons.1 h
  exact chain_reads (.first (.factor (.operand hi.reads))) hi.joiner his

/-! ## Trees -/

/-- A condition without a parenthesis of its own that something may follow. -/
structure Condition.Plain (c : Condition) : Prop where
  marker : c.marker = none
  combinator : c.combinator ≠ .not

theorem trailing_ne_not {cs : List Condition} (h : ∀ c ∈ cs, c.Plain) : trailing cs ≠ .not := by
  rw [trailing]
  cases hlast : cs.getLast? with
  | none => decide
  | some c => exact (h c (List.mem_of_getLast? hlast)).combinator

mutual

theorem Tree.leafWords_reads {tree : Tree} {ls : List Leaf} (h : tree.leaves = .ok ls)
    (hplain : ∀ c ∈ tree.conditions, c.Plain) (n : Nat) :
    ∃ a, tree.value L ν n = some a ∧ Reads L .primary (leafWords ν n ls) a := by
  cases tree with
  | leaf c =>
    obtain ⟨-, rfl⟩ := Tree.leaves_leaf_eq_ok.1 h
    have hmarker := (hplain c (by simp [Tree.conditions])).marker
    refine ⟨ν n, by rw [Tree.value], ?_⟩
    simpa [leafWords, Leaf.words, Condition.toLeaf, hmarker] using Reads.value (ν n)
  | group items =>
    obtain ⟨inner, hinner, hne, rfl⟩ := Tree.leaves_group_eq_ok.1 h
    obtain ⟨is, hoperands, hsound, hwords⟩ := leafWords_items hinner
      (by simpa only [Tree.conditions] using hplain) n
    have his : is ≠ [] := by
      rintro rfl
      exact leafWords_ne_nil hne hwords
    obtain ⟨a, hvalue, hreads⟩ := level_reads his hsound
    refine ⟨a, by simp [Tree.value, hoperands, hvalue], ?_⟩
    rw [leafWords_enclose n hne, hwords]
    exact .parentheses hreads

/-- The words of a forest are those of items that have the values of its trees. -/
theorem leafWords_items {forest : List Tree} {ls : List Leaf} (h : forestLeaves forest = .ok ls)
    (hplain : ∀ c ∈ forestConditions forest, c.Plain) (n : Nat) :
    ∃ is : List (Item α), operands L ν n forest = some (is.map Item.toOperand) ∧
      (∀ i ∈ is, i.Sound L) ∧ leafWords ν n ls = levelWords is := by
  cases forest with
  | nil =>
    cases h
    exact ⟨[], by rw [operands]; rfl, by simp, rfl⟩
  | cons tree rest =>
    obtain ⟨first, hfirst, others, hothers, rfl⟩ := forestLeaves_cons_eq_ok.1 h
    obtain ⟨htree, hrest⟩ :=
      List.forall_mem_append.1 (by simpa only [forestConditions] using hplain)
    obtain ⟨a, hvalue, hreads⟩ := Tree.leafWords_reads hfirst htree n
    obtain ⟨is, hoperands, hsound, hwords⟩ := leafWords_items hothers hrest
      (n + tree.conditions.length)
    have hconditions := Tree.map_condition_leaves hfirst
    have hlength : first.length = tree.conditions.length := by
      rw [← hconditions, List.length_map]
    refine ⟨⟨⟨a, trailing tree.conditions⟩, leafWords ν n first⟩ :: is, ?_, ?_, ?_⟩
    · simp [operands, hvalue, hoperands]
    · exact List.forall_mem_cons.2 ⟨⟨hreads, trailing_ne_not htree⟩, hsound⟩
    · -- A combinator is written behind the tree only if something follows it.
      cases is with
      | nil =>
        have hnone : others = [] := by
          by_contra hne
          exact leafWords_ne_nil hne hwords
        simp [hnone, levelWords, joinedWords]
      | cons i is =>
        have hne : others ≠ [] := by
          rintro rfl
          have hi := (hsound i (List.mem_cons_self ..)).reads.ne_nil
          simp [leafWords, levelWords, hi] at hwords
        rw [leafWords_append n (Tree.leaves_ne_nil hfirst) hne, hconditions, hlength, hwords]
        rfl

end

/-! ## Clauses -/

/-- A clause body holds the tests of the conditions in depth-first order, and as SQL reads it, it
has one value: that of the forest, whatever the truth values and those of the leaves. -/
theorem FilterKind.ofForest_meaning (filter : FilterKind) {forest : List Tree} {clause : Template}
    (h : filter.ofForest forest = .ok clause) (hplain : ∀ c ∈ forestConditions forest, c.Plain) :
    ∃ body, forestTokens forest = .ok body ∧ clause = filter.template body ∧
      Forall₂ (fun c t => c.test = .ok t) (forestConditions forest)
        (body.filterMap ClauseToken.test?) ∧
      ∀ {α : Type} (L : Connectives α) (ν : Nat → α), ∃ a, forestValue L ν forest = some a ∧
        ∀ b, Reads L .disjunction (wordsFrom ν 0 body) b ↔ b = a := by
  obtain ⟨body, hbody, h⟩ := bind_eq_ok.1 h
  refine ⟨body, hbody, (Except.ok.inj h).symm, forestTokens_tests hbody, fun L ν => ?_⟩
  obtain ⟨ls, ms, hls, hne, hms, rfl⟩ := forestTokens_eq_ok hbody
  obtain ⟨is, hoperands, hsound, hwords⟩ := @leafWords_items _ L ν _ _ hls hplain 0
  have his : is ≠ [] := by
    rintro rfl
    exact leafWords_ne_nil hne hwords
  obtain ⟨a, hvalue, hreads⟩ := level_reads his hsound
  refine ⟨a, by simp [forestValue, hoperands, hvalue], fun b => ?_⟩
  rw [wordsFrom_testedTokens 0 hms, hwords]
  exact ⟨fun hb => hb.unique hreads, fun hb => hb ▸ hreads⟩

/-- A negated group between two conditions, its value settled or unknown. -/
theorem FilterKind.ofForest_meaning_group :
    let leaf (column : String) (combinator : Combinator) : Tree :=
      .leaf { column, criterion := .typed (.isNull false), combinator }
    let forest := [leaf "a" .andNot, .group [leaf "b" .or, leaf "c" .or], leaf "d" .and]
    let test (column : String) : ClauseToken := .test (.isNull column false)
    let body := [test "a", .joiner .andNot, .opening, test "b", .joiner .or, test "c", .closing,
      .joiner .or, test "d"]
    whereRows.ofForest forest = .ok (whereRows.template body) ∧
      (∀ c ∈ forestConditions forest, c.Plain) ∧
      Reads .boolean .disjunction (wordsFrom (· = 0) 0 body) true ∧
      Reads .kleene .disjunction
        (wordsFrom (fun n => if n = 1 then none else some (n = 0)) 0 body) none := by
  intro leaf forest test body
  have hclause : whereRows.ofForest forest = .ok (whereRows.template body) := by decide +kernel
  have htokens : forestTokens forest = .ok body := by decide +kernel
  have hplain : ∀ c ∈ forestConditions forest, c.Plain := by
    have h : ∀ c ∈ forestConditions forest, c.marker = none ∧ c.combinator ≠ .not := by decide
    exact fun c hc => ⟨(h c hc).1, (h c hc).2⟩
  obtain ⟨body', hbody', -, -, hmeaning⟩ := whereRows.ofForest_meaning hclause hplain
  obtain rfl : body = body' := Except.ok.inj (htokens.symm.trans hbody')
  refine ⟨hclause, hplain, ?_, ?_⟩
  · obtain ⟨a, ha, hreads⟩ := hmeaning .boolean (· = 0)
    exact (hreads true).2 (Option.some.inj ha)
  · obtain ⟨a, ha, hreads⟩ := hmeaning .kleene fun n => if n = 1 then none else some (n = 0)
    exact (hreads none).2 (Option.some.inj ha)

end SqlAssembly
