import SqlAssembly.Proofs.Leaves

/-! # The structure that leaves keep

The leaves of a forest are its conditions in depth-first order, and the parentheses counted on
either side of a leaf are those of the groups that begin or end with it, and its own.  Written out
between their parentheses the leaves spell the forest: unless conditions carry parentheses of their
own, reading the brackets gives the forest back.
-/
namespace SqlAssembly

/-! ## Brackets -/

/-- A parenthesis, or a condition among parentheses. -/
inductive Bracket where
  | opening
  | closing
  | leaf (condition : Condition)
deriving DecidableEq

def Leaf.brackets (l : Leaf) : List Bracket :=
  List.replicate l.opens .opening ++ .leaf l.condition :: List.replicate l.closes .closing

def Condition.brackets (c : Condition) : List Bracket :=
  match c.marker with
  | none => [.leaf c]
  | some .opening => [.opening, .leaf c]
  | some .closing => [.leaf c, .closing]

mutual

def Tree.brackets : Tree → List Bracket
  | .leaf c => c.brackets
  | .group items => .opening :: (forestBrackets items ++ [.closing])

def forestBrackets : List Tree → List Bracket
  | [] => []
  | tree :: rest => tree.brackets ++ forestBrackets rest

end

/-- The number of open parentheses behind some brackets, `depth` being open before them, unless one
is closed that was never opened. -/
def depthAfter : Nat → List Bracket → Option Nat
  | depth, [] => some depth
  | depth, .opening :: rest => depthAfter (depth + 1) rest
  | 0, .closing :: _ => none
  | depth + 1, .closing :: rest => depthAfter depth rest
  | depth, .leaf _ :: rest => depthAfter depth rest

/-- Every parenthesis that is opened is closed later, and no other one is closed. -/
def Balanced (brackets : List Bracket) : Prop := depthAfter 0 brackets = some 0

instance (brackets : List Bracket) : Decidable (Balanced brackets) := by
  unfold Balanced
  infer_instance

/-- The forest that brackets enclose, `level` being read already of the innermost group and `outer`
of the groups around it. -/
def readForest (outer : List (List Tree)) (level : List Tree) : List Bracket → Option (List Tree)
  | [] => if outer.isEmpty then some level else none
  | .leaf c :: rest => readForest outer (level ++ [.leaf c]) rest
  | .opening :: rest => readForest (level :: outer) [] rest
  | .closing :: rest =>
    match outer with
    | [] => none
    | around :: outer => readForest outer (around ++ [.group level]) rest

/-! ## Brackets of leaves -/

theorem Condition.brackets_toLeaf (c : Condition) : c.toLeaf.brackets = c.brackets := by
  rcases c with ⟨column, criterion, combinator, _ | _ | _⟩ <;> rfl

theorem closeLast_concat (ls : List Leaf) (l : Leaf) :
    closeLast (ls ++ [l]) = ls ++ [l.closed] := by
  induction ls with
  | nil => rfl
  | cons m ls ih =>
    cases ls with
    | nil => rfl
    | cons m' ls => exact congrArg (m :: ·) ih

theorem brackets_openFirst {ls : List Leaf} (hls : ls ≠ []) :
    (openFirst ls).flatMap Leaf.brackets = .opening :: ls.flatMap Leaf.brackets := by
  obtain ⟨l, ls, rfl⟩ := List.exists_cons_of_ne_nil hls
  simp [openFirst, Leaf.brackets, Leaf.opened, List.replicate_succ]

theorem brackets_closeLast {ls : List Leaf} (hls : ls ≠ []) :
    (closeLast ls).flatMap Leaf.brackets = ls.flatMap Leaf.brackets ++ [.closing] := by
  obtain ⟨ls, l, rfl⟩ := (List.eq_nil_or_concat' ls).resolve_left hls
  rw [closeLast_concat]
  simp [Leaf.brackets, Leaf.closed, List.replicate_succ']

theorem brackets_enclose {ls : List Leaf} (hls : ls ≠ []) :
    (enclose ls).flatMap Leaf.brackets = .opening :: (ls.flatMap Leaf.brackets ++ [.closing]) := by
  have hopen : openFirst ls ≠ [] := by
    rw [← List.length_pos_iff] at hls ⊢
    rwa [length_openFirst]
  rw [enclose, brackets_closeLast hopen, brackets_openFirst hls, List.cons_append]

mutual

theorem Tree.brackets_leaves {tree : Tree} {ls : List Leaf} (h : tree.leaves = .ok ls) :
    ls.flatMap Leaf.brackets = tree.brackets := by
  cases tree with
  | leaf c =>
    obtain ⟨-, rfl⟩ := Tree.leaves_leaf_eq_ok.1 h
    rw [List.flatMap_singleton, c.brackets_toLeaf, Tree.brackets]
  | group items =>
    obtain ⟨inner, hinner, hne, rfl⟩ := Tree.leaves_group_eq_ok.1 h
    rw [brackets_enclose hne, brackets_forestLeaves hinner, Tree.brackets]

/-- The leaves of a forest between their parentheses are the forest with a pair of parentheses for
every group. -/
theorem brackets_forestLeaves {forest : List Tree} {ls : List Leaf}
    (h : forestLeaves forest = .ok ls) : ls.flatMap Leaf.brackets = forestBrackets forest := by
  cases forest with
  | nil =>
    cases h
    rfl
  | cons tree rest =>
    obtain ⟨first, hfirst, others, hothers, rfl⟩ := forestLeaves_cons_eq_ok.1 h
    rw [List.flatMap_append, Tree.brackets_leaves hfirst, brackets_forestLeaves hothers,
      forestBrackets]

end

/-! ## Depth -/

theorem depthAfter_append (depth : Nat) (u v : List Bracket) :
    depthAfter depth (u ++ v) = (depthAfter depth u).bind (depthAfter · v) := by
  induction u generalizing depth with
  | nil => rfl
  | cons b u ih =>
    cases b with
    | opening => exact ih (depth + 1)
    | leaf c => cases depth <;> exact ih _
    | closing =>
      cases depth with
      | zero => rfl
      | succ depth => exact ih depth

theorem depthAfter_succ {depth depth' : Nat} {w : List Bracket}
    (h : depthAfter depth w = some depth') : depthAfter (depth + 1) w = some (depth' + 1) := by
  induction w generalizing depth with
  | nil => simpa [depthAfter] using h
  | cons b w ih =>
    cases b with
    | opening => exact ih h
    | leaf c =>
      cases depth <;> exact ih h
    | closing =>
      cases depth with
      | zero => simp [depthAfter] at h
      | succ depth => exact ih h

mutual

theorem Tree.depthAfter_brackets {tree : Tree} {depth depth' : Nat}
    (h : depthAfter depth (tree.conditions.flatMap Condition.brackets) = some depth') :
    depthAfter depth tree.brackets = some depth' := by
  cases tree with
  | leaf c => simpa [Tree.brackets, Tree.conditions] using h
  | group items =>
    rw [Tree.conditions] at h
    rw [Tree.brackets, depthAfter, depthAfter_append,
      depthAfter_forestBrackets (depthAfter_succ h)]
    rfl

/-- The groups of a forest change nothing about the depth that its conditions lead to. -/
theorem depthAfter_forestBrackets {forest : List Tree} {depth depth' : Nat}
    (h : depthAfter depth ((forestConditions forest).flatMap Condition.brackets) = some depth') :
    depthAfter depth (forestBrackets forest) = some depth' := by
  cases forest with
  | nil => simpa [forestBrackets, forestConditions] using h
  | cons tree rest =>
    rw [forestConditions, List.flatMap_append, depthAfter_append] at h
    obtain ⟨between, hfirst, hrest⟩ := Option.bind_eq_some_iff.1 h
    rw [forestBrackets, depthAfter_append, Tree.depthAfter_brackets hfirst]
    exact depthAfter_forestBrackets hrest

end

def Unmarked (cs : List Condition) : Prop := ∀ c ∈ cs, c.marker = none

theorem Condition.brackets_of_unmarked {c : Condition} (h : c.marker = none) :
    c.brackets = [.leaf c] := by
  rw [Condition.brackets, h]

theorem balanced_of_unmarked {cs : List Condition} (h : Unmarked cs) :
    Balanced (cs.flatMap Condition.brackets) := by
  induction cs with
  | nil => rfl
  | cons c cs ih =>
    obtain ⟨hc, hcs⟩ := List.forall_mem_cons.1 h
    rw [List.flatMap_cons, Condition.brackets_of_unmarked hc]
    exact ih hcs

/-! ## Forests read back -/

mutual

theorem Tree.readForest_brackets {tree : Tree} (h : Unmarked tree.conditions)
    (outer : List (List Tree)) (level : List Tree) (w : List Bracket) :
    readForest outer level (tree.brackets ++ w) = readForest outer (level ++ [tree]) w := by
  cases tree with
  | leaf c =>
    have hc : c.marker = none := h c (by simp [Tree.conditions])
    rw [Tree.brackets, Condition.brackets_of_unmarked hc]
    rfl
  | group items =>
    rw [Tree.conditions] at h
    rw [Tree.brackets, List.cons_append, List.append_assoc, readForest,
      readForest_forestBrackets h]
    rfl

theorem readForest_forestBrackets {forest : List Tree} (h : Unmarked (forestConditions forest))
    (outer : List (List Tree)) (level : List Tree) (w : List Bracket) :
    readForest outer level (forestBrackets forest ++ w) = readForest outer (level ++ forest) w := by
  cases forest with
  | nil => simp [forestBrackets]
  | cons tree rest =>
    rw [forestConditions] at h
    obtain ⟨htree, hrest⟩ := List.forall_mem_append.1 h
    rw [forestBrackets, List.append_assoc, Tree.readForest_brackets htree,
      readForest_forestBrackets hrest, List.append_assoc, List.singleton_append]

end

theorem readForest_leaves {forest : List Tree} {ls : List Leaf} (h : forestLeaves forest = .ok ls)
    (hunmarked : Unmarked (forestConditions forest)) :
    readForest [] [] (ls.flatMap Leaf.brackets) = some forest := by
  rw [brackets_forestLeaves h]
  simpa [readForest] using readForest_forestBrackets hunmarked [] [] []

/-! ## Groups counted -/

/-- The leaves of a group by their numbers, from the first up to the one behind the last. -/
structure Extent where
  first : Nat
  stop : Nat

mutual

def Tree.extents (n : Nat) : Tree → List Extent
  | .leaf _ => []
  | .group items => ⟨n, n + (forestConditions items).length⟩ :: forestExtents n items

/-- The groups of a forest whose leaves are numbered from `n` on. -/
def forestExtents (n : Nat) : List Tree → List Extent
  | [] => []
  | tree :: rest => tree.extents n ++ forestExtents (n + tree.conditions.length) rest

end

/-- A group with leaves, all of them numbered from `n` up to `m`. -/
structure Extent.Within (n m : Nat) (e : Extent) : Prop where
  start : n ≤ e.first
  leaves : e.first < e.stop
  stop : e.stop ≤ m

theorem Tree.length_leaves {tree : Tree} {ls : List Leaf} (h : tree.leaves = .ok ls) :
    tree.conditions.length = ls.length := by
  rw [← Tree.map_condition_leaves h, List.length_map]

theorem length_forestLeaves {forest : List Tree} {ls : List Leaf}
    (h : forestLeaves forest = .ok ls) : (forestConditions forest).length = ls.length := by
  rw [← map_condition_forestLeaves h, List.length_map]

mutual

theorem Tree.extents_within {tree : Tree} {ls : List Leaf} (h : tree.leaves = .ok ls) (n : Nat) :
    ∀ e ∈ tree.extents n, e.Within n (n + ls.length) := by
  cases tree with
  | leaf c => simp [Tree.extents]
  | group items =>
    obtain ⟨inner, hinner, hne, rfl⟩ := Tree.leaves_group_eq_ok.1 h
    have hlength : (enclose inner).length = inner.length := by simp [enclose]
    have hpos : 0 < inner.length := List.length_pos_iff.2 hne
    rw [hlength, Tree.extents, length_forestLeaves hinner]
    refine List.forall_mem_cons.2 ⟨⟨Nat.le_refl n, ?_, Nat.le_refl _⟩, ?_⟩
    · change n < n + inner.length
      omega
    · exact forestExtents_within hinner n

theorem forestExtents_within {forest : List Tree} {ls : List Leaf}
    (h : forestLeaves forest = .ok ls) (n : Nat) :
    ∀ e ∈ forestExtents n forest, e.Within n (n + ls.length) := by
  cases forest with
  | nil => simp [forestExtents]
  | cons tree rest =>
    obtain ⟨first, hfirst, others, hothers, rfl⟩ := forestLeaves_cons_eq_ok.1 h
    rw [forestExtents, Tree.length_leaves hfirst, List.length_append]
    refine List.forall_mem_append.2 ⟨fun e he => ?_, fun e he => ?_⟩
    · obtain ⟨hstart, hleaves, hstop⟩ := Tree.extents_within hfirst n e he
      exact ⟨hstart, hleaves, by omega⟩
    · obtain ⟨hstart, hleaves, hstop⟩ := forestExtents_within hothers (n + first.length) e he
      exact ⟨by omega, hleaves, by omega⟩

end

theorem getElem?_openFirst (ls : List Leaf) (i : Nat) :
    (openFirst ls)[i]? = ls[i]?.map fun l => if i = 0 then l.opened else l := by
  cases ls with
  | nil => rfl
  | cons l ls => cases i <;> simp [openFirst]

theorem getElem?_closeLast (ls : List Leaf) (i : Nat) :
    (closeLast ls)[i]? = ls[i]?.map fun l => if i + 1 = ls.length then l.closed else l := by
  induction ls generalizing i with
  | nil => rfl
  | cons l ls ih =>
    cases ls with
    | nil => cases i <;> simp [closeLast]
    | cons m ls => cases i <;> simp [closeLast_cons_cons, ih]

theorem getElem?_enclose (ls : List Leaf) (i : Nat) :
    (enclose ls)[i]? = ls[i]?.map fun l =>
      { l with
        opens := l.opens + if i = 0 then 1 else 0
        closes := l.closes + if i + 1 = ls.length then 1 else 0 } := by
  rw [enclose, getElem?_closeLast, getElem?_openFirst, length_openFirst, Option.map_map]
  congr 1
  funext l
  simp only [Function.comp_apply, Leaf.opened, Leaf.closed]
  split_ifs <;> rfl

/-- The parentheses of the `i`-th of some leaves: those of the groups that begin or end with it, and
its own. -/
structure Leaf.Counts (groups : List Extent) (i : Nat) (l : Leaf) : Prop where
  opens : l.opens = groups.countP (·.first = i) + l.condition.toLeaf.opens
  closes : l.closes = groups.countP (·.stop = i + 1) + l.condition.toLeaf.closes

/-- Groups of other leaves do not count. -/
theorem countP_of_within {groups : List Extent} {n m i : Nat} (h : ∀ e ∈ groups, e.Within n m)
    (hi : i < n ∨ m ≤ i) :
    groups.countP (·.first = i) = 0 ∧ groups.countP (·.stop = i + 1) = 0 := by
  have hother : ∀ e ∈ groups, e.first ≠ i ∧ e.stop ≠ i + 1 := by
    intro e he
    obtain ⟨hstart, hleaves, hstop⟩ := h e he
    omega
  simp only [List.countP_eq_zero, decide_eq_true_eq]
  exact ⟨fun e he => (hother e he).1, fun e he => (hother e he).2⟩

mutual

theorem Tree.leaves_counts {tree : Tree} {ls : List Leaf} (h : tree.leaves = .ok ls) (n : Nat)
    {i : Nat} {l : Leaf} (hl : ls[i]? = some l) : l.Counts (tree.extents n) (n + i) := by
  cases tree with
  | leaf c =>
    obtain ⟨-, rfl⟩ := Tree.leaves_leaf_eq_ok.1 h
    obtain ⟨-, rfl⟩ : i = 0 ∧ c.toLeaf = l := by simpa [List.getElem?_singleton] using hl
    exact ⟨(Nat.zero_add _).symm, (Nat.zero_add _).symm⟩
  | group items =>
    obtain ⟨inner, hinner, -, rfl⟩ := Tree.leaves_group_eq_ok.1 h
    obtain ⟨k, hk, rfl⟩ := Option.map_eq_some_iff.1 (getElem?_enclose inner i ▸ hl)
    obtain ⟨hopens, hcloses⟩ := forestLeaves_counts hinner n hk
    rw [Tree.extents, length_forestLeaves hinner]
    -- The group itself counts for the leaf that begins it and for the one that ends it.
    constructor
    · simp only [List.countP_cons, hopens, decide_eq_true_eq]
      split_ifs <;> omega
    · simp only [List.countP_cons, hcloses, decide_eq_true_eq]
      split_ifs <;> omega

/-- The parentheses of every leaf are those of the groups that begin or end with it, and its own. -/
theorem forestLeaves_counts {forest : List Tree} {ls : List Leaf} (h : forestLeaves forest = .ok ls)
    (n : Nat) {i : Nat} {l : Leaf} (hl : ls[i]? = some l) :
    l.Counts (forestExtents n forest) (n + i) := by
  cases forest with
  | nil =>
    cases h
    simp at hl
  | cons tree rest =>
    obtain ⟨first, hfirst, others, hothers, rfl⟩ := forestLeaves_cons_eq_ok.1 h
    have htree := Tree.extents_within hfirst n
    have hrest := forestExtents_within hothers (n + first.length)
    rw [forestExtents, Tree.length_leaves hfirst]
    by_cases hi : i < first.length
    · rw [List.getElem?_append_left hi] at hl
      obtain ⟨hopens, hcloses⟩ := Tree.leaves_counts hfirst n hl
      obtain ⟨hfirsts, hstops⟩ := countP_of_within (i := n + i) hrest (by omega)
      constructor <;> simp only [List.countP_append] <;> omega
    · rw [List.getElem?_append_right (by omega)] at hl
      obtain ⟨hopens, hcloses⟩ := forestLeaves_counts hothers (n + first.length) hl
      obtain ⟨hfirsts, hstops⟩ := countP_of_within (i := n + i) htree (by omega)
      have hnumber : n + first.length + (i - first.length) = n + i := by omega
      rw [hnumber] at hopens hcloses
      constructor <;> simp only [List.countP_append] <;> omega

end

/-! ## Flattening -/

/-- Flattening loses nothing of a forest.  Every condition comes out once and in depth-first order,
and every parenthesis of a leaf is that of a group which begins or ends with it, or its own.  Of
unmarked conditions the brackets are balanced and read back as the forest, so no other forest has
the same leaves; marked ones leave the brackets balanced if they are balanced among themselves. -/
theorem forestLeaves_lossless {forest : List Tree} {ls : List Leaf}
    (h : forestLeaves forest = .ok ls) :
    ls.map (·.condition) = forestConditions forest ∧
    (∀ i l, ls[i]? = some l →
      l.opens = (forestExtents 0 forest).countP (·.first = i) +
        (if l.condition.marker = some .opening then 1 else 0) ∧
      l.closes = (forestExtents 0 forest).countP (·.stop = i + 1) +
        (if l.condition.marker = some .closing then 1 else 0)) ∧
    (Unmarked (forestConditions forest) →
      Balanced (ls.flatMap Leaf.brackets) ∧
      readForest [] [] (ls.flatMap Leaf.brackets) = some forest ∧
      ∀ forest', Unmarked (forestConditions forest') → forestLeaves forest' = .ok ls →
        forest' = forest) ∧
    (Balanced ((forestConditions forest).flatMap Condition.brackets) →
      Balanced (ls.flatMap Leaf.brackets)) := by
  have hbalanced (hown : Balanced ((forestConditions forest).flatMap Condition.brackets)) :
      Balanced (ls.flatMap Leaf.brackets) := by
    rw [brackets_forestLeaves h]
    exact depthAfter_forestBrackets hown
  refine ⟨map_condition_forestLeaves h, fun i l hl => ?_, fun hunmarked => ?_, hbalanced⟩
  · have hcounts := forestLeaves_counts h 0 hl
    rw [Nat.zero_add] at hcounts
    exact ⟨hcounts.opens, hcounts.closes⟩
  · have hread := readForest_leaves h hunmarked
    refine ⟨hbalanced (balanced_of_unmarked hunmarked), hread, fun forest' hunmarked' h' => ?_⟩
    exact Option.some.inj ((readForest_leaves h' hunmarked').symm.trans hread)

/-- Groups that begin together, and a group that ends with a parenthesis of its own. -/
theorem forestLeaves_lossless_nested :
    let column (name : String) (marker : Option GroupMarker) : Condition :=
      { column := name, criterion := .typed (.isNull false), marker }
    let nested : List Tree := [.group [.group [.leaf (column "a" none)], .leaf (column "b" none)]]
    let ls : List Leaf := [⟨column "a" none, 2, 1⟩, ⟨column "b" none, 0, 1⟩]
    let marked : List Tree := [.leaf (column "a" (some .opening)),
      .group [.leaf (column "b" none), .leaf (column "c" (some .closing))]]
    let ms : List Leaf := [⟨column "a" (some .opening), 1, 0⟩, ⟨column "b" none, 1, 0⟩,
      ⟨column "c" (some .closing), 0, 2⟩]
    forestLeaves nested = .ok ls ∧ Unmarked (forestConditions nested) ∧
      readForest [] [] (ls.flatMap Leaf.brackets) = some nested ∧
      forestLeaves marked = .ok ms ∧
      Balanced ((forestConditions marked).flatMap Condition.brackets) ∧
      Balanced (ms.flatMap Leaf.brackets) := by
  intro column nested ls marked ms
  have hls : forestLeaves nested = .ok ls := by decide +kernel
  have hunmarked : Unmarked (forestConditions nested) := by unfold Unmarked; decide
  have hms : forestLeaves marked = .ok ms := by decide +kernel
  have hown : Balanced ((forestConditions marked).flatMap Condition.brackets) := by decide
  obtain ⟨-, -, hnested, -⟩ := forestLeaves_lossless hls
  obtain ⟨-, -, -, hmarked⟩ := forestLeaves_lossless hms
  exact ⟨hls, hunmarked, (hnested hunmarked).2.1, hms, hown, hmarked hown⟩

end SqlAssembly
