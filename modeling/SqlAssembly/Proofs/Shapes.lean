import SqlAssembly.Proofs.Alike.Basic
import SqlAssembly.Proofs.Leaves

/-! # Forests of one shape

Two forests have one shape if their groups are the same and their conditions, place by place,
related.  Conditions that are complete together and carry the same parentheses have leaves that
stand between the same parentheses; if they also come down to the same tests, the clause bodies are
the same.
-/
namespace SqlAssembly
open List (Forall₂)

mutual

def Tree.Shaped (R : Condition → Condition → Prop) : Tree → Tree → Prop
  | .leaf a, .leaf b => R a b
  | .group ts, .group us => forestShaped R ts us
  | _, _ => False

/-- Two forests of one shape, their conditions related. -/
def forestShaped (R : Condition → Condition → Prop) : List Tree → List Tree → Prop
  | [], [] => True
  | t :: ts, u :: us => t.Shaped R u ∧ forestShaped R ts us
  | _, _ => False

end

structure Leaf.Shaped (R : Condition → Condition → Prop) (l m : Leaf) : Prop where
  condition : R l.condition m.condition
  opens : l.opens = m.opens
  closes : l.closes = m.closes

/-! ## Leaves -/

section
variable {R : Condition → Condition → Prop}

theorem closeLast_shaped {ls ms : List Leaf} (h : Forall₂ (Leaf.Shaped R) ls ms) :
    Forall₂ (Leaf.Shaped R) (closeLast ls) (closeLast ms) := by
  induction h with
  | nil => exact .nil
  | cons hl hls ih =>
    cases hls with
    | nil => exact .cons { hl with closes := congrArg (· + 1) hl.closes } .nil
    | cons hm hms => exact .cons hl ih

theorem enclose_shaped {ls ms : List Leaf} (h : Forall₂ (Leaf.Shaped R) ls ms) :
    Forall₂ (Leaf.Shaped R) (enclose ls) (enclose ms) := by
  apply closeLast_shaped
  cases h with
  | nil => exact .nil
  | cons hl hls => exact .cons { hl with opens := congrArg (· + 1) hl.opens } hls

variable {E : Error → Error → Prop}

mutual

theorem Tree.Shaped.leaves (hE : ∀ e, E e e)
    (hR : ∀ a b, R a b → a.check = b.check ∧ a.marker = b.marker) {t u : Tree} (h : t.Shaped R u) :
    SameFate E (Forall₂ (Leaf.Shaped R)) t.leaves u.leaves := by
  match t, u with
  | .leaf a, .leaf b =>
    have hab : R a b := by simpa only [Tree.Shaped] using h
    obtain ⟨hcheck, hmarker⟩ := hR a b hab
    have hleaf : a.toLeaf.Shaped R b.toLeaf :=
      ⟨hab, by simp only [Condition.toLeaf, hmarker], by simp only [Condition.toLeaf, hmarker]⟩
    rw [Tree.leaves, Tree.leaves, hcheck]
    cases b.check with
    | error e => exact .error (hE e)
    | ok _ => exact .ok (.cons hleaf .nil)
  | .group ts, .group us =>
    have htu : forestShaped R ts us := by simpa only [Tree.Shaped] using h
    rw [Tree.leaves, Tree.leaves]
    apply (forestLeaves_shaped hE hR htu).bind
    intro ls ms hlm
    cases hlm with
    | nil => exact .error (hE _)
    | cons hl hls => exact .ok (enclose_shaped (.cons hl hls))
  | .leaf _, .group _ => simp [Tree.Shaped] at h
  | .group _, .leaf _ => simp [Tree.Shaped] at h

theorem forestLeaves_shaped (hE : ∀ e, E e e)
    (hR : ∀ a b, R a b → a.check = b.check ∧ a.marker = b.marker) {ts us : List Tree}
    (h : forestShaped R ts us) :
    SameFate E (Forall₂ (Leaf.Shaped R)) (forestLeaves ts) (forestLeaves us) := by
  match ts, us with
  | [], [] => exact .ok .nil
  | t :: ts, u :: us =>
    obtain ⟨htu, hrest⟩ : t.Shaped R u ∧ forestShaped R ts us := by
      simpa only [forestShaped] using h
    rw [forestLeaves, forestLeaves]
    apply (htu.leaves hE hR).bind
    intro ls ms hlm
    apply (forestLeaves_shaped hE hR hrest).bind
    intro ls' ms' hlm'
    exact .ok (List.rel_append hlm hlm')
  | [], _ :: _ => simp [forestShaped] at h
  | _ :: _, [] => simp [forestShaped] at h

end

end

/-! ## Bodies -/

/-- Two conditions that a clause cannot tell apart. -/
structure Condition.Interchangeable (a b : Condition) : Prop where
  check : a.check = b.check
  test : a.test = b.test
  combinator : a.combinator = b.combinator
  marker : a.marker = b.marker

section
variable {R : Condition → Condition → Prop} (hR : ∀ a b, R a b → a.Interchangeable b)
include hR

theorem bodyTokens_shaped {ls ms : List Leaf} (h : Forall₂ (Leaf.Shaped R) ls ms) :
    bodyTokens ls = bodyTokens ms := by
  induction h with
  | nil => rfl
  | @cons l m ls ms hl hls ih =>
    obtain ⟨-, htest, hcombinator, -⟩ := hR _ _ hl.condition
    have htokens : l.tokens = m.tokens := by
      funext t
      rw [Leaf.tokens, Leaf.tokens, hl.opens, hl.closes]
    cases hls with
    | nil => rw [bodyTokens, bodyTokens, htest, htokens]
    | cons hl' hls' =>
      rw [bodyTokens_cons_cons, bodyTokens_cons_cons, ih, htest, htokens, hcombinator]

theorem forestTokens_shaped {ts us : List Tree} (h : forestShaped R ts us) :
    forestTokens ts = forestTokens us := by
  have hleaves : SameFate Eq (Forall₂ (Leaf.Shaped R)) (forestLeaves ts) (forestLeaves us) :=
    forestLeaves_shaped (fun _ => rfl) (fun a b hab => ⟨(hR a b hab).check, (hR a b hab).marker⟩) h
  have hbody : (forestLeaves ts >>= bodyTokens) = (forestLeaves us >>= bodyTokens) := by
    generalize forestLeaves ts = x at hleaves ⊢
    generalize forestLeaves us = y at hleaves ⊢
    cases hleaves with
    | ok hlm => exact bodyTokens_shaped hR hlm
    | error he => rw [he]
  match ts, us with
  | [], [] => rfl
  | t :: ts, u :: us => exact hbody
  | [], _ :: _ => simp [forestShaped] at h
  | _ :: _, [] => simp [forestShaped] at h

end

end SqlAssembly
