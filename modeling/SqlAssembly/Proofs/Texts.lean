import SqlAssembly.Composer.Basic
import SqlAssembly.Fragment.Spec
import SqlAssembly.Marker

/-! # Texts that stay apart

A separator is a character that no marker contains and that neither quotes nor escapes.  Every word
that a composer writes of its own consists of separators, the underscore of one keyword aside, and
it puts such words between any two texts of its caller.  A property of texts that survives being
put together at a separator therefore survives everything that a composer does with them.
-/
namespace SqlAssembly

namespace Text

/-- The characters of the marker, the quote, and the backslash. -/
def bonding : List Char := ['_', 'p', 'a', 'r', 'm', '\'', '\\']

/-- A character that keeps apart the texts on either side of it. -/
def isSeparator (c : Char) : Bool := c ∉ bonding

/-- A text of separators, one at least. -/
def isSpacer (s : String) : Bool := s ≠ "" ∧ s.toList.all isSeparator

theorem isSeparator_of_class {p : Char → Bool} (hp : bonding.any p = false) {c : Char}
    (h : p c = true) : isSeparator c = true :=
  decide_eq_true fun hc => List.any_eq_false.1 hp c hc h

theorem isSeparator_of_isDigit {c : Char} (h : c.isDigit = true) : isSeparator c = true :=
  isSeparator_of_class (by decide) h

theorem isSeparator_of_isBlank {c : Char} (h : isBlank c = true) : isSeparator c = true :=
  isSeparator_of_class (by decide) h

theorem isSpacer_repr (n : Nat) : isSpacer (Nat.repr n) = true := by
  have hdigits : ∀ c ∈ (Nat.repr n).toList, isSeparator c = true := by
    intro c hc
    rw [Nat.repr, String.toList_ofList] at hc
    exact isSeparator_of_isDigit (Nat.isDigit_of_mem_toDigits (by decide) (by decide) hc)
  simpa [isSpacer, Nat.repr_ne_empty] using hdigits

theorem isSpacer_token (op : CompareOp) : isSpacer op.token = true := by cases op <;> decide

/-- What holds of every separator, and of a text behind one if it holds of the text, holds of every
spacer. -/
theorem spacer_induction {Q : String → Prop}
    (single : ∀ c, isSeparator c = true → Q (String.singleton c))
    (more : ∀ c s, isSeparator c = true → Q s → Q (String.singleton c ++ s)) {spacer : String}
    (hspacer : isSpacer spacer = true) : Q spacer := by
  suffices hchars : ∀ (c : Char) (cs : List Char), (c :: cs).all isSeparator = true →
      Q (String.ofList (c :: cs)) by
    obtain ⟨hne, hall⟩ : spacer ≠ "" ∧ spacer.toList.all isSeparator = true :=
      of_decide_eq_true hspacer
    cases hcs : spacer.toList with
    | nil => exact absurd (String.toList_inj.1 hcs) hne
    | cons c cs =>
      have heq : spacer = String.ofList (c :: cs) := by rw [← hcs, String.ofList_toList]
      rw [hcs] at hall
      exact heq ▸ hchars c cs hall
  intro c cs hcs
  induction cs generalizing c with
  | nil =>
    have hc : isSeparator c = true := by simpa using hcs
    exact single c hc
  | cons d ds ih =>
    have hc : isSeparator c = true ∧ (d :: ds).all isSeparator = true := by simpa using hcs
    have hsplit : String.ofList (c :: d :: ds) = String.singleton c ++ String.ofList (d :: ds) := by
      simp
    rw [hsplit]
    exact more c _ hc.1 (ih d hc.2)

theorem infix_of_dropWhile {α : Type} (p : α → Bool) (as : List α) :
    ((as.dropWhile p).reverse.dropWhile p).reverse <:+: as := by
  have hstart : as.dropWhile p <:+: as := (List.dropWhile_suffix p).isInfix
  have hend : ((as.dropWhile p).reverse.dropWhile p).reverse <:+: as.dropWhile p := by
    rw [← List.reverse_infix, List.reverse_reverse]
    exact (List.dropWhile_suffix p).isInfix
  exact hend.trans hstart

theorem infix_trimChars (cs : List Char) : trimChars cs <:+: cs := infix_of_dropWhile isBlank cs

/-- A pattern that begins a list ends before the first member that is not in it. -/
theorem prefix_before {α : Type} {pattern left right : List α} {c : α} (hc : c ∉ pattern)
    (h : pattern <+: left ++ c :: right) : pattern <+: left := by
  induction left generalizing pattern with
  | nil =>
    cases pattern with
    | nil => exact List.nil_prefix
    | cons d pattern =>
      have hd : d = c := (List.cons_prefix_cons.1 h).1
      exact absurd (by simp [hd]) hc
  | cons e left ih =>
    cases pattern with
    | nil => exact List.nil_prefix
    | cons d pattern =>
      obtain ⟨hd, hrest⟩ := List.cons_prefix_cons.1 h
      exact List.cons_prefix_cons.2 ⟨hd, ih (fun hmem => hc (List.mem_cons_of_mem d hmem)) hrest⟩

/-- A pattern lies on one side of every member that is not in it. -/
theorem infix_beside {α : Type} {pattern left right : List α} {c : α} (hc : c ∉ pattern)
    (h : pattern <:+: left ++ c :: right) : pattern <:+: left ∨ pattern <:+: right := by
  induction left with
  | nil =>
    rcases List.infix_cons_iff.1 h with hstart | hright
    · have hnone : pattern <+: [] := prefix_before hc hstart
      exact .inl hnone.isInfix
    · exact .inr hright
  | cons d left ih =>
    rcases List.infix_cons_iff.1 h with hstart | hrest
    · have hleft : pattern <+: d :: left := prefix_before hc hstart
      exact .inl hleft.isInfix
    · exact (ih hrest).imp (fun hleft => hleft.trans (List.suffix_cons d left).isInfix) id

end Text

open Text

/-- A property of texts that holds of the empty text and of one keyword, and survives trimming and
being put together at a separator. -/
structure Closed (P : String → Prop) : Prop where
  empty : P ""
  joined {s t : String} {c : Char} (hc : isSeparator c = true) (hs : P s) (ht : P t) :
    P (s ++ (String.singleton c ++ t))
  trim {s : String} (hs : P s) : P (trim s)
  now : P "CURRENT_TIMESTAMP()"

namespace Closed

variable {P : String → Prop} (h : Closed P) {s t spacer : String}
include h

/-- Any number of separators may stand between two texts, but one at least. -/
theorem spaced (hspacer : isSpacer spacer = true) (hs : P s) (ht : P t) :
    P (s ++ spacer ++ t) := by
  have hany : ∀ s, P s → P (s ++ spacer ++ t) := by
    apply spacer_induction (Q := fun spacer => ∀ s, P s → P (s ++ spacer ++ t)) _ _ hspacer
    · intro c hc s hs
      simpa only [String.append_assoc] using h.joined hc hs ht
    · intro c spacer hc ih s hs
      have hfirst : P (s ++ (String.singleton c ++ "")) := h.joined hc hs h.empty
      simpa only [String.append_empty, String.append_assoc] using ih _ hfirst
  exact hany s hs

theorem leading (hspacer : isSpacer spacer = true) (ht : P t) : P (spacer ++ t) := by
  simpa using h.spaced hspacer h.empty ht

theorem trailing (hspacer : isSpacer spacer = true) (hs : P s) : P (s ++ spacer) := by
  simpa using h.spaced hspacer hs h.empty

theorem ofSpacer (hspacer : isSpacer spacer = true) : P spacer := by
  simpa using h.leading hspacer h.empty

theorem nonBlank {texts : List String} (htexts : ∀ s ∈ texts, P s) :
    ∀ s ∈ Text.nonBlank texts, P s := by
  intro s hs
  obtain ⟨⟨t, ht, rfl⟩, -⟩ : (∃ t ∈ texts, Text.trim t = s) ∧ s ≠ "" := by
    simpa [Text.nonBlank] using hs
  exact h.trim (htexts t ht)

theorem intercalate {texts : List String} (htexts : ∀ s ∈ texts, P s) :
    P (", ".intercalate texts) := by
  induction texts with
  | nil => simpa using h.empty
  | cons s texts ih =>
    have hs : P s := htexts s (by simp)
    cases texts with
    | nil => simpa using hs
    | cons t texts =>
      rw [String.intercalate_cons_cons]
      exact h.spaced (by decide) hs (ih fun u hu => htexts u (by simp_all))

theorem selectedColumns {columns : List String} (hcolumns : ∀ s ∈ columns, P s) :
    P (selectedColumns columns) := by
  rw [SqlAssembly.selectedColumns]
  cases hnames : Text.nonBlank columns with
  | nil => exact h.ofSpacer (by decide)
  | cons s names => exact h.intercalate (hnames ▸ h.nonBlank hcolumns)

theorem trimmedOr {default : String} {text : Option String} (hdefault : P default)
    (htext : ∀ s ∈ text, P s) : P (trimmedOr default text) := by
  cases text with
  | none => exact hdefault
  | some s =>
    rw [SqlAssembly.trimmedOr]
    split
    · exact hdefault
    · exact h.trim (htext s rfl)

end Closed

theorem closed_any : Closed fun _ => True := by constructor <;> intros <;> trivial

namespace Marker

def Free (s : String) : Prop := ¬ text.toList <:+: s.toList

instance (s : String) : Decidable (Free s) :=
  decidable_of_iff (Text.contains text.toList s.toList = false) (by
    rw [Free, ← Text.contains_iff, Bool.not_eq_true])

theorem text_ne_nil : text.toList ≠ [] := by decide

theorem subset_bonding : text.toList ⊆ bonding := by decide

theorem not_mem_of_isSeparator {c : Char} (hc : isSeparator c = true) : c ∉ text.toList :=
  fun hmem => of_decide_eq_true hc (subset_bonding hmem)

theorem closed_free : Closed Free where
  empty := by decide
  joined {s t c} hc hs ht hmarker := by
    rcases infix_beside (not_mem_of_isSeparator hc) (by simpa using hmarker) with h | h
    · exact hs h
    · exact ht h
  trim {s} hs hmarker := hs (hmarker.trans (by simpa using infix_trimChars s.toList))
  now := by decide

end Marker

def Unquoted (s : String) : Prop := '\'' ∉ s.toList ∧ '\\' ∉ s.toList

instance (s : String) : Decidable (Unquoted s) := by
  unfold Unquoted
  infer_instance

theorem closed_unquoted : Closed Unquoted where
  empty := by decide
  joined {s t c} hc hs ht := by
    have hnot : '\'' ≠ c ∧ '\\' ≠ c := by
      constructor <;> rintro rfl <;> exact absurd hc (by decide)
    constructor <;> simp [hs.1, hs.2, ht.1, ht.2, hnot.1, hnot.2]
  trim {s} hs := by
    have hsub := (infix_trimChars s.toList).subset
    constructor
    · intro h
      exact hs.1 (hsub (by simpa using h))
    · intro h
      exact hs.2 (hsub (by simpa using h))
  now := by decide

end SqlAssembly
