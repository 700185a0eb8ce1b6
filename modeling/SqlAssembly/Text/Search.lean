/-! # Occurrences of a pattern

The occurrences of a pattern are found from the left and do not overlap: each search goes on after
the occurrence before it.  `Pieces` is what lies around them, and every operation on occurrences
(counting, replacing, numbering) is read off it.
-/
namespace SqlAssembly.Text

/-- The text around the occurrences of a pattern: what comes before the first occurrence, and what
follows each. -/
structure Pieces where
  first : List Char
  rest : List (List Char) := []
deriving DecidableEq, Repr

namespace Pieces

def push (c : Char) (p : Pieces) : Pieces := { p with first := c :: p.first }

/-- A new empty first piece, in front of an occurrence. -/
def cut (p : Pieces) : Pieces := { first := [], rest := p.first :: p.rest }

/-- The pieces with the `k`-th gap, counted from `start`, filled by `fill k`. -/
def fillFrom (fill : Nat → List Char) (start : Nat) (p : Pieces) : List Char :=
  p.first ++ go start p.rest
where
  /-- The gaps before the remaining pieces. -/
  go (k : Nat) : List (List Char) → List Char
    | [] => []
    | q :: qs => fill k ++ q ++ go (k + 1) qs

def fill (text : List Char) (p : Pieces) : List Char := p.fillFrom (fun _ => text) 0

@[simp] theorem fillFrom_push (f : Nat → List Char) (k : Nat) (c : Char) (p : Pieces) :
    (p.push c).fillFrom f k = c :: p.fillFrom f k := rfl

@[simp] theorem fillFrom_cut (f : Nat → List Char) (k : Nat) (p : Pieces) :
    p.cut.fillFrom f k = f k ++ p.fillFrom f (k + 1) := by
  simp [cut, fillFrom, fillFrom.go]

@[simp] theorem rest_push (c : Char) (p : Pieces) : (p.push c).rest = p.rest := rfl

@[simp] theorem rest_cut (p : Pieces) : p.cut.rest = p.first :: p.rest := rfl

end Pieces

/-- The pieces of a text around a pattern, after `skip` characters that belong to an occurrence
already found. -/
def scan (pattern : List Char) : Nat → List Char → Pieces
  | _, [] => { first := [] }
  | skip + 1, _ :: cs => scan pattern skip cs
  | 0, c :: cs =>
    if pattern.isPrefixOf (c :: cs) then (scan pattern (pattern.length - 1) cs).cut
    else (scan pattern 0 cs).push c

/-- The pieces of a text around the occurrences of a pattern, which is not empty. -/
def pieces (pattern text : List Char) : Pieces := scan pattern 0 text

@[simp] theorem pieces_nil (pattern : List Char) : pieces pattern [] = { first := [] } := rfl

theorem scan_eq_pieces_drop (pattern : List Char) (skip : Nat) (cs : List Char) :
    scan pattern skip cs = pieces pattern (cs.drop skip) := by
  induction cs generalizing skip with
  | nil => cases skip <;> rfl
  | cons c cs ih =>
    cases skip with
    | zero => rfl
    | succ skip => simp [scan, ih]

theorem pieces_append_left {pattern : List Char} (h : pattern ≠ []) (cs : List Char) :
    pieces pattern (pattern ++ cs) = (pieces pattern cs).cut := by
  cases pattern with
  | nil => exact absurd rfl h
  | cons a p =>
    have hp : (a :: p).isPrefixOf (a :: (p ++ cs)) = true := by simp
    rw [List.cons_append, pieces, scan, if_pos hp, scan_eq_pieces_drop]
    simp

theorem pieces_cons {pattern : List Char} {c : Char} {cs : List Char}
    (h : ¬ pattern <+: c :: cs) : pieces pattern (c :: cs) = (pieces pattern cs).push c := by
  have hp : pattern.isPrefixOf (c :: cs) = false := by
    simpa [← List.isPrefixOf_iff_prefix] using h
  simp [pieces, scan, hp]

@[simp] theorem Pieces.fill_push (text : List Char) (c : Char) (p : Pieces) :
    (p.push c).fill text = c :: p.fill text := rfl

@[simp] theorem Pieces.fill_cut (text : List Char) (p : Pieces) :
    p.cut.fill text = text ++ p.fill text := by
  have hgo : ∀ (k : Nat) (rest : List (List Char)),
      fillFrom.go (fun _ => text) (k + 1) rest = fillFrom.go (fun _ => text) k rest := by
    intro k rest
    induction rest generalizing k with
    | nil => rfl
    | cons q rest ih => simp only [fillFrom.go, ih]
  simp [fill, fillFrom, cut, fillFrom.go, hgo]

theorem Pieces.fill_mk_cons (text first cs : List Char) (rest : List (List Char)) :
    (⟨first, cs :: rest⟩ : Pieces).fill text =
      first ++ (text ++ (⟨cs, rest⟩ : Pieces).fill text) := by
  have hcut := fill_cut text ⟨cs, rest⟩
  simp only [fill, fillFrom, cut, List.nil_append] at hcut ⊢
  rw [hcut]

/-- The pieces around a pattern and the pattern in every gap make up the text. -/
theorem fill_pieces {pattern : List Char} (h : pattern ≠ []) (cs : List Char) :
    (pieces pattern cs).fill pattern = cs := by
  suffices hscan : ∀ (cs : List Char) (skip : Nat),
      (scan pattern skip cs).fill pattern = cs.drop skip from hscan cs 0
  intro cs
  induction cs with
  | nil => intro skip; simp [scan, Pieces.fill, Pieces.fillFrom, Pieces.fillFrom.go]
  | cons c cs ih =>
    intro skip
    cases skip with
    | succ skip => simpa [scan] using ih skip
    | zero =>
      rw [scan]
      split
      next hfound =>
        obtain ⟨rest, hrest⟩ := List.isPrefixOf_iff_prefix.1 hfound
        rw [Pieces.fill_cut, ih, List.drop_zero, ← hrest]
        congr 1
        cases pattern with
        | nil => exact absurd rfl h
        | cons d pattern =>
          rw [List.cons_append] at hrest
          simp [← (List.cons.inj hrest).2]
      next => rw [Pieces.fill_push, ih, List.drop_zero, List.drop_zero]

theorem pieces_of_not_mem {pattern cs : List Char} (h : ¬ pattern <:+: cs) :
    pieces pattern cs = { first := cs } := by
  induction cs with
  | nil => rfl
  | cons c cs ih =>
    rw [List.infix_cons_iff, not_or] at h
    rw [pieces_cons h.1, ih h.2]
    rfl

def occurrences (pattern text : List Char) : Nat := (pieces pattern text).rest.length

def replace (pattern replacement text : String) : String :=
  String.ofList ((pieces pattern.toList text.toList).fill replacement.toList)

def contains (pattern : List Char) : List Char → Bool
  | [] => pattern.isEmpty
  | c :: cs => pattern.isPrefixOf (c :: cs) || contains pattern cs

theorem contains_iff {pattern text : List Char} :
    contains pattern text = true ↔ pattern <:+: text := by
  induction text with
  | nil => simp [contains]
  | cons c cs ih =>
    simp [contains, ih, List.infix_cons_iff]

end SqlAssembly.Text
