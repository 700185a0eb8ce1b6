/-! # Text as UTF-8

Lengths and cuts of a text measured in bytes of its encoding, and the text that a sequence of bytes
stands for.  In decoding, every maximal run of bytes that begins a character but does not complete
it, and every byte that begins none, stands for the replacement character.
-/
namespace SqlAssembly.Text

def byteLength (cs : List Char) : Nat := cs.foldr (fun c n => c.utf8Size + n) 0

@[simp] theorem byteLength_nil : byteLength [] = 0 := rfl

@[simp] theorem byteLength_cons (c : Char) (cs : List Char) :
    byteLength (c :: cs) = c.utf8Size + byteLength cs := rfl

@[simp] theorem byteLength_append (cs ds : List Char) :
    byteLength (cs ++ ds) = byteLength cs + byteLength ds := by
  induction cs with
  | nil => simp
  | cons c cs ih => simp [ih, Nat.add_assoc]

/-- The characters cut in two at a byte offset; none if the offset lies inside a character or beyond
the end. -/
def splitAtByte? : Nat → List Char → Option (List Char × List Char)
  | 0, cs => some ([], cs)
  | _ + 1, [] => none
  | n + 1, c :: cs =>
    if c.utf8Size ≤ n + 1 then
      (splitAtByte? (n + 1 - c.utf8Size) cs).map fun (front, back) => (c :: front, back)
    else none

theorem splitAtByte?_append (front back : List Char) :
    splitAtByte? (byteLength front) (front ++ back) = some (front, back) := by
  induction front with
  | nil => simp [splitAtByte?]
  | cons c front ih =>
    have hpos := c.utf8Size_pos
    obtain ⟨n, hn⟩ : ∃ n, byteLength (c :: front) = n + 1 :=
      Nat.exists_eq_add_one.2 (by simp; omega)
    have hrest : n + 1 - c.utf8Size = byteLength front := by rw [← hn, byteLength_cons]; omega
    have hfits : c.utf8Size ≤ n + 1 := by rw [← hn, byteLength_cons]; omega
    rw [hn, List.cons_append, splitAtByte?, if_pos hfits, hrest, ih]
    rfl

theorem splitAtByte?_eq_some {n : Nat} {cs front back : List Char} :
    splitAtByte? n cs = some (front, back) ↔ cs = front ++ back ∧ byteLength front = n := by
  constructor
  · intro h
    fun_induction splitAtByte? n cs generalizing front with
    | case1 cs =>
      cases h
      exact ⟨rfl, rfl⟩
    | case2 => cases h
    | case3 n c cs hfits ih =>
      obtain ⟨⟨front, back⟩, hsplit, heq⟩ := Option.map_eq_some_iff.1 h
      cases heq
      obtain ⟨rfl, hlength⟩ := ih hsplit
      exact ⟨rfl, by rw [byteLength_cons]; omega⟩
    | case4 => cases h
  · rintro ⟨rfl, rfl⟩
    exact splitAtByte?_append front back

/-- Whether a byte offset lies between two characters, or at an end. -/
def isBoundary (n : Nat) (cs : List Char) : Bool := (splitAtByte? n cs).isSome

def sliceTo (n : Nat) (cs : List Char) (h : isBoundary n cs = true) : List Char :=
  ((splitAtByte? n cs).get h).1

/-- The last boundary at a byte offset or before it, searched for backwards. -/
def boundaryBefore (cs : List Char) : Nat → Nat
  | 0 => 0
  | n + 1 => if isBoundary (n + 1) cs then n + 1 else boundaryBefore cs n

theorem isBoundary_boundaryBefore (cs : List Char) (n : Nat) :
    isBoundary (boundaryBefore cs n) cs = true := by
  induction n with
  | zero => simp [boundaryBefore, isBoundary, splitAtByte?]
  | succ n ih =>
    rw [boundaryBefore]
    split
    next h => exact h
    next => exact ih

def encode (s : String) : List UInt8 := s.toUTF8.data.toList

def replacement : Char := '\uFFFD'

/-- What a character's first byte allows: how many bytes follow it, the range of the next one, and
the value of its own payload. -/
structure Lead where
  following : Nat
  low : UInt8
  high : UInt8
  payload : Nat
deriving DecidableEq, Repr

/-- The well-formed first bytes of characters of two to four bytes.  The range of the second byte
excludes overlong forms, surrogates, and values above U+10FFFF. -/
def lead? (b : UInt8) : Option Lead :=
  let n := b.toNat
  if 0xC2 ≤ n ∧ n ≤ 0xDF then some ⟨1, 0x80, 0xBF, n - 0xC0⟩
  else if n = 0xE0 then some ⟨2, 0xA0, 0xBF, 0⟩
  else if n = 0xED then some ⟨2, 0x80, 0x9F, 0xD⟩
  else if 0xE1 ≤ n ∧ n ≤ 0xEF then some ⟨2, 0x80, 0xBF, n - 0xE0⟩
  else if n = 0xF0 then some ⟨3, 0x90, 0xBF, 0⟩
  else if n = 0xF4 then some ⟨3, 0x80, 0x8F, 4⟩
  else if 0xF1 ≤ n ∧ n ≤ 0xF3 then some ⟨3, 0x80, 0xBF, n - 0xF0⟩
  else none

/-- A character being read: the bytes it still needs, the range of the next, and its value so
far. -/
structure Partial where
  remaining : Nat
  low : UInt8
  high : UInt8
  value : Nat
deriving DecidableEq, Repr

/-- A byte read between characters: the characters it settles, and the one it begins. -/
def begin (b : UInt8) : List Char × Option Partial :=
  if b < 0x80 then ([Char.ofNat b.toNat], none)
  else match lead? b with
    | some l => ([], some ⟨l.following, l.low, l.high, l.payload⟩)
    | none => ([replacement], none)

/-- A byte read with `p` under way: the characters it settles, and the one then under way. -/
def Partial.next (p : Partial) (b : UInt8) : List Char × Option Partial :=
  if p.low ≤ b ∧ b ≤ p.high then
    let value := p.value * 64 + (b.toNat - 0x80)
    if p.remaining ≤ 1 then ([Char.ofNat value], none)
    else ([], some ⟨p.remaining - 1, 0x80, 0xBF, value⟩)
  else
    let (out, started) := begin b
    (replacement :: out, started)

/-- The characters of a sequence of bytes, with `underWay` begun before it. -/
def decodeFrom (underWay : Option Partial) : List UInt8 → List Char
  | [] => if underWay.isSome then [replacement] else []
  | b :: bs =>
    let (out, after) := match underWay with
      | none => begin b
      | some p => p.next b
    out ++ decodeFrom after bs

def decode (bytes : List UInt8) : String := String.ofList (decodeFrom none bytes)

end SqlAssembly.Text
