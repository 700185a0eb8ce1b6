import SqlAssembly.Decimal.Numeral
import SqlAssembly.Proofs.Cuts
import SqlAssembly.Proofs.Rounding
import SqlAssembly.Wire

/-! # Integers on the wire

What the server makes of the bytes of an integer.  Two's complement and big-endian bytes are read
back, decimal digits are text and read back, and the eight-byte number of an integer is its nearest.
A column of four-byte numbers is the one that is sent the wrong form: that of eight-byte integers.
-/
namespace SqlAssembly

namespace Text

theorem encode_cons_of_lt {c : Char} (h : c.toNat < 0x80) (cs : List Char) :
    encode (String.ofList (c :: cs)) = c.toUInt8 :: encode (String.ofList cs) := by
  have hsize : c.utf8Size = 1 := by
    rw [Char.utf8Size_eq_one_iff, UInt32.le_iff_toNat_le]
    exact Nat.le_of_lt_succ h
  have hbyte : encode (String.ofList [c]) = [c.toUInt8] := by
    rw [encode, String.toUTF8_eq_toByteArray, String.toByteArray_ofList, List.utf8Encode_singleton,
      String.utf8EncodeChar_eq_singleton hsize]
    rfl
  rw [← List.singleton_append, String.ofList_append, encode_append, hbyte, List.singleton_append]

/-- Bytes of characters that take one byte each are read back. -/
theorem decode_encode_of_ascii {cs : List Char} (h : ∀ c ∈ cs, c.toNat < 0x80) :
    decode (encode (String.ofList cs)) = String.ofList cs := by
  rw [decode]
  congr 1
  induction cs with
  | nil => rfl
  | cons c cs ih =>
    obtain ⟨hc, hcs⟩ := List.forall_mem_cons.1 h
    have hbyte : c.toUInt8.toNat = c.toNat :=
      UInt8.toNat_ofNat_of_lt' (Nat.lt_trans hc (by decide))
    have hlow : c.toUInt8 < 0x80 := by
      rw [UInt8.lt_iff_toNat_lt, hbyte]
      exact hc
    rw [encode_cons_of_lt hc, decodeFrom]
    simp only [begin, if_pos hlow, hbyte, ih hcs, Char.ofNat_toNat, List.singleton_append]

end Text

/-! ## Decimal digits -/

namespace Decimal

theorem isDigit_of_mem_digits {n : Nat} {c : Char} (h : c ∈ Nat.toDigits 10 n) : c.isDigit = true :=
  Nat.isDigit_of_mem_toDigits (by decide) (by decide) h

theorem toList_toString (n : Int) : (toString n).toList =
    if 0 ≤ n then Nat.toDigits 10 n.toNat else '-' :: Nat.toDigits 10 (-n).toNat := by
  rw [Int.toString_eq_repr, Int.repr_eq_if]
  split <;> simp [Nat.repr_eq_ofList_toDigits]

theorem toNat_lt_of_mem_toString {n : Int} {c : Char} (h : c ∈ (toString n).toList) :
    c.toNat < 0x80 := by
  have hdigit (m : Nat) (hc : c ∈ Nat.toDigits 10 m) : c.toNat < 0x80 :=
    (Char.isDigit_iff_toNat.1 (isDigit_of_mem_digits hc)).2.trans_lt (by decide)
  rw [toList_toString] at h
  split at h
  · exact hdigit _ h
  · rcases List.mem_cons.1 h with rfl | h
    · decide
    · exact hdigit _ h

theorem exponentValue?_digits {cs : List Char} (hne : cs ≠ []) (h : ∀ c ∈ cs, c.isDigit = true) :
    Numeral.exponentValue? cs = some (digitsValue cs : Int) ∧
      Numeral.exponentValue? ('-' :: cs) = some (-digitsValue cs : Int) := by
  have hdigits : cs ≠ [] ∧ cs.all Char.isDigit = true := ⟨hne, List.all_eq_true.2 h⟩
  constructor
  · rw [Numeral.exponentValue?, if_pos hdigits, Int.one_mul]
    · rintro ds rfl
      exact absurd (h '-' List.mem_cons_self) (by decide)
    · rintro ds rfl
      exact absurd (h '+' List.mem_cons_self) (by decide)
  · simp only [Numeral.exponentValue?, if_pos hdigits, Int.neg_mul, Int.one_mul]

/-- The digits of an integer, behind its sign, are read back. -/
theorem exponentValue?_toString (n : Int) :
    Numeral.exponentValue? (toString n).toList = some n := by
  have hread (m : Nat) := @exponentValue?_digits (Nat.toDigits 10 m) Nat.toDigits_ne_nil
    fun _ => isDigit_of_mem_digits
  have hvalue (m : Nat) : digitsValue (Nat.toDigits 10 m) = m := Nat.ofDigitChars_ten_toDigits
  rw [toList_toString]
  split
  next h => rw [(hread _).1, hvalue, Int.toNat_of_nonneg h]
  next h => rw [(hread _).2, hvalue, Int.toNat_of_nonneg (by omega), Int.neg_neg]

end Decimal

namespace Wire

/-! ## Two's complement -/

/-- The natural number whose bytes are given, most significant first. -/
def readBytes (data : List UInt8) : Nat := data.foldl (fun n b => n * 256 + b.toNat) 0

def readSigned (data : List UInt8) : Int := Int.bmod (readBytes data) (2 ^ (8 * data.length))

theorem readBytes_bigEndian (width n : Nat) :
    readBytes (bigEndian width n) = n % 2 ^ (8 * width) := by
  induction width generalizing n with
  | zero => simp [bigEndian, readBytes, Nat.mod_one]
  | succ width ih =>
    have hlast : readBytes (bigEndian (width + 1) n) =
        readBytes (bigEndian width (n / 256)) * 256 + n % 256 := by
      rw [readBytes, bigEndian, List.foldl_append]
      simp [readBytes]
    have hpower : 2 ^ (8 * (width + 1)) = 256 * 2 ^ (8 * width) := by
      rw [Nat.mul_add_one 8 width, Nat.pow_add, Nat.mul_comm]
    rw [hlast, ih, hpower, Nat.mod_mul]
    omega

theorem length_twosComplement (width : Nat) (n : Int) : (twosComplement width n).length = width :=
  length_bigEndian _ _

theorem readSigned_twosComplement {width : Nat} (hwidth : 0 < width) {n : Int} (h : Fits width n) :
    readSigned (twosComplement width n) = n := by
  have hhalf : (2 ^ (8 * width - 1) * 2 : Int) = 2 ^ (8 * width) := by
    exact_mod_cast Nat.two_pow_pred_mul_two (w := 8 * width) (by omega)
  have hpos : (0 : Int) < (2 ^ (8 * width) : Nat) := by exact_mod_cast Nat.two_pow_pos _
  have hread : (readBytes (twosComplement width n) : Int) = n % (2 ^ (8 * width) : Nat) := by
    have hnonneg := Int.emod_nonneg n hpos.ne'
    rw [twosComplement, readBytes_bigEndian]
    push_cast at hnonneg ⊢
    rw [Int.toNat_of_nonneg hnonneg, Int.emod_emod_of_dvd _ (Int.dvd_refl _)]
  obtain ⟨hlow, hhigh⟩ := h
  rw [readSigned, hread, length_twosComplement, Int.emod_bmod]
  exact Int.bmod_eq_of_le_mul_two (by push_cast; omega) (by push_cast; omega)

theorem checkedInteger_cases (width : Nat) (hwidth : 0 < width) (n : Int) :
    ¬ Fits width n ∧ checkedInteger width n = none ∨
      Fits width n ∧ ∃ data, checkedInteger width n = some data ∧
        data.length = width ∧ readSigned data = n := by
  by_cases h : Fits width n
  · exact .inr ⟨h, twosComplement width n, if_pos h, length_twosComplement _ _,
      readSigned_twosComplement hwidth h⟩
  · exact .inl ⟨h, if_neg h⟩

/-! ## Forms -/

/-- Bytes in the form of a type that stand for an integer. -/
def Denotes (type : ColumnType) (data : List UInt8) (n : Int) : Prop :=
  match type with
  | .int2 => data.length = 2 ∧ readSigned data = n
  | .int4 => data.length = 4 ∧ readSigned data = n
  | .int8 => data.length = 8 ∧ readSigned data = n
  | .float4 => data.length = 4 ∧ Decimal.single.Rounds (readBytes data) n ∧
      (n.natAbs ≤ 2 ^ 24 → Decimal.single.ofWord? (readBytes data) = some (n : ℚ))
  | .float8 => data.length = 8 ∧ Decimal.double.Rounds (readBytes data) n ∧
      (n.natAbs ≤ 2 ^ 53 → Decimal.double.ofWord? (readBytes data) = some (n : ℚ))
  | .text | .varchar => Text.decode data = toString n ∧
      Decimal.Numeral.exponentValue? (Text.decode data).toList = some n
  | _ => False

/-- The types whose form for integers is known. -/
def integerTypes : List ColumnType := [.int2, .int4, .int8, .float4, .float8, .text, .varchar]

def Holds (type : ColumnType) (n : Int) : Prop :=
  match type with
  | .int2 => -2 ^ 15 ≤ n ∧ n < 2 ^ 15
  | .int4 => -2 ^ 31 ≤ n ∧ n < 2 ^ 31
  | _ => True

theorem denotes_text (n : Int) : Denotes .text (Text.encode (toString n)) n := by
  have hdecode := Text.decode_encode_of_ascii fun _ => Decimal.toNat_lt_of_mem_toString (n := n)
  rw [String.ofList_toList] at hdecode
  exact ⟨hdecode, by rw [hdecode, Decimal.exponentValue?_toString]⟩

theorem denotes_float8 {n : Int} (h : n.natAbs < 2 ^ 64) :
    Denotes .float8 (bigEndian 8 (Decimal.Double.ofInt n).bits.toNat) n := by
  have hread : readBytes (bigEndian 8 (Decimal.Double.ofInt n).bits.toNat) =
      (Decimal.Double.ofInt n).bits.toNat := by
    rw [readBytes_bigEndian]
    exact Nat.mod_eq_of_lt (UInt64.toNat_lt _)
  have hrounds := Decimal.Double.rounds_ofInt h
  refine ⟨length_bigEndian _ _, by rwa [hread], fun hexact => ?_⟩
  obtain ⟨other, hother⟩ := Decimal.double_ample.exists_ofWord?_eq hexact
  rw [hread]
  exact hrounds.ofWord?_eq hother

theorem denotes_int8 {n : Int} (h : Fits 8 n) : Denotes .int8 (twosComplement 8 n) n :=
  ⟨length_twosComplement _ _, readSigned_twosComplement (by decide) h⟩

theorem not_denotes_float4 (n : Int) : ¬ Denotes .float4 (twosComplement 8 n) n := by
  rintro ⟨hlength, -⟩
  rw [length_twosComplement] at hlength
  cases hlength

theorem encodeInt_cases {type : ColumnType} (htype : type ∈ integerTypes) {n : Int}
    (h : Fits 8 n) :
    ¬ Holds type n ∧ encodeInt type n = none ∨
      Holds type n ∧ ∃ data, encodeInt type n = some data ∧
        (Denotes type data n ↔ type ≠ .float4) ∧ (type = .float4 → Denotes .int8 data n) := by
  have hlarge : n.natAbs < 2 ^ 64 := by
    obtain ⟨hlow, hhigh⟩ := h
    omega
  have hsent {type : ColumnType} (hne : type ≠ .float4) {data : List UInt8}
      (h : Denotes type data n) :
      (Denotes type data n ↔ type ≠ .float4) ∧ (type = .float4 → Denotes .int8 data n) :=
    ⟨iff_of_true h hne, fun heq => absurd heq hne⟩
  simp only [integerTypes, List.mem_cons, List.not_mem_nil, or_false] at htype
  rcases htype with rfl | rfl | rfl | rfl | rfl | rfl | rfl
  · refine (checkedInteger_cases 2 (by decide) n).imp_right ?_
    exact fun ⟨hfits, data, hdata, h⟩ => ⟨hfits, data, hdata, hsent (by decide) h⟩
  · refine (checkedInteger_cases 4 (by decide) n).imp_right ?_
    exact fun ⟨hfits, data, hdata, h⟩ => ⟨hfits, data, hdata, hsent (by decide) h⟩
  · exact .inr ⟨trivial, _, rfl, hsent (by decide) (denotes_int8 h)⟩
  · exact .inr ⟨trivial, _, rfl, iff_of_false (not_denotes_float4 n) (by decide),
      fun _ => denotes_int8 h⟩
  · exact .inr ⟨trivial, _, rfl, hsent (by decide) (denotes_float8 hlarge)⟩
  · exact .inr ⟨trivial, _, rfl, hsent (by decide) (denotes_text n)⟩
  · exact .inr ⟨trivial, _, rfl, hsent (by decide) (denotes_text n)⟩

/-- An integer is sent unless the type cannot hold it, and what is sent stands for it in the form of
the type, except to a column of four-byte numbers, which is sent an integer of eight bytes. -/
theorem encode_int_denotes (type : ColumnType) (v : Int64) (htype : type ∈ integerTypes) :
    (encode type (.int v) = none ↔ ¬ Holds type v.toInt) ∧
      ∀ sent, encode type (.int v) = some sent → ∃ data, sent = .bytes data ∧
        (Denotes type data v.toInt ↔ type ≠ .float4) ∧
          (type = .float4 → Denotes .int8 data v.toInt) := by
  have hfits : Fits 8 v.toInt := ⟨v.le_toInt, v.toInt_lt⟩
  rw [encode]
  rcases encodeInt_cases htype hfits with ⟨hholds, hnone⟩ | ⟨hholds, data, hdata, hform⟩
  · rw [hnone]
    simp [hholds]
  · rw [hdata]
    simp only [Option.map_some, reduceCtorEq, hholds, not_true, Option.some.injEq, true_and]
    rintro _ rfl
    exact ⟨data, rfl, hform⟩

/-- The first integer that has no number of its own is rounded, and one beyond its type is
refused. -/
theorem encode_int_denotes_rounded :
    encode .float8 (.int 9007199254740993) = some (.bytes [0x43, 0x40, 0, 0, 0, 0, 0, 0]) ∧
      Denotes .float8 [0x43, 0x40, 0, 0, 0, 0, 0, 0] 9007199254740993 ∧
      encode .int2 (.int 32768) = none := by
  have hsent : encode .float8 (.int 9007199254740993) =
      some (.bytes [0x43, 0x40, 0, 0, 0, 0, 0, 0]) := by decide +kernel
  obtain ⟨data, hdata, hform, -⟩ :=
    (encode_int_denotes .float8 9007199254740993 (by decide)).2 _ hsent
  cases hdata
  have hholds : ¬ Holds .int2 (32768 : Int64).toInt := fun h => absurd h.2 (by decide)
  exact ⟨hsent, hform.2 (by decide), (encode_int_denotes .int2 32768 (by decide)).1.2 hholds⟩

/-- For the integer one a column of four-byte numbers gets eight bytes; for the number one it gets
the four that stand for it. -/
theorem encode_int_single :
    encode .float4 (.int 1) = some (.bytes [0, 0, 0, 0, 0, 0, 0, 1]) ∧
      ¬ Denotes .float4 [0, 0, 0, 0, 0, 0, 0, 1] 1 ∧
      encode .float4 (.float (Decimal.Double.ofInt 1)) = some (.bytes [0x3F, 0x80, 0, 0]) ∧
      Denotes .float4 [0x3F, 0x80, 0, 0] 1 := by
  have hone : (1 : Int).natAbs < 2 ^ 1 := by decide
  obtain ⟨-, hrounds⟩ := Decimal.single_ample.rounds_ofInt (by decide) hone
  have hword : (if decide ((1 : Int) < 0) then Decimal.single.signUnit else 0) +
      Decimal.single.ofRatio (1 : Int).natAbs 1 = readBytes [0x3F, 0x80, 0, 0] := by decide +kernel
  obtain ⟨other, hother⟩ := Decimal.single_ample.exists_ofWord?_eq (n := 1) (by decide)
  rw [hword] at hrounds
  exact ⟨by decide +kernel, not_denotes_float4 1, by decide +kernel, rfl, hrounds,
    fun _ => hrounds.ofWord?_eq hother⟩

end Wire

end SqlAssembly
