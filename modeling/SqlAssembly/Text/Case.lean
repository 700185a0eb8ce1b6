/-! # Letter case within ASCII

Case is changed and ignored for the letters A to Z only; every other character stands for itself.
-/
namespace SqlAssembly.Text

def upper (s : String) : String := String.ofList (s.toList.map Char.toUpper)

def lower (s : String) : String := String.ofList (s.toList.map Char.toLower)

@[simp] theorem toList_upper (s : String) : (upper s).toList = s.toList.map Char.toUpper :=
  String.toList_ofList

@[simp] theorem toList_lower (s : String) : (lower s).toList = s.toList.map Char.toLower :=
  String.toList_ofList

/-- Equality of texts up to the case of ASCII letters. -/
def sameLetters (s t : String) : Bool := s.toList.map Char.toLower == t.toList.map Char.toLower

theorem sameLetters_iff (s t : String) : sameLetters s t = true ↔ lower s = lower t := by
  rw [← String.toList_inj]
  simp [sameLetters]

/-- What holds of every character and itself, and of the ASCII characters and their upper case,
holds of every character and its upper case. -/
theorem toUpper_cases {P : Char → Char → Prop} (hself : ∀ c, P c c)
    (hascii : ∀ n : Fin 128, P (Char.ofNat n) (Char.ofNat n).toUpper) (c : Char) :
    P c c.toUpper := by
  by_cases hc : 'a'.val ≤ c.val ∧ c.val ≤ 'z'.val
  · have hz : c.toNat ≤ 122 := UInt32.le_iff_toNat_le.1 hc.2
    have hn := hascii ⟨c.toNat, by omega⟩
    rwa [Char.ofNat_toNat] at hn
  · have hsame : c.toUpper = c := dif_neg hc
    rw [hsame]
    exact hself c

theorem lower_upper (s : String) : lower (upper s) = lower s := by
  have hchar : ∀ c : Char, c.toUpper.toLower = c.toLower :=
    toUpper_cases (P := fun c d => d.toLower = c.toLower) (fun _ => rfl) (by decide)
  rw [← String.toList_inj]
  simp [hchar]

/-- Letters, digits and the underscore: the characters that continue a keyword. -/
def isWordChar (c : Char) : Bool := c.isAlphanum || c == '_'

end SqlAssembly.Text
