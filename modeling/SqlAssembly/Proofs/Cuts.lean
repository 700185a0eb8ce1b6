import SqlAssembly.Settings

/-! # Cuts between characters

A byte offset is a boundary of a text if the text ends there or the byte there begins a character of
its encoding, and a text cut at a boundary is an encoding cut there.  The search for the last
boundary within a limit passes over no other one and goes back by three bytes at most, so a logged
text is the longest run of whole leading characters that the limit has room for. -/
namespace SqlAssembly

namespace Text

theorem encode_append (s t : String) : encode (s ++ t) = encode s ++ encode t := by
  simp [encode]

theorem length_encode (s : String) : (encode s).length = s.utf8ByteSize := by
  rw [encode, Array.length_toList]
  exact String.size_toByteArray

theorem byteLength_ofList (cs : List Char) : byteLength cs = (String.ofList cs).utf8ByteSize := by
  induction cs with
  | nil => rfl
  | cons c cs ih => simp [String.ofList_cons, ih]

theorem byteLength_toList (s : String) : byteLength s.toList = (encode s).length := by
  rw [byteLength_ofList, String.ofList_toList, length_encode]

theorem byteLength_eq_zero {cs : List Char} (h : byteLength cs = 0) : cs = [] := by
  cases cs with
  | nil => rfl
  | cons c cs =>
    have hpos := c.utf8Size_pos
    rw [byteLength_cons] at h
    omega

theorem isBoundary_iff_append {n : Nat} {cs : List Char} :
    isBoundary n cs = true ↔ ∃ front back, cs = front ++ back ∧ byteLength front = n := by
  simp only [isBoundary, Option.isSome_iff_exists, Prod.exists, splitAtByte?_eq_some]

/-- A boundary is the end of a text, or an offset whose byte begins a character. -/
theorem isBoundary_iff_byte {n : Nat} {s : String} : isBoundary n s.toList = true ↔
    n = (encode s).length ∨ ∃ b, (encode s)[n]? = some b ∧ b.IsUTF8FirstByte := by
  have hvalid : isBoundary n s.toList = true ↔ (⟨n⟩ : String.Pos.Raw).IsValid s := by
    rw [isBoundary_iff_append, String.Pos.Raw.isValid_iff_exists_append]
    constructor
    · rintro ⟨front, back, happend, hlength⟩
      refine ⟨String.ofList front, String.ofList back, ?_, String.Pos.Raw.ext ?_⟩
      · rw [← String.ofList_append, ← happend, String.ofList_toList]
      · rw [← hlength, byteLength_ofList, String.byteIdx_rawEndPos]
    · rintro ⟨front, back, rfl, hlength⟩
      refine ⟨front.toList, back.toList, String.toList_append, ?_⟩
      rw [byteLength_toList, length_encode]
      exact (congrArg String.Pos.Raw.byteIdx hlength).symm
  rw [hvalid, String.Pos.Raw.isValid_iff_isUTF8FirstByte, length_encode]
  apply or_congr
  · exact ⟨congrArg String.Pos.Raw.byteIdx, String.Pos.Raw.ext⟩
  · simp only [List.getElem?_eq_some_iff, length_encode]
    constructor
    · rintro ⟨h, hbyte⟩
      exact ⟨_, ⟨h, rfl⟩, hbyte⟩
    · rintro ⟨_, ⟨h, rfl⟩, hbyte⟩
      exact ⟨h, hbyte⟩

theorem sliceTo_append {n : Nat} {cs : List Char} (h : isBoundary n cs = true) :
    ∃ back, cs = sliceTo n cs h ++ back ∧ byteLength (sliceTo n cs h) = n := by
  obtain ⟨⟨front, back⟩, hsplit⟩ := Option.isSome_iff_exists.1 h
  have hslice : sliceTo n cs h = front := by simp [sliceTo, hsplit]
  rw [hslice]
  exact ⟨back, splitAtByte?_eq_some.1 hsplit⟩

theorem encode_cut {n : Nat} {front : String} (back : String) (h : (encode front).length = n) :
    encode front = (encode (front ++ back)).take n ∧
      encode back = (encode (front ++ back)).drop n := by
  rw [encode_append, ← h, List.take_left, List.drop_left]
  exact ⟨rfl, rfl⟩

/-- Either a text is cut at a byte offset between two characters, and its encoding with it, or the
offset lies beyond the end or inside a character, and there is no cut. -/
theorem splitAtByte?_cases (n : Nat) (s : String) :
    (∃ front back : String, splitAtByte? n s.toList = some (front.toList, back.toList) ∧
      s = front ++ back ∧ encode front = (encode s).take n ∧ encode back = (encode s).drop n) ∨
    (splitAtByte? n s.toList = none ∧
      n ≠ (encode s).length ∧ ∀ b, (encode s)[n]? = some b → ¬ b.IsUTF8FirstByte) := by
  cases hsplit : splitAtByte? n s.toList with
  | some parts =>
    obtain ⟨happend, hlength⟩ := splitAtByte?_eq_some.1 hsplit
    have hs : s = String.ofList parts.1 ++ String.ofList parts.2 := by
      rw [← String.ofList_append, ← happend, String.ofList_toList]
    have hfront : (encode (String.ofList parts.1)).length = n := by
      rw [← byteLength_toList, String.toList_ofList, hlength]
    have hbytes := encode_cut (String.ofList parts.2) hfront
    rw [← hs] at hbytes
    exact .inl ⟨_, _, by rw [String.toList_ofList, String.toList_ofList], hs, hbytes⟩
  | none =>
    have hnot : ¬ isBoundary n s.toList = true := by simp [isBoundary, hsplit]
    rw [isBoundary_iff_byte, not_or] at hnot
    exact .inr ⟨rfl, hnot.1, fun b hb hfirst => hnot.2 ⟨b, hb, hfirst⟩⟩

/-! ## The search for a boundary -/

theorem boundaryBefore_le (cs : List Char) (n : Nat) : boundaryBefore cs n ≤ n := by
  induction n with
  | zero => exact Nat.le_refl 0
  | succ n ih =>
    rw [boundaryBefore]
    split
    next => exact Nat.le_refl _
    next => omega

/-- The search passes over no boundary. -/
theorem le_boundaryBefore {cs : List Char} {m n : Nat} (h : isBoundary m cs = true) (hle : m ≤ n) :
    m ≤ boundaryBefore cs n := by
  induction n with
  | zero => exact hle
  | succ n ih =>
    rw [boundaryBefore]
    split
    next => exact hle
    next hnot =>
      have hne : m ≠ n + 1 := fun heq => hnot (heq ▸ h)
      exact ih (by omega)

/-- The character at which the search stops would not fit, and no character has more than four
bytes. -/
theorem le_boundaryBefore_add_three {cs : List Char} {n : Nat} (h : n ≤ byteLength cs) :
    n ≤ boundaryBefore cs n + 3 := by
  obtain ⟨front, back, rfl, hlength⟩ := isBoundary_iff_append.1 (isBoundary_boundaryBefore cs n)
  cases back with
  | nil =>
    rw [List.append_nil] at h hlength ⊢
    omega
  | cons c back =>
    have hnext : isBoundary (byteLength (front ++ [c])) (front ++ c :: back) = true :=
      isBoundary_iff_append.2 ⟨front ++ [c], back, by simp, rfl⟩
    have hsize := c.utf8Size_le_four
    have hlonger : n < byteLength (front ++ [c]) := by
      apply Nat.lt_of_not_le
      intro hfits
      have hle := le_boundaryBefore hnext hfits
      have hpos := c.utf8Size_pos
      rw [← hlength, byteLength_append, byteLength_cons] at hle
      omega
    rw [byteLength_append, byteLength_cons, byteLength_nil] at hlonger
    omega

/-- Of the runs of leading characters that fit in a number of bytes, the one before the last
boundary is the longest. -/
theorem prefix_sliceTo {cs p : List Char} {n : Nat} (hp : p <+: cs) (hfits : byteLength p ≤ n) :
    p <+: sliceTo (boundaryBefore cs n) cs (isBoundary_boundaryBefore cs n) := by
  obtain ⟨back, hcs, hlength⟩ := sliceTo_append (isBoundary_boundaryBefore cs n)
  generalize sliceTo _ cs _ = front at hcs hlength
  obtain ⟨rest, hrest⟩ := hp
  have hle : byteLength p ≤ byteLength front := by
    rw [hlength]
    exact le_boundaryBefore (isBoundary_iff_append.2 ⟨p, rest, hrest.symm, rfl⟩) hfits
  rcases List.prefix_or_prefix_of_prefix (⟨rest, hrest⟩ : p <+: cs) ⟨back, hcs.symm⟩ with h | h
  · exact h
  · obtain ⟨more, rfl⟩ := h
    rw [byteLength_append] at hle
    obtain rfl := byteLength_eq_zero (by omega : byteLength more = 0)
    exact ⟨[], by rw [List.append_nil, List.append_nil]⟩

end Text

/-! ## Logged texts -/

namespace Settings

theorem truncate_of_lt {s : Settings} {limit : Nat} (h : s.maxLogLength = some limit) {sql : String}
    (hlong : limit < (Text.encode sql).length) : s.truncate sql =
      String.ofList (Text.sliceTo (Text.boundaryBefore sql.toList limit) sql.toList
        (Text.isBoundary_boundaryBefore ..)) ++ "..." := by
  have hnot : ¬ Text.byteLength sql.toList ≤ limit := by
    rw [Text.byteLength_toList]
    omega
  rw [truncate, h]
  exact if_neg hnot

/-- A text within the limit is logged as it is.  Of a longer one, the log keeps what comes before
the last offset within the limit at which a character begins, and this is the longest run of whole
characters that fits. -/
theorem truncate_keeps_longest (s : Settings) (sql : String) :
    (s.maxLogLength = none → s.truncate sql = sql) ∧
    ∀ limit, s.maxLogLength = some limit →
      ((Text.encode sql).length ≤ limit → s.truncate sql = sql) ∧
      (limit < (Text.encode sql).length → ∃ kept dropped,
        s.truncate sql = kept ++ "..." ∧ sql = kept ++ dropped ∧
        (Text.encode kept).length ≤ limit ∧ limit ≤ (Text.encode kept).length + 3 ∧
        (∀ front back, sql = front ++ back → (Text.encode front).length ≤ limit →
          ∃ more, kept = front ++ more) ∧
        let cut := Text.boundaryBefore sql.toList limit
        Text.encode kept = (Text.encode sql).take cut ∧
        (∃ b, (Text.encode sql)[cut]? = some b ∧ b.IsUTF8FirstByte) ∧
        ∀ n, cut < n → n ≤ limit → ∀ b, (Text.encode sql)[n]? = some b → ¬ b.IsUTF8FirstByte) := by
  refine ⟨fun h => by rw [truncate, h], fun limit hlimit => ⟨fun hshort => ?_, fun hlong => ?_⟩⟩
  · rw [← Text.byteLength_toList] at hshort
    rw [truncate, hlimit]
    exact if_pos hshort
  have hboundary := Text.isBoundary_boundaryBefore sql.toList limit
  have hcut := Text.boundaryBefore_le sql.toList limit
  obtain ⟨back, happend, hlength⟩ := Text.sliceTo_append hboundary
  have hlongest (p : List Char) (hp : p <+: sql.toList) (hfits : Text.byteLength p ≤ limit) :=
    Text.prefix_sliceTo hp hfits
  have hlogged := truncate_of_lt hlimit hlong
  generalize Text.sliceTo _ sql.toList _ = kept at happend hlength hlongest hlogged
  have hsql : sql = String.ofList kept ++ String.ofList back := by
    rw [← String.ofList_append, ← happend, String.ofList_toList]
  have hkept : (Text.encode (String.ofList kept)).length =
      Text.boundaryBefore sql.toList limit := by
    rw [← Text.byteLength_toList, String.toList_ofList, hlength]
  refine ⟨String.ofList kept, String.ofList back, hlogged, hsql, by omega, ?_, ?_, ?_, ?_, ?_⟩
  · rw [hkept]
    apply Text.le_boundaryBefore_add_three
    rw [Text.byteLength_toList]
    omega
  · intro front rest hfront hfits
    have hprefix : front.toList <+: sql.toList :=
      ⟨rest.toList, by rw [hfront, String.toList_append]⟩
    obtain ⟨more, hmore⟩ := hlongest _ hprefix (by rwa [Text.byteLength_toList])
    exact ⟨String.ofList more, by rw [← hmore, String.ofList_append, String.ofList_toList]⟩
  · have hbytes := (Text.encode_cut (String.ofList back) hkept).1
    rwa [← hsql] at hbytes
  · rcases Text.isBoundary_iff_byte.1 hboundary with hend | hbyte
    · omega
    · exact hbyte
  · intro n hlow hhigh b hb hfirst
    have hle := Text.le_boundaryBefore (Text.isBoundary_iff_byte.2 (.inr ⟨b, hb, hfirst⟩)) hhigh
    omega

/-- A limit inside a character of three bytes. -/
theorem truncate_keeps_longest_euro :
    let s : Settings := { maxLogLength := some 10 }
    let sql := "SELECT '€' AS price"
    s.maxLogLength = some 10 ∧ 10 < (Text.encode sql).length ∧ s.truncate sql = "SELECT '..." ∧
      ∀ front back, sql = front ++ back → (Text.encode front).length ≤ 10 →
        ∃ more, "SELECT '" = front ++ more := by
  intro s sql
  have hlong : 10 < (Text.encode sql).length := by decide
  have hlogged : s.truncate sql = "SELECT '" ++ "..." := by decide
  obtain ⟨kept, -, hkept, -, -, -, hlongest, -⟩ := ((truncate_keeps_longest s sql).2 10 rfl).2 hlong
  obtain rfl : kept = "SELECT '" := String.append_left_inj _ |>.1 (hkept.symm.trans hlogged)
  exact ⟨rfl, hlong, hlogged, hlongest⟩

end Settings

end SqlAssembly
