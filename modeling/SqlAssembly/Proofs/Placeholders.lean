import SqlAssembly.Proofs.Occurrences

/-! # Placeholders

The markers of a text cut it into pieces, each at the leftmost marker of what is left, and a
vendor's placeholders stand between the same pieces.  No marker comes about where a placeholder
meets a piece, and wherever a placeholder can be told from what is around it, its marker can be put
back. -/
namespace SqlAssembly

open Text (Pieces LeftmostSplit isSeparator isSpacer)

namespace Marker

/-- The text with a marker for every placeholder: for each `?`, or for each `$` and the digits after
it. -/
def ofPlaceholders (style : PlaceholderStyle) (sql : String) : String :=
  match style with
  | .question => Text.replace "?" text sql
  | .numbered =>
    let p := Text.pieces ['$'] sql.toList
    String.ofList (Pieces.fill text.toList ⟨p.first, p.rest.map (·.dropWhile Char.isDigit)⟩)

theorem isSpacer_placeholder (style : PlaceholderStyle) (k : Nat) :
    isSpacer (String.ofList (style.placeholder k)) = true := by
  cases style with
  | question => exact (by decide : isSpacer "?" = true)
  | numbered =>
    have hdigits : ∀ c ∈ Nat.toDigits 10 k, isSeparator c = true := fun c hc =>
      Text.isSeparator_of_isDigit (Nat.isDigit_of_mem_toDigits (by decide) (by decide) hc)
    have hdollar : isSeparator '$' = true := rfl
    simpa [isSpacer, PlaceholderStyle.placeholder, hdollar] using hdigits

theorem apart_placeholder (style : PlaceholderStyle) (k : Nat) :
    Text.Apart text.toList (style.placeholder k) := by
  obtain ⟨hne, hall⟩ : style.placeholder k ≠ [] ∧
      ∀ c ∈ style.placeholder k, isSeparator c = true := by
    simpa [isSpacer] using isSpacer_placeholder style k
  exact .of_forall hne fun c hc => not_mem_of_isSeparator (hall c hc)

theorem free_withPlaceholders (style : PlaceholderStyle) (sql : String) :
    Free (withPlaceholders style sql) := by
  have hsplit := Text.leftmostSplit_pieces text_ne_nil sql.toList
  rw [Free, withPlaceholders, String.toList_ofList]
  exact Text.not_infix_fillFrom (apart_placeholder style)
    (hsplit.absent_of_mem text_ne_nil (List.mem_cons_self ..))
    (fun cs hcs => hsplit.absent_of_mem text_ne_nil (List.mem_cons_of_mem _ hcs)) 1

theorem withPlaceholders_of_free (style : PlaceholderStyle) {sql : String} (h : Free sql) :
    withPlaceholders style sql = sql := by
  rw [withPlaceholders, pieces, Text.pieces_of_not_mem h]
  simp [Pieces.fillFrom, Pieces.fillFrom.go]

/-- Digits before a text that begins with none are all the digits that it begins with. -/
theorem dropWhile_isDigit_number (k : Nat) {cs : List Char}
    (h : ∀ d, cs.head? = some d → d.isDigit = false) :
    (Nat.toDigits 10 k ++ cs).dropWhile Char.isDigit = cs := by
  rw [List.dropWhile_append_of_pos fun d hd =>
    Nat.isDigit_of_mem_toDigits (by decide) (by decide) hd]
  cases cs with
  | nil => rfl
  | cons d cs => rw [List.dropWhile_cons, h d rfl]; rfl

theorem not_mem_piece {c : Char} {sql : String} (h : c ∉ sql.toList) {cs : List Char}
    (hcs : cs ∈ (pieces sql).first :: (pieces sql).rest) : c ∉ cs := fun hmem =>
  h (((Text.leftmostSplit_pieces text_ne_nil sql.toList).infix_of_mem hcs).subset hmem)

theorem withPlaceholders_question (sql : String) :
    (withPlaceholders .question sql).toList = (pieces sql).fill ['?'] := by
  have hheaded := Pieces.fillFrom_headed '?' (fun _ => []) 1 (pieces sql)
  simp only [List.nil_append, List.zipIdx_map_fst] at hheaded
  rw [withPlaceholders, String.toList_ofList, ← hheaded]
  rfl

/-- Question marks that are in no piece are told from the pieces. -/
theorem ofPlaceholders_question {sql : String} (h : '?' ∉ sql.toList) :
    ofPlaceholders .question (withPlaceholders .question sql) = sql := by
  have hpieces : Text.pieces ['?'] (withPlaceholders .question sql).toList = pieces sql := by
    rw [withPlaceholders_question]
    exact Pieces.pieces_fill_singleton (not_mem_piece h (List.mem_cons_self ..))
      fun cs hcs => not_mem_piece h (List.mem_cons_of_mem _ hcs)
  have hmark : "?".toList = ['?'] := rfl
  rw [ofPlaceholders, Text.replace, hmark, hpieces, pieces, Text.fill_pieces text_ne_nil,
    String.ofList_toList]

/-- Dollar signs that are in no piece, and whose digits are not followed by more, are told from the
pieces. -/
theorem ofPlaceholders_numbered {sql : String} (h : '$' ∉ sql.toList)
    (hdigits : ∀ cs ∈ (pieces sql).rest, ∀ d, cs.head? = some d → d.isDigit = false) :
    ofPlaceholders .numbered (withPlaceholders .numbered sql) = sql := by
  let numbered := ((pieces sql).rest.zipIdx 1).map fun q => Nat.toDigits 10 q.2 ++ q.1
  have hfill : (withPlaceholders .numbered sql).toList =
      (⟨(pieces sql).first, numbered⟩ : Pieces).fill ['$'] := by
    rw [withPlaceholders, String.toList_ofList, ← Pieces.fillFrom_headed]
    rfl
  have hnumbered : ∀ cs ∈ numbered, '$' ∉ cs := by
    intro cs hcs hmem
    obtain ⟨⟨piece, k⟩, hpiece, rfl⟩ := List.mem_map.1 hcs
    rcases List.mem_append.1 hmem with hdigit | hmem
    · have hdollar : '$'.isDigit = true :=
        Nat.isDigit_of_mem_toDigits (by decide) (by decide) hdigit
      exact absurd hdollar (by decide)
    · have hpiece : piece ∈ (pieces sql).rest := List.fst_mem_of_mem_zipIdx hpiece
      exact not_mem_piece h (List.mem_cons_of_mem _ hpiece) hmem
  have hrest : numbered.map (·.dropWhile Char.isDigit) = (pieces sql).rest := by
    have hfst : numbered.map (·.dropWhile Char.isDigit) =
        ((pieces sql).rest.zipIdx 1).map Prod.fst := by
      rw [List.map_map]
      apply List.map_congr_left
      rintro ⟨piece, k⟩ hpiece
      exact dropWhile_isDigit_number k (hdigits piece (List.fst_mem_of_mem_zipIdx hpiece))
    rw [hfst, List.zipIdx_map_fst]
  have hpieces : Text.pieces ['$'] (withPlaceholders .numbered sql).toList =
      ⟨(pieces sql).first, numbered⟩ := by
    rw [hfill]
    exact Pieces.pieces_fill_singleton (not_mem_piece h (List.mem_cons_self ..)) hnumbered
  have hsql := Text.fill_pieces text_ne_nil sql.toList
  rw [ofPlaceholders, hpieces]
  simp only [hrest]
  exact (congrArg String.ofList hsql).trans String.ofList_toList

/-- A text is cut at its leftmost markers, which are counted, and its placeholders stand between the
pieces, numbered from one.  They hold no marker, so that they are replaced once and for all; where
no piece could be taken for a placeholder, or a number be read on into a piece, they show where the
markers were. -/
theorem placeholders_between_pieces (sql : String) :
    ∃ first rest, (∀ ps, LeftmostSplit text.toList sql.toList ps ↔ ps = first :: rest) ∧
      rest.length = count sql ∧
      sql.toList = first ++ rest.flatMap (text.toList ++ ·) ∧
      (withPlaceholders .question sql).toList = first ++ rest.flatMap ('?' :: ·) ∧
      (withPlaceholders .numbered sql).toList =
        first ++ (rest.zipIdx 1).flatMap (fun q => '$' :: (Nat.toDigits 10 q.2 ++ q.1)) ∧
      (∀ style, Free (withPlaceholders style sql) ∧ ∀ again,
        withPlaceholders again (withPlaceholders style sql) = withPlaceholders style sql) ∧
      ('?' ∉ sql.toList → ofPlaceholders .question (withPlaceholders .question sql) = sql) ∧
      ('$' ∉ sql.toList → (∀ cs ∈ rest, ∀ d, cs.head? = some d → d.isDigit = false) →
        ofPlaceholders .numbered (withPlaceholders .numbered sql) = sql) := by
  have hsplit := Text.leftmostSplit_pieces text_ne_nil sql.toList
  refine ⟨(pieces sql).first, (pieces sql).rest,
    fun ps => ⟨fun h => h.unique hsplit, fun h => h ▸ hsplit⟩, rfl, ?_, ?_, ?_, fun style => ?_,
    ofPlaceholders_question, ofPlaceholders_numbered⟩
  · rw [← Pieces.fill_eq_flatMap]
    exact (Text.fill_pieces text_ne_nil sql.toList).symm
  · exact (withPlaceholders_question sql).trans (Pieces.fill_eq_flatMap ..)
  · rw [withPlaceholders, String.toList_ofList, Pieces.fillFrom_eq_zipIdx]
    rfl
  · have hfree := free_withPlaceholders style sql
    exact ⟨hfree, fun again => withPlaceholders_of_free again hfree⟩

/-- Markers that overlap: the second one of the two does not count. -/
theorem placeholders_between_pieces_overlapping :
    let sql := "a = __param__param__ OR b = __param__"
    count sql = 2 ∧ '?' ∉ sql.toList ∧ '$' ∉ sql.toList ∧
      withPlaceholders .numbered sql = "a = $1param__ OR b = $2" ∧
      ofPlaceholders .question (withPlaceholders .question sql) = sql ∧
      ofPlaceholders .numbered (withPlaceholders .numbered sql) = sql := by
  intro sql
  have hquestion : '?' ∉ sql.toList := by decide
  have hdollar : '$' ∉ sql.toList := by decide
  obtain ⟨first, rest, hsplit, -, -, -, -, -, hback, hnumbers⟩ := placeholders_between_pieces sql
  have hpieces : pieces sql = ⟨"a = ".toList, ["param__ OR b = ".toList, []]⟩ := by decide
  have hfound := (hsplit _).1 (Text.leftmostSplit_pieces text_ne_nil sql.toList)
  obtain rfl : ["param__ OR b = ".toList, []] = rest :=
    (congrArg Pieces.rest hpieces).symm.trans (List.cons.inj hfound).2
  have hdigits : ∀ cs ∈ ["param__ OR b = ".toList, []], ∀ d, cs.head? = some d →
      d.isDigit = false := by simp
  exact ⟨by decide, hquestion, hdollar, by decide, hback hquestion, hnumbers hdollar hdigits⟩

end Marker

end SqlAssembly
