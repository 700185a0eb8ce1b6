import SqlAssembly.Proofs.Cuts
import SqlAssembly.Proofs.Recognition
import SqlAssembly.Proofs.Words

/-! # Clauses told by their leading keyword

Every kind of clause has a test, and no text passes two of them.  The kind of a text is the one
whose test it passes, in whatever order the tests are made; blanks before the text, the case of its
letters and all that comes after the leading keyword make no difference, save that a join has to say
`JOIN`. -/
namespace SqlAssembly

/-- The text begins with a keyword: its first characters spell it, letter case aside, and the next
one, if there is one, does not continue it. -/
def BeginsWith (keyword : String) (text : List Char) : Prop :=
  ∃ front back, text = front ++ back ∧ front.map Char.toUpper = keyword.toList ∧
    ∀ c ∈ back.head?, Text.isWordChar c = false

theorem startsWithKeyword_iff_beginsWith {keyword : String} {text : List Char} :
    startsWithKeyword keyword text = true ↔ BeginsWith keyword text := by
  simp only [startsWithKeyword_iff, BeginsWith, Option.any_eq_false]
  rfl

/-- The characters that spell a keyword are as many as it has, so what follows it is settled. -/
theorem beginsWith_append_iff {keyword : String} {front back : List Char}
    (h : front.map Char.toUpper = keyword.toList) :
    BeginsWith keyword (front ++ back) ↔ ∀ c ∈ back.head?, Text.isWordChar c = false := by
  constructor
  · rintro ⟨front', back', happend, hfront, hback⟩
    have hlength : front.length = front'.length := by
      rw [← List.length_map Char.toUpper, h, ← hfront, List.length_map]
    obtain ⟨-, rfl⟩ := List.append_inj happend hlength
    exact hback
  · exact fun hback => ⟨front, back, rfl, h, hback⟩

/-- The test of a kind of clause, for a text without leading blanks.  There is none for texts that
are not recognised. -/
def ClauseKind.passes (text : List Char) : ClauseKind → Bool
  | .join =>
    joinKeywords.any (startsWithKeyword · text) &&
      Text.contains "JOIN".toList (text.map Char.toUpper)
  | kind => clauseKeywords.any fun entry => entry.2 = kind && startsWithKeyword entry.1 text

/-! ## One test at most -/

/-- A text begins with one of the thirteen keywords, or with none. -/
theorem length_filter_startsWithKeyword_le (text : List Char) :
    (leadingKeywords.filter (startsWithKeyword · text)).length ≤ 1 := by
  have hnodup : (leadingKeywords.filter (startsWithKeyword · text)).Nodup :=
    List.Pairwise.filter _ (by decide)
  have hunique : ∀ k ∈ leadingKeywords.filter (startsWithKeyword · text),
      ∀ k' ∈ leadingKeywords.filter (startsWithKeyword · text), k = k' := by
    intro k hk k' hk'
    obtain ⟨hk, hstart⟩ := List.mem_filter.1 hk
    obtain ⟨hk', hstart'⟩ := List.mem_filter.1 hk'
    exact startsWithKeyword_unique hk hk' hstart hstart'
  match hfound : leadingKeywords.filter (startsWithKeyword · text) with
  | [] => exact Nat.zero_le 1
  | [_] => exact Nat.le_refl 1
  | k :: k' :: _ =>
    rw [hfound] at hnodup hunique
    simp [hunique k (by simp) k' (by simp)] at hnodup

theorem classify_of_passes {kind : ClauseKind} {sql : String}
    (h : kind.passes (Text.trimStartChars sql.toList) = true) : classify sql = kind := by
  have hkeyword (h : (clauseKeywords.any fun entry => entry.2 = kind &&
      startsWithKeyword entry.1 (Text.trimStartChars sql.toList)) = true) :
      classify sql = kind := by
    obtain ⟨⟨keyword, _⟩, hentry, hstart⟩ := List.any_eq_true.1 h
    simp only [Bool.and_eq_true, decide_eq_true_eq] at hstart
    obtain ⟨rfl, hstart⟩ := hstart
    exact classify_of_keyword hentry hstart
  cases kind with
  | join =>
    simp only [ClauseKind.passes, Bool.and_eq_true, List.any_eq_true] at h
    obtain ⟨⟨keyword, hmem, hstart⟩, hjoin⟩ := h
    exact classify_of_join hmem hstart (Text.contains_iff.1 hjoin)
  | _ => exact hkeyword h

theorem passes_iff {entry : String × ClauseKind} (h : entry ∈ clauseKeywords) {text : List Char} :
    entry.2.passes text = true ↔ startsWithKeyword entry.1 text = true := by
  have hjoin : ∀ entry ∈ clauseKeywords, entry.2 ≠ .join := by decide
  have hkinds : ∀ e ∈ clauseKeywords, ∀ e' ∈ clauseKeywords, e.2 = e'.2 → e = e' := by decide
  rw [ClauseKind.passes, List.any_eq_true]
  · constructor
    · rintro ⟨entry', hentry', hstart⟩
      simp only [Bool.and_eq_true, decide_eq_true_eq] at hstart
      rw [← hkinds entry' hentry' entry h hstart.1]
      exact hstart.2
    · exact fun hstart => ⟨entry, h, by simp [hstart]⟩
  · exact hjoin entry h

/-- A text is of the kind whose test it passes, and of no kind if it passes none. -/
theorem passes_classify (sql : String) : classify sql = .raw ∨
    (classify sql).passes (Text.trimStartChars sql.toList) = true := by
  rw [classify]
  split
  next entry hfound =>
    right
    rw [passes_iff (List.mem_of_find?_eq_some hfound)]
    simpa using List.find?_some hfound
  next =>
    split
    next hjoin =>
      right
      rw [ClauseKind.passes, hjoin.1, hjoin.2]
      rfl
    next => exact .inl rfl

theorem classify_eq_iff {kind : ClauseKind} (h : kind ≠ .raw) {sql : String} :
    classify sql = kind ↔ kind.passes (Text.trimStartChars sql.toList) = true := by
  refine ⟨?_, classify_of_passes⟩
  rintro rfl
  exact (passes_classify sql).resolve_left h

theorem find?_passes {order : List ClauseKind} (h : order.Perm ClauseKind.grammar) (sql : String) :
    (order.find? (·.passes (Text.trimStartChars sql.toList))).getD .raw = classify sql := by
  have hall (kind : ClauseKind) : kind ∈ order := h.mem_iff.2 (by cases kind <;> decide)
  cases hfound : order.find? (·.passes (Text.trimStartChars sql.toList)) with
  | some kind =>
    have hpasses : kind.passes (Text.trimStartChars sql.toList) = true := List.find?_some hfound
    exact (classify_of_passes hpasses).symm
  | none =>
    have hnone := List.find?_eq_none.1 hfound (classify sql) (hall _)
    exact ((passes_classify sql).resolve_right hnone).symm

/-! ## What makes no difference -/

theorem trimStartChars_append {blanks : List Char} (h : ∀ c ∈ blanks, Text.isBlank c = true)
    (cs : List Char) : Text.trimStartChars (blanks ++ cs) = Text.trimStartChars cs :=
  List.dropWhile_append_of_pos h

theorem classify_blank_append {blanks : String} (h : ∀ c ∈ blanks.toList, Text.isBlank c = true)
    (sql : String) : classify (blanks ++ sql) = classify sql := by
  rw [classify, classify, String.toList_append, trimStartChars_append h]

theorem toUpper_toUpper (c : Char) : c.toUpper.toUpper = c.toUpper :=
  Text.toUpper_cases (P := fun c d => d.toUpper = c.toUpper) (fun _ => rfl) (by decide) c

theorem isWordChar_toUpper (c : Char) : Text.isWordChar c.toUpper = Text.isWordChar c :=
  Text.toUpper_cases (P := fun c d => Text.isWordChar d = Text.isWordChar c) (fun _ => rfl)
    (by decide) c

theorem trimStartChars_map_toUpper (cs : List Char) :
    Text.trimStartChars (cs.map Char.toUpper) = (Text.trimStartChars cs).map Char.toUpper := by
  have hblank : Text.isBlank ∘ Char.toUpper = Text.isBlank := funext Text.isBlank_toUpper
  rw [Text.trimStartChars, Text.trimStartChars, List.dropWhile_map, hblank]

theorem map_toUpper_map_toUpper (cs : List Char) :
    (cs.map Char.toUpper).map Char.toUpper = cs.map Char.toUpper := by
  rw [List.map_map]
  exact List.map_congr_left fun c _ => toUpper_toUpper c

theorem startsWithKeyword_map_toUpper (keyword : String) (text : List Char) :
    startsWithKeyword keyword (text.map Char.toUpper) = startsWithKeyword keyword text := by
  rw [Bool.eq_iff_iff, startsWithKeyword_iff_beginsWith, startsWithKeyword_iff_beginsWith]
  constructor
  · rintro ⟨_, _, happend, hfront, hback⟩
    obtain ⟨front, back, rfl, rfl, rfl⟩ := List.map_eq_append_iff.1 happend
    refine ⟨front, back, rfl, by rwa [map_toUpper_map_toUpper] at hfront, fun c hc => ?_⟩
    rw [← isWordChar_toUpper]
    apply hback
    rw [List.head?_map]
    exact Option.mem_map_of_mem Char.toUpper hc
  · rintro ⟨front, back, rfl, hfront, hback⟩
    refine ⟨front.map Char.toUpper, back.map Char.toUpper, List.map_append,
      by rwa [map_toUpper_map_toUpper], fun c hc => ?_⟩
    obtain ⟨d, hd, rfl⟩ : ∃ d, back.head? = some d ∧ d.toUpper = c := by simpa using hc
    rw [isWordChar_toUpper]
    exact hback d hd

theorem classify_upper (sql : String) : classify (Text.upper sql) = classify sql := by
  rw [classify, classify, Text.toList_upper, trimStartChars_map_toUpper, map_toUpper_map_toUpper]
  simp only [startsWithKeyword_map_toUpper]

theorem join_infix_trimStartChars (cs : List Char) :
    "JOIN".toList <:+: (Text.trimStartChars cs).map Char.toUpper ↔
      "JOIN".toList <:+: cs.map Char.toUpper := by
  have hblank : Text.isBlank 'J' = false := rfl
  have hword : "JOIN".toList = 'J' :: "OIN".toList := rfl
  rw [Text.trimStartChars]
  induction cs with
  | nil => rfl
  | cons c cs ih =>
    by_cases hc : Text.isBlank c = true
    · have hnot : ¬ "JOIN".toList <+: c.toUpper :: cs.map Char.toUpper := by
        rw [hword, List.cons_prefix_cons]
        rintro ⟨heq, -⟩
        rw [heq, Text.isBlank_toUpper, hc] at hblank
        cases hblank
      rw [List.dropWhile_cons_of_pos hc, List.map_cons, List.infix_cons_iff, or_iff_right hnot]
      exact ih
    · rw [List.dropWhile_cons_of_neg hc]

/-- The kind of a text is settled by the keyword that it begins with behind its blanks: no other
keyword is tested with success, so the order of the tests does not matter.  Neither do blanks and
letter case, nor what follows the keyword, save that it may not continue it and that a join says
`JOIN` somewhere.  Where a keyword would end inside a character the text does not begin with it, and
everywhere else the text is cut between two characters. -/
theorem classify_by_leading_keyword (sql : String) :
    let text := Text.trimStartChars sql.toList
    (∀ keyword, startsWithKeyword keyword text = true ↔ BeginsWith keyword text) ∧
    (leadingKeywords.filter (startsWithKeyword · text)).length ≤ 1 ∧
    (∀ order : List ClauseKind, order.Perm ClauseKind.grammar →
      (order.find? (·.passes text)).getD .raw = classify sql) ∧
    (∀ blanks : String, (∀ c ∈ blanks.toList, Text.isBlank c = true) →
      classify (blanks ++ sql) = classify sql) ∧
    (∀ sql', Text.upper sql' = Text.upper sql → classify sql' = classify sql) ∧
    (∀ entry ∈ clauseKeywords, ∀ front back, text = front ++ back →
      front.map Char.toUpper = entry.1.toList →
      (classify sql = entry.2 ↔ ∀ c ∈ back.head?, Text.isWordChar c = false)) ∧
    (classify sql = .join ↔ (∃ keyword ∈ joinKeywords, BeginsWith keyword text) ∧
      "JOIN".toList <:+: (Text.upper sql).toList) ∧
    ∀ keyword, let n := (Text.encode keyword).length
      let bytes := Text.encode (String.ofList text)
      (∃ front back : String, Text.splitAtByte? n text = some (front.toList, back.toList) ∧
        Text.encode front = bytes.take n ∧ Text.encode back = bytes.drop n) ∨
      n ≠ bytes.length ∧ (∀ b, bytes[n]? = some b → ¬ b.IsUTF8FirstByte) ∧
        startsWithKeyword keyword text = false := by
  intro text
  refine ⟨fun keyword => startsWithKeyword_iff_beginsWith, length_filter_startsWithKeyword_le text,
    fun order horder => find?_passes horder sql,
    fun blanks hblanks => classify_blank_append hblanks sql, fun sql' h => ?_, ?_, ?_, ?_⟩
  · rw [← classify_upper sql', h, classify_upper]
  · intro entry hentry front back htext hfront
    have hraw : ∀ entry ∈ clauseKeywords, entry.2 ≠ .raw := by decide
    rw [classify_eq_iff (hraw entry hentry), passes_iff hentry, startsWithKeyword_iff_beginsWith,
      ← beginsWith_append_iff hfront, ← htext]
  · rw [classify_eq_iff (by decide), ClauseKind.passes, Bool.and_eq_true, List.any_eq_true,
      Text.contains_iff, join_infix_trimStartChars, Text.toList_upper]
    simp only [startsWithKeyword_iff_beginsWith]
    rfl
  · intro keyword
    have hcut := Text.splitAtByte?_cases (Text.encode keyword).length (String.ofList text)
    rw [String.toList_ofList] at hcut
    rcases hcut with ⟨front, back, hsplit, -, hbytes⟩ | ⟨hnone, hlength, hbyte⟩
    · exact .inl ⟨front, back, hsplit, hbytes⟩
    · refine .inr ⟨hlength, hbyte, ?_⟩
      rw [startsWithKeyword, Text.byteLength_toList, hnone]

/-- Words of other clauses behind the keyword, a wide blank in front of it, and small letters. -/
theorem classify_by_leading_keyword_orderBy :
    let sql := "\u3000order By note = 'WHERE', limit"
    let text := Text.trimStartChars sql.toList
    ("ORDER BY", ClauseKind.orderBy) ∈ clauseKeywords ∧
      text = "order By".toList ++ " note = 'WHERE', limit".toList ∧
      "order By".toList.map Char.toUpper = "ORDER BY".toList ∧ classify sql = .orderBy ∧
      ClauseKind.grammar.reverse.Perm ClauseKind.grammar ∧
      (ClauseKind.grammar.reverse.find? (·.passes text)).getD .raw = .orderBy ∧
      Text.isBlank '\t' = true ∧ classify ("\t" ++ sql) = .orderBy ∧
      Text.upper (Text.lower sql) = Text.upper sql ∧ classify (Text.lower sql) = .orderBy := by
  intro sql text
  have hentry : ("ORDER BY", ClauseKind.orderBy) ∈ clauseKeywords := by decide
  have htext : text = "order By".toList ++ " note = 'WHERE', limit".toList := by decide
  have hfront : "order By".toList.map Char.toUpper = "ORDER BY".toList := by decide
  have hletters : Text.upper (Text.lower sql) = Text.upper sql := by
    rw [← String.toList_inj, Text.toList_upper, Text.toList_upper, Text.toList_lower]
    decide
  have hperm := List.reverse_perm ClauseKind.grammar
  obtain ⟨-, -, horder, hblanks, hcase, hkeyword, -⟩ := classify_by_leading_keyword sql
  have hback : ∀ c ∈ " note = 'WHERE', limit".toList.head?, Text.isWordChar c = false := by
    rintro _ ⟨⟩
    decide
  have hkind : classify sql = .orderBy := (hkeyword _ hentry _ _ htext hfront).2 hback
  have hblank : ∀ c ∈ "\t".toList, Text.isBlank c = true := List.forall_mem_singleton.2 rfl
  exact ⟨hentry, htext, hfront, hkind, hperm, (horder _ hperm).trans hkind, rfl,
    (hblanks _ hblank).trans hkind, hletters, (hcase _ hletters).trans hkind⟩

end SqlAssembly
