import Mathlib.Data.List.Infix
import SqlAssembly.Condition.Clause
import SqlAssembly.Fragment.Join

/-! # Recognised clauses

No keyword begins another one, so a text begins with one of them at most and the order in which they
are tried does not matter.  Every clause that is written by the library begins with a blank, the
keyword of its kind and another blank, and is therefore recognised for what it is, whatever tables,
columns and values follow.
-/
namespace SqlAssembly

def leadingKeywords : List String := clauseKeywords.map (·.1) ++ joinKeywords

theorem byteLength_map_toUpper (cs : List Char) :
    Text.byteLength (cs.map Char.toUpper) = Text.byteLength cs := by
  have hsize : ∀ c : Char, c.toUpper.utf8Size = c.utf8Size :=
    Text.toUpper_cases (P := fun c d => d.utf8Size = c.utf8Size) (fun _ => rfl) (by decide)
  induction cs with
  | nil => rfl
  | cons c cs ih => simp [hsize, ih]

/-- Letter case does not change where a keyword ends, so a text that spells it is cut there. -/
theorem startsWithKeyword_iff {keyword : String} {text : List Char} :
    startsWithKeyword keyword text = true ↔ ∃ front back, text = front ++ back ∧
      front.map Char.toUpper = keyword.toList ∧ back.head?.any Text.isWordChar = false := by
  rw [startsWithKeyword]
  constructor
  · intro h
    split at h
    next front back hsplit =>
      simp only [Bool.and_eq_true, decide_eq_true_eq, Bool.not_eq_true'] at h
      exact ⟨front, back, (Text.splitAtByte?_eq_some.1 hsplit).1, h.1, h.2⟩
    next => cases h
  · rintro ⟨front, back, rfl, hfront, hback⟩
    have hlength : Text.byteLength keyword.toList = Text.byteLength front := by
      rw [← hfront, byteLength_map_toUpper]
    rw [hlength, Text.splitAtByte?_append]
    simp [hfront, hback]

theorem prefix_of_startsWithKeyword {keyword : String} {text : List Char}
    (h : startsWithKeyword keyword text = true) : keyword.toList <+: text.map Char.toUpper := by
  obtain ⟨front, back, rfl, hfront, -⟩ := startsWithKeyword_iff.1 h
  rw [List.map_append, hfront]
  exact List.prefix_append ..

theorem startsWithKeyword_unique {keyword keyword' : String} (h : keyword ∈ leadingKeywords)
    (h' : keyword' ∈ leadingKeywords) {text : List Char}
    (hstart : startsWithKeyword keyword text = true)
    (hstart' : startsWithKeyword keyword' text = true) : keyword = keyword' := by
  have hnone : ∀ k ∈ leadingKeywords, ∀ k' ∈ leadingKeywords, k.toList <+: k'.toList → k = k' := by
    decide
  rcases List.prefix_or_prefix_of_prefix (prefix_of_startsWithKeyword hstart)
    (prefix_of_startsWithKeyword hstart') with hle | hle
  · exact hnone _ h _ h' hle
  · exact (hnone _ h' _ h hle).symm

theorem mem_leadingKeywords {entry : String × ClauseKind} (h : entry ∈ clauseKeywords) :
    entry.1 ∈ leadingKeywords := List.mem_append_left _ (List.mem_map_of_mem h)

theorem classify_of_keyword {keyword : String} {kind : ClauseKind}
    (h : (keyword, kind) ∈ clauseKeywords) {sql : String}
    (hstart : startsWithKeyword keyword (Text.trimStartChars sql.toList) = true) :
    classify sql = kind := by
  have hkinds : ∀ e ∈ clauseKeywords, ∀ e' ∈ clauseKeywords, e.1 = e'.1 → e.2 = e'.2 := by decide
  rw [classify]
  split
  next entry hfound =>
    have hentry := List.mem_of_find?_eq_some hfound
    have hfirst : startsWithKeyword entry.1 (Text.trimStartChars sql.toList) = true := by
      simpa using List.find?_some hfound
    have heq : entry.1 = keyword :=
      startsWithKeyword_unique (mem_leadingKeywords hentry) (mem_leadingKeywords h) hfirst hstart
    exact hkinds entry hentry _ h heq
  next hnone =>
    have hnot := List.find?_eq_none.1 hnone _ h
    exact absurd hstart hnot

theorem classify_of_join {keyword : String} (h : keyword ∈ joinKeywords) {sql : String}
    (hstart : startsWithKeyword keyword (Text.trimStartChars sql.toList) = true)
    (hjoin : "JOIN".toList <:+: (Text.trimStartChars sql.toList).map Char.toUpper) :
    classify sql = .join := by
  have hother : ∀ entry ∈ clauseKeywords, entry.1 ∉ joinKeywords := by decide
  rw [classify]
  split
  next entry hfound =>
    have hentry := List.mem_of_find?_eq_some hfound
    have hfirst : startsWithKeyword entry.1 (Text.trimStartChars sql.toList) = true := by
      simpa using List.find?_some hfound
    have heq : entry.1 = keyword := startsWithKeyword_unique (mem_leadingKeywords hentry)
      (List.mem_append_right _ h) hfirst hstart
    exact absurd (heq ▸ h) (hother entry hentry)
  next =>
    rw [if_pos ⟨List.any_eq_true.2 ⟨keyword, h, hstart⟩, Text.contains_iff.2 hjoin⟩]

/-! ## Clauses between blanks -/

theorem trimStartChars_padded {keyword : String} (h : keyword ∈ leadingKeywords) (rest : String) :
    Text.trimStartChars (" " ++ keyword ++ " " ++ rest).toList =
      keyword.toList ++ ' ' :: rest.toList := by
  have hhead : ∀ k ∈ leadingKeywords, (k.toList.dropWhile Text.isBlank).isEmpty = false ∧
      k.toList.dropWhile Text.isBlank = k.toList := by decide
  have hblank : Text.isBlank ' ' = true := rfl
  simp only [Text.trimStartChars, String.toList_append]
  change (' ' :: keyword.toList ++ [' '] ++ rest.toList).dropWhile Text.isBlank = _
  rw [List.append_assoc, List.cons_append, List.dropWhile_cons_of_pos hblank,
    List.dropWhile_append, (hhead keyword h).1, (hhead keyword h).2]
  rfl

theorem startsWithKeyword_padded {keyword : String} (h : keyword ∈ leadingKeywords)
    (rest : String) : startsWithKeyword keyword
      (Text.trimStartChars (" " ++ keyword ++ " " ++ rest).toList) = true := by
  have hupper : ∀ k ∈ leadingKeywords, k.toList.map Char.toUpper = k.toList := by decide
  rw [trimStartChars_padded h, startsWithKeyword_iff]
  exact ⟨keyword.toList, ' ' :: rest.toList, rfl, hupper keyword h, rfl⟩

theorem classify_padded {keyword : String} {kind : ClauseKind}
    (h : (keyword, kind) ∈ clauseKeywords) (rest : String) :
    classify (" " ++ keyword ++ " " ++ rest) = kind :=
  classify_of_keyword h (startsWithKeyword_padded (mem_leadingKeywords h) rest)

theorem classify_padded_join (kind : JoinKind) (rest : String) :
    classify (" " ++ (kind.keyword ++ (" JOIN " ++ rest))) = .join := by
  have h : kind.keyword ∈ joinKeywords := by cases kind <;> decide
  have hleading := List.mem_append_right (clauseKeywords.map (·.1)) h
  have hsplit : " " ++ (kind.keyword ++ (" JOIN " ++ rest)) =
      " " ++ kind.keyword ++ " " ++ ("JOIN " ++ rest) := by
    rw [← String.toList_inj]
    simp
  rw [hsplit]
  refine classify_of_join h (startsWithKeyword_padded hleading _) ?_
  rw [trimStartChars_padded hleading]
  refine ⟨kind.keyword.toList.map Char.toUpper ++ [' '], ' ' :: rest.toList.map Char.toUpper, ?_⟩
  have hupper : "JOIN ".toList.map Char.toUpper = "JOIN".toList ++ [' '] := by decide
  simp only [String.toList_append, List.map_append, List.map_cons, hupper, List.append_assoc]
  rfl

/-! ## Clauses that are written -/

theorem classify_filter (value : Value → Sql) {filter : FilterKind} {trees : List Tree}
    {body : Template} (h : filter.ofForest trees = .ok body) :
    classify (Template.write value body).text = filter.clauseKind := by
  have hkeyword : (filter.keyword, filter.clauseKind) ∈ clauseKeywords := by
    cases filter <;> decide
  obtain ⟨tokens, -, h⟩ := bind_eq_ok.1 h
  cases h
  have htext : (Template.write value (filter.template tokens)).text =
      " " ++ filter.keyword ++ " " ++
        (Template.write value (tokens.flatMap ClauseToken.template ++ [.word " "])).text := rfl
  rw [htext]
  exact classify_padded hkeyword _

theorem classify_union (all : Bool) (rest : String) :
    classify ((if all then " UNION ALL " else " UNION ") ++ rest) = .union := by
  have hkeyword : ("UNION", ClauseKind.union) ∈ clauseKeywords := by decide
  have hsplit : (if all then " UNION ALL " else " UNION ") =
      " " ++ "UNION" ++ " " ++ if all then "ALL " else "" := by cases all <;> decide
  rw [hsplit, String.append_assoc]
  exact classify_padded hkeyword _

theorem classify_groupBy {columns : List String} {f : Fragment} (h : groupBy columns = .ok f) :
    classify f.sql.text = f.kind := by
  have hkeyword : ("GROUP BY", ClauseKind.groupBy) ∈ clauseKeywords := by decide
  obtain ⟨names, -, h⟩ := bind_eq_ok.1 h
  cases h
  simp only [Sql.text_append, String.append_assoc]
  exact classify_padded hkeyword _

theorem classify_orderBy {columns : List String} {direction : Direction} {f : Fragment}
    (h : orderBy columns direction = .ok f) : classify f.sql.text = f.kind := by
  have hkeyword : ("ORDER BY", ClauseKind.orderBy) ∈ clauseKeywords := by decide
  obtain ⟨names, -, h⟩ := bind_eq_ok.1 h
  cases h
  simp only [Sql.text_append, String.append_assoc]
  exact classify_padded hkeyword _

theorem classify_limit (count : Nat) (offset : Option Nat) :
    classify (limit count offset).sql.text = (limit count offset).kind := by
  have hkeyword : ("LIMIT", ClauseKind.limit) ∈ clauseKeywords := by decide
  cases offset <;>
  · simp only [limit, Sql.text_append, String.append_assoc]
    exact classify_padded hkeyword _

theorem classify_join {j : Join} {f : Fragment} (h : j.build = .ok f) :
    classify f.sql.text = f.kind := by
  rw [Join.build] at h
  split at h
  · cases h
  · split at h
    · cases h
    · split at h
      · cases h
      · cases h
        simp only [Sql.text_append, String.append_assoc]
        exact classify_padded_join j.kind _

end SqlAssembly
