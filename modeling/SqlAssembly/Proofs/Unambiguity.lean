import Mathlib.Data.List.Infix
import SqlAssembly.Proofs.Leaves
import SqlAssembly.Proofs.Lockstep
import SqlAssembly.Proofs.Verbs

/-! # Clauses read back

While values are bound, the text of a condition clause and its parameters determine the leaves of
the clause.  Every part is read off whatever follows it: a column ends at the first blank, no verb
begins another one, parentheses are counted, and what joins two leaves is told from what a leaf
begins with.
-/
namespace SqlAssembly
open Medium (ofText)
open List (Forall₂)

/-! ## Lists read from the front -/

section
variable {α : Type} {x y a b : List α} {c : α}

/-- Two lists are known up to the first `c`. -/
theorem read_until (hx : c ∉ x) (hy : c ∉ y) (h : x ++ c :: a = y ++ c :: b) : x = y ∧ a = b := by
  induction x generalizing y with
  | nil =>
    cases y with
    | nil => exact ⟨rfl, (List.cons.inj h).2⟩
    | cons e y => exact absurd (by simp [(List.cons.inj h).1]) hy
  | cons d x ih =>
    cases y with
    | nil => exact absurd (by simp [(List.cons.inj h).1]) hx
    | cons e y =>
      obtain ⟨rfl, hrest⟩ := List.cons.inj h
      obtain ⟨rfl, hab⟩ := ih (List.not_mem_of_not_mem_cons hx) (List.not_mem_of_not_mem_cons hy)
        hrest
      exact ⟨rfl, hab⟩

theorem read_copies {n m : Nat} (ha : a.head? ≠ some c) (hb : b.head? ≠ some c)
    (h : List.replicate n c ++ a = List.replicate m c ++ b) : n = m ∧ a = b := by
  induction n generalizing m with
  | zero =>
    cases m with
    | zero => exact ⟨rfl, h⟩
    | succ m => exact absurd (congrArg List.head? h) ha
  | succ n ih =>
    cases m with
    | zero => exact absurd (congrArg List.head? h.symm) hb
    | succ m =>
      obtain ⟨rfl, hab⟩ := ih (List.cons.inj h).2
      exact ⟨rfl, hab⟩

end

/-! ## Columns -/

def isNameChar (c : Char) : Bool := c.isAlphanum || c = '_' || c = '.'

def conditionKeywords : List String := ["AND", "OR", "NOT", "IN", "IS", "LIKE", "BETWEEN", "NULL"]

/-- A name that is none of the words of a condition, in any letter case, and holds no marker. -/
structure Ordinary (column : String) : Prop where
  chars : column.toList.all isNameChar = true
  free : Marker.Free column
  keyword : Text.upper column ∉ conditionKeywords

instance (column : String) : Decidable (Ordinary column) :=
  decidable_of_iff (column.toList.all isNameChar = true ∧ Marker.Free column ∧
      Text.upper column ∉ conditionKeywords)
    ⟨fun h => ⟨h.1, h.2.1, h.2.2⟩, fun h => ⟨h.chars, h.free, h.keyword⟩⟩

/-- The column that a test names, which a constant does not. -/
def Test.column? : Test → Option String
  | .compare column .. | .like column .. | .oneOf column .. | .between column ..
  | .isNull column _ => some column
  | .constant _ => none

theorem Ordinary.notMem {column : String} (h : Ordinary column) {c : Char}
    (hc : isNameChar c = false) : c ∉ column.toList := by
  intro hmem
  rw [List.all_eq_true.1 h.chars c hmem] at hc
  cases hc

theorem Predicate.test_column {column : String} {p : Predicate} {t : Test}
    (h : p.test column = .ok t) : ∀ s ∈ t.column?, s = column := by
  have hcolumn : t.column? = some column ∨ t.column? = none := by
    cases p with
    | compare op v =>
      simp only [Predicate.test] at h
      split_ifs at h
      all_goals cases h; exact .inl rfl
    | like negated v =>
      simp only [Predicate.test] at h
      split_ifs at h
      cases h
      exact .inl rfl
    | oneOf negated vs =>
      cases vs with
      | nil => cases h; exact .inr rfl
      | cons v vs => cases h; exact .inl rfl
    | between negated low high => cases h; exact .inl rfl
    | isNull negated => cases h; exact .inl rfl
  rcases hcolumn with hcolumn | hcolumn <;> simp [hcolumn]

theorem Condition.test_column {c : Condition} {t : Test} (h : c.test = .ok t) :
    ∀ s ∈ t.column?, s = Text.trim c.column := by
  obtain ⟨p, -, h⟩ := bind_eq_ok.1 h
  exact Predicate.test_column h

/-! ## Verbs -/

namespace Verb

/-- The text between a column and the first value. -/
def text : Verb → String
  | .compare op => op.token ++ " "
  | .like negated => if negated then "NOT LIKE " else "LIKE "
  | .oneOf negated => if negated then "NOT IN (" else "IN ("
  | .between negated => if negated then "NOT BETWEEN " else "BETWEEN "
  | .isNull negated => if negated then "IS NOT NULL" else "IS NULL"

theorem eq_of_begins {v w : Verb} (h : v.text.toList <+: w.text.toList) : v = w := by
  have hall : ∀ v ∈ all, ∀ w ∈ all, v.text.toList <+: w.text.toList → v = w := by decide +kernel
  exact hall v (mem_all v) w (mem_all w) h

end Verb

/-! ## Tests -/

def Template.bound (t : Template) : Draft := Template.write (Draft.manner.value true) t

theorem Template.bound_append (t u : Template) : (t ++ u).bound = t.bound ++ u.bound :=
  Template.write_append _ t u

@[simp] theorem Template.bound_nil : Template.bound [] = [] := rfl

@[simp] theorem Template.bound_word (s : String) (t : Template) :
    Template.bound (.word s :: t) = Glyph.ofChars s.toList ++ t.bound := rfl

@[simp] theorem Template.bound_value (v : Value) (t : Template) :
    Template.bound (.value v :: t) = .value true v :: t.bound := rfl

theorem either_begins {u v : List Char} {a b : Draft}
    (h : Glyph.ofChars u ++ a = Glyph.ofChars v ++ b) : u <+: v ∨ v <+: u := by
  rw [← List.prefix_map_iff_of_injective Glyph.char_injective,
    ← List.prefix_map_iff_of_injective Glyph.char_injective]
  exact List.prefix_or_prefix_of_prefix (List.prefix_append _ a) ⟨b, h.symm⟩

/-- A name is known up to the blank after it. -/
theorem read_name {s t : String} (hs : ' ' ∉ s.toList) (ht : ' ' ∉ t.toList) {a b : Draft}
    (h : Glyph.ofChars s.toList ++ .char ' ' :: a = Glyph.ofChars t.toList ++ .char ' ' :: b) :
    s = t ∧ a = b := by
  have hblank {s : String} (hs : ' ' ∉ s.toList) : Glyph.char ' ' ∉ Glyph.ofChars s.toList := by
    simpa [Glyph.ofChars] using hs
  obtain ⟨hchars, hab⟩ := read_until (hblank hs) (hblank ht) h
  exact ⟨String.toList_inj.1 (Glyph.ofChars_injective hchars), hab⟩

/-- Values behind the first one of a list, up to its parenthesis. -/
def listed (vs : List Value) : Draft :=
  vs.flatMap (fun v => [.char ',', .char ' ', .value true v]) ++ [.char ')']

theorem bound_list (v : Value) (vs : List Value) :
    (Template.join ", " ([.value v] :: vs.map fun v => [.value v])).bound ++ [.char ')'] =
      .value true v :: listed vs := by
  induction vs generalizing v with
  | nil => rfl
  | cons w vs ih =>
    have hjoin : Template.join ", " ([.value v] :: (w :: vs).map fun v => [.value v]) =
        .value v :: .word ", " :: Template.join ", " ([.value w] :: vs.map fun v => [.value v]) :=
      rfl
    rw [hjoin, Template.bound_value, Template.bound_word, List.cons_append, List.append_assoc, ih]
    rfl

/-- A test of the column, with the verb and the glyphs behind it. -/
inductive Test.Asks (column : String) : Verb → Draft → Test → Prop
  | compare (op : CompareOp) (v : Value) :
    Asks column (.compare op) [.value true v] (.compare column op v)
  | like (negated : Bool) (v : Value) :
    Asks column (.like negated) [.value true v] (.like column negated v)
  | oneOf (negated : Bool) (v : Value) (vs : List Value) :
    Asks column (.oneOf negated) (.value true v :: listed vs) (.oneOf column negated v vs)
  | between (negated : Bool) (low high : Value) :
    Asks column (.between negated)
      (.value true low :: (Glyph.ofChars " AND ".toList ++ [.value true high]))
      (.between column negated low high)
  | isNull (negated : Bool) : Asks column (.isNull negated) [] (.isNull column negated)

theorem Test.Asks.draft {column : String} {verb : Verb} {args : Draft} {t : Test}
    (h : Asks column verb args t) : t.template.bound =
      Glyph.ofChars column.toList ++ .char ' ' :: (Glyph.ofChars verb.text.toList ++ args) := by
  cases h with
  | compare op v => simp [Test.template, Verb.text]
  | like negated v => cases negated <;> simp [Test.template, Verb.text]
  | oneOf negated v vs =>
    cases negated <;> simp [Test.template, Verb.text, Template.bound_append, bound_list]
  | between negated low high => cases negated <;> simp [Test.template, Verb.text]
  | isNull negated => cases negated <;> simp [Test.template, Verb.text]

/-- Every test but a constant asks something of its column. -/
theorem Test.constant_or_asks (t : Test) : (∃ holds, t = .constant holds) ∨
    ∃ column verb args, t.column? = some column ∧ Asks column verb args t := by
  cases t with
  | compare column op v => exact .inr ⟨column, _, _, rfl, .compare op v⟩
  | like column negated v => exact .inr ⟨column, _, _, rfl, .like negated v⟩
  | oneOf column negated v vs => exact .inr ⟨column, _, _, rfl, .oneOf negated v vs⟩
  | between column negated low high => exact .inr ⟨column, _, _, rfl, .between negated low high⟩
  | isNull column negated => exact .inr ⟨column, _, _, rfl, .isNull negated⟩
  | constant holds => exact .inl ⟨holds, rfl⟩

theorem listed_read {vs ws : List Value} {a b : Draft} (h : listed vs ++ a = listed ws ++ b) :
    vs = ws ∧ a = b := by
  induction vs generalizing ws with
  | nil => cases ws <;> simp_all [listed]
  | cons v vs ih =>
    cases ws with
    | nil => simp [listed] at h
    | cons w ws =>
      obtain ⟨rfl, hrest⟩ : v = w ∧ listed vs ++ a = listed ws ++ b := by simpa [listed] using h
      obtain ⟨rfl, rfl⟩ := ih hrest
      exact ⟨rfl, rfl⟩

theorem Test.Asks.read_args {column : String} {verb : Verb} {args args' : Draft} {t u : Test}
    (ht : Asks column verb args t) (hu : Asks column verb args' u) {a b : Draft}
    (h : args ++ a = args' ++ b) : t = u ∧ a = b := by
  cases ht with
  | compare op v => cases hu; simp_all
  | like negated v => cases hu; simp_all
  | oneOf negated v vs =>
    cases hu with
    | oneOf _ w ws =>
      obtain ⟨rfl, hrest⟩ : v = w ∧ listed vs ++ a = listed ws ++ b := by simpa using h
      obtain ⟨rfl, rfl⟩ := listed_read hrest
      exact ⟨rfl, rfl⟩
  | between negated low high => cases hu; simp_all
  | isNull negated => cases hu; simp_all

theorem Test.bound_constant (holds : Bool) : (Test.constant holds).template.bound =
    [.char '1', .char '=', .char (if holds then '1' else '0')] := by
  cases holds <;> rfl

theorem Ordinary.ne_constant {column : String} (h : Ordinary column) (a b : Draft) :
    Glyph.ofChars column.toList ++ .char ' ' :: a ≠ .char '1' :: .char '=' :: b := by
  have hequals : '=' ∉ column.toList := h.notMem (by decide)
  intro heq
  rcases hchars : column.toList with _ | ⟨c, _ | ⟨d, cs⟩⟩
  · simp [hchars] at heq
  · simp [hchars] at heq
  · have hd : d = '=' := by
      simp only [hchars, Glyph.ofChars_cons, List.cons_append, List.cons.injEq,
        Glyph.char.injEq] at heq
      exact heq.2.1
    exact hequals (by simp [hchars, hd])

/-- A test is read off whatever follows it. -/
theorem Test.read {t u : Test} (ht : ∀ s ∈ t.column?, Ordinary s) (hu : ∀ s ∈ u.column?, Ordinary s)
    {a b : Draft} (h : t.template.bound ++ a = u.template.bound ++ b) : t = u ∧ a = b := by
  obtain ⟨holds, rfl⟩ | ⟨column, verb, args, hcolumn, hasks⟩ := t.constant_or_asks
  · obtain ⟨holds', rfl⟩ | ⟨column', verb', args', hcolumn', hasks'⟩ := u.constant_or_asks
    · cases holds <;> cases holds' <;> simp_all [Test.bound_constant]
    · rw [hasks'.draft, Test.bound_constant, List.append_assoc] at h
      exact absurd h.symm ((hu column' hcolumn').ne_constant _ _)
  · obtain ⟨holds', rfl⟩ | ⟨column', verb', args', hcolumn', hasks'⟩ := u.constant_or_asks
    · rw [hasks.draft, Test.bound_constant, List.append_assoc] at h
      exact absurd h ((ht column hcolumn).ne_constant _ _)
    · rw [hasks.draft, hasks'.draft, List.append_assoc, List.append_assoc, List.cons_append,
        List.cons_append] at h
      obtain ⟨rfl, hrest⟩ := read_name ((ht column hcolumn).notMem (by decide))
        ((hu column' hcolumn').notMem (by decide)) h
      rw [List.append_assoc, List.append_assoc] at hrest
      obtain rfl : verb = verb' :=
        (either_begins hrest).elim Verb.eq_of_begins fun h => (Verb.eq_of_begins h).symm
      exact hasks.read_args hasks' (List.append_cancel_left hrest)

/-! ## Leaves -/

theorem Test.head_ne_opening {t : Test} (ht : ∀ s ∈ t.column?, Ordinary s) (a : Draft) :
    (t.template.bound ++ a).head? ≠ some (.char '(') := by
  obtain ⟨holds, rfl⟩ | ⟨column, verb, args, hcolumn, hasks⟩ := t.constant_or_asks
  · simp [Test.bound_constant]
  · have hopening : '(' ∉ column.toList := (ht column hcolumn).notMem (by decide)
    rw [hasks.draft]
    rcases hchars : column.toList with _ | ⟨c, cs⟩
    · simp
    · have hc : c ≠ '(' := fun h => hopening (by simp [hchars, h])
      simpa using hc

theorem TestedLeaf.bound (m : TestedLeaf) : Template.bound (m.tokens.flatMap ClauseToken.template) =
    List.replicate m.opens (.char '(') ++
      (m.test.template.bound ++ List.replicate m.closes (.char ')')) := by
  have hcopies (n : Nat) (token : ClauseToken) (c : Char)
      (htoken : token.template = [.word (String.singleton c)]) :
      Template.bound ((List.replicate n token).flatMap ClauseToken.template) =
        List.replicate n (.char c) := by
    induction n with
    | zero => rfl
    | succ n ih =>
      rw [List.replicate_succ, List.flatMap_cons, Template.bound_append, ih, htoken]
      simp [List.replicate_succ]
  rw [TestedLeaf.tokens, List.flatMap_append, List.flatMap_cons, Template.bound_append,
    Template.bound_append, hcopies _ .opening '(' rfl, hcopies _ .closing ')' rfl]
  rfl

/-- What a leaf is, its combinator aside. -/
structure TestedLeaf.Same (l m : TestedLeaf) : Prop where
  opens : l.opens = m.opens
  test : l.test = m.test
  closes : l.closes = m.closes

theorem TestedLeaf.read {l m : TestedLeaf} (hl : ∀ s ∈ l.test.column?, Ordinary s)
    (hm : ∀ s ∈ m.test.column?, Ordinary s) {a b : Draft} (ha : a.head? ≠ some (.char ')'))
    (hb : b.head? ≠ some (.char ')'))
    (h : Template.bound (l.tokens.flatMap ClauseToken.template) ++ a =
      Template.bound (m.tokens.flatMap ClauseToken.template) ++ b) : l.Same m ∧ a = b := by
  rw [l.bound, m.bound, List.append_assoc, List.append_assoc, List.append_assoc,
    List.append_assoc] at h
  obtain ⟨hopens, htested⟩ := read_copies (Test.head_ne_opening hl _) (Test.head_ne_opening hm _) h
  obtain ⟨htest, hclosed⟩ := Test.read hl hm htested
  obtain ⟨hcloses, hab⟩ := read_copies ha hb hclosed
  exact ⟨⟨hopens, htest, hcloses⟩, hab⟩

/-! ## Bodies -/

/-- The combinator in front of a leaf is read off it, unless the leaf could be taken for `NOT`. -/
theorem Combinator.read {c c' : Combinator} {a b : Draft}
    (ha : ∀ r, a ≠ Glyph.ofChars "NOT ".toList ++ r)
    (hb : ∀ r, b ≠ Glyph.ofChars "NOT ".toList ++ r)
    (h : Glyph.ofChars (c.token ++ " ").toList ++ a = Glyph.ofChars (c'.token ++ " ").toList ++ b) :
    c = c' ∧ a = b := by
  have hbegins {c c' : Combinator} (h : (c.token ++ " ").toList <+: (c'.token ++ " ").toList) :
      c = c' ∨ c = .and ∧ c' = .andNot := by
    revert h
    cases c <;> cases c' <;> decide
  -- Only `AND` begins another combinator, and then a leaf would have to begin with the rest of it.
  have hand {a b : Draft} (ha : ∀ r, a ≠ Glyph.ofChars "NOT ".toList ++ r) :
      Glyph.ofChars (Combinator.and.token ++ " ").toList ++ a ≠
        Glyph.ofChars (Combinator.andNot.token ++ " ").toList ++ b := by
    have hsplit : (Combinator.andNot.token ++ " ").toList =
        (Combinator.and.token ++ " ").toList ++ "NOT ".toList := by decide
    rw [hsplit, Glyph.ofChars_append, List.append_assoc]
    exact fun h => ha b (List.append_cancel_left h)
  obtain rfl | ⟨rfl, rfl⟩ | ⟨rfl, rfl⟩ : c = c' ∨ (c = .and ∧ c' = .andNot) ∨
      (c' = .and ∧ c = .andNot) := by
    rcases either_begins h with h | h
    · exact (hbegins h).imp id .inl
    · exact (hbegins h).imp Eq.symm .inr
  · exact ⟨rfl, List.append_cancel_left h⟩
  · exact absurd h (hand ha)
  · exact absurd h.symm (hand hb)

/-- No leaf could be taken for `NOT`. -/
theorem TestedLeaf.ne_not {m : TestedLeaf} (hm : ∀ s ∈ m.test.column?, Ordinary s) (a r : Draft) :
    Template.bound (m.tokens.flatMap ClauseToken.template) ++ a ≠
      Glyph.ofChars "NOT ".toList ++ r := by
  rw [m.bound, List.append_assoc, List.append_assoc]
  intro h
  cases hopens : m.opens with
  | succ n =>
    rw [hopens, List.replicate_succ] at h
    have hhead := congrArg List.head? h
    simp at hhead
  | zero =>
    rw [hopens, List.replicate_zero, List.nil_append] at h
    obtain ⟨holds, htest⟩ | ⟨column, verb, args, hcolumn, hasks⟩ := m.test.constant_or_asks
    · rw [htest, Test.bound_constant] at h
      have hhead := congrArg List.head? h
      simp at hhead
    · have hordinary := hm column hcolumn
      rw [hasks.draft, List.append_assoc, List.cons_append] at h
      -- The blank ends the column as it ends `NOT`.
      obtain ⟨rfl, -⟩ := read_name (t := "NOT") (hordinary.notMem (by decide)) (by decide) h
      exact hordinary.keyword (by decide)

/-- What follows a leaf that `c` joins to the next one, and a blank at the end. -/
def following (c : Combinator) : List TestedLeaf → Draft
  | [] => [.char ' ']
  | m :: ms => .char ' ' :: (Glyph.ofChars (c.token ++ " ").toList ++
      (Template.bound (m.tokens.flatMap ClauseToken.template) ++ following m.combinator ms))

theorem bound_testedTokens (m : TestedLeaf) (ms : List TestedLeaf) :
    Template.bound ((testedTokens (m :: ms)).flatMap ClauseToken.template) ++ [.char ' '] =
      Template.bound (m.tokens.flatMap ClauseToken.template) ++ following m.combinator ms := by
  induction ms generalizing m with
  | nil => rfl
  | cons m' ms ih =>
    have hjoiner : (ClauseToken.joiner m.combinator).template =
        [.word (" " ++ (m.combinator.token ++ " "))] := by
      rw [ClauseToken.template, String.append_assoc]
    rw [testedTokens_cons_cons, List.flatMap_append, List.flatMap_cons, hjoiner,
      Template.bound_append, List.singleton_append, Template.bound_word, List.append_assoc,
      List.append_assoc, ih, following]
    simp

theorem head?_following (c : Combinator) (ms : List TestedLeaf) :
    (following c ms).head? = some (.char ' ') := by
  cases ms <;> rfl

theorem following_cons_ne_nil (c c' : Combinator) (m : TestedLeaf) (ms : List TestedLeaf) :
    following c (m :: ms) ≠ following c' [] := by
  intro h
  have hjoiner : Glyph.ofChars (c.token ++ " ").toList = [] :=
    (List.append_eq_nil_iff.1 (List.cons.inj h).2).1
  revert hjoiner
  cases c <;> decide

/-- Leaves are read off what follows a leaf, and so is all that joins them. -/
theorem following_read {c c' : Combinator} {ms ms' : List TestedLeaf}
    (hms : ∀ m ∈ ms, ∀ s ∈ m.test.column?, Ordinary s)
    (hms' : ∀ m ∈ ms', ∀ s ∈ m.test.column?, Ordinary s) (h : following c ms = following c' ms') :
    Forall₂ TestedLeaf.Same ms ms' ∧
      (c :: ms.map (·.combinator)).dropLast = (c' :: ms'.map (·.combinator)).dropLast := by
  have hhead (c : Combinator) (ms : List TestedLeaf) :
      (following c ms).head? ≠ some (.char ')') := by
    simp [head?_following]
  induction ms generalizing c c' ms' with
  | nil =>
    cases ms' with
    | nil => exact ⟨.nil, rfl⟩
    | cons m' ms' => exact absurd h.symm (following_cons_ne_nil c' c m' ms')
  | cons m ms ih =>
    cases ms' with
    | nil => exact absurd h (following_cons_ne_nil c c' m ms)
    | cons m' ms' =>
      obtain ⟨hm, hms⟩ := List.forall_mem_cons.1 hms
      obtain ⟨hm', hms'⟩ := List.forall_mem_cons.1 hms'
      obtain ⟨rfl, hleaf⟩ := Combinator.read (TestedLeaf.ne_not hm _) (TestedLeaf.ne_not hm' _)
        (List.cons.inj h).2
      obtain ⟨hsame, hrest⟩ := TestedLeaf.read hm hm' (hhead _ _) (hhead _ _) hleaf
      obtain ⟨hsames, hcombinators⟩ := ih hms hms' hrest
      exact ⟨.cons hsame hsames, congrArg (c :: ·) hcombinators⟩

theorem testedTokens_read {ms ms' : List TestedLeaf} (hne : ms ≠ []) (hne' : ms' ≠ [])
    (hms : ∀ m ∈ ms, ∀ s ∈ m.test.column?, Ordinary s)
    (hms' : ∀ m ∈ ms', ∀ s ∈ m.test.column?, Ordinary s)
    (h : Template.bound ((testedTokens ms).flatMap ClauseToken.template) ++ [.char ' '] =
      Template.bound ((testedTokens ms').flatMap ClauseToken.template) ++ [.char ' ']) :
    Forall₂ TestedLeaf.Same ms ms' ∧
      (ms.map (·.combinator)).dropLast = (ms'.map (·.combinator)).dropLast := by
  obtain ⟨m, ms, rfl⟩ := List.exists_cons_of_ne_nil hne
  obtain ⟨m', ms', rfl⟩ := List.exists_cons_of_ne_nil hne'
  obtain ⟨hm, hms⟩ := List.forall_mem_cons.1 hms
  obtain ⟨hm', hms'⟩ := List.forall_mem_cons.1 hms'
  rw [bound_testedTokens, bound_testedTokens] at h
  obtain ⟨hsame, hrest⟩ := TestedLeaf.read hm hm' (by simp [head?_following])
    (by simp [head?_following]) h
  obtain ⟨hsames, hcombinators⟩ := following_read hms hms' hrest
  exact ⟨.cons hsame hsames, hcombinators⟩

/-! ## Clauses -/

theorem Test.alike_refl {W : Accord} (hvalue : ∀ v, W.value v v) {t : Test}
    (ht : ∀ s ∈ t.column?, W.text s) : t.Alike W t := by
  cases t with
  | compare column op v => exact .compare (ht column rfl) op (hvalue v)
  | like column negated v => exact .like (ht column rfl) negated (hvalue v)
  | oneOf column negated v vs =>
    exact .oneOf (ht column rfl) negated (List.forall₂_same.2 fun v _ => hvalue v)
  | between column negated low high =>
    exact .between (ht column rfl) negated (hvalue low) (hvalue high)
  | isNull column negated => exact .isNull (ht column rfl) negated
  | constant holds => exact .constant holds

section
variable {ls : List Leaf} {ms : List TestedLeaf}
  (hms : Forall₂ (fun l m => l.tested = .ok m) ls ms)
include hms

theorem bodyAlike_testedTokens {W : Accord} (hvalue : ∀ v, W.value v v)
    (htext : ∀ m ∈ ms, ∀ s ∈ m.test.column?, W.text s) :
    BodyAlike W (testedTokens ms) (testedTokens ms) := by
  have htokens {l : Leaf} {m : TestedLeaf} (hm : l.tested = .ok m) :
      m.tokens = l.tokens m.test := by
    obtain ⟨-, hopens, hcloses, -⟩ := Leaf.tested_eq_ok.1 hm
    rw [TestedLeaf.tokens, Leaf.tokens, hopens, hcloses]
  induction hms with
  | nil => exact .none
  | @cons l m ls ms hm hms ih =>
    obtain ⟨hmtext, hmstext⟩ := List.forall_mem_cons.1 htext
    have hrefl : m.test.Alike W m.test := Test.alike_refl hvalue hmtext
    cases ms with
    | nil =>
      rw [testedTokens, htokens hm]
      exact .last l hrefl
    | cons m' ms =>
      rw [testedTokens_cons_cons, htokens hm]
      exact .more l m.combinator hrefl (ih hmstext)

theorem ordinary_of_tested (h : ∀ c ∈ ls.map (·.condition), Ordinary (Text.trim c.column)) :
    ∀ m ∈ ms, ∀ s ∈ m.test.column?, Ordinary s := by
  induction hms with
  | nil => simp
  | @cons l m ls ms hm hms ih =>
    obtain ⟨hl, hls⟩ := List.forall_mem_cons.1 h
    refine List.forall_mem_cons.2 ⟨fun s hs => ?_, ih hls⟩
    rw [Condition.test_column (Leaf.tested_eq_ok.1 hm).1 s hs]
    exact hl

theorem map_combinator_tested : ls.map (·.condition.combinator) = ms.map (·.combinator) := by
  induction hms with
  | nil => rfl
  | cons hm hms ih => rw [List.map_cons, List.map_cons, ih, (Leaf.tested_eq_ok.1 hm).2.2.2]

/-- While values are bound, a clause is written as its draft says. -/
theorem FilterKind.clean_template (filter : FilterKind) (d : Dialect)
    (h : ∀ m ∈ ms, ∀ s ∈ m.test.column?, Ordinary s) :
    (Rendering.mk d true).sql (filter.template (testedTokens ms)) =
      (filter.template (testedTokens ms)).bound.sql d ∧
      (filter.template (testedTokens ms)).bound.Clean d := by
  have hbody : BodyAlike .lockstep (testedTokens ms) (testedTokens ms) :=
    bodyAlike_testedTokens hms (fun _ => rfl) fun m hm s hs => (h m hm s hs).free
  exact (Likeness.lockstep d).matches_filter Accord.lawful_lockstep ⟨rfl, rfl⟩ filter hbody

end

/-- What two leaves agree in if they are written the same: the test they come down to, and the
parentheses on either side. -/
structure Leaf.Same (l l' : Leaf) : Prop where
  test : ∃ t, l.condition.test = .ok t ∧ l'.condition.test = .ok t
  opens : l.opens = l'.opens
  closes : l.closes = l'.closes

theorem same_of_tested {ls ls' : List Leaf} {ms ms' : List TestedLeaf}
    (hms : Forall₂ (fun l m => l.tested = .ok m) ls ms)
    (hms' : Forall₂ (fun l m => l.tested = .ok m) ls' ms') (h : Forall₂ TestedLeaf.Same ms ms') :
    Forall₂ Leaf.Same ls ls' := by
  induction h generalizing ls ls' with
  | nil =>
    cases hms
    cases hms'
    exact .nil
  | cons hsame _ ih =>
    cases hms with
    | cons hm hms =>
      cases hms' with
      | cons hm' hms' =>
        obtain ⟨htest, hopens, hcloses, -⟩ := Leaf.tested_eq_ok.1 hm
        obtain ⟨htest', hopens', hcloses', -⟩ := Leaf.tested_eq_ok.1 hm'
        refine .cons ⟨⟨_, htest, hsame.test ▸ htest'⟩, ?_, ?_⟩ (ih hms hms')
        · rw [hopens, hopens', hsame.opens]
        · rw [hcloses, hcloses', hsame.closes]

/-- While values are bound, two forests of ordinary columns that are written as the same clause with
the same parameters have the same leaves, joined in the same way. -/
theorem FilterKind.ofForest_unambiguous (filter : FilterKind) (d d' : Dialect)
    {forest forest' : List Tree} {clause clause' : Template}
    (hcolumns : ∀ c ∈ forestConditions forest, Ordinary (Text.trim c.column))
    (hcolumns' : ∀ c ∈ forestConditions forest', Ordinary (Text.trim c.column))
    (h : filter.ofForest forest = .ok clause) (h' : filter.ofForest forest' = .ok clause')
    (hsql : (Rendering.mk d true).sql clause = (Rendering.mk d' true).sql clause') :
    ∃ ls ls', forestLeaves forest = .ok ls ∧ forestLeaves forest' = .ok ls' ∧
      Forall₂ Leaf.Same ls ls' ∧
      (ls.map (·.condition.combinator)).dropLast = (ls'.map (·.condition.combinator)).dropLast := by
  obtain ⟨ls, ms, hls, hne, hms, rfl⟩ := FilterKind.ofForest_eq_ok h
  obtain ⟨ls', ms', hls', hne', hms', rfl⟩ := FilterKind.ofForest_eq_ok h'
  rw [← map_condition_forestLeaves hls] at hcolumns
  rw [← map_condition_forestLeaves hls'] at hcolumns'
  have hordinary := ordinary_of_tested hms hcolumns
  have hordinary' := ordinary_of_tested hms' hcolumns'
  obtain ⟨hwritten, hclean⟩ := filter.clean_template hms d hordinary
  obtain ⟨hwritten', hclean'⟩ := filter.clean_template hms' d hordinary'
  -- A dialect shows in literals only.
  change (Rendering.mk d true).sql _ = (Rendering.mk d true).sql _ at hsql
  rw [hwritten, hwritten'] at hsql
  have hdrafts := hclean.sql_injective hclean' hsql
  simp only [FilterKind.template, Template.bound_word, Template.bound_append] at hdrafts
  have hbodies := List.append_cancel_left hdrafts
  have hnonempty {ls : List Leaf} {ms : List TestedLeaf}
      (hms : Forall₂ (fun l m => l.tested = .ok m) ls ms) (hne : ls ≠ []) : ms ≠ [] := by
    rintro rfl
    exact hne (List.forall₂_nil_right_iff.1 hms)
  obtain ⟨hsame, hcombinators⟩ := testedTokens_read (hnonempty hms hne) (hnonempty hms' hne')
    hordinary hordinary' hbodies
  refine ⟨ls, ls', hls, hls', same_of_tested hms hms' hsame, ?_⟩
  rw [map_combinator_tested hms, map_combinator_tested hms', hcombinators]

/-- A group, and the same conditions with parentheses of their own, spelled in another way. -/
theorem FilterKind.ofForest_unambiguous_group :
    let one : Predicate := .compare .eq (.int 1)
    let forest : List Tree := [.group [.leaf ⟨"a", .typed one, .or, none⟩,
      .leaf ⟨"b", .typed (.isNull true), .and, none⟩]]
    let forest' : List Tree := [.leaf ⟨" a", .spelled "=" [.int 1], .or, some .opening⟩,
      .leaf ⟨"b", .typed (.compare .bangEq .null), .not, some .closing⟩]
    let clause := whereRows.template [.opening, .test (.compare "a" .eq (.int 1)), .joiner .or,
      .test (.isNull "b" true), .closing]
    whereRows.ofForest forest = .ok clause ∧ whereRows.ofForest forest' = .ok clause ∧
      ∃ ls ls', forestLeaves forest = .ok ls ∧ forestLeaves forest' = .ok ls' ∧
        Forall₂ Leaf.Same ls ls' ∧ (ls.map (·.condition.combinator)).dropLast =
          (ls'.map (·.condition.combinator)).dropLast := by
  intro one forest forest' clause
  have hclause : whereRows.ofForest forest = .ok clause := by decide +kernel
  have hclause' : whereRows.ofForest forest' = .ok clause := by decide +kernel
  have ha : Ordinary (Text.trim "a") ∧ Ordinary (Text.trim " a") := by decide
  have hb : Ordinary (Text.trim "b") := by decide
  have hcolumns : ∀ c ∈ forestConditions forest, Ordinary (Text.trim c.column) := by
    simpa [forest, forestConditions, Tree.conditions] using ⟨ha.1, hb⟩
  have hcolumns' : ∀ c ∈ forestConditions forest', Ordinary (Text.trim c.column) := by
    simpa [forest', forestConditions, Tree.conditions] using ⟨ha.2, hb⟩
  exact ⟨hclause, hclause', whereRows.ofForest_unambiguous (.standard none) (.standard none)
    hcolumns hcolumns' hclause hclause' rfl⟩

end SqlAssembly
