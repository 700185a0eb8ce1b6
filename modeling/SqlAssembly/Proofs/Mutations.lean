import SqlAssembly.Proofs.Leaves
import SqlAssembly.Proofs.Operations

/-! # Updates and deletions

An update or a deletion never loses a filter.  It takes a filter that is already written, or
conditions that all end up in one, and nothing else but an order and a limit; whatever else it is
given, or cannot write, fails it.  What it takes follows its head unchanged, outer blanks aside.
-/
namespace SqlAssembly
open Medium (ofText)
open List (Forall₂)

inductive Mutation where
  | update (table : String) (pairs : List (String × Value))
  | delete (table : String)

namespace Mutation

def request (clauses : List Clause) : Mutation → StatementRequest Clause
  | .update table pairs => .update table pairs clauses
  | .delete table => .delete table clauses

def operation : Mutation → Operation
  | .update table pairs => .update table pairs
  | .delete table => .delete table

def kind : Mutation → StatementKind
  | .update .. => .update
  | .delete .. => .delete

def head (m : Mutation) (value : Value → Sql) : Except Error Sql := m.operation.head value

end Mutation

/-! ## Clauses of mutations -/

namespace Clause

section
variable {σ : Type}

def ofKind (clauses : List (Clause σ)) (k : ClauseKind) : List (Fragment σ) :=
  (fragments clauses).filter (·.kind = k)

/-- Clauses that a mutation takes: a filter, an order and a limit, each once at most, and conditions
in the place of a filter, all of which can be written. -/
structure Taken (clauses : List (Clause σ)) : Prop where
  allowed : ∀ f ∈ fragments clauses, f.kind ∈ ofMutations
  single : ∀ k, (ofKind clauses k).length ≤ 1
  apart : forest clauses ≠ [] → ofKind clauses .whereRows = []
  filled : forestFilled (forest clauses)
  writable : ∀ c ∈ forestConditions (forest clauses), c.Writable

theorem ofKind_eq_nil_iff {clauses : List (Clause σ)} {k : ClauseKind} :
    ofKind clauses k = [] ↔ ∀ f ∈ fragments clauses, f.kind ≠ k := filter_kind_eq_nil_iff

/-- Nothing that a mutation may carry is repeatable. -/
theorem accepted_ofMutations_iff {clauses : List (Clause σ)} :
    Accepted ofMutations [] (fragments clauses) ↔
      (∀ f ∈ fragments clauses, f.kind ∈ ofMutations) ∧
        ∀ k, (ofKind clauses k).length ≤ 1 := by
  refine ⟨fun h => ⟨h.allowed, fun k => ?_⟩, fun ⟨hallowed, hsingle⟩ => ⟨hallowed, fun k _ => ?_⟩⟩
  · by_cases hk : k ∈ ofMutations
    · have honce : ∀ k ∈ ofMutations, k.isRepeatable = false := by decide
      exact h.toSingle k (honce k hk)
    · have hnone : ofKind clauses k = [] :=
        ofKind_eq_nil_iff.2 fun f hf heq => hk (heq ▸ h.allowed f hf)
      simp [hnone]
  · simpa [ofKind] using hsingle k

theorem inGrammarOrder_ofMutations {fs : List (Fragment σ)} (h : ∀ f ∈ fs, f.kind ∈ ofMutations) :
    inGrammarOrder fs = fs.filter (·.kind = .whereRows) ++
      (fs.filter (·.kind = .orderBy) ++ fs.filter (·.kind = .limit)) := by
  have hnone {k : ClauseKind} (hk : k ∉ ofMutations) : fs.filter (·.kind = k) = [] :=
    filter_kind_eq_nil_iff.2 fun f hf heq => hk (heq ▸ h f hf)
  have hjoin : .join ∉ ofMutations := by decide
  have hgroup : .groupBy ∉ ofMutations := by decide
  have hhaving : .having ∉ ofMutations := by decide
  have hunion : .union ∉ ofMutations := by decide
  have hraw : .raw ∉ ofMutations := by decide
  simp only [inGrammarOrder, ClauseKind.grammar, List.flatMap_cons, List.flatMap_nil, hnone hjoin,
    hnone hgroup, hnone hhaving, hnone hunion, hnone hraw, List.nil_append, List.append_nil]

theorem checkHaving_ofMutations {fs : List (Fragment σ)} (h : ∀ f ∈ fs, f.kind ∈ ofMutations) :
    checkHaving fs = .ok () := by
  have hnone : fs.any (·.kind = .having) = false := by
    rw [List.any_eq_false]
    intro f hf hkind
    have hmem := h f hf
    rw [of_decide_eq_true hkind] at hmem
    exact absurd hmem (by decide)
  simp [checkHaving, hnone]

end

variable {σ : Type} [Medium σ] {value : Value → σ} {clauses : List (Clause σ)}

def filterOf (value : Value → σ) (body : List ClauseToken) : Fragment σ :=
  ⟨.whereRows, Template.write value (FilterKind.whereRows.template body)⟩

/-- A filter may be added wherever there is none. -/
theorem withForest_of_tokens {fs : List (Fragment σ)} (hnone : ∀ f ∈ fs, f.kind ≠ .whereRows)
    {trees : List Tree} {body : List ClauseToken} (hbody : forestTokens trees = .ok body) :
    withForest value fs trees = .ok (fs ++ [filterOf value body]) := by
  apply withForest_of_body hnone
  rw [FilterKind.ofForest, hbody]
  rfl

theorem ofMutations_append {fs : List (Fragment σ)} (h : ∀ f ∈ fs, f.kind ∈ ofMutations)
    (body : List ClauseToken) : ∀ f ∈ fs ++ [filterOf value body], f.kind ∈ ofMutations :=
  List.forall_mem_append.2 ⟨h, by simp [filterOf, ofMutations]⟩

/-- The `WHERE` clauses that clauses come down to: the ones given, or the one that the conditions
make. -/
inductive Filters (value : Value → σ) (clauses : List (Clause σ)) : List (Fragment σ) → Prop
  | given (h : forest clauses = []) : Filters value clauses (ofKind clauses .whereRows)
  | made {body : List ClauseToken} (h : forestTokens (forest clauses) = .ok body) :
    Filters value clauses [filterOf value body]

theorem exists_arrange_of_taken (h : Taken clauses) :
    ∃ arranged, arrange value ofMutations clauses = .ok arranged := by
  have haccepted := accepted_ofMutations_iff.2 ⟨h.allowed, h.single⟩
  have hgiven := checkHaving_ofMutations h.allowed
  rw [arrange, check_eq_ok_iff.2 haccepted, ok_bind]
  by_cases hnone : forest clauses = []
  · rw [hnone, withForest_nil, ok_bind, hgiven]
    exact ⟨_, rfl⟩
  · obtain ⟨body, hbody⟩ :=
      (exists_forestTokens_iff (forest clauses)).2 ⟨hnone, h.filled, h.writable⟩
    rw [withForest_of_tokens (ofKind_eq_nil_iff.1 (h.apart hnone)) hbody, ok_bind,
      checkHaving_ofMutations (ofMutations_append h.allowed body)]
    exact ⟨_, rfl⟩

/-- Clauses that are arranged for a mutation are taken: a filter, an order and a limit are left. -/
theorem arrange_ofMutations {arranged : List (Fragment σ)}
    (h : arrange value ofMutations clauses = .ok arranged) :
    Taken clauses ∧ ∃ filters, Filters value clauses filters ∧
      arranged = filters ++ (ofKind clauses .orderBy ++ ofKind clauses .limit) := by
  obtain ⟨_, hcheck, h⟩ := bind_eq_ok.1 h
  obtain ⟨all, hall, h⟩ := bind_eq_ok.1 h
  obtain ⟨_, -, h⟩ := bind_eq_ok.1 h
  cases h
  obtain ⟨hallowed, hsingle⟩ := accepted_ofMutations_iff.1 (check_eq_ok_iff.1 hcheck)
  obtain ⟨hnone, rfl⟩ | ⟨hsome, hapart, body, hbody, rfl⟩ := withForest_ok hall
  · refine ⟨⟨hallowed, hsingle, fun hsome => absurd hnone hsome, ?_, ?_⟩, _, .given hnone,
      inGrammarOrder_ofMutations hallowed⟩
    · simp [hnone, forestFilled]
    · simp [hnone, forestConditions]
  · obtain ⟨tokens, htokens, hbody⟩ := bind_eq_ok.1 hbody
    cases hbody
    obtain ⟨-, hfilled, hwritable⟩ := (exists_forestTokens_iff _).1 ⟨tokens, htokens⟩
    have hempty := ofKind_eq_nil_iff.2 hapart
    refine ⟨⟨hallowed, hsingle, fun _ => hempty, hfilled, hwritable⟩, _, .made htokens, ?_⟩
    -- The clause of the conditions is the only filter, and neither an order nor a limit.
    refine (inGrammarOrder_ofMutations (ofMutations_append hallowed tokens)).trans ?_
    rw [ofKind] at hempty
    simp [filterOf, List.filter_append, hempty, ofKind]

end Clause

/-! ## The end of a clause -/

namespace Text

def endsSolid (s : String) : Bool := s.toList.getLast?.any (!isBlank ·)

theorem endsSolid_append (s : String) {t : String} (h : endsSolid t = true) :
    endsSolid (s ++ t) = true := by
  rw [endsSolid] at h ⊢
  cases hlast : t.toList.getLast? with
  | none => simp [hlast] at h
  | some c => simpa [List.getLast?_append, hlast] using h

theorem trim_padded {c : Char} {s : String} (hstart : isBlank c = false)
    (hhead : s.toList.head? = some c) (hend : endsSolid s = true) :
    trim (" " ++ s ++ " ") = s := by
  have hblank : isBlank ' ' = true := rfl
  obtain ⟨rest, hrest⟩ := List.head?_eq_some_iff.1 hhead
  rw [endsSolid] at hend
  cases hlast : s.toList.getLast? with
  | none => simp [hlast] at hend
  | some d =>
    have hd : isBlank d = false := by simpa [hlast] using hend
    obtain ⟨start, hsplit⟩ := List.getLast?_eq_some_iff.1 hlast
    rw [← String.toList_inj, toList_trim]
    -- From the left `c` stops the trimming, from the right `d` does.
    have hleft : trimStartChars (" " ++ s ++ " ").toList = s.toList ++ [' '] := by
      simp [trimStartChars, hrest, hblank, hstart]
    rw [trimChars, hleft, trimEndChars, hsplit]
    simp [hblank, hd]

end Text

namespace Rendering

variable (r : Rendering)

theorem endsSolid_value (v : Value) : Text.endsSolid (r.value v).text = true := by
  rw [value]
  split_ifs
  · exact (by decide : Text.endsSolid Marker.text = true)
  · rw [Dialect.literal]
    split_ifs
    · decide
    · exact Text.endsSolid_append _ (by decide)

theorem endsSolid_last {p : Piece}
    (h : Text.endsSolid (Template.writePiece r.value p).text = true) (t : Template) :
    Text.endsSolid (Template.write r.value (t ++ [p])).text = true := by
  rw [Template.write_append, Template.write_singleton]
  exact Text.endsSolid_append _ h

theorem endsSolid_lastValue (t : Template) (v : Value) :
    Text.endsSolid (Template.write r.value (t ++ [.value v])).text = true :=
  r.endsSolid_last (p := .value v) (r.endsSolid_value v) t

theorem endsSolid_lastWord (t : Template) {word : String} (h : Text.endsSolid word = true) :
    Text.endsSolid (Template.write r.value (t ++ [.word word])).text = true :=
  r.endsSolid_last (p := .word word) h t

theorem endsSolid_test (t : Test) :
    Text.endsSolid (Template.write r.value t.template).text = true := by
  cases t with
  | compare column op v => exact r.endsSolid_lastValue [_] v
  | like column negated v => exact r.endsSolid_lastValue [_] v
  | oneOf column negated first rest => exact r.endsSolid_lastWord (_ :: _) (by decide)
  | between column negated low high => exact r.endsSolid_lastValue [_, _, _] high
  | isNull column negated =>
    exact r.endsSolid_lastWord [] (Text.endsSolid_append column (by cases negated <;> decide))
  | constant holds => exact r.endsSolid_lastWord [] (by cases holds <;> decide)

theorem endsSolid_tokens (tokens : List ClauseToken) {t : ClauseToken}
    (h : Text.endsSolid (Template.write r.value t.template).text = true) :
    Text.endsSolid (Template.write r.value
      ((tokens ++ [t]).flatMap ClauseToken.template)).text = true := by
  rw [List.flatMap_append, List.flatMap_singleton, Template.write_append]
  exact Text.endsSolid_append _ h

theorem endsSolid_leaf (tokens : List ClauseToken) (m : TestedLeaf) :
    Text.endsSolid (Template.write r.value
      ((tokens ++ m.tokens).flatMap ClauseToken.template)).text = true := by
  rw [TestedLeaf.tokens, ← List.append_assoc]
  cases m.closes with
  | zero => exact r.endsSolid_tokens _ (r.endsSolid_test m.test)
  | succ n =>
    rw [List.replicate_succ', ← List.cons_append, ← List.append_assoc]
    exact r.endsSolid_tokens _ (t := .closing) (r.endsSolid_lastWord [] (by decide))

/-- A body ends in a test or in a closing parenthesis. -/
theorem endsSolid_testedTokens {ms : List TestedLeaf} (hne : ms ≠ []) (tokens : List ClauseToken) :
    Text.endsSolid (Template.write r.value
      ((tokens ++ testedTokens ms).flatMap ClauseToken.template)).text = true := by
  induction ms generalizing tokens with
  | nil => exact absurd rfl hne
  | cons m ms ih =>
    cases ms with
    | nil => exact r.endsSolid_leaf tokens m
    | cons m' ms =>
      have hrest := ih (List.cons_ne_nil m' ms) (tokens ++ (m.tokens ++ [.joiner m.combinator]))
      simpa [testedTokens_cons_cons] using hrest

theorem trim_filter {body : List ClauseToken} {forest : List Tree}
    (h : forestTokens forest = .ok body) :
    Medium.trim (Clause.filterOf r.value body).sql =
      ofText "WHERE " ++ Template.write r.value (body.flatMap ClauseToken.template) := by
  obtain ⟨ls, ms, hls, hne, hms, rfl⟩ := forestTokens_eq_ok h
  have hms : ms ≠ [] := by
    rintro rfl
    cases hms
    exact hne rfl
  generalize hbody : Template.write r.value
    ((testedTokens ms).flatMap ClauseToken.template) = written
  have hsolid : Text.endsSolid ("WHERE " ++ written.text) = true :=
    Text.endsSolid_append _ (hbody ▸ r.endsSolid_testedTokens hms [])
  have hwritten : (Clause.filterOf r.value (testedTokens ms)).sql =
      ⟨" " ++ ("WHERE " ++ written.text) ++ " ", written.params⟩ := by
    rw [Clause.filterOf, FilterKind.template, Template.write, Template.write_append, hbody,
      Template.write_singleton]
    ext1
    · rw [← String.toList_inj]
      simp [Template.writePiece, FilterKind.keyword]
    · simp [Template.writePiece]
  rw [hwritten]
  ext1
  · exact Text.trim_padded (c := 'W') (by decide) (by simp) hsolid
  · rfl

end Rendering

/-! ## Mutations with a filter -/

/-- The `WHERE` clause in the text of a mutation: the one given, its outer blanks cut off, or one
that holds, parentheses aside, the tests of all conditions in depth-first order, each joined to the
next by the combinator of its condition. -/
inductive Clause.FilteredBy (value : Value → Sql) (clauses : List Clause) : Sql → Prop
  | given {f : Fragment} (hnone : forest clauses = []) (h : ofKind clauses .whereRows = [f]) :
    FilteredBy value clauses (Medium.trim f.sql)
  | made {tests : List (Test × Combinator)} {body : List ClauseToken}
    (hnone : ofKind clauses .whereRows = [])
    (htests : Forall₂ (fun c t => c.test = .ok t.1 ∧ c.combinator = t.2)
      (forestConditions (forest clauses)) tests)
    (hbody : body.filter ClauseToken.isWord = joinedTests tests) :
    FilteredBy value clauses
      (ofText "WHERE " ++ Template.write value (body.flatMap ClauseToken.template))

/-- Clauses that are taken and filter come down to one `WHERE` clause. -/
theorem Clause.Filters.filteredBy {r : Rendering} {clauses : List Clause}
    {filters : List Fragment} (h : Filters r.value clauses filters) (htaken : Taken clauses)
    (hfilters : forest clauses ≠ [] ∨ ofKind clauses .whereRows ≠ []) :
    ∃ f, filters = [f] ∧ FilteredBy r.value clauses (Medium.trim f.sql) := by
  cases h with
  | given hnone =>
    have hone := htaken.single .whereRows
    match hgiven : ofKind clauses .whereRows with
    | [] => simp [hnone, hgiven] at hfilters
    | [f] => exact ⟨f, rfl, .given hnone hgiven⟩
    | _ :: _ :: _ => simp [hgiven] at hone
  | made hbody =>
    have hsome : forest clauses ≠ [] := ((exists_forestTokens_iff _).1 ⟨_, hbody⟩).1
    obtain ⟨tests, htests, hjoined⟩ := forestTokens_joined hbody
    refine ⟨_, rfl, ?_⟩
    rw [r.trim_filter hbody]
    exact .made (htaken.apart hsome) htests hjoined

namespace Builder

theorem result_mutation (b : Builder) (m : Mutation) (clauses : List Clause) :
    (b.statement (m.request clauses)).2.result = (do
      let head ← m.head b.composer.rendering.value
      let arranged ← Clause.arrange b.composer.rendering.value Clause.ofMutations clauses
      return .ofSql m.kind b.composer.settings.prepare (head ++ Clause.suffixOf arranged)) := by
  rw [result_statement]
  cases m <;>
    simp only [Mutation.request, StatementRequest.written, withClauses, map_eq_bind, bind_assoc,
      pure_eq_ok, ok_bind, Mutation.head, Mutation.operation, Operation.head,
      StatementRequest.kind, Mutation.kind]

/-- An update or a deletion succeeds if and only if its arguments are acceptable and all of its
clauses can be taken.  If they filter, its head is then followed by one `WHERE` clause with all that
they filter by, and by the order and the limit among them. -/
theorem mutation_keeps_filter (b : Builder) (m : Mutation) (clauses : List Clause) :
    let value := b.composer.rendering.value
    let result := (b.statement (m.request clauses)).2.result
    let orders := Clause.ofKind clauses .orderBy
    let limits := Clause.ofKind clauses .limit
    ((∃ s, result = .ok s) ↔ (∃ head, m.head value = .ok head) ∧ Clause.Taken clauses) ∧
      ∀ s, result = .ok s → Clause.forest clauses ≠ [] ∨ Clause.ofKind clauses .whereRows ≠ [] →
        ∃ head filter, m.head value = .ok head ∧ Clause.FilteredBy value clauses filter ∧
          orders.length ≤ 1 ∧ limits.length ≤ 1 ∧
          s = .ofSql m.kind b.composer.settings.prepare (head ++ (ofText " " ++
            (Medium.join " " (filter :: (orders ++ limits).map (Medium.trim ·.sql)) ++
              ofText " "))) := by
  intro value result orders limits
  have hresult : result = (do
      let head ← m.head value
      let arranged ← Clause.arrange value Clause.ofMutations clauses
      return .ofSql m.kind b.composer.settings.prepare (head ++ Clause.suffixOf arranged)) :=
    b.result_mutation m clauses
  constructor
  · rw [hresult]
    constructor
    · rintro ⟨s, h⟩
      obtain ⟨head, hhead, h⟩ := bind_eq_ok.1 h
      obtain ⟨arranged, harranged, -⟩ := bind_eq_ok.1 h
      exact ⟨⟨head, hhead⟩, (Clause.arrange_ofMutations harranged).1⟩
    · rintro ⟨⟨head, hhead⟩, htaken⟩
      obtain ⟨arranged, harranged⟩ :
          ∃ arranged, Clause.arrange value Clause.ofMutations clauses = .ok arranged :=
        Clause.exists_arrange_of_taken htaken
      rw [hhead, ok_bind, harranged]
      exact ⟨_, rfl⟩
  · intro s h hfilters
    rw [hresult] at h
    obtain ⟨head, hhead, h⟩ := bind_eq_ok.1 h
    obtain ⟨arranged, harranged, h⟩ := bind_eq_ok.1 h
    cases h
    obtain ⟨htaken, filters, hfiltered, rfl⟩ := Clause.arrange_ofMutations harranged
    obtain ⟨f, rfl, hfilter⟩ := hfiltered.filteredBy htaken hfilters
    exact ⟨head, Medium.trim f.sql, hhead, hfilter, htaken.single _, htaken.single _, rfl⟩

/-- An update of the rows that meet a group of conditions and another one, after its limit; with an
empty group besides, it is not taken. -/
theorem mutation_keeps_filter_update :
    let b := fresh (Composer.ofSettings { prepare := false })
    let test (column : String) (combinator : Combinator) : Tree :=
      .leaf { column, criterion := .typed (.compare .eq (.int 1)), combinator }
    let m : Mutation := .update "users" [("name", .text "x")]
    let clauses : List Clause := [.fragment (limit 1 none),
      .condition (.group [test "a" .or, test "b" .and]), .condition (test "c" .or)]
    let result (clauses : List Clause) := (b.statement (m.request clauses)).2.result
    let text := "UPDATE users SET name = 'x' WHERE (a = '1' OR b = '1') AND c = '1' LIMIT 1 "
    result clauses = .ok ⟨.update, text, false⟩ ∧ Clause.Taken clauses ∧
      (∃ filter, Clause.FilteredBy b.composer.rendering.value clauses filter) ∧
      ¬ Clause.Taken (.condition (.group []) :: clauses) := by
  intro b test m clauses result text
  have hresult : result clauses = .ok ⟨.update, text, false⟩ := by decide +kernel
  have hempty : result (.condition (.group []) :: clauses) =
      .error (.malformedCondition .emptyGroup) := by decide +kernel
  have htaken := (b.mutation_keeps_filter m clauses).1.1 ⟨_, hresult⟩
  have hfiltered := (b.mutation_keeps_filter m clauses).2 _ hresult (.inl (List.cons_ne_nil _ _))
  obtain ⟨-, filter, -, hfilter, -⟩ := hfiltered
  refine ⟨hresult, htaken.2, ⟨filter, hfilter⟩, fun hrefused => ?_⟩
  have hall := (b.mutation_keeps_filter m (.condition (.group []) :: clauses)).1
  obtain ⟨s, hs⟩ := hall.2 ⟨htaken.1, hrefused⟩
  have hok : result (.condition (.group []) :: clauses) = .ok s := hs
  rw [hempty] at hok
  cases hok

end Builder

end SqlAssembly
