import SqlAssembly.Proofs.Composites
import SqlAssembly.Proofs.Modes

/-! # Slots

A new row and an update have a slot for every column, in the order of the columns.  A null and the
current time are written as keywords and take no parameter; every other value has a slot of its own.
Whatever is bound, in order, to the markers of such a statement, it comes to stand in the slot of
its own column, also if clauses with markers of their own follow. -/
namespace SqlAssembly
open Medium (ofText)
open List (Forall₂)
open Text (Pieces isSeparator)

namespace Value

def isKeyword (v : Value) : Bool := v.isNullToken || v.isCurrentTimeToken

/-- What is stored for a value: its keyword, or what is written for the value itself. -/
def stored (write : Value → String) (v : Value) : String :=
  if v.isNullToken then "NULL"
  else if v.isCurrentTimeToken then "CURRENT_TIMESTAMP()"
  else write v

/-- A null is shorter than any call for the current time. -/
theorem not_isCurrentTimeToken_of_isNullToken {v : Value} (h : v.isNullToken = true) :
    v.isCurrentTimeToken = false := by
  cases v with
  | text s =>
    have hlength {s t : String} (h : Text.sameLetters s t = true) :
        s.toList.length = t.toList.length := by
      simpa using congrArg List.length (eq_of_beq h)
    have htrim : (Text.trim s).toList.length ≤ 4 := by
      have hle := (Text.infix_trimChars s.toList).length_le
      have hnull : s.toList.length = 4 := hlength h
      simpa [hnull] using hle
    rw [isCurrentTimeToken, List.any_eq_false]
    intro call hcall hsame
    have hcalls : ∀ call ∈ currentTimeCalls, 4 < call.toList.length := by decide
    have hlong := hcalls call hcall
    rw [← hlength hsame] at hlong
    omega
  | _ => rfl

theorem writePiece_slot (value : Value → Sql) (v : Value) :
    Template.writePiece value (slot v) =
      ⟨v.stored fun v => (value v).text, if v.isKeyword then [] else (value v).params⟩ := by
  rw [slot, stored, isKeyword]
  by_cases hnull : v.isNullToken
  · simp [hnull, Template.writePiece, ofText]
  · by_cases hnow : v.isCurrentTimeToken
    · simp [hnull, hnow, Template.writePiece, ofText]
    · simp [hnull, hnow, Template.writePiece]

end Value

def rowText (verb table : String) (columns slots : List String) : String :=
  verb ++ " INTO " ++ table ++ " (" ++ ", ".intercalate columns ++ ") VALUES (" ++
    ", ".intercalate slots ++ ")"

/-- The assignments of an update, from its columns and what is stored in them. -/
def assignmentText (table : String) (columns slots : List String) : String :=
  "UPDATE " ++ table ++ " SET " ++
    ", ".intercalate (List.zipWith (fun column slot => column ++ " = " ++ slot) columns slots)

section
variable (value : Value → Sql) (pairs : List (String × Value))

def slotParams (values : List Value) : List Value :=
  (values.filter (!·.isKeyword)).flatMap fun v => (value v).params

theorem slotParams_map :
    slotParams value (pairs.map (·.2)) =
      pairs.flatMap fun p => if p.2.isKeyword then [] else (value p.2).params := by
  induction pairs with
  | nil => rfl
  | cons p pairs ih =>
    rw [List.flatMap_cons, ← ih]
    by_cases hkeyword : p.2.isKeyword <;> simp [slotParams, hkeyword]

theorem write_row (verb table : String) :
    Template.write value (rowTemplate verb table pairs) =
      ⟨rowText verb table (pairs.map (·.1))
          ((pairs.map (·.2)).map (Value.stored fun v => (value v).text)),
        slotParams value (pairs.map (·.2))⟩ := by
  rw [Build.write_rowTemplate, slotParams_map]
  simp only [Value.writePiece_slot, rowText, List.map_map, Function.comp_def]

theorem write_assignments (table : String) :
    Template.write value (assignmentTemplate table pairs) =
      ⟨assignmentText table (pairs.map (·.1))
          ((pairs.map (·.2)).map (Value.stored fun v => (value v).text)),
        slotParams value (pairs.map (·.2))⟩ := by
  have hpair (p : String × Value) : Template.write value [.word (p.1 ++ " = "), slot p.2] =
      ofText (p.1 ++ " = ") ++ Template.writePiece value (slot p.2) := by
    rw [Template.write, Template.write_singleton]
    rfl
  rw [Build.write_assignmentTemplate, slotParams_map]
  simp only [hpair, Sql.text_append, Sql.params_append, Sql.text_ofText, Sql.params_ofText,
    List.nil_append, Value.writePiece_slot, assignmentText, List.map_map, List.zipWith_map,
    List.zipWith_self, Function.comp_apply]

end

/-! ## Values in the place of markers -/

/-- The characters of a glyph, its value written in some way. -/
def Glyph.written (write : Value → String) : Glyph → List Char
  | .char c => [c]
  | .value _ v => (write v).toList

/-- A template in drafts, its values then written in some way, is the template written so. -/
theorem flatMap_written (write : Value → String) (t : Template) :
    (Template.write (fun v => ([.value true v] : Draft)) t).flatMap (Glyph.written write) =
      (Template.write (fun v => (ofText (write v) : Sql)) t).text.toList := by
  induction t with
  | nil => rfl
  | cons p t ih =>
    have happend (a b : Draft) : (a ++ b).flatMap (Glyph.written write) =
        a.flatMap (Glyph.written write) ++ b.flatMap (Glyph.written write) := List.flatMap_append
    have hchars (cs : List Char) : (Glyph.ofChars cs).flatMap (Glyph.written write) = cs := by
      induction cs with
      | nil => rfl
      | cons c cs ih => exact congrArg (c :: ·) ih
    rw [Template.write, Template.write, happend, ih, Sql.text_append, String.toList_append]
    cases p with
    | word text => exact congrArg (· ++ _) (hchars text.toList)
    | value v => exact congrArg (· ++ _) (List.append_nil (write v).toList)

namespace Text.Pieces

theorem fillMarked_add (fill : Nat → List Char) (n k : Nat) (ms : List (Option Char)) :
    fillMarked (fun i => fill (n + i)) k ms = fillMarked fill (n + k) ms := by
  induction ms generalizing k with
  | nil => rfl
  | cons m ms ih =>
    cases m with
    | none => rw [fillMarked, fillMarked, ih, Nat.add_assoc]
    | some c => rw [fillMarked, fillMarked, ih]

end Text.Pieces

namespace Marker

/-- A text whose markers are not read together with what stands in front of it. -/
def StandsApart (s : String) : Prop :=
  s = "" ∨ ∃ c t, isSeparator c = true ∧ s = String.singleton c ++ t

theorem marked_append {s : String} (h : StandsApart s) (cs : List Char) :
    marked (cs ++ s.toList) = marked cs ++ marked s.toList := by
  rcases h with rfl | ⟨c, t, hc, rfl⟩
  · simp [marked, Pieces.marked]
  · have hhead : (String.singleton c ++ t).toList = c :: t.toList := by simp
    rw [hhead, marked_joined hc, marked_cons (not_prefix_separator hc t.toList)]

theorem toList_substitute (texts : List String) (sql : String) :
    (substitute texts sql).toList =
      Pieces.fillMarked (fun k => (texts[k]?.getD text).toList) 0 (marked sql.toList) := by
  rw [substitute, String.toList_ofList, Pieces.fillFrom_eq]
  rfl

theorem substitute_empty (texts : List String) : substitute texts "" = "" := rfl

end Marker

namespace Draft

theorem fillMarked_written (d : Dialect) (write : Value → String) {draft : Draft}
    (hbound : ∀ v, Glyph.value false v ∉ draft) {fill : Nat → List Char} {k : Nat}
    (hfill : ∀ i v, (draft.flatMap Glyph.params)[i]? = some v → fill (k + i) = (write v).toList)
    (ms : List (Option Char)) :
    Pieces.fillMarked fill k (marked d draft ++ ms) =
      draft.flatMap (Glyph.written write) ++
        Pieces.fillMarked fill (k + (draft.flatMap Glyph.params).length) ms := by
  induction draft generalizing k with
  | nil => rfl
  | cons g draft ih =>
    have hrest : ∀ v, Glyph.value false v ∉ draft := fun v hv =>
      hbound v (List.mem_cons_of_mem g hv)
    rcases g with c | ⟨_ | _, v⟩
    · exact congrArg (c :: ·) (ih hrest hfill)
    · exact absurd (List.mem_cons_self ..) (hbound v)
    · have hfirst : fill k = (write v).toList := hfill 0 v rfl
      have ih := ih (k := k + 1) hrest fun i w hw => by
        rw [Nat.add_assoc, Nat.add_comm 1 i]
        exact hfill (i + 1) w hw
      have hlength : k + ((Glyph.value true v :: draft).flatMap Glyph.params).length =
          k + 1 + (draft.flatMap Glyph.params).length := by
        simp only [List.flatMap_cons, Glyph.params, List.length_append, List.length_singleton]
        omega
      rw [hlength, marked_bound, List.cons_append, Pieces.fillMarked, ih, hfirst,
        List.flatMap_cons, Glyph.written, List.append_assoc]

/-- The first texts go to the values of a clean draft, in order, and the others to what follows. -/
theorem Clean.substitute {d : Dialect} {draft : Draft} (h : draft.Clean d)
    (write : Value → String) (vs : List Value) {suffix : String}
    (hsuffix : Marker.StandsApart suffix) :
    Marker.substitute (((draft.sql d).params ++ vs).map write) ((draft.sql d).text ++ suffix) =
      String.ofList (draft.flatMap (Glyph.written write)) ++
        Marker.substitute (vs.map write) suffix := by
  let params := draft.flatMap Glyph.params
  have hmarked : Marker.marked ((draft.sql d).text ++ suffix).toList =
      marked d draft ++ Marker.marked suffix.toList := by
    rw [String.toList_append, Marker.marked_append hsuffix, text_sql, String.toList_ofList,
      h.legible]
  have hlater :
      (fun i => (((params ++ vs).map write)[params.length + i]?.getD Marker.text).toList) =
      fun i => ((vs.map write)[i]?.getD Marker.text).toList := by
    funext i
    simp [List.getElem?_append_right]
  rw [← String.toList_inj, String.toList_append, Marker.toList_substitute, hmarked,
    fillMarked_written d write h.bound, Nat.zero_add, ← Nat.add_zero (List.length _),
    ← Pieces.fillMarked_add, String.toList_ofList, Marker.toList_substitute]
  · exact congrArg (_ ++ Pieces.fillMarked · 0 _) hlater
  · intro i v hv
    have hi : i < params.length := (List.getElem?_eq_some_iff.1 hv).1
    have hfirst : (params ++ vs)[i]? = some v := (List.getElem?_append_left hi).trans hv
    rw [Nat.zero_add, List.getElem?_map, show (draft.sql d).params = params from rfl, hfirst]
    rfl

end Draft

/-- Bound to the markers of a template, in order, its values stand where the template has them. -/
theorem Template.substitute_bound {d : Dialect} {t : Template}
    (h : (Likeness.lockstep d).Matches true true t t) (write : Value → String) (vs : List Value)
    {suffix : String} (hsuffix : Marker.StandsApart suffix) :
    let x := Template.write (Rendering.mk d true).value t
    Marker.substitute ((x.params ++ vs).map write) (x.text ++ suffix) =
      (Template.write (fun v => (ofText (write v) : Sql)) t).text ++
        Marker.substitute (vs.map write) suffix := by
  intro x
  obtain ⟨hx, hclean⟩ := h
  have hx : x = Draft.sql d _ := hx
  rw [hx, hclean.substitute write vs hsuffix]
  apply congrArg (· ++ _)
  exact (congrArg String.ofList (flatMap_written write t)).trans String.ofList_toList

/-! ## Rows and updates -/

/-- What stands in the slot of a value. -/
structure Slot (r : Rendering) (v : Value) (text : String) : Prop where
  null_iff : text = "NULL" ↔ v.isNullToken = true
  now_iff : text = "CURRENT_TIMESTAMP()" ↔ v.isCurrentTimeToken = true
  value (hnull : v.isNullToken = false) (hnow : v.isCurrentTimeToken = false) :
    text = if r.bound then Marker.text else "'" ++ r.dialect.escape v.literalText ++ "'"

theorem Rendering.slot_stored (r : Rendering) (v : Value) :
    Slot r v (v.stored fun v => (r.value v).text) := by
  have hkeywords : "NULL" ≠ "CURRENT_TIMESTAMP()" := by decide
  by_cases hnull : v.isNullToken = true
  · have hnow := Value.not_isCurrentTimeToken_of_isNullToken hnull
    constructor <;> simp [Value.stored, hnull, hnow, hkeywords]
  by_cases hnow : v.isCurrentTimeToken = true
  · constructor <;> simp [Value.stored, hnull, hnow, hkeywords.symm]
  have hvalue : (r.value v).text =
      if r.bound then Marker.text else "'" ++ r.dialect.escape v.literalText ++ "'" := by
    have hne : v ≠ .null := fun h => hnull (h ▸ rfl)
    rw [Rendering.value, Dialect.literal, if_neg hne]
    split_ifs <;> rfl
  -- A marker and a literal begin with characters that no keyword begins with.
  have hneither : (r.value v).text ≠ "NULL" ∧ (r.value v).text ≠ "CURRENT_TIMESTAMP()" := by
    rw [hvalue]
    split_ifs
    · decide
    · constructor <;> intro h <;> simpa using congrArg (·.toList.head?) h
  have hstored : v.stored (fun v => (r.value v).text) = (r.value v).text := by
    rw [Value.stored, if_neg hnull, if_neg hnow]
  rw [hstored]
  exact ⟨by simp [hneither, hnull], by simp [hneither, hnow], fun _ _ => hvalue⟩

def trimmedPairs (pairs : List (String × Value)) : List (String × Value) :=
  pairs.map fun p => (Text.trim p.1, p.2)

section
variable (value : Value → Sql) {table : String} (htable : Text.trim table ≠ "")
  {pairs : List (String × Value)} (hpairs : pairs ≠ [])
  (hcolumns : ∀ p ∈ pairs, Text.trim p.1 ≠ "")
include htable hpairs hcolumns

omit htable in
theorem namedPairs_of_ne : namedPairs pairs = .ok (trimmedPairs pairs) := by
  have hblank : (trimmedPairs pairs).any (·.1 = "") = false := by
    simpa [trimmedPairs] using hcolumns
  have hnonempty : (trimmedPairs pairs).isEmpty = false := by simpa [trimmedPairs] using hpairs
  change (if (trimmedPairs pairs).any (·.1 = "") then _ else
    if (trimmedPairs pairs).isEmpty then _ else _) = _
  rw [hblank, hnonempty]
  rfl

theorem written_insert :
    (StatementRequest.insert table pairs).written value =
      .ok (Template.write value (rowTemplate "INSERT" (Text.trim table) (trimmedPairs pairs))) := by
  rw [StatementRequest.written, namedPairs_of_ne hpairs hcolumns, tableName_of_ne htable]
  rfl

theorem written_replace :
    (StatementRequest.replace table pairs).written value =
      .ok (Template.write value
        (rowTemplate "REPLACE" (Text.trim table) (trimmedPairs pairs))) := by
  rw [StatementRequest.written, namedPairs_of_ne hpairs hcolumns, tableName_of_ne htable]
  rfl

theorem written_update (clauses : List Clause) :
    (StatementRequest.update table pairs clauses).written value =
      (Clause.arrange value Clause.ofMutations clauses).map fun arranged =>
        Template.write value (assignmentTemplate (Text.trim table) (trimmedPairs pairs)) ++
          Clause.suffixOf arranged := by
  rw [StatementRequest.written, namedPairs_of_ne hpairs hcolumns, tableName_of_ne htable,
    map_eq_bind]
  rfl

end

/-- Columns without the marker may be written while values are bound. -/
theorem trimmedPairs_lockstep {pairs : List (String × Value)}
    (h : ∀ p ∈ pairs, Marker.Free p.1) :
    Forall₂ Accord.lockstep.Pair (trimmedPairs pairs) (trimmedPairs pairs) := by
  rw [List.forall₂_same]
  intro p hp
  obtain ⟨q, hq, rfl⟩ := List.mem_map.1 hp
  exact ⟨rfl, Marker.closed_free.trim (h q hq), rfl, rfl⟩

/-- What clauses come down to stands apart from the head in front of it. -/
theorem Clause.standsApart_suffixOf (arranged : List Fragment) :
    Marker.StandsApart (Clause.suffixOf arranged : Sql).text := by
  rw [Clause.suffixOf]
  split_ifs
  · exact .inl rfl
  · exact .inr ⟨' ', _, rfl, rfl⟩

theorem Clause.params_suffixOf (arranged : List Fragment) :
    (Clause.suffixOf arranged : Sql).params = arranged.flatMap (·.sql.params) := by
  cases arranged with
  | nil => rfl
  | cons f arranged =>
    simp [Clause.suffixOf, Sql.params_join, List.flatMap_map]

theorem Rendering.slotParams_value (r : Rendering) (values : List Value) :
    slotParams r.value values = if r.bound then values.filter (!·.isKeyword) else [] := by
  cases hbound : r.bound with
  | true => simp [slotParams, Rendering.value, hbound]
  | false => simp [slotParams, Rendering.value, hbound]

namespace Builder

/-- Every column that is written gets its own value.  Rows and assignments have a slot for each
column, in order: a keyword, or the value itself, bound or inlined.  The parameters are the values
of the slots that are neither null nor the current time, before those of any clauses; and whatever
is written for parameters in the place of the markers, in order, each value stands in its own
slot. -/
theorem values_reach_their_columns (b : Builder) {table : String} {pairs : List (String × Value)}
    (htable : Text.trim table ≠ "") (hpairs : pairs ≠ [])
    (hcolumns : ∀ p ∈ pairs, Text.trim p.1 ≠ "") (hfree : Marker.Free table)
    (hfrees : ∀ p ∈ pairs, Marker.Free p.1) :
    let r := b.composer.rendering
    let name := Text.trim table
    let columns := pairs.map fun p => Text.trim p.1
    let values := pairs.map (·.2)
    let bound := if r.bound then
      values.filter fun v => !(v.isNullToken || v.isCurrentTimeToken) else []
    ∃ slots, Forall₂ (Slot r) values slots ∧
      (b.statement (.insert table pairs)).2.result =
        .ok (.ofSql .insert r.bound ⟨rowText "INSERT" name columns slots, bound⟩) ∧
      (b.statement (.replace table pairs)).2.result =
        .ok (.ofSql .replace r.bound ⟨rowText "REPLACE" name columns slots, bound⟩) ∧
      (b.statement (.update table pairs [])).2.result =
        .ok (.ofSql .update r.bound ⟨assignmentText name columns slots, bound⟩) ∧
      (∀ clauses, (b.statement (.update table pairs clauses)).2.result =
        (Clause.arrange r.value Clause.ofMutations clauses).map fun arranged =>
          .ofSql .update r.bound
            ⟨assignmentText name columns slots ++ (Clause.suffixOf arranged : Sql).text,
              bound ++ arranged.flatMap (·.sql.params)⟩) ∧
      (r.bound = true → ∀ write : Value → String,
        let filled := values.map (Value.stored write)
        (∀ verb ∈ ["INSERT", "REPLACE"], Marker.substitute (bound.map write)
          (rowText verb name columns slots) = rowText verb name columns filled) ∧
        Marker.substitute (bound.map write) (assignmentText name columns slots) =
          assignmentText name columns filled ∧
        ∀ arranged : List Fragment, Marker.substitute
            ((bound ++ arranged.flatMap (·.sql.params)).map write)
            (assignmentText name columns slots ++ (Clause.suffixOf arranged : Sql).text) =
          assignmentText name columns filled ++ Marker.substitute
            ((arranged.flatMap (·.sql.params)).map write)
            (Clause.suffixOf arranged : Sql).text) := by
  intro r name columns values bound
  let slots := values.map (Value.stored fun v => (r.value v).text)
  have hnames : (trimmedPairs pairs).map (·.1) = columns := List.map_map
  have hvalues : (trimmedPairs pairs).map (·.2) = values := List.map_map
  have hbound : slotParams r.value values = bound := r.slotParams_value values
  have hrow (verb : String) :
      Template.write r.value (rowTemplate verb name (trimmedPairs pairs)) =
        ⟨rowText verb name columns slots, bound⟩ := by
    rw [write_row, hnames, hvalues, hbound]
  have hassignments : Template.write r.value (assignmentTemplate name (trimmedPairs pairs)) =
      ⟨assignmentText name columns slots, bound⟩ := by
    rw [write_assignments, hnames, hvalues, hbound]
  have hupdate (clauses : List Clause) : (b.statement (.update table pairs clauses)).2.result =
      (Clause.arrange r.value Clause.ofMutations clauses).map fun arranged =>
        .ofSql .update r.bound
          ⟨assignmentText name columns slots ++ (Clause.suffixOf arranged : Sql).text,
            bound ++ arranged.flatMap (·.sql.params)⟩ := by
    rw [result_statement, written_update _ htable hpairs hcolumns, hassignments]
    simp only [← Clause.params_suffixOf]
    cases Clause.arrange r.value Clause.ofMutations clauses <;> rfl
  refine ⟨slots, ?_, ?_, ?_, ?_, hupdate, ?_⟩
  · exact List.forall₂_map_right_iff.2 (List.forall₂_same.2 fun v _ => r.slot_stored v)
  · rw [result_statement, written_insert _ htable hpairs hcolumns, hrow]
    rfl
  · rw [result_statement, written_replace _ htable hpairs hcolumns, hrow]
    rfl
  · rw [hupdate, show Clause.arrange r.value Clause.ofMutations [] = .ok [] from rfl]
    simp [Clause.suffixOf]
  · intro hprepare write filled
    have hr : r = ⟨r.dialect, true⟩ := hprepare ▸ rfl
    have hname : Accord.lockstep.text name := Marker.closed_free.trim hfree
    have hpairs := trimmedPairs_lockstep hfrees
    have hrow' {verb : String} (hverb : Text.isSpacer verb = true) :
        Marker.substitute (bound.map write) (rowText verb name columns slots) =
          rowText verb name columns filled := by
      have hmatch := (Likeness.lockstep r.dialect).matches_row Accord.lawful_lockstep ⟨rfl, rfl⟩
        hverb hname hpairs
      have hend : Marker.StandsApart "" := .inl rfl
      have hfill := Template.substitute_bound hmatch write [] hend
      rw [← hr, hrow, write_row, hnames, hvalues] at hfill
      simpa [Marker.substitute_empty] using hfill
    have hset (vs : List Value) {suffix : String} (hsuffix : Marker.StandsApart suffix) :
        Marker.substitute ((bound ++ vs).map write) (assignmentText name columns slots ++ suffix) =
          assignmentText name columns filled ++ Marker.substitute (vs.map write) suffix := by
      have hmatch := (Likeness.lockstep r.dialect).matches_assignments Accord.lawful_lockstep
        ⟨rfl, rfl⟩ hname hpairs
      have hfill := Template.substitute_bound hmatch write vs hsuffix
      rwa [← hr, hassignments, write_assignments, hnames, hvalues] at hfill
    refine ⟨fun verb hverb => ?_, ?_, fun arranged => ?_⟩
    · simp only [List.mem_cons, List.not_mem_nil, or_false] at hverb
      rcases hverb with rfl | rfl <;> exact hrow' (by decide)
    · have hend : Marker.StandsApart "" := .inl rfl
      simpa [Marker.substitute_empty] using hset [] hend
    · exact hset _ (Clause.standsApart_suffixOf arranged)

/-- A row and an update of all kinds of values, one of them the marker itself. -/
theorem values_reach_their_columns_mixed :
    let b := fresh (.ofSettings { vendor := some .postgreSql })
    let pairs : List (String × Value) :=
      [(" a ", .text Marker.text), ("b", .text "Null"), ("c", .text " now() "), ("d", .int 5)]
    let filter : Clause := .fragment ⟨.whereRows, ⟨" WHERE id = __param__ ", [.int 7]⟩⟩
    let inserted : Statement := ⟨.insert,
      ⟨"INSERT INTO t (a, b, c, d) VALUES (__param__, NULL, CURRENT_TIMESTAMP(), __param__)",
        [.text Marker.text, .int 5]⟩, true⟩
    let updated : Statement := ⟨.update,
      ⟨"UPDATE t SET a = __param__, b = NULL, c = CURRENT_TIMESTAMP(), d = __param__ " ++
          "WHERE id = __param__ ", [.text Marker.text, .int 5, .int 7]⟩, true⟩
    (b.statement (.insert " t " pairs)).2.result = .ok inserted ∧
      (b.statement (.update " t " pairs [filter])).2.result = .ok updated ∧
      Marker.substitute (inserted.sql.params.map Value.literalText) inserted.sql.text =
        "INSERT INTO t (a, b, c, d) VALUES (__param__, NULL, CURRENT_TIMESTAMP(), 5)" := by
  intro b pairs filter inserted updated
  have hinserted : (b.statement (.insert " t " pairs)).2.result = .ok inserted := by
    decide +kernel
  have hupdated : (b.statement (.update " t " pairs [filter])).2.result = .ok updated := by
    decide +kernel
  obtain ⟨slots, -, hinsert, -, -, -, hfill⟩ := b.values_reach_their_columns
    (by decide : Text.trim " t " ≠ "") (by decide : pairs ≠ []) (by decide) (by decide) (by decide)
  refine ⟨hinserted, hupdated, ?_⟩
  rw [hinserted] at hinsert
  rw [Except.ok.inj hinsert]
  exact ((hfill rfl Value.literalText).1 "INSERT" (by decide)).trans (by decide)

end Builder

end SqlAssembly
