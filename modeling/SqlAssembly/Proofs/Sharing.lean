import Mathlib.Data.List.Nodup
import SqlAssembly.Proofs.Turns

/-! # Databases shared by tasks

The builder that tasks share is as good as new after every turn, so every operation comes down to
what it would be on its own, and is executed once.
-/
namespace SqlAssembly

/-! ## Statements and clients -/

def ClientAnswer.result : Option ClientAnswer → Except Error Nat
  | some (.rows affected) => .ok affected
  | some (.failure reason) => .error (.query (.refused reason))
  | none => .ok 1

theorem Client.call_eq (c : Client) (sql : Sql) :
    c.call sql = ({ c with replies := c.replies.tail, calls := c.calls ++ [sql] },
      ClientAnswer.result c.replies.head?) := by
  rw [Client.call]
  match c.replies.head? with
  | some (.rows affected) => rfl
  | some (.failure reason) => rfl
  | none => rfl

namespace Statement

def forClient (s : Statement) (vendor : Option Vendor) : Sql :=
  { text := (vendor.map s.vendorText).getD s.sql.text, params := s.sql.params }

/-- A statement that a client of some vendor may be sent: it has as many placeholders as
parameters, and the vendor is known if there are any. -/
structure Sendable (s : Statement) (vendor : Option Vendor) : Prop where
  counted : s.placeholders = s.sql.params.length
  addressed : vendor = none → s.placeholders = 0

theorem forVendor_of_sendable {s : Statement} {vendor : Option Vendor} (h : s.Sendable vendor) :
    s.forVendor vendor = .ok (s.forClient vendor) := by
  have hcounted : ¬ s.placeholders ≠ s.sql.params.length := not_not.2 h.counted
  cases vendor with
  | none =>
    rw [forVendor, if_neg hcounted, if_pos (h.addressed rfl)]
    rfl
  | some v => exact if_neg hcounted

theorem forVendor_of_not_sendable {s : Statement} {vendor : Option Vendor}
    (h : ¬ s.Sendable vendor) : ∃ e, s.forVendor vendor = .error e := by
  by_cases hcount : s.placeholders = s.sql.params.length
  · cases vendor with
    | none =>
      have hsome : s.placeholders ≠ 0 := fun hzero => h ⟨hcount, fun _ => hzero⟩
      exact ⟨.noVendor, by rw [forVendor, if_neg (not_not.2 hcount), if_neg hsome]⟩
    | some v => exact absurd ⟨hcount, nofun⟩ h
  · exact ⟨_, if_pos hcount⟩

theorem execute_unsent {s : Statement} {c : Client} {e : Error}
    (h : s.forVendor c.dialect.vendor = .error e) : s.execute c = (c, ⟨.error e, []⟩) := by
  rw [execute, h]

theorem execute_sent {s : Statement} {c : Client} {sql : Sql}
    (h : s.forVendor c.dialect.vendor = .ok sql) :
    (s.execute c).1 = (c.call sql).1 ∧ (s.execute c).2.result = (c.call sql).2 := by
  rw [execute, h]
  simp only
  cases (c.call sql).2 <;> exact ⟨rfl, rfl⟩

end Statement

/-- A call of a client, with the task that makes it and the number of its operation. -/
structure Sent (ι : Type) where
  task : ι
  number : Nat
  sql : Sql

namespace Shared

variable {ι : Type}

/-! ## Answered once -/

/-- An operation sends `sql`: a new builder makes a statement of it that the client may be sent, and
`sql` is that statement with the client's placeholders and its own parameters. -/
def Sends (c : Composer) (script : Script) (sql : Sql) : Prop :=
  ∃ t, Builder.made c script = .ok t ∧ t.Sendable c.dialect.vendor ∧
    sql = t.forClient c.dialect.vendor

/-- An operation fails on its own: a new builder makes no statement of it, or one that the client
may not be sent. -/
inductive Fails (c : Composer) (script : Script) : Error → Prop
  | build {e : Error} (h : Builder.made c script = .error e) : Fails c script e
  | send {t : Statement} {e : Error} (h : Builder.made c script = .ok t)
    (he : t.forVendor c.dialect.vendor = .error e) : Fails c script e

section
variable {c : Composer} {script : Script}

theorem sends_or_fails (c : Composer) (script : Script) :
    (∃ sql, Sends c script sql) ∨ ∃ e, Fails c script e := by
  cases h : Builder.made c script with
  | error e => exact .inr ⟨e, .build h⟩
  | ok t =>
    by_cases hsendable : t.Sendable c.dialect.vendor
    · exact .inl ⟨_, t, h, hsendable, rfl⟩
    · obtain ⟨e, he⟩ := Statement.forVendor_of_not_sendable hsendable
      exact .inr ⟨e, .send h he⟩

theorem Fails.unique {e e' : Error} (h : Fails c script e) (h' : Fails c script e') : e = e' := by
  cases h <;> cases h' <;> simp_all

theorem Sends.unique {sql sql' : Sql} (h : Sends c script sql) (h' : Sends c script sql') :
    sql = sql' := by
  obtain ⟨t, ht, -, rfl⟩ := h
  obtain ⟨t', ht', -, rfl⟩ := h'
  rw [ht] at ht'
  rw [Except.ok.inj ht']

theorem Sends.not_fails {sql : Sql} {e : Error} (h : Sends c script sql) : ¬ Fails c script e := by
  obtain ⟨t, ht, hsendable, -⟩ := h
  have hsent := Statement.forVendor_of_sendable hsendable
  rintro (hmade | ⟨hmade, he⟩)
  · rw [ht] at hmade
    cases hmade
  · rw [ht] at hmade
    cases hmade
    rw [hsent] at he
    cases he

theorem sends_of_forVendor {t : Statement} {sql : Sql} (ht : Builder.made c script = .ok t)
    (hsql : t.forVendor c.dialect.vendor = .ok sql) : Sends c script sql := by
  by_cases hsendable : t.Sendable c.dialect.vendor
  · rw [Statement.forVendor_of_sendable hsendable] at hsql
    exact ⟨t, ht, hsendable, (Except.ok.inj hsql).symm⟩
  · obtain ⟨e, he⟩ := Statement.forVendor_of_not_sendable hsendable
    rw [he] at hsql
    cases hsql

end

/-- Every operation that is answered has been answered as it would be on its own: the calls that the
client has received are those of the operations that send something, one call for each, and every
other operation has failed without one. -/
structure Settled (c : Composer) (initial : Client) (s : Shared ι) (sent : List (Sent ι)) :
    Prop where
  dialect : initial.dialect = c.dialect
  builder : s.toBuilder = .fresh c
  client : s.client = { initial with
    replies := initial.replies.drop sent.length, calls := initial.calls ++ sent.map (·.sql) }
  built {i : ι} {t : Statement} (h : (s.tasks i).built = some t) :
    ∃ script, s.next i = some script ∧ Builder.made c script = .ok t
  once : (sent.map fun x => (x.task, x.number)).Nodup
  mem_iff (x : Sent ι) : x ∈ sent ↔ x.number < (s.tasks x.task).answers.length ∧
    ∃ script, (s.operations x.task)[x.number]? = some script ∧ Sends c script x.sql
  replied {k : Nat} {x : Sent ι} (h : sent[k]? = some x) :
    (s.tasks x.task).answers[x.number]? = some (ClientAnswer.result initial.replies[k]?)
  failed {i : ι} {n : Nat} (h : n < (s.tasks i).answers.length) {script : Script}
    (hscript : (s.operations i)[n]? = some script) {e : Error} (he : Fails c script e) :
    (s.tasks i).answers[n]? = some (.error e)
  bounded (i : ι) : (s.tasks i).answers.length ≤ (s.operations i).length

theorem settled_start (client : Client) (settings : Settings) (operations : ι → List Script) :
    Settled ⟨client.dialect, settings⟩ client (start client settings operations) [] where
  dialect := rfl
  builder := rfl
  client := by simp [start, Database.ofClient]
  built h := by simp [start] at h
  once := List.nodup_nil
  mem_iff x := by simp [start]
  replied h := by simp at h
  failed h := by simp [start] at h
  bounded i := Nat.zero_le _

namespace Settled

variable {c : Composer} {initial : Client} {s : Shared ι} {sent : List (Sent ι)} {i : ι}
  {script : Script}

theorem number_lt (h : Settled c initial s sent) {x : Sent ι} (hx : x ∈ sent) :
    x.number < (s.tasks x.task).answers.length := ((h.mem_iff x).1 hx).1

theorem operation_ne (h : Settled c initial s sent) (i : ι) :
    ∀ x ∈ sent, (x.task, x.number) ≠ (i, (s.tasks i).answers.length) := by
  intro x hx heq
  have hlt := h.number_lt hx
  rw [Prod.mk.injEq] at heq
  rw [heq.1, heq.2] at hlt
  exact absurd hlt (Nat.lt_irrefl _)

/-- A statement that is built waits for a later turn of its task. -/
theorem build [DecidableEq ι] (h : Settled c initial s sent) (hnext : s.next i = some script)
    {t : Statement} (ht : Builder.made c script = .ok t) :
    Settled c initial (s.setTask i { s.tasks i with built := some t }) sent where
  dialect := h.dialect
  builder := h.builder
  client := h.client
  built {j t'} hj := by
    by_cases hji : j = i
    · subst hji
      rw [tasks_setTask_self] at hj
      cases hj
      refine ⟨script, ?_, ht⟩
      rw [next, answers_built]
      exact hnext
    · rw [tasks_setTask_of_ne hji] at hj
      rw [next_setTask_of_ne hji]
      exact h.built hj
  once := h.once
  mem_iff x := by
    rw [answers_built]
    exact h.mem_iff x
  replied hx := by
    rw [answers_built]
    exact h.replied hx
  failed hn script hscript e he := by
    rw [answers_built] at hn ⊢
    exact h.failed hn hscript he
  bounded j := by
    rw [answers_built]
    exact h.bounded j

section
variable [DecidableEq ι] (h : Settled c initial s sent) (hnext : s.next i = some script)
  (answer : Except Error Nat)
include h

theorem built_answer {j : ι} {t : Statement}
    (ht : ((s.setTask i ((s.tasks i).answer answer)).tasks j).built = some t) :
    ∃ script, (s.setTask i ((s.tasks i).answer answer)).next j = some script ∧
      Builder.made c script = .ok t := by
  by_cases hj : j = i
  · subst hj
    rw [tasks_setTask_self] at ht
    cases ht
  · rw [tasks_setTask_of_ne hj] at ht
    rw [next_setTask_of_ne hj]
    exact h.built ht

theorem replied_answer {k : Nat} {x : Sent ι} (hx : sent[k]? = some x) :
    ((s.setTask i ((s.tasks i).answer answer)).tasks x.task).answers[x.number]? =
      some (ClientAnswer.result initial.replies[k]?) := by
  rw [answers_answer, List.getElem?_append_left (h.number_lt (List.mem_of_getElem? hx))]
  exact h.replied hx

theorem replied_last (sql : Sql) :
    ((s.setTask i ((s.tasks i).answer (s.client.call sql).2)).tasks i).answers[
      (s.tasks i).answers.length]? = some (ClientAnswer.result initial.replies[sent.length]?) := by
  have hanswer : (s.client.call sql).2 = ClientAnswer.result initial.replies[sent.length]? := by
    rw [Client.call_eq, h.client]
    simp
  rw [answers_answer, if_pos rfl, List.getElem?_concat_length, hanswer]

include hnext

theorem bounded_answer (j : ι) :
    ((s.setTask i ((s.tasks i).answer answer)).tasks j).answers.length ≤
      (s.operations j).length := by
  have hlt : (s.tasks i).answers.length < (s.operations i).length :=
    (List.getElem?_eq_some_iff.1 hnext).1
  have hj := h.bounded j
  rw [answers_answer, List.length_append]
  split_ifs with hji
  · subst hji
    exact hlt
  · exact hj

/-- The calls due after one more answer: those due before, and one if the operation answered
sends something. -/
theorem mem_answer (x : Sent ι) :
    (x.number < ((s.setTask i ((s.tasks i).answer answer)).tasks x.task).answers.length ∧
        ∃ script, (s.operations x.task)[x.number]? = some script ∧ Sends c script x.sql) ↔
      x ∈ sent ∨ (x.task = i ∧ x.number = (s.tasks i).answers.length ∧ Sends c script x.sql) := by
  rw [answered_iff, h.mem_iff, or_and_right]
  refine or_congr_right ?_
  constructor
  · rintro ⟨⟨htask, hnumber⟩, script', hscript', hsends⟩
    rw [htask, hnumber] at hscript'
    cases Option.some.inj (hnext.symm.trans hscript')
    exact ⟨htask, hnumber, hsends⟩
  · rintro ⟨htask, hnumber, hsends⟩
    exact ⟨⟨htask, hnumber⟩, script, by rw [htask, hnumber]; exact hnext, hsends⟩

theorem failed_answer {answer : Except Error Nat}
    (hanswer : ∀ e, Fails c script e → answer = .error e) {j : ι} {n : Nat}
    (hn : n < ((s.setTask i ((s.tasks i).answer answer)).tasks j).answers.length)
    {script' : Script} (hscript : (s.operations j)[n]? = some script') {e : Error}
    (he : Fails c script' e) :
    ((s.setTask i ((s.tasks i).answer answer)).tasks j).answers[n]? = some (.error e) := by
  rw [answers_answer]
  rcases (answered_iff answer).1 hn with hbefore | ⟨rfl, rfl⟩
  · rw [List.getElem?_append_left hbefore]
    exact h.failed hbefore hscript he
  · cases Option.some.inj (hnext.symm.trans hscript)
    rw [if_pos rfl, List.getElem?_concat_length, hanswer e he]

theorem fail {e : Error} (he : Fails c script e) :
    Settled c initial (s.setTask i ((s.tasks i).answer (.error e))) sent where
  dialect := h.dialect
  builder := h.builder
  client := h.client
  built := h.built_answer _
  once := h.once
  mem_iff x := by
    have hnone : ¬ (x.task = i ∧ x.number = (s.tasks i).answers.length ∧ Sends c script x.sql) :=
      fun hx => hx.2.2.not_fails he
    exact (or_iff_left hnone).symm.trans (h.mem_answer hnext _ x).symm
  replied := h.replied_answer _
  failed := h.failed_answer hnext fun e' he' => by rw [he.unique he']
  bounded := h.bounded_answer hnext _

theorem send {sql : Sql} (hsql : Sends c script sql) :
    Settled c initial ({ s with client := (s.client.call sql).1 }.setTask i
        ((s.tasks i).answer (s.client.call sql).2))
      (sent ++ [⟨i, (s.tasks i).answers.length, sql⟩]) where
  dialect := h.dialect
  builder := h.builder
  client := by
    change (s.client.call sql).1 = _
    rw [Client.call_eq, h.client]
    simp
  built := h.built_answer _
  once := by
    rw [List.map_append, List.nodup_append]
    refine ⟨h.once, List.nodup_singleton _, ?_⟩
    simpa using h.operation_ne i
  mem_iff x := by
    rw [List.mem_append, List.mem_singleton]
    refine Iff.trans (or_congr_right ?_) (h.mem_answer hnext _ x).symm
    obtain ⟨task, number, text⟩ := x
    rw [Sent.mk.injEq]
    refine and_congr_right fun _ => and_congr_right fun _ => ⟨?_, fun hsends => hsends.unique hsql⟩
    rintro rfl
    exact hsql
  replied {k x} hx := by
    rcases Nat.lt_or_ge k sent.length with hk | hk
    · rw [List.getElem?_append_left hk] at hx
      exact h.replied_answer _ hx
    · -- Only the call just made comes after the earlier ones.
      rw [List.getElem?_append_right hk, List.getElem?_singleton] at hx
      split_ifs at hx with hlast
      have hlength : k = sent.length := by omega
      cases hx
      subst hlength
      exact h.replied_last sql
  failed := h.failed_answer hnext fun e he => absurd he hsql.not_fails
  bounded := h.bounded_answer hnext _

end

section
variable [DecidableEq ι]

/-- A turn of any task settles no more than is due. -/
theorem turn (h : Settled c initial s sent) (i : ι) :
    ∃ sent', Settled c initial (s.turn i) sent' := by
  have hvendor : s.client.dialect.vendor = c.dialect.vendor := by rw [h.client, h.dialect]
  have hperform (script : Script) :
      s.toBuilder.perform script = (s.toBuilder, Builder.made c script) := by
    rw [h.builder, Builder.perform_fresh]
  cases hbuilt : (s.tasks i).built with
  | some t =>
    -- The statement that waits is the one that a new builder makes of the operation at hand.
    obtain ⟨script, hnext, ht⟩ := h.built hbuilt
    rw [turn_of_built hbuilt]
    cases hsql : t.forVendor s.client.dialect.vendor with
    | error e =>
      rw [Statement.execute_unsent hsql]
      exact ⟨sent, h.fail hnext (.send ht (hvendor ▸ hsql))⟩
    | ok sql =>
      rw [(Statement.execute_sent hsql).1, (Statement.execute_sent hsql).2]
      exact ⟨_, h.send hnext (sends_of_forVendor ht (hvendor ▸ hsql))⟩
  | none =>
    cases hnext : s.next i with
    | none =>
      rw [turn_of_done hbuilt hnext]
      exact ⟨sent, h⟩
    | some script =>
      cases hmade : Builder.made c script with
      | error e =>
        rw [turn_of_refused hbuilt hnext (e := e) (by rw [hperform, hmade]), hperform]
        exact ⟨sent, h.fail hnext (.build hmade)⟩
      | ok t =>
        rw [turn_of_made hbuilt hnext (t := t) (by rw [hperform, hmade]), hperform]
        exact ⟨sent, h.build hnext hmade⟩

theorem run (h : Settled c initial s sent) (schedule : List ι) :
    ∃ sent', Settled c initial (s.run schedule) sent' := by
  induction schedule generalizing s sent with
  | nil => exact ⟨sent, h⟩
  | cons i schedule ih =>
    obtain ⟨sent', h'⟩ := h.turn i
    exact ih h'

end

end Settled

theorem Settled.done {c : Composer} {initial : Client} {s : Shared ι} {sent : List (Sent ι)}
    (h : Settled c initial s sent) {i : ι}
    (hprogress : 2 * (s.operations i).length ≤ (s.tasks i).progress) :
    (s.tasks i).answers.length = (s.operations i).length ∧ (s.tasks i).built = none := by
  have hbounded := h.bounded i
  cases hbuilt : (s.tasks i).built with
  | none =>
    have hall : 2 * (s.operations i).length ≤ 2 * (s.tasks i).answers.length := by
      rw [Task.progress, hbuilt] at hprogress
      exact hprogress
    exact ⟨by omega, rfl⟩
  | some t =>
    -- A statement that is built belongs to an operation that is not answered yet.
    obtain ⟨script, hnext, -⟩ := h.built hbuilt
    have hlt : (s.tasks i).answers.length < (s.operations i).length :=
      (List.getElem?_eq_some_iff.1 hnext).1
    simp only [Task.progress, hbuilt, Option.isSome_some, if_true] at hprogress
    omega

/-! ## Any interleaving -/

/-- What an operation came to, the `n`-th of task `i`, given the calls that were made: it sent what
it would send on its own in one of them and was answered by the client, or it failed as it would on
its own, and none of them is of it. -/
inductive Answered (c : Composer) (replies : List ClientAnswer) (sent : List (Sent ι)) (i : ι)
    (n : Nat) (script : Script) : Except Error Nat → Prop
  | sent {sql : Sql} {k : Nat} (h : Sends c script sql) (hk : sent[k]? = some ⟨i, n, sql⟩) :
    Answered c replies sent i n script (ClientAnswer.result replies[k]?)
  | failed {e : Error} (h : Fails c script e)
    (hnone : ∀ x ∈ sent, (x.task, x.number) ≠ (i, n)) :
    Answered c replies sent i n script (.error e)

theorem Settled.answered {c : Composer} {initial : Client} {s : Shared ι} {sent : List (Sent ι)}
    (h : Settled c initial s sent) {i : ι} {n : Nat} {script : Script}
    (hscript : (s.operations i)[n]? = some script) {answer : Except Error Nat}
    (hanswer : (s.tasks i).answers[n]? = some answer) :
    Answered c initial.replies sent i n script answer := by
  have hn : n < (s.tasks i).answers.length := (List.getElem?_eq_some_iff.1 hanswer).1
  rcases sends_or_fails c script with ⟨sql, hsends⟩ | ⟨e, hfails⟩
  · have hmem : ⟨i, n, sql⟩ ∈ sent := (h.mem_iff ⟨i, n, sql⟩).2 ⟨hn, script, hscript, hsends⟩
    obtain ⟨k, hk⟩ := List.mem_iff_getElem?.1 hmem
    have hreply := h.replied hk
    cases Option.some.inj (hreply.symm.trans hanswer)
    exact .sent hsends hk
  · have herror := h.failed hn hscript hfails
    cases Option.some.inj (herror.symm.trans hanswer)
    refine .failed hfails fun x hx heq => ?_
    obtain ⟨-, script', hscript', hsends⟩ := (h.mem_iff x).1 hx
    rw [Prod.mk.injEq] at heq
    rw [heq.1, heq.2, hscript] at hscript'
    cases hscript'
    exact hsends.not_fails hfails

/-- In whichever order tasks take their turns, the builder they share stays as good as new; a
statement that waits to be executed is the one that a new builder makes of its operation; every
answered operation was executed once or failed, as it would have on its own; the client has received
one call for each of those executed and no other; and a task has answered all of its operations once
it has had two turns for each. -/
theorem run_executes_once [DecidableEq ι] (client : Client) (settings : Settings)
    (operations : ι → List Script) (schedule : List ι) :
    let c : Composer := ⟨client.dialect, settings⟩
    let after := (start client settings operations).run schedule
    after.toBuilder = .fresh c ∧
      (∀ i t, (after.tasks i).built = some t → ∃ script,
        (operations i)[(after.tasks i).answers.length]? = some script ∧
          Builder.made c script = .ok t) ∧
      (∃ sent : List (Sent ι),
        after.client.calls = client.calls ++ sent.map (·.sql) ∧
          (sent.map fun x => (x.task, x.number)).Nodup ∧
          (∀ x ∈ sent, x.number < (after.tasks x.task).answers.length ∧ ∃ script,
            (operations x.task)[x.number]? = some script ∧ Sends c script x.sql) ∧
          ∀ i n script answer, (operations i)[n]? = some script →
            (after.tasks i).answers[n]? = some answer →
            Answered c client.replies sent i n script answer) ∧
      ∀ i, (after.tasks i).answers.length ≤ (operations i).length ∧
        (2 * (operations i).length ≤ schedule.count i →
          (after.tasks i).answers.length = (operations i).length ∧
            (after.tasks i).built = none) := by
  intro c after
  obtain ⟨sent, h⟩ : ∃ sent, Settled c client after sent :=
    (settled_start client settings operations).run schedule
  have hoperations : after.operations = operations := operations_run _ schedule
  have hnext (i : ι) : after.next i = (operations i)[(after.tasks i).answers.length]? := by
    rw [next, hoperations]
  refine ⟨h.builder, fun i t ht => ?_, ⟨sent, ?_, h.once, fun x hx => ?_,
    fun i n script answer hscript hanswer => ?_⟩, fun i => ?_⟩
  · rw [← hnext]
    exact h.built ht
  · rw [h.client]
  · rw [← hoperations]
    exact (h.mem_iff x).1 hx
  · rw [← hoperations] at hscript
    exact h.answered hscript hanswer
  · have hprogress := progress_run (start client settings operations) schedule i
    change min (0 + schedule.count i) (2 * (operations i).length) ≤ (after.tasks i).progress
      at hprogress
    have hbounded := h.bounded i
    have hdone := h.done (i := i)
    rw [hoperations] at hbounded hdone
    exact ⟨hbounded, fun hcount => hdone (by omega)⟩

/-- Both of two tasks build before either executes, and the one that built first executes last. -/
theorem run_executes_once_interleaved :
    let client : Client := { dialect := .standard (some .postgreSql), replies := [.rows 2] }
    let update (value : Int64) : Script := .build (.update "t" [("a", .int value)]
      [.condition (.leaf { column := "id", criterion := .typed (.compare .eq (.int 7)) })])
    let operations : Bool → List Script
      | true => [update 1]
      | false => [update 2, .build (.drop " ")]
    let schedule := [true, false, false, true, false, false]
    let after := (start client {} operations).run schedule
    let text := "UPDATE t SET a = $1 WHERE id = $2 "
    after.client.calls = [⟨text, [.int 2, .int 7]⟩, ⟨text, [.int 1, .int 7]⟩] ∧
      (after.tasks true).answers = [.ok 1] ∧
      (after.tasks false).answers = [.ok 2, .error (.emptyArgument .table)] ∧
      (after.tasks false).built = none := by
  intro client update operations schedule after text
  have hcalls : after.client.calls = [⟨text, [.int 2, .int 7]⟩, ⟨text, [.int 1, .int 7]⟩] := by
    decide +kernel
  have htrue : (after.tasks true).answers = [.ok 1] := by decide +kernel
  have hfalse : (after.tasks false).answers = [.ok 2, .error (.emptyArgument .table)] := by
    decide +kernel
  have hcount : 2 * (operations false).length ≤ schedule.count false := by decide
  obtain ⟨-, -, -, hdone⟩ := run_executes_once client {} operations schedule
  refine ⟨hcalls, htrue, hfalse, ?_⟩
  simp only [after]
  exact ((hdone false).2 hcount).2

end Shared

end SqlAssembly
