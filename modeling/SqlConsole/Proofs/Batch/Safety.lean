import SqlConsole.Proofs.Batch.Consumer

/-!
# Safety of a batch

Whoever holds a batch may ask for result sets and rows, drop the current result set, drop the batch
itself and cancel it, at any time and in any order (`Deed`, `Use.actAll`). `actAll_safe` says what
holds all along:

* the statements that were run are the first ones of the batch, each run once (`Ledger`);
* only a request for a result set runs statements (`Quiet`);
* behind an error nothing is run and nothing is handed over (`Stage.ended`);
* a batch that was dropped runs no statement any more (`Over`), and what can still be read of the
  current result set is the same as if the batch had been kept (`Stage.readable`).

Each of these is a fact about one deed first and about any number of deeds by induction from that.
-/

namespace SqlConsole

namespace Stage

/-- Whether rows of a result set, or the error behind them, can still be read. -/
def isReading : Stage → Bool
  | streaming _ _ _ | failing _ => true
  | idle | offering _ _ | refused _ | ended => false

/-- What counts of a stage for those who only read the current result set. -/
def readable : Stage → Stage
  | streaming cells rows rest => streaming cells rows rest
  | failing e => failing e
  | idle | offering _ _ | refused _ | ended => ended

/-- A result set ends in the same way whether its batch was dropped or not. -/
theorem readable_settle (cancelled abandoned abandoned' : Bool) (rest : Remainder) :
    (settle cancelled abandoned rest).readable = (settle cancelled abandoned' rest).readable := by
  obtain ⟨sets, failure⟩ := rest
  cases sets with
  | nil =>
    cases failure with
    | some message => rfl
    | none => cases abandoned <;> cases abandoned' <;> rfl
  | cons set sets => cases cancelled <;> cases abandoned <;> cases abandoned' <;> rfl

end Stage

namespace Batch

/-- What the holder of a batch may do. -/
inductive Deed where
  /-- Ask for the next result set. -/
  | next
  /-- Ask for the next row of the current result set. -/
  | row
  /-- Drop what is left of the current result set. -/
  | dropRows
  /-- Drop the batch. The current result set is kept. -/
  | drop
  /-- Cancel the batch. -/
  | cancel
  deriving DecidableEq, Repr

/-- A batch in use. -/
structure Use where
  batch : Batch
  conn : Connection
  /-- Whether the batch's token was cancelled. -/
  cancelled : Bool

namespace Use

/-- A batch that nobody has asked for anything. Its token may be cancelled already. -/
def start (statements : List Statement) (conn : Connection) (cancelled : Bool) : Use :=
  ⟨Batch.start statements conn, conn, cancelled⟩

/-- Does one deed; some deeds have no answer. -/
def act (u : Use) : Deed → Option Answer × Use
  | .next =>
    let (result, batch, conn) := u.batch.next u.cancelled u.conn
    (some (.set result), { u with batch, conn })
  | .row =>
    let (result, batch, conn) := u.batch.row u.cancelled u.conn
    (some (.item result), { u with batch, conn })
  | .dropRows => (some .dropped, { u with batch := u.batch.dropRows })
  | .drop => (none, { u with batch := u.batch.abandon })
  | .cancel => (none, { u with cancelled := true })

/-- Does deeds one after the other. -/
def actAll (u : Use) : List Deed → List (Option Answer) × Use
  | [] => ([], u)
  | deed :: deeds =>
    let (answer, u) := u.act deed
    let (answers, u) := actAll u deeds
    (answer :: answers, u)

end Use

/-! ## Statements are run in order -/

/-- What was run and what is left to do, before and after something was done. -/
structure Ledger (s s' : Batch × Connection) : Prop where
  /-- Nothing is run but what comes next, and that is done then. -/
  balance : s'.2.log ++ s'.1.todo = s.2.log ++ s.1.todo
  /-- What was run stays run. -/
  grows : s.2.log <+: s'.2.log

theorem Ledger.refl (s : Batch × Connection) : Ledger s s := ⟨rfl, List.prefix_refl _⟩

/-- What was run stood first in what was left to do. -/
theorem Ledger.exists_take {s s' : Batch × Connection} (h : Ledger s s') :
    ∃ n, s'.2.log = s.2.log ++ s.1.todo.take n ∧ s'.1.todo = s.1.todo.drop n := by
  obtain ⟨ran, hran⟩ := h.grows
  have htodo : s.1.todo = ran ++ s'.1.todo := by
    have hbalance := h.balance
    rw [← hran, List.append_assoc] at hbalance
    exact (List.append_cancel_left hbalance).symm
  exact ⟨ran.length, by rw [htodo, List.take_left, hran], by rw [htodo, List.drop_left]⟩

theorem Ledger.trans {s t u : Batch × Connection} (h : Ledger s t) (h' : Ledger t u) :
    Ledger s u :=
  ⟨h'.balance.trans h.balance, h.grows.trans h'.grows⟩

/-- Nothing was run, and nothing left to do was forgotten. -/
structure Quiet (s s' : Batch × Connection) : Prop where
  log : s'.2.log = s.2.log
  todo : s'.1.todo = s.1.todo

theorem Quiet.ledger {s s' : Batch × Connection} (h : Quiet s s') : Ledger s s' :=
  ⟨by rw [h.log, h.todo], h.log ▸ List.prefix_refl _⟩

section Requests

variable {b : Batch} {conn : Connection} {cancelled : Bool}

theorem quiet_fetch (cancelled : Bool) (b : Batch) (rows : Rows) (rest : Remainder)
    (conn : Connection) :
    Quiet (b, conn) (b.fetch cancelled rows rest conn) := by
  unfold fetch
  cases rows.next? with
  | none => exact ⟨rfl, rfl⟩
  | some p => cases cancelled <;> exact ⟨rfl, rfl⟩

theorem quiet_dropRows (b : Batch) (conn : Connection) : Quiet (b, conn) (b.dropRows, conn) := by
  unfold dropRows
  cases b.stage <;> exact ⟨rfl, rfl⟩

theorem quiet_abandon (b : Batch) (conn : Connection) : Quiet (b, conn) (b.abandon, conn) := by
  unfold abandon
  cases b.stage <;> exact ⟨rfl, rfl⟩

/-- Statements are run from the first one on, and an error is the end. -/
theorem advance_spec (cancelled : Bool) (todo : List String) (conn : Connection) :
    Ledger (⟨todo, .idle, false⟩, conn) (advance cancelled todo conn).2 ∧
      ∀ e, (advance cancelled todo conn).1 = .error e →
        (advance cancelled todo conn).2.1.stage = .ended := by
  induction todo generalizing conn with
  | nil => exact ⟨⟨rfl, List.prefix_refl _⟩, by simp [advance]⟩
  | cons sql todo ih =>
    cases cancelled with
    | true => exact ⟨⟨rfl, List.prefix_refl _⟩, fun _ _ => rfl⟩
    | false =>
      have hlogged : ∀ stage, Ledger (⟨sql :: todo, .idle, false⟩, conn)
          (⟨todo, stage, false⟩, conn.logged sql) := fun _ => ⟨by simp, by simp⟩
      obtain ⟨message, -, h⟩ | ⟨set, sets, -, -, h⟩ | ⟨-, -, h⟩ :=
        advance_cases todo sql conn <;> rw [h]
      · exact ⟨hlogged _, fun _ _ => rfl⟩
      · exact ⟨(hlogged .idle).trans (quiet_fetch _ _ _ _ _).ledger, by simp⟩
      · obtain ⟨hledger, herror⟩ := ih (conn.logged sql)
        exact ⟨(hlogged .idle).trans hledger, herror⟩

/-- What a request for a result set comes to, once what is left of the current one is dropped. -/
theorem next_cases (cancelled : Bool) (b : Batch) (conn : Connection) :
    (b.dropRows.stage = .idle ∧ b.next cancelled conn = advance cancelled b.todo conn) ∨
    (∃ set rest, b.stage = .offering set rest ∧
      b.next cancelled conn = (.columns set.columns, b.fetch cancelled set.rows rest conn)) ∨
    (∃ e, b.stage = .refused e ∧
      b.next cancelled conn = (.error e, { b with stage := .ended }, conn)) ∨
    (b.dropRows.stage = .ended ∧
      b.next cancelled conn = (.done, { b with stage := .ended }, conn)) := by
  cases hs : b.stage with
  | idle => exact Or.inl (by simp [next, dropRows, hs])
  | offering set rest => exact Or.inr (Or.inl ⟨set, rest, by simp [next, dropRows, hs]⟩)
  | refused e => exact Or.inr (Or.inr (Or.inl ⟨e, by simp [next, dropRows, hs]⟩))
  | failing e => exact Or.inr (Or.inr (Or.inr (by simp [next, dropRows, hs])))
  | ended => exact Or.inr (Or.inr (Or.inr (by simp [next, dropRows, hs])))
  | streaming cells rows rest =>
    cases hk : b.abandoned with
    | false => exact Or.inl (by simp [next, dropRows, hs, hk])
    | true => exact Or.inr (Or.inr (Or.inr (by simp [next, dropRows, hs, hk])))

/-- What a request for a row comes to. -/
theorem row_cases (cancelled : Bool) (b : Batch) (conn : Connection) :
    (∃ cells rows rest, b.stage = .streaming cells rows rest ∧
      b.row cancelled conn = (.row cells, b.fetch cancelled rows rest conn)) ∨
    (∃ e, b.stage = .failing e ∧
      b.row cancelled conn = (.error e, { b with stage := .ended }, conn)) ∨
    (b.stage.isReading = false ∧ b.row cancelled conn = (.done, b, conn)) := by
  cases hs : b.stage with
  | streaming cells rows rest => exact Or.inl ⟨cells, rows, rest, rfl, by rw [row, hs]⟩
  | failing e => exact Or.inr (Or.inl ⟨e, rfl, by rw [row, hs]⟩)
  | idle | offering _ _ | refused _ | ended => exact Or.inr (Or.inr ⟨rfl, by rw [row, hs]⟩)

/-- Asking for a result set runs statements in order, and an error is the end. -/
theorem next_spec (cancelled : Bool) (b : Batch) (conn : Connection) :
    Ledger (b, conn) (b.next cancelled conn).2 ∧
      ∀ e, (b.next cancelled conn).1 = .error e → (b.next cancelled conn).2.1.stage = .ended := by
  obtain ⟨-, h⟩ | ⟨set, rest, -, h⟩ | ⟨e, -, h⟩ | ⟨-, h⟩ := next_cases cancelled b conn <;> rw [h]
  · obtain ⟨⟨hbalance, hgrows⟩, herror⟩ := advance_spec cancelled b.todo conn
    exact ⟨⟨hbalance, hgrows⟩, herror⟩
  · exact ⟨(quiet_fetch cancelled b set.rows rest conn).ledger, by simp⟩
  · exact ⟨Quiet.ledger ⟨rfl, rfl⟩, fun _ _ => rfl⟩
  · exact ⟨Quiet.ledger ⟨rfl, rfl⟩, by simp⟩

/-- Asking for a row runs nothing, and an error is the end. -/
theorem row_spec (cancelled : Bool) (b : Batch) (conn : Connection) :
    Quiet (b, conn) (b.row cancelled conn).2 ∧
      ∀ e, (b.row cancelled conn).1 = .error e → (b.row cancelled conn).2.1.stage = .ended := by
  obtain ⟨cells, rows, rest, -, h⟩ | ⟨e, -, h⟩ | ⟨-, h⟩ := row_cases cancelled b conn <;> rw [h]
  · exact ⟨quiet_fetch cancelled b rows rest conn, by simp⟩
  · exact ⟨⟨rfl, rfl⟩, fun _ _ => rfl⟩
  · exact ⟨⟨rfl, rfl⟩, by simp⟩

/-! ## Batches that run nothing more -/

/-- Whether a batch starts no statement any more: it is at its end, or it was dropped and only its
current result set is read. -/
def Over (b : Batch) : Prop :=
  b.stage = .ended ∨ b.abandoned = true ∧ b.stage.isReading = true

theorem over_abandon (b : Batch) : Over b.abandon := by
  cases hs : b.stage <;> simp [Over, abandon, hs, Stage.isReading]

theorem Over.stage_dropRows (h : Over b) : b.dropRows.stage = .ended := by
  rcases h with hs | ⟨hk, hs⟩
  · simp [dropRows, hs]
  · cases hb : b.stage <;> simp_all [dropRows, Stage.isReading]

/-- A batch that is over answers every request for a result set with its end. -/
theorem Over.next (h : Over b) :
    b.next cancelled conn = (.done, { b with stage := .ended }, conn) := by
  have hdrop := h.stage_dropRows
  obtain ⟨hs, -⟩ | ⟨set, rest, hs, -⟩ | ⟨e, hs, -⟩ | ⟨-, hnext⟩ := next_cases cancelled b conn
  · simp [hdrop] at hs
  · simp [dropRows, hs] at hdrop
  · simp [dropRows, hs] at hdrop
  · exact hnext

/-- A dropped batch is over once its last row was fetched. -/
theorem over_fetch (hk : b.abandoned = true) (rows : Rows) (rest : Remainder) :
    Over (b.fetch cancelled rows rest conn).1 := by
  unfold fetch
  cases rows.next? with
  | some p => cases cancelled <;> exact Or.inr ⟨hk, rfl⟩
  | none =>
    obtain ⟨sets, failure⟩ := rest
    cases sets with
    | cons set sets => exact Or.inl (by simp [Stage.settle, hk])
    | nil =>
      cases failure with
      | some message => exact Or.inr ⟨hk, rfl⟩
      | none => exact Or.inl (by simp [Stage.settle, hk])

theorem Over.row (h : Over b) : Over (b.row cancelled conn).2.1 := by
  obtain ⟨cells, rows, rest, hs, hrow⟩ | ⟨e, -, hrow⟩ | ⟨-, hrow⟩ := row_cases cancelled b conn <;>
    rw [hrow]
  · rcases h with hended | ⟨hk, -⟩
    · simp [hs] at hended
    · exact over_fetch hk rows rest
  · exact Or.inl rfl
  · exact h

/-! ## Reading the current result set -/

theorem readable_dropRows (b : Batch) : b.dropRows.stage.readable = .ended := by
  cases hs : b.stage with
  | streaming cells rows rest => cases hk : b.abandoned <;> simp [dropRows, hs, hk, Stage.readable]
  | idle | offering _ _ | refused _ | failing _ | ended => simp [dropRows, hs, Stage.readable]

theorem readable_abandon (b : Batch) : b.abandon.stage.readable = b.stage.readable := by
  cases hs : b.stage <;> simp [abandon, hs, Stage.readable]

/-- The next row, and what can be read behind it, depend only on what can be read. -/
theorem row_of_readable_eq {b' : Batch} (h : b.stage.readable = b'.stage.readable)
    (cancelled : Bool) (conn conn' : Connection) :
    (b.row cancelled conn).1 = (b'.row cancelled conn').1 ∧
      (b.row cancelled conn).2.1.stage.readable = (b'.row cancelled conn').2.1.stage.readable := by
  have hfetch : ∀ (rows : Rows) (rest : Remainder),
      (b.fetch cancelled rows rest conn).1.stage.readable =
        (b'.fetch cancelled rows rest conn').1.stage.readable := by
    intro rows rest
    unfold fetch
    cases rows.next? with
    | some p => cases cancelled <;> rfl
    | none => exact Stage.readable_settle cancelled b.abandoned b'.abandoned rest
  cases hs : b.stage <;> cases hs' : b'.stage <;>
    simp_all [Stage.readable, Batch.row]

end Requests

/-! ## Any number of deeds -/

theorem isError_set_iff {result : NextResult} :
    (Answer.set result).isError = true ↔ ∃ e, result = .error e := by
  cases result <;> simp [Answer.isError]

theorem isError_item_iff {result : RowResult} :
    (Answer.item result).isError = true ↔ ∃ e, result = .error e := by
  cases result <;> simp [Answer.isError]

namespace Use

/-- The batch and its connection. -/
def state (u : Use) : Batch × Connection := (u.batch, u.conn)

variable {u : Use}

/-- **One deed** runs statements in order. -/
theorem act_ledger (u : Use) (deed : Deed) : Ledger u.state (u.act deed).2.state := by
  cases deed with
  | next => exact (next_spec u.cancelled u.batch u.conn).1
  | row => exact (row_spec u.cancelled u.batch u.conn).1.ledger
  | dropRows => exact (quiet_dropRows u.batch u.conn).ledger
  | drop => exact (quiet_abandon u.batch u.conn).ledger
  | cancel => exact .refl _

/-- Only a request for a result set runs anything. -/
theorem act_quiet (u : Use) {deed : Deed} (h : deed ≠ .next) :
    Quiet u.state (u.act deed).2.state := by
  cases deed with
  | next => exact absurd rfl h
  | row => exact (row_spec u.cancelled u.batch u.conn).1
  | dropRows => exact quiet_dropRows u.batch u.conn
  | drop => exact quiet_abandon u.batch u.conn
  | cancel => exact ⟨rfl, rfl⟩

/-- A batch that has handed over an error is at its end. -/
theorem stage_of_act_error {deed : Deed} {a : Answer} (h : (u.act deed).1 = some a)
    (ha : a.isError = true) : (u.act deed).2.batch.stage = .ended := by
  cases deed with
  | next =>
    have hset : Answer.set (u.batch.next u.cancelled u.conn).1 = a := Option.some.inj h
    rw [← hset] at ha
    obtain ⟨e, he⟩ := isError_set_iff.mp ha
    exact (next_spec u.cancelled u.batch u.conn).2 e he
  | row =>
    have hitem : Answer.item (u.batch.row u.cancelled u.conn).1 = a := Option.some.inj h
    rw [← hitem] at ha
    obtain ⟨e, he⟩ := isError_item_iff.mp ha
    exact (row_spec u.cancelled u.batch u.conn).2 e he
  | dropRows =>
    rw [← Option.some.inj h] at ha
    simp [Answer.isError] at ha
  | drop | cancel => simp [act] at h

/-- A batch at its end stays there, and says so. -/
theorem act_ended (h : u.batch.stage = .ended) (deed : Deed) :
    (u.act deed).2.batch.stage = .ended ∧
      ∀ a, (u.act deed).1 = some a → a = .set .done ∨ a = .item .done ∨ a = .dropped := by
  cases deed with
  | next => simp [act, Over.next (b := u.batch) (Or.inl h)]
  | row => simp [act, row, h]
  | dropRows => simp [act, dropRows, h]
  | drop => simp [act, abandon, h]
  | cancel => simp [act, h]

/-- A batch that is over stays so, and runs nothing. -/
theorem act_over (h : Over u.batch) (deed : Deed) :
    Over (u.act deed).2.batch ∧ (u.act deed).2.conn.log = u.conn.log := by
  cases deed with
  | next => exact ⟨by simp [act, h.next, Over], by simp [act, h.next]⟩
  | row => exact ⟨h.row, (row_spec u.cancelled u.batch u.conn).1.log⟩
  | dropRows => exact ⟨Or.inl h.stage_dropRows, rfl⟩
  | drop => exact ⟨over_abandon u.batch, rfl⟩
  | cancel => exact ⟨h, rfl⟩

/-- Two batches of which the same can be read answer alike, as long as only that is read. -/
theorem act_of_readable_eq {u' : Use} (hc : u.cancelled = u'.cancelled)
    (h : u.batch.stage.readable = u'.batch.stage.readable) {deed : Deed} (hd : deed ≠ .next) :
    (u.act deed).1 = (u'.act deed).1 ∧ (u.act deed).2.cancelled = (u'.act deed).2.cancelled ∧
      (u.act deed).2.batch.stage.readable = (u'.act deed).2.batch.stage.readable := by
  cases deed with
  | next => exact absurd rfl hd
  | row =>
    obtain ⟨hrow, hrest⟩ := row_of_readable_eq h u.cancelled u.conn u'.conn
    simp only [act, ← hc, hrow, hrest, and_self]
  | dropRows => simp [act, hc, readable_dropRows]
  | drop => simp [act, hc, readable_abandon, h]
  | cancel => simp [act, h]

theorem actAll_cons (u : Use) (deed : Deed) (deeds : List Deed) :
    u.actAll (deed :: deeds) =
      ((u.act deed).1 :: ((u.act deed).2.actAll deeds).1, ((u.act deed).2.actAll deeds).2) := rfl

theorem actAll_ledger (u : Use) (deeds : List Deed) :
    Ledger u.state (u.actAll deeds).2.state := by
  induction deeds generalizing u with
  | nil => exact .refl _
  | cons deed deeds ih => exact (act_ledger u deed).trans (ih (u.act deed).2)

theorem actAll_log_of_no_next {deeds : List Deed} (h : .next ∉ deeds) (u : Use) :
    (u.actAll deeds).2.conn.log = u.conn.log := by
  induction deeds generalizing u with
  | nil => rfl
  | cons deed deeds ih =>
    obtain ⟨hd, hdeeds⟩ := not_or.mp (mt List.mem_cons.mpr h)
    exact (ih hdeeds (u.act deed).2).trans (act_quiet u (Ne.symm hd)).log

theorem actAll_ended (h : u.batch.stage = .ended) (deeds : List Deed) :
    (u.actAll deeds).2.batch.stage = .ended ∧
      ∀ a, some a ∈ (u.actAll deeds).1 → a = .set .done ∨ a = .item .done ∨ a = .dropped := by
  induction deeds generalizing u with
  | nil => exact ⟨h, by simp [actAll]⟩
  | cons deed deeds ih =>
    obtain ⟨hended, hanswer⟩ := act_ended h deed
    obtain ⟨hlast, hanswers⟩ := ih hended
    refine ⟨hlast, fun a ha => ?_⟩
    rcases List.mem_cons.mp ha with ha | ha
    · exact hanswer a ha.symm
    · exact hanswers a ha

theorem actAll_over (h : Over u.batch) (deeds : List Deed) :
    (u.actAll deeds).2.conn.log = u.conn.log := by
  induction deeds generalizing u with
  | nil => rfl
  | cons deed deeds ih =>
    obtain ⟨hover, hlog⟩ := act_over h deed
    exact (ih hover).trans hlog

/-- Once an error was handed over the batch is at its end. -/
theorem stage_of_actAll_error {deeds : List Deed}
    (h : ∃ a, some a ∈ (u.actAll deeds).1 ∧ a.isError = true) :
    (u.actAll deeds).2.batch.stage = .ended := by
  induction deeds generalizing u with
  | nil => simp [actAll] at h
  | cons deed deeds ih =>
    obtain ⟨a, hmem, ha⟩ := h
    rcases List.mem_cons.mp hmem with hmem | hmem
    · exact (actAll_ended (stage_of_act_error hmem.symm ha) deeds).1
    · exact ih ⟨a, hmem, ha⟩

/-- Once it was dropped a batch is over. -/
theorem over_of_drop {deeds : List Deed} (h : .drop ∈ deeds) : Over (u.actAll deeds).2.batch := by
  have hkeep : ∀ {u : Use}, Over u.batch → ∀ deeds, Over (u.actAll deeds).2.batch := by
    intro u hu deeds
    induction deeds generalizing u with
    | nil => exact hu
    | cons deed deeds ih => exact ih (act_over hu deed).1
  induction deeds generalizing u with
  | nil => simp at h
  | cons deed deeds ih =>
    rcases List.mem_cons.mp h with rfl | h
    · exact hkeep (over_abandon u.batch) deeds
    · exact ih h

theorem actAll_of_readable_eq {u' : Use} (hc : u.cancelled = u'.cancelled)
    (h : u.batch.stage.readable = u'.batch.stage.readable) {deeds : List Deed}
    (hd : .next ∉ deeds) : (u.actAll deeds).1 = (u'.actAll deeds).1 := by
  induction deeds generalizing u u' with
  | nil => rfl
  | cons deed deeds ih =>
    obtain ⟨hdeed, hdeeds⟩ := not_or.mp (mt List.mem_cons.mpr hd)
    obtain ⟨hanswer, hcancelled, hreadable⟩ := act_of_readable_eq hc h (Ne.symm hdeed)
    rw [actAll_cons, actAll_cons, hanswer, ih hcancelled hreadable hdeeds]

/-- **What holds of a batch whatever is done with it.** At every moment the first statements of the
batch were run, in order and each once; only requests for result sets run more of them. Behind an
error nothing more is run, and there are no more rows and no more result sets. Once the batch is
dropped nothing more is run, and the current result set is read as if it had been kept. -/
theorem actAll_safe (statements : List Statement) (conn : Connection) (cancelled : Bool)
    (before after : List Deed) :
    let first := (start statements conn cancelled).actAll before
    let last := first.2.actAll after
    (∃ m n, first.2.conn.log = conn.log ++ (texts statements).take m ∧
      last.2.conn.log = conn.log ++ (texts statements).take (m + n)) ∧
    (.next ∉ after → last.2.conn.log = first.2.conn.log) ∧
    ((∃ a, some a ∈ first.1 ∧ a.isError = true) →
      last.2.conn.log = first.2.conn.log ∧
        ∀ a, some a ∈ last.1 → a = .set .done ∨ a = .item .done ∨ a = .dropped) ∧
    (.drop ∈ before → last.2.conn.log = first.2.conn.log) ∧
    (.next ∉ after → ((first.2.act .drop).2.actAll after).1 = last.1) := by
  intro first last
  have hfirst : Ledger (start statements conn cancelled).state first.2.state := actAll_ledger _ _
  have hlast : Ledger first.2.state last.2.state := actAll_ledger _ _
  refine ⟨?_, fun h => actAll_log_of_no_next h _, fun h => ?_, fun h => ?_, fun h => ?_⟩
  · obtain ⟨m, hm, htodo⟩ := hfirst.exists_take
    obtain ⟨n, hn, -⟩ := hlast.exists_take
    refine ⟨m, n, hm, hn.trans ?_⟩
    rw [hm, htodo, List.append_assoc, ← List.take_add]
    rfl
  · have hended := stage_of_actAll_error h
    exact ⟨actAll_over (Or.inl hended) after, (actAll_ended hended after).2⟩
  · exact actAll_over (over_of_drop h) after
  · have hcancelled : (first.2.act .drop).2.cancelled = first.2.cancelled := rfl
    exact actAll_of_readable_eq hcancelled (readable_abandon first.2.batch) h

end Use

end Batch

end SqlConsole
