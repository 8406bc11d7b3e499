import SqlConsole.Proofs.Batch.Step

/-!
# What a consumer gets of a batch

A consumer asks for result sets and rows and drops result sets, in any order (`Request`,
`Batch.serveAll`). A batch that has no more to give says `done`, and the question is whether its
statements were all run by then, or the consumer knows of an error.

The error of a statement with result sets is the last item of the last one. A consumer who drops
that result set with the error as its next item never sees it, and the batch ends there all the
same. `serveAll_done_iff` says that no batch ends early without an error in any other way.

The invariant is an `Account` of what was run and what is still to do. A batch ends for one of three
reasons: an error was handed over, an error was lost, or nothing is left to do.
-/

namespace SqlConsole.Batch

/-- What a consumer may ask for. -/
inductive Request where
  /-- The next result set. -/
  | next
  /-- The next row of the current result set. -/
  | row
  /-- To drop what is left of the current result set. -/
  | dropRows
  deriving DecidableEq, Repr

/-- What a consumer is told. -/
inductive Answer where
  | set (result : NextResult)
  | item (result : RowResult)
  | dropped
  deriving DecidableEq, Repr

/-- Whether the consumer is handed an error. -/
def Answer.isError : Answer → Bool
  | set (.error _) | item (.error _) => true
  | set (.columns _) | set .done | item (.row _) | item .done | dropped => false

/-- The texts of the statements that are run, one after the other. -/
def texts (statements : List Statement) : List String :=
  (statements.filter (!·.isBlank)).map (·.sql)

/-- Serves one request of a consumer who has not cancelled. -/
def serve (s : Batch × Connection) : Request → Answer × Batch × Connection
  | .next => let (result, s') := s.1.next false s.2; (.set result, s')
  | .row => let (result, s') := s.1.row false s.2; (.item result, s')
  | .dropRows => (.dropped, s.1.dropRows, s.2)

/-- Serves requests in order. -/
def serveAll (s : Batch × Connection) : List Request → List Answer × Batch × Connection
  | [] => ([], s)
  | r :: rs =>
    let (answer, s') := serve s r
    let (answers, last) := serveAll s' rs
    (answer :: answers, last)

/-- An error is lost: it is the next item of the current result set, this is dropped, and there are
statements left to run. -/
def Loses (s : Batch × Connection) (r : Request) : Prop :=
  r ≠ .row ∧ (∃ e, (s.1.row false s.2).1 = .error e) ∧ s.1.todo ≠ []

/-- One of the requests loses an error. -/
def LosesWithin (s : Batch × Connection) : List Request → Prop
  | [] => False
  | r :: rs => Loses s r ∨ LosesWithin (serve s r).2 rs

/-! ## The account -/

/-- What is known of a batch whose statements are `all`, if an error has or has not been handed over
or lost. -/
structure Account (all : List String) (handed lost : Prop) (s : Batch × Connection) : Prop where
  log : s.2.log ++ s.1.todo = all
  kept : s.1.abandoned = false
  ended : s.1.stage = .ended → handed ∨ lost ∨ s.1.todo = []
  of_handed : handed → s.1.stage = .ended ∧ ¬ lost
  of_lost : lost → s.1.stage = .ended ∧ s.1.todo ≠ []

section Steps

variable {b : Batch} {conn : Connection}

/-- Nothing was handed over or lost so far, and the batch goes on. -/
theorem account_of_ne_ended (hk : b.abandoned = false) (hs : b.stage ≠ .ended) {handed lost : Prop}
    (hh : ¬ handed) (hl : ¬ lost) : Account (conn.log ++ b.todo) handed lost (b, conn) :=
  ⟨rfl, hk, fun h => absurd h hs, fun h => absurd h hh, fun h => absurd h hl⟩

theorem settle_ne_ended (rest : Remainder) : Stage.settle false false rest ≠ .ended := by
  obtain ⟨sets, failure⟩ := rest
  cases sets with
  | nil => cases failure <;> simp [Stage.settle]
  | cons set sets => simp [Stage.settle]

/-- Fetching a row ends no batch and runs no statement. -/
theorem fetch_spec (hk : b.abandoned = false) (rows : Rows) (rest : Remainder)
    (conn : Connection) :
    (b.fetch false rows rest conn).1.stage ≠ .ended ∧
      (b.fetch false rows rest conn).1.abandoned = false ∧
      (b.fetch false rows rest conn).1.todo = b.todo ∧
      (b.fetch false rows rest conn).2.log = conn.log := by
  unfold fetch
  cases rows.next? with
  | none => exact ⟨by simpa [hk] using settle_ne_ended rest, hk, rfl, rfl⟩
  | some p => exact ⟨by simp, hk, rfl, rfl⟩

theorem account_fetch (hk : b.abandoned = false) (rows : Rows) (rest : Remainder)
    {handed lost : Prop} (hh : ¬ handed) (hl : ¬ lost) :
    Account (conn.log ++ b.todo) handed lost (b.fetch false rows rest conn) := by
  obtain ⟨hs, hk', htodo, hlog⟩ := fetch_spec hk rows rest conn
  rw [← htodo, ← hlog]
  exact account_of_ne_ended hk' hs hh hl

/-- A batch that has handed over an error is at its end. -/
theorem account_error (hk : b.abandoned = false) (hs : b.stage = .ended) {handed lost : Prop}
    (hh : handed) (hl : ¬ lost) : Account (conn.log ++ b.todo) handed lost (b, conn) :=
  ⟨rfl, hk, fun _ => Or.inl hh, fun _ => ⟨hs, hl⟩, fun h => absurd h hl⟩

/-- Statements are run until one gives a result set or an error, or none is left. -/
theorem account_advance (todo : List String) (conn : Connection) {lost : Prop} (hl : ¬ lost) :
    Account (conn.log ++ todo) ((Answer.set (advance false todo conn).1).isError = true) lost
      (advance false todo conn).2 := by
  induction todo generalizing conn with
  | nil => exact ⟨rfl, rfl, fun _ => Or.inr (Or.inr rfl), by simp [advance, Answer.isError],
      fun h => absurd h hl⟩
  | cons sql todo ih =>
    have hlog : conn.log ++ sql :: todo = (conn.logged sql).log ++ todo := by simp
    rw [hlog]
    obtain ⟨message, -, h⟩ | ⟨set, sets, -, -, h⟩ | ⟨-, -, h⟩ := advance_cases todo sql conn <;>
      rw [h]
    · exact account_error (b := ⟨todo, .ended, false⟩) rfl rfl rfl hl
    · exact account_fetch (b := ⟨todo, .idle, false⟩) rfl set.rows _ (by simp [Answer.isError]) hl
    · exact ih (conn.logged sql)

/-- An error that waits to be read is lost unless nothing is left to do. -/
theorem account_failing (hk : b.abandoned = false) {e : Error} (hs : b.stage = .failing e)
    {r : Request} (hr : r ≠ .row) {handed : Prop} (hh : ¬ handed) :
    Account (conn.log ++ b.todo) handed (Loses (b, conn) r) ({ b with stage := .ended }, conn) := by
  have hloses : b.todo ≠ [] → Loses (b, conn) r :=
    fun hne => ⟨hr, ⟨e, row_eq_error_iff.mpr hs⟩, hne⟩
  refine ⟨rfl, hk, fun _ => ?_, fun h => absurd h hh, fun h => ⟨rfl, h.2.2⟩⟩
  by_cases htodo : b.todo = []
  · exact Or.inr (Or.inr htodo)
  · exact Or.inr (Or.inl (hloses htodo))

theorem not_loses (h : ∀ e, b.stage ≠ .failing e) (r : Request) : ¬ Loses (b, conn) r := by
  rintro ⟨-, ⟨e, he⟩, -⟩
  exact h e (row_eq_error_iff.mp he)

variable (hk : b.abandoned = false) (hs : b.stage ≠ .ended)

include hk hs

theorem account_next : Account (conn.log ++ b.todo) ((serve (b, conn) .next).1.isError = true)
    (Loses (b, conn) .next) (serve (b, conn) .next).2 := by
  cases hstage : b.stage with
  | ended => exact absurd hstage hs
  | idle =>
    rw [serve, next_idle hstage]
    exact account_advance b.todo conn (not_loses (by simp [hstage]) _)
  | streaming cells rows rest =>
    rw [serve, next_streaming hk hstage]
    exact account_advance b.todo conn (not_loses (by simp [hstage]) _)
  | offering set rest =>
    rw [serve, next_offering hstage]
    exact account_fetch hk set.rows rest (by simp [Answer.isError]) (not_loses (by simp [hstage]) _)
  | refused e =>
    rw [serve, next_refused hstage]
    exact account_error (b := { b with stage := .ended }) hk rfl rfl
      (not_loses (by simp [hstage]) _)
  | failing e =>
    rw [serve, next_failing hstage]
    exact account_failing hk hstage (by decide) (by simp [Answer.isError])

theorem account_row : Account (conn.log ++ b.todo) ((serve (b, conn) .row).1.isError = true)
    (Loses (b, conn) .row) (serve (b, conn) .row).2 := by
  have hloses : ¬ Loses (b, conn) .row := fun h => h.1 rfl
  cases hstage : b.stage with
  | ended => exact absurd hstage hs
  | streaming cells rows rest =>
    rw [serve, row_streaming hstage]
    exact account_fetch hk rows rest (by simp [Answer.isError]) hloses
  | failing e =>
    rw [serve, row_failing hstage]
    exact account_error (b := { b with stage := .ended }) hk rfl rfl hloses
  | idle | offering _ _ | refused _ =>
    have hrow : b.row false conn = (.done, b, conn) := by rw [row, hstage]
    rw [serve, hrow]
    exact account_of_ne_ended hk hs (by simp [Answer.isError]) hloses

theorem account_dropRows :
    Account (conn.log ++ b.todo) ((serve (b, conn) .dropRows).1.isError = true)
      (Loses (b, conn) .dropRows) (serve (b, conn) .dropRows).2 := by
  have hanswer : ¬ Answer.dropped.isError = true := by simp [Answer.isError]
  rw [serve, dropRows]
  cases hstage : b.stage with
  | ended => exact absurd hstage hs
  | failing e => exact account_failing hk hstage (by decide) hanswer
  | streaming cells rows rest =>
    have hidle : (if b.abandoned = true then Stage.ended else .idle) = .idle := by simp [hk]
    simp only [hidle]
    exact account_of_ne_ended (b := { b with stage := .idle }) hk (by simp) hanswer
      (not_loses (by simp [hstage]) _)
  | idle | offering _ _ | refused _ =>
    exact account_of_ne_ended hk hs hanswer (not_loses (by simp [hstage]) _)

end Steps

/-- A batch at its end stays as it is, whatever is asked. -/
theorem serve_ended {s : Batch × Connection} (h : s.1.stage = .ended) (r : Request) :
    (serve s r).1.isError = false ∧ (serve s r).2 = s ∧ ¬ Loses s r := by
  refine ⟨?_, ?_, not_loses (by simp [h]) r⟩
  · cases r <;> simp [serve, next_ended h, row, h, Answer.isError]
  · cases r <;> simp [serve, next_ended h, row, dropRows, h]

/-- **One request.** The account is kept, with what was handed over and what was lost. -/
theorem Account.serve {all : List String} {handed lost : Prop} {s : Batch × Connection}
    (h : Account all handed lost s) (r : Request) :
    Account all (handed ∨ (serve s r).1.isError = true) (lost ∨ Loses s r) (serve s r).2 := by
  -- Before its end a batch has neither handed over nor lost an error. Behind it nothing happens.
  by_cases hs : s.1.stage = .ended
  · obtain ⟨hanswer, hstate, hloses⟩ := serve_ended hs r
    simpa [hanswer, hstate, hloses] using h
  · have hhanded : ¬ handed := fun hh => hs (h.of_handed hh).1
    have hlost : ¬ lost := fun hl => hs (h.of_lost hl).1
    rw [← h.log, or_iff_right hhanded, or_iff_right hlost]
    cases r with
    | next => exact account_next h.kept hs
    | row => exact account_row h.kept hs
    | dropRows => exact account_dropRows h.kept hs

/-- **Any number of requests.** -/
theorem Account.serveAll {all : List String} {handed lost : Prop} {s : Batch × Connection}
    (h : Account all handed lost s) (requests : List Request) :
    Account all (handed ∨ ∃ a ∈ (serveAll s requests).1, a.isError = true)
      (lost ∨ LosesWithin s requests) (serveAll s requests).2 := by
  induction requests generalizing s handed lost with
  | nil => simpa [Batch.serveAll, LosesWithin] using h
  | cons r requests ih => simpa [Batch.serveAll, LosesWithin, or_assoc] using ih (h.serve r)

/-- A batch that has been started has everything still to do. -/
theorem account_start (statements : List Statement) (conn : Connection) :
    Account (conn.log ++ texts statements) False False (start statements conn, conn) := by
  refine account_of_ne_ended (b := start statements conn) rfl ?_ id id
  cases hb : conn.broken <;> simp [start, hb]

/-! ## The end of a batch -/

theorem stage_of_advance_done {todo : List String} {conn : Connection}
    (h : (advance false todo conn).1 = .done) : (advance false todo conn).2.1.stage = .ended := by
  induction todo generalizing conn with
  | nil => rfl
  | cons sql todo ih =>
    rw [advance_cons] at h ⊢
    split at h <;> try exact absurd h (by simp)
    exact ih h

theorem stage_of_next_done {b : Batch} {conn : Connection} (hk : b.abandoned = false)
    (h : (b.next false conn).1 = .done) : (b.next false conn).2.1.stage = .ended := by
  cases hs : b.stage with
  | idle =>
    rw [next_idle hs] at h ⊢
    exact stage_of_advance_done h
  | streaming cells rows rest =>
    rw [next_streaming hk hs] at h ⊢
    exact stage_of_advance_done h
  | offering set rest => simp [next_offering hs] at h
  | refused e => simp [next_refused hs] at h
  | failing e => rw [next_failing hs]
  | ended => rw [next_ended hs, hs]

/-- A batch that has said `done` is at its end. -/
theorem stage_of_last_done {all : List String} {handed lost : Prop} {s : Batch × Connection}
    (hs : Account all handed lost s) {requests : List Request}
    (h : (serveAll s requests).1.getLast? = some (.set .done)) :
    (serveAll s requests).2.1.stage = .ended := by
  induction requests generalizing s handed lost with
  | nil => simp [serveAll] at h
  | cons r requests ih =>
    cases requests with
    | nil =>
      have hdone : (serve s r).1 = .set .done := by simpa [serveAll] using h
      cases r with
      | next => exact stage_of_next_done hs.kept (Answer.set.inj hdone)
      | row => simp [serve] at hdone
      | dropRows => simp [serve] at hdone
    | cons q requests => exact ih (hs.serve r) h

/-- **How a batch can end early.** When a batch says `done`, its consumer was handed an error or all
its statements were run, if and only if no error was lost with the result set that it ends. -/
theorem serveAll_done_iff (statements : List Statement) (conn : Connection)
    (requests : List Request)
    (h : (serveAll (start statements conn, conn) requests).1.getLast? = some (.set .done)) :
    ((∃ a ∈ (serveAll (start statements conn, conn) requests).1, a.isError = true) ∨
        (serveAll (start statements conn, conn) requests).2.2.log = conn.log ++ texts statements) ↔
      ¬ LosesWithin (start statements conn, conn) requests := by
  have hstart := account_start statements conn
  have hend := hstart.serveAll requests
  rw [false_or, false_or] at hend
  constructor
  · rintro (hhanded | hlog) hlost
    · exact (hend.of_handed hhanded).2 hlost
    · have htodo : (serveAll (start statements conn, conn) requests).2.1.todo = [] := by
        simpa [hlog] using hend.log
      exact (hend.of_lost hlost).2 htodo
  · intro hlost
    rcases hend.ended (stage_of_last_done hstart h) with hhanded | hlost' | htodo
    · exact Or.inl hhanded
    · exact absurd hlost' hlost
    · refine Or.inr ?_
      rw [← hend.log, htodo, List.append_nil]

/-- A database with a statement that fails behind its only row. -/
def faulty : Connection :=
  { backend := .ofScripts
      [("SELECT a", { sets := [(["a"], [[.int 1]])], failure := some "disk I/O error" }),
        ("SELECT b", { sets := [(["b"], [[.int 2]])] })] }

/-- A consumer who reads the error loses nothing. -/
theorem not_losesWithin_read :
    ¬ LosesWithin (start (Statement.split "SELECT a; SELECT b;") faulty, faulty)
      [.next, .row, .row, .next] :=
  (serveAll_done_iff (Statement.split "SELECT a; SELECT b;") faulty [.next, .row, .row, .next]
    (by decide)).mp (Or.inl ⟨.item (.error (.ofBackend "disk I/O error")), by decide, by decide⟩)

/-- A consumer who takes the row and drops the rest is told that the batch is done, without an error
and without the second statement. -/
theorem serveAll_dropped_error :
    (serveAll (start (Statement.split "SELECT a; SELECT b;") faulty, faulty)
        [.next, .row, .dropRows, .next]).1 =
      [.set (.columns ["a"]), .item (.row [.int 1]), .dropped, .set .done] ∧
    (serveAll (start (Statement.split "SELECT a; SELECT b;") faulty, faulty)
        [.next, .row, .dropRows, .next]).2.2.log = ["SELECT a"] ∧
    texts (Statement.split "SELECT a; SELECT b;") = ["SELECT a", "SELECT b"] :=
  ⟨by decide, by decide, by decide⟩

end SqlConsole.Batch
