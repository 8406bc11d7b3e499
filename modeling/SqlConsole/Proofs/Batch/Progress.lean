import SqlConsole.Output
import SqlConsole.Proofs.Batch.Consumer
import SqlConsole.Proofs.Batch.Extent

/-!
# How far a batch was read

What a consumer was answered, and the statements that were seen to run, tell how far a batch was
read (`Progress`): the statements that are left, and the result set that is read with the number of
its rows that were handed over (`Spot`). Nothing is looked up in the batch for that. So
`Spot.rowsLeft` counts the rows that are still to be handed over, and `Spot.Between` tells whether
the batch is between two statements.

A batch stands where it was read to (`Progress.Fits`), and a request keeps it so if what the request
tells is noted (`Fits.rows`, `Fits.next`, `Fits.dropRows`, `Fits.abandon`).
-/

namespace SqlConsole

/-- Whether a result set came. -/
def NextResult.isColumns : NextResult → Bool
  | columns _ => true
  | error _ | done => false

/-- What was read last of a batch. -/
inductive Spot where
  /-- Nothing was asked for. -/
  | fresh
  /-- A result set of a statement, of which some rows were handed over, or all of them (`⊤`). -/
  | reading (sql : String) (index : Nat) (taken : ℕ∞)
  /-- Something else, behind which no row comes. -/
  | elsewhere

namespace Spot

variable (backend : Backend)

/-- The number of rows of the current result set that are still to be handed over. -/
def rowsLeft : Spot → ℕ∞
  | reading sql index taken => (backend sql).sets[index]?.elim 0 fun set => set.rows.size - taken
  | fresh | elsewhere => 0

/-- Nothing was asked for yet, or the last result set of a statement was read to its end, and the
statement does not fail behind it. -/
def Between : Spot → Prop
  | fresh => True
  | reading sql index taken => (backend sql).sets.length = index + 1 ∧
    (backend sql).failure = none ∧ (reading sql index taken).rowsLeft backend = 0
  | elsewhere => False

/-- What is left of the rows will not be handed over. -/
def leave (spot : Spot) : Spot := if spot.rowsLeft backend = 0 then spot else elsewhere

/-- A cancelled batch goes on to no further row. -/
def goOn (cancelled : Bool) (spot : Spot) : Spot := if cancelled then spot.leave backend else spot

/-- The result set was read to its end, which an endless one has not. -/
def finish : Spot → Spot
  | reading sql index taken =>
    if (reading sql index taken).rowsLeft backend = ⊤ then elsewhere else reading sql index ⊤
  | fresh | elsewhere => elsewhere

/-- A row was handed over. -/
def took (cancelled : Bool) : Spot → Spot
  | reading sql index taken => (reading sql index (taken + 1)).goOn backend cancelled
  | fresh => fresh
  | elsewhere => elsewhere

/-- A result set was asked for, and statements were run for it. If one came it is the first of the
last of these statements, or a further one of the statement that was read. -/
def asked (cancelled isColumns : Bool) (ran : List String) (spot : Spot) : Spot :=
  match isColumns, ran.getLast?, spot with
  | true, some sql, _ => (reading sql 0 0).goOn backend cancelled
  | true, none, reading sql index _ => (reading sql (index + 1) 0).goOn backend cancelled
  | _, _, _ => elsewhere

end Spot

/-- How far a batch was read. -/
structure Progress where
  /-- The statements that were not run. -/
  left : List String
  spot : Spot

namespace Progress

/-- Nothing was asked of a batch. Nothing can be asked on a broken connection. -/
def start (statements : List Statement) (conn : Connection) : Progress :=
  ⟨Batch.texts statements, if conn.broken then .elsewhere else .fresh⟩

variable (backend : Backend) (cancelled : Bool)

/-- The current result set was dropped. -/
def leave (p : Progress) : Progress := { p with spot := p.spot.leave backend }

/-- Rows were handed over. -/
def took (n : Nat) (p : Progress) : Progress :=
  { p with spot := (·.took backend cancelled)^[n] p.spot }

/-- The current result set was printed, and dropped then. -/
def printed (error : Option Error) (p : Progress) : Progress :=
  { p with spot := if error.isSome then .elsewhere else p.spot.finish backend }

/-- A result set was asked for, and statements were run for it. -/
def asked (isColumns : Bool) (ran : List String) (p : Progress) : Progress :=
  ⟨p.left.drop ran.length, p.spot.asked backend cancelled isColumns ran⟩

end Progress

/-! ## Where a batch stands -/

namespace Batch

/-- What the running statement has to offer behind its current result set is still ahead of a batch,
or was passed over. -/
def Ahead (rest : Remainder) (b : Batch) : Prop :=
  match b.stage with
  | .streaming _ _ rest' => rest' = rest
  | .offering set rest' => rest = ⟨set :: rest'.sets, rest'.failure⟩
  | .idle => True
  | .failing _ | .refused _ | .ended => rest = ⟨[], none⟩ → b.abandoned = true

/-- A batch stands in a result set of which `n` rows are left. -/
structure Stands (n : ℕ∞) (rest : Remainder) (b : Batch) : Prop where
  left : b.stage.rowsLeft = n
  ahead : b.Ahead rest

variable {n : ℕ∞} {rest : Remainder} {b : Batch} {cancelled : Bool}

/-- A batch that was started on a connection that is not broken waits to be asked for the output of
its first statement. -/
theorem start_idle (statements : List Statement) {conn : Connection} (h : conn.broken = false) :
    (start statements conn).stage = .idle ∧ (start statements conn).todo = texts statements := by
  simp [start, h, texts]

/-- Behind the last row of the last result set a batch that was not given up waits for the next
statement. -/
theorem Stands.idle (h : b.Stands 0 ⟨[], none⟩) (hk : b.abandoned = false) : b.stage = .idle := by
  obtain ⟨hleft, hahead⟩ := h
  unfold Ahead at hahead
  cases hs : b.stage <;> simp_all [Stage.rowsLeft]

/-- A batch whose running statement has no further result set and does not fail waits for the next
statement, once the last row was handed over or if there is none. -/
theorem fetch_last (hk : b.abandoned = false) {rows : Rows} (h : rows.size = 0) (cancelled : Bool)
    (conn : Connection) :
    b.fetch cancelled rows ⟨[], none⟩ conn = ({ b with stage := .idle }, conn) := by
  rw [fetch, (Rows.size_eq_zero_iff rows).mp h]
  simp [Stage.settle, hk]

/-- All rows of a result set are left when its first one is fetched, and one less with each row that
is fetched. -/
theorem rowsLeft_fetch (b : Batch) {rows : Rows} (rest : Remainder) (conn : Connection)
    (h : cancelled = false ∨ rows.size = 0) :
    (b.fetch cancelled rows rest conn).1.stage.rowsLeft = rows.size := by
  rw [fetch]
  cases hnext : rows.next? with
  | none => rw [(Rows.size_eq_zero_iff rows).mpr hnext, Stage.rowsLeft_settle]
  | some p =>
    rw [Rows.size_of_next? hnext] at h ⊢
    obtain rfl : cancelled = false := by simpa using h
    rfl

/-- A batch that goes on to the next row stands before it. -/
theorem stands_fetch (b : Batch) {rows : Rows} (rest : Remainder) (conn : Connection)
    (h : cancelled = false ∨ rows.size = 0) :
    (b.fetch cancelled rows rest conn).1.Stands rows.size rest := by
  refine ⟨b.rowsLeft_fetch rest conn h, ?_⟩
  rw [fetch]
  cases hnext : rows.next? with
  | none =>
    obtain ⟨sets, failure⟩ := rest
    cases sets <;> cases failure <;> cases b.abandoned <;> cases cancelled <;>
      simp [Ahead, Stage.settle]
  | some p =>
    rw [Rows.size_of_next? hnext] at h
    obtain rfl : cancelled = false := by simpa using h
    rfl

/-- A cancelled batch with rows left has an error in their place. -/
theorem fetch_cut (b : Batch) {rows : Rows} (rest : Remainder) (conn : Connection)
    (h : rows.size ≠ 0) :
    b.fetch true rows rest conn = ({ b with stage := .failing .cancelled }, conn) := by
  obtain ⟨p, hnext⟩ := Option.ne_none_iff_exists'.mp (mt (Rows.size_eq_zero_iff rows).mpr h)
  rw [fetch, hnext]
  rfl

/-- The bound on the rows of a result set that has an end. -/
theorem rowsLeft_lt_reach (b : Batch) (h : b.stage.rowsLeft ≠ ⊤) (patience : Nat) :
    b.stage.rowsLeft < b.reach patience := by
  rw [reach]
  cases hs : b.stage with
  | streaming cells rows rest =>
    have hrows : rows.size ≠ ⊤ := by
      rintro htop
      simp [hs, Stage.rowsLeft, htop] at h
    have hreach : rows.reach 0 ≤ rows.reach patience := by cases rows <;> simp [Rows.reach]
    rw [Stage.rowsLeft, Rows.size_eq_reach hrows, Stage.reach]
    norm_cast
    omega
  | idle | offering _ _ | failing _ | refused _ | ended => simp [Stage.rowsLeft, Stage.reach]

theorem abandoned_fetch (cancelled : Bool) (b : Batch) (rows : Rows) (rest : Remainder)
    (conn : Connection) : (b.fetch cancelled rows rest conn).1.abandoned = b.abandoned := by
  rw [fetch]
  cases rows.next? with
  | none => rfl
  | some p => cases cancelled <;> rfl

theorem abandoned_row (cancelled : Bool) (b : Batch) (conn : Connection) :
    (b.row cancelled conn).2.1.abandoned = b.abandoned := by
  obtain ⟨cells, rows, rest, -, h⟩ | ⟨e, -, h⟩ | ⟨-, h⟩ := row_cases cancelled b conn <;> rw [h]
  exact abandoned_fetch cancelled b rows rest conn

theorem abandoned_rows (cancelled : Bool) (n : Nat) (b : Batch) (conn : Connection) :
    (b.rows cancelled n conn).2.2.1.abandoned = b.abandoned := by
  induction n generalizing b conn with
  | zero => rfl
  | succ n ih =>
    have hrow := b.abandoned_row cancelled conn
    rw [rows]
    generalize b.row cancelled conn = answered at hrow ⊢
    obtain ⟨cells | e | _, b', conn'⟩ := answered
    · exact (ih b' conn').trans hrow
    · exact hrow
    · exact hrow

theorem abandoned_dropRows (b : Batch) : b.dropRows.abandoned = b.abandoned := by
  unfold dropRows
  cases b.stage <;> rfl

theorem abandoned_abandon (b : Batch) : b.abandon.abandoned = true := by
  unfold abandon
  cases b.stage <;> rfl

/-- A request for a row hands over the next one, or none and leaves the batch where it stands. -/
theorem Stands.row (h : b.Stands n rest) (cancelled : Bool) (conn : Connection) :
    (∃ cells rows, n = rows.size + 1 ∧
      b.row cancelled conn = (.row cells, b.fetch cancelled rows rest conn)) ∨
    (n = 0 ∧ (b.row cancelled conn).1.items.countP (·.isOk) = 0 ∧
      (b.row cancelled conn).2.1.Stands n rest) := by
  obtain ⟨rfl, hahead⟩ := h
  obtain ⟨cells, rows, rest', hs, hrow⟩ | ⟨e, hs, hrow⟩ | ⟨hs, hrow⟩ :=
    row_cases cancelled b conn <;> rw [hrow]
  · obtain rfl : rest' = rest := by simpa [Ahead, hs] using hahead
    exact Or.inl ⟨cells, rows, by rw [hs, Stage.rowsLeft], rfl⟩
  · refine Or.inr ⟨by rw [hs, Stage.rowsLeft], rfl, by rw [hs]; rfl, ?_⟩
    simpa [Ahead, hs] using hahead
  · refine Or.inr ⟨?_, rfl, rfl, hahead⟩
    cases hstage : b.stage <;> simp_all [Stage.isReading, Stage.rowsLeft]

/-- The rows that reading rows comes to. -/
theorem countP_rows (cancelled : Bool) (k : Nat) (b : Batch) (conn : Connection) :
    (RowResult.itemsOf (b.rows cancelled k conn).1 (b.rows cancelled k conn).2.1).countP (·.isOk) =
      (b.rows cancelled k conn).1.length := by
  rcases hrows : b.rows cancelled k conn with ⟨cells, stop, s⟩
  have hstop : (stop.getD .done).items.countP (·.isOk) = 0 := by
    rcases stop with _ | row | e | _
    · rfl
    · exact absurd hrows (rows_ne_row k cells row s)
    · rfl
    · rfl
  simp only [RowResult.itemsOf, List.countP_append, hstop]
  simp [List.countP_eq_length, Except.isOk, Except.toBool]

/-- As many rows can be read as are left, and behind them there is none. -/
theorem Stands.rows (h : b.Stands n rest) (cancelled : Bool) (k : Nat) (conn : Connection) :
    ((b.rows cancelled k conn).1.length : ℕ∞) ≤ n ∧
      ((b.rows cancelled k conn).2.1 = some .done →
        (b.rows cancelled k conn).2.2.1.Stands 0 rest) := by
  induction k generalizing b n conn with
  | zero => simp [rows]
  | succ k ih =>
    obtain ⟨cells, rows, rfl, hrow⟩ | ⟨rfl, hnone, hrow⟩ := h.row cancelled conn
    · rw [Batch.rows, hrow]
      by_cases hgo : cancelled = false ∨ rows.size = 0
      · obtain ⟨hlength, hdone⟩ := ih (b.stands_fetch rest conn hgo) _
        exact ⟨by simpa using add_le_add_left hlength 1, hdone⟩
      · obtain ⟨hcancelled, hpos⟩ := not_or.mp hgo
        obtain rfl : cancelled = true := by simpa using hcancelled
        rw [b.fetch_cut rest conn hpos]
        cases k <;> simp [Batch.rows, Batch.row]
    · rw [Batch.rows]
      generalize b.row cancelled conn = answered at hnone hrow ⊢
      obtain ⟨cells | e | _, b', conn'⟩ := answered
      · cases hnone
      · simp
      · simpa using hrow

theorem Stands.dropRows (h : b.Stands 0 rest) : b.dropRows.Stands 0 rest := by
  obtain ⟨hleft, hahead⟩ := h
  unfold Batch.dropRows
  cases hs : b.stage with
  | streaming cells rows rest' => simp [hs, Stage.rowsLeft] at hleft
  | failing e => exact ⟨rfl, by simpa [Ahead, hs] using hahead⟩
  | idle | offering _ _ | refused _ | ended => exact ⟨hleft, hahead⟩

theorem Stands.abandon (h : b.Stands n rest) : b.abandon.Stands n rest := by
  obtain ⟨rfl, hahead⟩ := h
  unfold Batch.abandon
  cases hs : b.stage with
  | streaming cells rows rest' => exact ⟨rfl, by simpa [Ahead, hs] using hahead⟩
  | failing e => exact ⟨rfl, fun _ => rfl⟩
  | idle | offering _ _ | refused _ | ended => exact ⟨rfl, fun _ => rfl⟩

/-- Where a result set comes from: it is the first one of the last statement that was run. -/
theorem advance_columns {todo : List String} {conn : Connection}
    (h : (advance cancelled todo conn).1.isColumns = true) :
    cancelled = false ∧ (advance cancelled todo conn).2.1.abandoned = false ∧
      ∃ (passed : List String) (sql : String) (set : ResultSet),
        (advance cancelled todo conn).2.2.log = conn.log ++ (passed ++ [sql]) ∧
        (conn.backend sql).sets[0]? = some set ∧
        (advance cancelled todo conn).2.1.Stands set.rows.size
          ⟨(conn.backend sql).sets.drop 1, (conn.backend sql).failure⟩ := by
  induction todo generalizing conn with
  | nil => cases h
  | cons sql todo ih =>
    cases cancelled with
    | true => cases h
    | false =>
      obtain ⟨message, -, hrun⟩ | ⟨set, sets, -, hsets, hrun⟩ | ⟨-, -, hrun⟩ :=
        advance_cases todo sql conn <;> rw [hrun] at h ⊢
      · cases h
      · refine ⟨rfl, abandoned_fetch _ _ _ _ _, [], sql, set, ?_, by simp [hsets], ?_⟩
        · obtain ⟨_, n, -, hused⟩ := fetch_uses false ⟨todo, .idle, false⟩ set.rows
            ⟨sets, (conn.backend sql).failure⟩
          simp [hused, Connection.used]
        · rw [hsets]
          exact stands_fetch _ _ _ (Or.inl rfl)
      · obtain ⟨-, hkept, passed, last, set, hlog, hset, hstands⟩ := ih h
        exact ⟨rfl, hkept, sql :: passed, last, set, by simp [hlog], hset, hstands⟩

end Batch

/-! ## Rows that are printed -/

/-- What a printer reads are rows. If it meets no error it comes to the last one, or to its bound. -/
theorem Printer.feed_reads {σ : Type} (p : Printer σ) (cancelled : Bool) (fuel : Nat) (s : σ)
    (b : Batch) (conn : Connection) (sink : Sink) :
    ∃ k, (p.feed cancelled fuel s b conn sink).batch = (b.rows cancelled k conn).2.2.1 ∧
      ((p.feed cancelled fuel s b conn sink).error = none →
        (b.rows cancelled k conn).2.1 = some .done ∨
          (b.rows cancelled k conn).1.length = fuel) := by
  induction fuel generalizing s b conn sink with
  | zero => exact ⟨0, rfl, fun _ => Or.inr rfl⟩
  | succ fuel ih =>
    rcases hrow : b.row cancelled conn with ⟨cells | e | _, b₁, conn₁⟩
    · rcases hput : sink.putAll (p.row s cells).2 with ⟨_ | e, out⟩
      · obtain ⟨k, hbatch, hnone⟩ := ih (p.row s cells).1 b₁ conn₁ out
        refine ⟨k + 1, ?_, fun h => ?_⟩
        · simpa only [feed, hrow, hput, Batch.rows] using hbatch
        · simp only [feed, hrow, hput] at h
          simpa only [Batch.rows, hrow, List.length_cons, Nat.add_right_cancel_iff] using hnone h
      · refine ⟨1, by simp only [feed, hrow, hput, Batch.rows], fun h => ?_⟩
        simp only [feed, hrow, hput, reduceCtorEq] at h
    · refine ⟨1, by simp only [feed, hrow, Batch.rows], fun h => ?_⟩
      simp only [feed, hrow, reduceCtorEq] at h
    · exact ⟨1, by simp only [feed, hrow, Batch.rows],
        fun _ => Or.inl (by simp only [Batch.rows, hrow])⟩

theorem Printer.drain_reads {σ : Type} (p : Printer σ) (cancelled : Bool) (columns : List String)
    (b : Batch) (conn : Connection) (sink : Sink) :
    ∃ k, (p.drain cancelled columns b conn sink).batch = (b.rows cancelled k conn).2.2.1 ∧
      ((p.drain cancelled columns b conn sink).error = none →
        (b.rows cancelled k conn).2.1 = some .done ∨
          ∃ patience, (b.rows cancelled k conn).1.length = b.reach patience) := by
  rcases hput : sink.putAll (p.start columns).2 with ⟨_ | e, out⟩
  · obtain ⟨k, hbatch, hnone⟩ :=
      p.feed_reads cancelled (b.reach (patience out)) (p.start columns).1 b conn out
    refine ⟨k, by simpa only [drain, hput] using hbatch, fun h => ?_⟩
    simp only [drain, hput] at h
    exact (hnone h).imp_right fun hlength => ⟨_, hlength⟩
  · refine ⟨0, by simp only [drain, hput, Batch.rows], fun h => ?_⟩
    simp only [drain, hput, reduceCtorEq] at h

theorem Layout.print_reads (layout : Layout) (cancelled : Bool) (columns : List String) (b : Batch)
    (conn : Connection) (sink : Sink) :
    ∃ k, (layout.print cancelled columns b conn sink).batch = (b.rows cancelled k conn).2.2.1 ∧
      ((layout.print cancelled columns b conn sink).error = none →
        (b.rows cancelled k conn).2.1 = some .done ∨
          ∃ patience, (b.rows cancelled k conn).1.length = b.reach patience) := by
  cases layout with
  | silent => exact Printer.silent.drain_reads cancelled columns b conn sink
  | plan => exact Plan.printer.drain_reads cancelled columns b conn sink
  | table header => exact (Table.printer header).drain_reads cancelled columns b conn sink
  | csv header => exact (Csv.printer header).drain_reads cancelled columns b conn sink
  | json => exact Records.printer.drain_reads cancelled columns b conn sink

/-- A result set that has an end is printed to its end, if there is no error. -/
theorem Batch.Stands.print {n : ℕ∞} {rest : Remainder} {b : Batch} (h : b.Stands n rest)
    (hn : n ≠ ⊤) (layout : Layout) (cancelled : Bool) (columns : List String) (conn : Connection)
    (sink : Sink) (hnone : (layout.print cancelled columns b conn sink).error = none) :
    (layout.print cancelled columns b conn sink).batch.Stands 0 rest := by
  obtain ⟨k, hbatch, hread⟩ := layout.print_reads cancelled columns b conn sink
  obtain ⟨hlength, hdone⟩ := h.rows cancelled k conn
  rw [hbatch]
  refine hdone ((hread hnone).resolve_right ?_)
  rintro ⟨patience, hpatience⟩
  rw [hpatience, ← h.left] at hlength
  exact hlength.not_gt (b.rowsLeft_lt_reach (h.left ▸ hn) patience)

/-- A batch stands where it was read to. -/
def Spot.Fits (backend : Backend) (b : Batch) : Spot → Prop
  | fresh => b.stage = .idle ∨ b.abandoned = true
  | reading sql index taken => b.Stands ((reading sql index taken).rowsLeft backend)
    ⟨(backend sql).sets.drop (index + 1), (backend sql).failure⟩
  | elsewhere => True

/-- A batch was not given up, unless nothing is known of where it stands. -/
def Spot.Alive (b : Batch) (spot : Spot) : Prop := spot = elsewhere ∨ b.abandoned = false

namespace Spot

variable {backend : Backend} {b : Batch} {spot : Spot} {cancelled : Bool}

/-- **Between two statements** by the history a batch waits for the next one, if it was not given
up. -/
theorem Fits.idle (h : spot.Fits backend b) (hbetween : spot.Between backend)
    (hk : b.abandoned = false) : b.stage = .idle := by
  cases spot with
  | fresh => exact h.resolve_right (by simp [hk])
  | elsewhere => exact hbetween.elim
  | reading sql index taken =>
    obtain ⟨hlength, hfailure, hleft⟩ := hbetween
    rw [Fits, hleft, hfailure, List.drop_of_length_le hlength.le] at h
    exact h.idle hk

theorem fits_leave (h : spot.rowsLeft backend = 0 → spot.Fits backend b) :
    (spot.leave backend).Fits backend b := by
  rw [leave]
  split
  case isTrue hzero => exact h hzero
  case isFalse => trivial

/-- A batch that was cancelled may stand elsewhere if there are rows left. -/
theorem fits_goOn (h : cancelled = false ∨ spot.rowsLeft backend = 0 → spot.Fits backend b) :
    (spot.goOn backend cancelled).Fits backend b := by
  cases cancelled with
  | false => exact h (Or.inl rfl)
  | true => exact fits_leave fun hzero => h (Or.inr hzero)

theorem rowsLeft_begun {sql : String} {index : Nat} {set : ResultSet}
    (hset : (backend sql).sets[index]? = some set) :
    (reading sql index 0).rowsLeft backend = set.rows.size := by
  simp [rowsLeft, hset]

/-- A batch that begins a result set stands before all of its rows. -/
theorem fits_begun {sql : String} {index : Nat} {set : ResultSet}
    (hset : (backend sql).sets[index]? = some set)
    (h : cancelled = false ∨ set.rows.size = 0 → b.Stands set.rows.size
      ⟨(backend sql).sets.drop (index + 1), (backend sql).failure⟩) :
    ((reading sql index 0).goOn backend cancelled).Fits backend b := by
  refine fits_goOn fun hgo => ?_
  rw [rowsLeft_begun hset] at hgo
  rw [Fits, rowsLeft_begun hset]
  exact h hgo

/-- With a row that is handed over there is one less. -/
theorem rowsLeft_took {sql : String} {index : Nat} {taken n : ℕ∞}
    (h : (reading sql index taken).rowsLeft backend = n + 1) :
    (reading sql index (taken + 1)).rowsLeft backend = n := by
  have hone : n + 1 - 1 = n :=
    (ENat.addLECancellable_of_ne_top ENat.one_ne_top).add_tsub_cancel_right
  rw [rowsLeft] at h ⊢
  cases hset : (backend sql).sets[index]? with
  | none =>
    rw [hset] at h
    exact absurd h.symm (by simp)
  | some set =>
    simp only [hset, Option.elim_some] at h ⊢
    rw [← tsub_tsub, h, hone]

theorem took_iterate_fresh (n : Nat) : (·.took backend cancelled)^[n] fresh = fresh :=
  Function.iterate_fixed rfl n

theorem took_iterate_elsewhere (n : Nat) :
    (·.took backend cancelled)^[n] elsewhere = elsewhere :=
  Function.iterate_fixed rfl n

/-- **A row** that is handed over is noted, and nothing if there is none. -/
theorem Fits.row (h : spot.Fits backend b) (cancelled : Bool) (conn : Connection) :
    ((·.took backend cancelled)^[(b.row cancelled conn).1.items.countP (·.isOk)] spot).Fits backend
      (b.row cancelled conn).2.1 := by
  cases spot with
  | elsewhere =>
    rw [took_iterate_elsewhere]
    trivial
  | fresh =>
    rw [took_iterate_fresh]
    refine h.imp (fun hidle => ?_) fun hk => (b.abandoned_row cancelled conn).trans hk
    rw [Batch.row, hidle]
    exact hidle
  | reading sql index taken =>
    obtain ⟨cells, rows, hn, hrow⟩ | ⟨-, hnone, hrow⟩ := Batch.Stands.row h cancelled conn
    · rw [hrow]
      refine fits_goOn fun hgo => ?_
      rw [rowsLeft_took hn] at hgo
      rw [Fits, rowsLeft_took hn]
      exact b.stands_fetch _ conn hgo
    · rw [hnone]
      exact hrow

/-- **Rows** that are read one after the other are noted. -/
theorem Fits.rows (h : spot.Fits backend b) (cancelled : Bool) (n : Nat) (conn : Connection) :
    ((·.took backend cancelled)^[(b.rows cancelled n conn).1.length] spot).Fits backend
      (b.rows cancelled n conn).2.2.1 := by
  induction n generalizing spot b conn with
  | zero => exact h
  | succ n ih =>
    have hrow := h.row cancelled conn
    rw [Batch.rows]
    generalize b.row cancelled conn = answered at hrow ⊢
    obtain ⟨cells | e | _, b', conn'⟩ := answered
    · exact ih hrow conn'
    · exact hrow
    · exact hrow

theorem asked_of_not_isColumns (ran : List String) :
    spot.asked backend cancelled false ran = elsewhere := by
  simp [asked]

theorem asked_concat (passed : List String) (sql : String) :
    spot.asked backend cancelled true (passed ++ [sql]) =
      (reading sql 0 0).goOn backend cancelled := by
  simp [asked]

/-- A further result set of a statement that is read. -/
theorem Fits.offering (h : spot.Fits backend b) {set : ResultSet} {rest : Remainder}
    (hs : b.stage = .offering set rest) (cancelled : Bool) (conn : Connection) :
    (spot.asked backend cancelled true []).Fits backend
      (b.fetch cancelled set.rows rest conn).1 := by
  cases spot with
  | fresh | elsewhere => trivial
  | reading sql index taken =>
    have hahead := h.ahead
    simp only [Batch.Ahead, hs, Remainder.mk.injEq] at hahead
    obtain ⟨hsets, hfailure⟩ := hahead
    have hset : (backend sql).sets[index + 1]? = some set := by
      rw [← List.head?_drop, hsets, List.head?_cons]
    have hrest : (backend sql).sets.drop (index + 2) = rest.sets := by
      rw [← List.tail_drop, hsets, List.tail_cons]
    refine fits_begun hset fun hgo => ?_
    rw [hrest, hfailure]
    exact b.stands_fetch rest conn hgo

/-- **A request for a result set.** The one that comes is the first of the last statement that was
run, or a further one of the statement that was read. -/
theorem Fits.next (h : spot.Fits backend b) (cancelled : Bool) {conn : Connection}
    (hconn : conn.backend = backend) {ran : List String}
    (hran : (b.next cancelled conn).2.2.log = conn.log ++ ran) :
    (spot.asked backend cancelled (b.next cancelled conn).1.isColumns ran).Fits backend
      (b.next cancelled conn).2.1 := by
  subst hconn
  obtain ⟨-, hnext⟩ | ⟨set, rest, hs, hnext⟩ | ⟨e, -, hnext⟩ | ⟨-, hnext⟩ :=
    b.next_cases cancelled conn <;> rw [hnext] at hran ⊢
  · cases hcolumns : (Batch.advance cancelled b.todo conn).1.isColumns with
    | false =>
      rw [asked_of_not_isColumns]
      trivial
    | true =>
      obtain ⟨-, -, passed, sql, set, hlog, hset, hstands⟩ := Batch.advance_columns hcolumns
      obtain rfl : passed ++ [sql] = ran := List.append_cancel_left (hlog.symm.trans hran)
      rw [asked_concat]
      exact fits_begun hset fun _ => hstands
  · obtain ⟨_, n, -, hfetch⟩ := b.fetch_uses cancelled set.rows rest
    obtain rfl : ran = [] := by simpa [hfetch, Connection.used] using hran
    exact h.offering hs cancelled conn
  · exact asked_of_not_isColumns ran ▸ trivial
  · exact asked_of_not_isColumns ran ▸ trivial

/-- A result set that is read to its end. -/
theorem Fits.finish (h : spot.Fits backend b) {b' : Batch}
    (hfinish : ∀ n rest, n ≠ ⊤ → b.Stands n rest → b'.Stands 0 rest) :
    (spot.finish backend).Fits backend b' := by
  cases spot with
  | fresh | elsewhere => trivial
  | reading sql index taken =>
    rw [Spot.finish]
    split
    case isTrue => trivial
    case isFalse hn =>
      have hall : (reading sql index ⊤).rowsLeft backend = 0 := by
        rw [rowsLeft]
        cases (backend sql).sets[index]? <;> simp
      rw [Fits, hall]
      exact hfinish _ _ hn h

theorem Fits.dropRows (h : spot.Fits backend b) : (spot.leave backend).Fits backend b.dropRows := by
  refine fits_leave fun hzero => ?_
  cases spot with
  | elsewhere => trivial
  | fresh =>
    refine h.imp (fun hidle => ?_) fun hk => b.abandoned_dropRows.trans hk
    rw [Batch.dropRows, hidle]
    exact hidle
  | reading sql index taken =>
    rw [Fits, hzero] at h ⊢
    exact h.dropRows

theorem Fits.abandon (h : spot.Fits backend b) : spot.Fits backend b.abandon := by
  cases spot with
  | elsewhere => trivial
  | fresh => exact Or.inr b.abandoned_abandon
  | reading sql index taken => exact Batch.Stands.abandon h

/-- A batch that was not given up is not, whatever result set it was asked for. -/
theorem alive_next (h : spot.Alive b) (cancelled : Bool) {conn : Connection} {ran : List String}
    (hran : (b.next cancelled conn).2.2.log = conn.log ++ ran) :
    (spot.asked backend cancelled (b.next cancelled conn).1.isColumns ran).Alive
      (b.next cancelled conn).2.1 := by
  obtain ⟨-, hnext⟩ | ⟨set, rest, hs, hnext⟩ | ⟨e, -, hnext⟩ | ⟨-, hnext⟩ :=
    b.next_cases cancelled conn <;> rw [hnext] at hran ⊢
  · cases hcolumns : (Batch.advance cancelled b.todo conn).1.isColumns with
    | false => exact Or.inl (asked_of_not_isColumns ran)
    | true => exact Or.inr (Batch.advance_columns hcolumns).2.1
  · obtain ⟨_, n, -, hfetch⟩ := b.fetch_uses cancelled set.rows rest
    obtain rfl : ran = [] := by simpa [hfetch, Connection.used] using hran
    exact h.imp (fun helse => by rw [helse]; rfl) fun hk => (b.abandoned_fetch _ _ _ _).trans hk
  · exact Or.inl (asked_of_not_isColumns ran)
  · exact Or.inl (asked_of_not_isColumns ran)

end Spot

namespace Progress

/-- What was noted of a batch is right. -/
structure Fits (backend : Backend) (p : Progress) (b : Batch) : Prop where
  todo : b.todo = p.left
  spot : p.spot.Fits backend b

/-- Of what a batch does it is noted how far it was read then. -/
structure Notes (backend : Backend) (p : Progress) (b : Batch) (p' : Progress) (b' : Batch) :
    Prop where
  fits : p.Fits backend b → p'.Fits backend b'
  alive : p.spot.Alive b → p'.spot.Alive b'

variable {backend : Backend}

variable (p : Progress) (b : Batch) (cancelled : Bool) (conn : Connection)

theorem took_took (m n : Nat) :
    (p.took backend cancelled m).took backend cancelled n = p.took backend cancelled (m + n) := by
  rw [took, took, took, Nat.add_comm m n, Function.iterate_add_apply]

theorem notes_row : Notes backend p b
    (p.took backend cancelled ((b.row cancelled conn).1.items.countP (·.isOk)))
    (b.row cancelled conn).2.1 where
  fits h := by
    obtain ⟨_, b', n, htodo, hrow⟩ := b.row_uses cancelled
    refine ⟨?_, h.spot.row cancelled conn⟩
    rw [hrow]
    exact htodo.trans h.todo
  alive h := by
    refine h.imp (fun helse => ?_) fun hk => (b.abandoned_row cancelled conn).trans hk
    rw [took, helse, Spot.took_iterate_elsewhere]

theorem notes_rows (n : Nat) : Notes backend p b
    (p.took backend cancelled (b.rows cancelled n conn).1.length)
    (b.rows cancelled n conn).2.2.1 where
  fits h := by
    obtain ⟨_, _, b', m, htodo, hrows⟩ := b.rows_uses cancelled n
    refine ⟨?_, h.spot.rows cancelled n conn⟩
    rw [hrows]
    exact htodo.trans h.todo
  alive h := by
    refine h.imp (fun helse => ?_) fun hk => (b.abandoned_rows cancelled n conn).trans hk
    rw [took, helse, Spot.took_iterate_elsewhere]

theorem notes_next {ran : List String} (hconn : conn.backend = backend)
    (hran : (b.next cancelled conn).2.2.log = conn.log ++ ran) : Notes backend p b
    (p.asked backend cancelled (b.next cancelled conn).1.isColumns ran)
    (b.next cancelled conn).2.1 where
  fits h := by
    obtain ⟨_, b', log, n, htodo, -, hnext⟩ := b.next_uses cancelled conn.backend
    refine ⟨?_, h.spot.next cancelled hconn hran⟩
    rw [hnext conn rfl] at hran ⊢
    obtain rfl : log = ran := List.append_cancel_left hran
    rw [asked, ← h.todo, htodo, List.drop_left]
  alive h := Spot.alive_next h cancelled hran

theorem notes_dropRows : Notes backend p b (p.leave backend) b.dropRows where
  fits h := ⟨b.todo_dropRows.trans h.todo, h.spot.dropRows⟩
  alive h := by
    refine h.imp (fun helse => ?_) fun hk => b.abandoned_dropRows.trans hk
    simp [leave, Spot.leave, helse]

theorem notes_printed (layout : Layout) (columns : List String) (sink : Sink) :
    Notes backend p b
      (p.printed backend (layout.print cancelled columns b conn sink).error)
      (layout.print cancelled columns b conn sink).batch.dropRows := by
  obtain ⟨k, hbatch, -⟩ := layout.print_reads cancelled columns b conn sink
  obtain ⟨_, _, b', n, htodo, hrows⟩ := b.rows_uses cancelled k
  have habandoned : (layout.print cancelled columns b conn sink).batch.dropRows.abandoned =
      b.abandoned := by
    rw [Batch.abandoned_dropRows, hbatch, Batch.abandoned_rows]
  refine ⟨fun h => ⟨?_, ?_⟩, fun h => ?_⟩
  · rw [Batch.todo_dropRows, hbatch, hrows, htodo, h.todo, printed]
  · rw [printed]
    cases herror : (layout.print cancelled columns b conn sink).error with
    | some e => trivial
    | none => exact h.spot.finish fun _ _ hn hstands =>
        (hstands.print hn layout cancelled columns conn sink herror).dropRows
  · refine h.imp (fun helse => ?_) habandoned.trans
    rw [printed, helse]
    exact ite_self _

/-- Nothing is known of where a batch stands. -/
theorem notes_elsewhere {left : List String} {b' : Batch} (h : b.todo = p.left → b'.todo = left) :
    Notes backend p b ⟨left, .elsewhere⟩ b' :=
  ⟨fun hfits => ⟨h hfits.todo, trivial⟩, fun _ => Or.inl rfl⟩

theorem fits_start (statements : List Statement) :
    (start statements conn).Fits backend (Batch.start statements conn) := by
  refine ⟨rfl, ?_⟩
  cases hbroken : conn.broken with
  | true => simp [start, hbroken, Spot.Fits]
  | false =>
    simp only [start, hbroken, Bool.false_eq_true, ↓reduceIte]
    exact Or.inl (Batch.start_idle statements hbroken).1

theorem alive_start (statements : List Statement) :
    (start statements conn).spot.Alive (Batch.start statements conn) := Or.inr rfl

end Progress

end SqlConsole
