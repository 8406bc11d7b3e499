import SqlConsole.Proofs.Batch.Cancel
import SqlConsole.Proofs.Batch.Use

/-!
# The extent of a batch

Who reads rows does so within a bound, `Batch.reach`. If the current result set comes to an end,
each row that is taken makes the bound smaller (`Batch.reach_row`), so that the bound is met only
behind the last row (`Batch.length_lt_reach`). Rows without an end are counted as if there were few
of them; a batch that was not cancelled is `Batch.Bounded` if it has not come upon such rows.

All rows that a batch can still yield are counted in `ℕ∞` (`Batch.total`), and what is collected of
it cannot be more (`Batch.length_collect_le`).
-/

namespace SqlConsole

/-! ## How many rows are left -/

namespace Rows

/-- Rows that come to an end are counted. -/
theorem reach_of_next? {rows rows' : Rows} {row : Row} (h : rows.next? = some (row, rows'))
    (hfinite : rows'.size ≠ ⊤) (patience : Nat) :
    rows.reach patience = rows'.reach patience + 1 := by
  cases rows with
  | finite rows =>
    cases rows with
    | nil => cases h
    | cons first rows =>
      obtain ⟨rfl, rfl⟩ := Prod.mk.inj (Option.some.inj h)
      rfl
  | cyclic rows =>
    cases rows with
    | nil => cases h
    | cons first rows =>
      obtain ⟨rfl, rfl⟩ := Prod.mk.inj (Option.some.inj h)
      cases rows <;> simp [size] at hfinite
  | counting n =>
    obtain ⟨rfl, rfl⟩ := Prod.mk.inj (Option.some.inj h)
    simp [size] at hfinite

end Rows

namespace Batch

variable {cancelled : Bool} {b b₁ : Batch} {conn conn₁ : Connection} {cells : Row}

theorem reach_settle_le (cancelled abandoned : Bool) (rest : Remainder) (patience : Nat) :
    (Stage.settle cancelled abandoned rest).reach patience ≤ 1 := by
  obtain ⟨_ | ⟨set, sets⟩, failure⟩ := rest
  · cases failure <;> cases abandoned <;> simp [Stage.settle, Stage.reach]
  · cases cancelled <;> cases abandoned <;> simp [Stage.settle, Stage.reach]

/-- The current result set comes to an end: it has finitely many rows, or the batch is cancelled. -/
def Bounded (cancelled : Bool) (b : Batch) : Prop := cancelled = true ∨ b.stage.rowsLeft ≠ ⊤

theorem reach_abandon (b : Batch) (patience : Nat) :
    b.abandon.reach patience = b.reach patience := by
  unfold abandon reach
  cases b.stage <;> simp [Stage.reach]

theorem bounded_abandon (b : Batch) (cancelled : Bool) :
    b.abandon.Bounded cancelled ↔ b.Bounded cancelled := by
  unfold abandon Bounded
  cases b.stage <;> simp [Stage.rowsLeft]

/-- Taking a row runs nothing. -/
theorem log_row {result : RowResult} (h : b.row cancelled conn = (result, b₁, conn₁)) :
    conn₁.log = conn.log := by
  obtain ⟨_, _, n, -, hrow⟩ := b.row_uses cancelled
  rw [hrow] at h
  obtain rfl : conn.used [] n = conn₁ := congrArg (·.2.2) h
  exact List.append_nil _

/-- A row that is taken was one of those that were left. -/
theorem rowsLeft_row (h : b.row false conn = (.row cells, b₁, conn₁)) :
    b.stage.rowsLeft = b₁.stage.rowsLeft + 1 := by
  obtain ⟨first, rows, rest, hs, hrow⟩ | ⟨e, -, hrow⟩ | ⟨-, hrow⟩ := row_cases false b conn <;>
    rw [hrow] at h
  · obtain rfl : (b.fetch false rows rest conn).1 = b₁ := congrArg (·.2.1) h
    rw [hs, Stage.rowsLeft, fetch]
    cases hnext : rows.next? with
    | none =>
      simp [Stage.rowsLeft_settle, (rows.size_eq_zero_iff).mpr hnext]
    | some p => simp [Stage.rowsLeft, Rows.size_of_next? hnext]
  · cases h
  · cases h

/-- The rows of a result set that is begun, and what is behind them. -/
theorem reach_fetch_le {rows : Rows} {rest : Remainder}
    (h : (b.fetch cancelled rows rest conn).1.Bounded cancelled) (patience : Nat) :
    (b.fetch cancelled rows rest conn).1.reach patience ≤ rows.reach patience + 2 := by
  rw [fetch] at h ⊢
  cases hnext : rows.next? with
  | none =>
    have hsettle := reach_settle_le cancelled b.abandoned rest patience
    simp only [reach]
    omega
  | some p =>
    cases cancelled with
    | true => simp [reach, Stage.reach]
    | false =>
      have hfinite : p.2.size ≠ ⊤ := by
        rcases h with h | h
        · cases h
        · intro htop
          simp [hnext, Stage.rowsLeft, htop] at h
      have hrows := Rows.reach_of_next? hnext hfinite patience
      simp only [reach, Stage.reach, Bool.false_eq_true, ↓reduceIte]
      omega

/-- Each row that is taken counts. -/
theorem reach_row (h : b.row cancelled conn = (.row cells, b₁, conn₁))
    (hbounded : b₁.Bounded cancelled) (patience : Nat) :
    b₁.reach patience + 1 ≤ b.reach patience := by
  obtain ⟨first, rows, rest, hs, hrow⟩ | ⟨e, -, hrow⟩ | ⟨-, hrow⟩ := row_cases cancelled b conn <;>
    rw [hrow] at h
  · obtain rfl : (b.fetch cancelled rows rest conn).1 = b₁ := congrArg (·.2.1) h
    have hreach : b.reach patience = rows.reach patience + 3 := by rw [reach, hs]; rfl
    have hfetch := reach_fetch_le hbounded patience
    omega
  · cases h
  · cases h

/-- A result set comes to an end if no row is left, or if it does behind the next one. -/
theorem bounded_of_row {result : RowResult} (h : b.row cancelled conn = (result, b₁, conn₁))
    (hrest : (∀ cells, result ≠ .row cells) ∨ b₁.Bounded cancelled) : b.Bounded cancelled := by
  cases cancelled with
  | true => exact Or.inl rfl
  | false =>
    refine Or.inr ?_
    cases result with
    | row cells =>
      rw [rowsLeft_row h]
      rcases hrest with hstop | hrest
      · exact absurd rfl (hstop cells)
      · simpa [Bounded] using hrest
    | error e | done =>
      obtain ⟨first, rows, rest, -, hrow⟩ | ⟨e, hs, -⟩ | ⟨hs, -⟩ := row_cases false b conn
      · simp [hrow] at h
      · simp [hs, Stage.rowsLeft]
      · cases hstage : b.stage <;> simp_all [Stage.isReading, Stage.rowsLeft]

/-- **Several rows**: the next one and then the others, or what comes in place of it. -/
theorem rows_succ_cases {k : Nat} {all : List Row} {stop : Option RowResult}
    (h : b.rows cancelled (k + 1) conn = (all, stop, b₁, conn₁)) :
    (∃ cells more b₂ conn₂, b.row cancelled conn = (.row cells, b₂, conn₂) ∧
      b₂.rows cancelled k conn₂ = (more, stop, b₁, conn₁) ∧ all = cells :: more) ∨
    ∃ result, (∀ cells, result ≠ .row cells) ∧ b.row cancelled conn = (result, b₁, conn₁) ∧
      all = [] ∧ stop = some result := by
  rw [rows] at h
  rcases hrow : b.row cancelled conn with ⟨result, b₂, conn₂⟩
  rw [hrow] at h
  cases result with
  | row cells =>
    rcases hrest : b₂.rows cancelled k conn₂ with ⟨more, stop', b₃, conn₃⟩
    obtain ⟨rfl, rfl, rfl, rfl⟩ :
        cells :: more = all ∧ stop' = stop ∧ b₃ = b₁ ∧ conn₃ = conn₁ := by
      simpa [hrest] using h
    exact Or.inl ⟨cells, more, b₂, conn₂, rfl, hrest, rfl⟩
  | error e | done =>
    obtain ⟨rfl, rfl, rfl, rfl⟩ : [] = all ∧ some _ = stop ∧ b₂ = b₁ ∧ conn₂ = conn₁ := by
      simpa using h
    exact Or.inr ⟨_, by simp, rfl, rfl, rfl⟩

/-- No row is what comes in place of a row. -/
theorem rows_ne_row (k : Nat) (all : List Row) (cells : Row) (s : Batch × Connection) :
    b.rows cancelled k conn ≠ (all, some (.row cells), s) := by
  induction k generalizing b conn all with
  | zero => simp [rows]
  | succ k ih =>
    intro h
    obtain ⟨first, more, b₂, conn₂, -, hrest, -⟩ | ⟨result, hresult, -, -, hstop⟩ :=
      rows_succ_cases h
    · exact ih more hrest
    · exact hresult cells (Option.some.inj hstop).symm

/-- The rows can be read to their end only if they have one. -/
theorem bounded_of_rows {k : Nat} {all : List Row} {stop : RowResult} {s : Batch × Connection}
    (h : b.rows cancelled k conn = (all, some stop, s)) : b.Bounded cancelled := by
  induction k generalizing b conn all with
  | zero => cases h
  | succ k ih =>
    obtain ⟨cells, more, b₂, conn₂, hrow, hrest, -⟩ | ⟨result, hresult, hrow, -⟩ :=
      rows_succ_cases h
    · exact bounded_of_row hrow (Or.inr (ih hrest))
    · exact bounded_of_row hrow (Or.inl hresult)

/-- **The rows that are read are within reach**, with room for what is behind them. -/
theorem length_lt_reach {k : Nat} {all : List Row} {stop : RowResult} {s : Batch × Connection}
    (h : b.rows cancelled k conn = (all, some stop, s)) (patience : Nat) :
    all.length < b.reach patience := by
  induction k generalizing b conn all with
  | zero => cases h
  | succ k ih =>
    obtain ⟨cells, more, b₂, conn₂, hrow, hrest, rfl⟩ | ⟨result, -, -, rfl, -⟩ :=
      rows_succ_cases h
    · have hmore := ih hrest
      have hstep := reach_row hrow (bounded_of_rows hrest) patience
      simp only [List.length_cons]
      omega
    · exact Nat.succ_pos _

end Batch

/-! ## All rows of a batch -/

/-- The number of rows of several result sets. -/
def ResultSet.total (sets : List ResultSet) : ℕ∞ := (sets.map (·.rows.size)).sum

/-- All result sets come to an end. -/
def Reply.Finite (r : Reply) : Prop := ∀ set ∈ r.sets, set.rows.size ≠ ⊤

theorem Rows.size_eq_reach {rows : Rows} (h : rows.size ≠ ⊤) : rows.size = rows.reach 0 := by
  cases rows with
  | finite rows => rfl
  | cyclic rows =>
    cases rows with
    | nil => rfl
    | cons row rows => exact absurd rfl h
  | counting n => exact absurd rfl h

namespace Stage

/-- The number of rows that a running statement has left. -/
def total : Stage → ℕ∞
  | streaming _ rows rest => rows.size + 1 + ResultSet.total rest.sets
  | offering set rest => set.rows.size + ResultSet.total rest.sets
  | idle | failing _ | refused _ | ended => 0

theorem total_settle_le (cancelled abandoned : Bool) (rest : Remainder) :
    (settle cancelled abandoned rest).total ≤ ResultSet.total rest.sets := by
  obtain ⟨_ | ⟨set, sets⟩, failure⟩ := rest
  · cases failure <;> cases abandoned <;> exact zero_le
  · cases abandoned with
    | true => exact zero_le
    | false =>
      cases cancelled with
      | true => exact zero_le
      | false => exact le_of_eq rfl

end Stage

namespace Batch

variable {b b₁ : Batch} {conn conn₁ : Connection}

/-- The number of rows that a batch has left. -/
def total (b : Batch) (backend : Backend) : ℕ∞ :=
  b.stage.total + (b.todo.map fun sql => ResultSet.total (backend sql).sets).sum

theorem total_fetch_le (b : Batch) (rows : Rows) (rest : Remainder) (conn : Connection) :
    (b.fetch false rows rest conn).1.stage.total ≤ rows.size + ResultSet.total rest.sets := by
  rw [fetch]
  cases hnext : rows.next? with
  | none => exact (Stage.total_settle_le false b.abandoned rest).trans le_add_self
  | some p => exact le_of_eq (by simp [Stage.total, Rows.size_of_next? hnext])

theorem todo_fetch (cancelled : Bool) (b : Batch) (rows : Rows) (rest : Remainder)
    (conn : Connection) : (b.fetch cancelled rows rest conn).1.todo = b.todo := by
  obtain ⟨b', n, htodo, hfetch⟩ := b.fetch_uses cancelled rows rest
  rw [hfetch conn]
  exact htodo

/-- A row that is taken is not left. -/
theorem total_row_le {cells : Row} (h : b.row false conn = (.row cells, b₁, conn₁))
    (backend : Backend) : b₁.total backend + 1 ≤ b.total backend := by
  obtain ⟨first, rows, rest, hs, hrow⟩ | ⟨e, -, hrow⟩ | ⟨-, hrow⟩ := row_cases false b conn <;>
    rw [hrow] at h
  · obtain rfl : (b.fetch false rows rest conn).1 = b₁ := congrArg (·.2.1) h
    rw [total, total, todo_fetch, hs, Stage.total, add_right_comm, add_right_comm rows.size]
    gcongr
    exact total_fetch_le b rows rest conn
  · cases h
  · cases h

/-- What comes in place of a row takes nothing away, or all. -/
theorem total_stop_le {stop : RowResult} (h : b.row false conn = (stop, b₁, conn₁))
    (hstop : ∀ cells, stop ≠ .row cells) (backend : Backend) :
    b₁.total backend ≤ b.total backend := by
  obtain ⟨first, rows, rest, -, hrow⟩ | ⟨e, -, hrow⟩ | ⟨-, hrow⟩ := row_cases false b conn <;>
    rw [hrow] at h
  · exact absurd (congrArg Prod.fst h).symm (hstop first)
  · obtain rfl : { b with stage := .ended } = b₁ := congrArg (·.2.1) h
    rw [total, total, Stage.total, zero_add]
    exact le_add_self
  · obtain rfl : b = b₁ := congrArg (·.2.1) h
    exact le_refl _

theorem total_rows_le {n : Nat} {cells : List Row} {stop : Option RowResult}
    (h : b.rows false n conn = (cells, stop, b₁, conn₁)) (backend : Backend) :
    b₁.total backend + cells.length ≤ b.total backend := by
  induction n generalizing b conn cells with
  | zero =>
    obtain ⟨rfl, -, rfl, -⟩ : [] = cells ∧ none = stop ∧ b = b₁ ∧ conn = conn₁ := by
      simpa [rows] using h
    simp
  | succ n ih =>
    obtain ⟨first, more, b₂, conn₂, hrow, hrest, rfl⟩ | ⟨result, hresult, hrow, rfl, -⟩ :=
      rows_succ_cases h
    · rw [List.length_cons, Nat.cast_succ, ← add_assoc]
      exact (add_le_add_left (ih hrest) 1).trans (total_row_le hrow backend)
    · simpa using total_stop_le hrow hresult backend

theorem total_advance_le {todo : List String} {columns : List String}
    (h : advance false todo conn = (.columns columns, b₁, conn₁)) :
    b₁.total conn.backend ≤
      (todo.map fun sql => ResultSet.total (conn.backend sql).sets).sum := by
  induction todo generalizing conn with
  | nil => cases h
  | cons sql todo ih =>
    rw [List.map_cons, List.sum_cons]
    obtain ⟨message, -, hadvance⟩ | ⟨set, sets, -, hs, hadvance⟩ | ⟨-, -, hadvance⟩ :=
      advance_cases todo sql conn <;> rw [hadvance] at h
    · cases h
    · have hb := congrArg (·.2.1) h
      simp only at hb
      rw [hs, ← hb, total, todo_fetch]
      exact add_le_add_left (total_fetch_le _ _ _ _) _
    · exact (ih h).trans le_add_self

/-- A request for a result set adds no rows. -/
theorem total_next_le {columns : List String}
    (h : b.next false conn = (.columns columns, b₁, conn₁)) :
    b₁.total conn.backend ≤ b.total conn.backend := by
  obtain ⟨-, hnext⟩ | ⟨set, rest, hs, hnext⟩ | ⟨e, -, hnext⟩ | ⟨-, hnext⟩ :=
    next_cases false b conn <;> rw [hnext] at h
  · exact (total_advance_le h).trans le_add_self
  · obtain rfl : (b.fetch false set.rows rest conn).1 = b₁ := congrArg (·.2.1) h
    rw [total, total, todo_fetch, hs]
    gcongr
    exact total_fetch_le b set.rows rest conn
  · cases h
  · cases h

/-- **What is collected** was there. -/
theorem length_collect_le {fuel : Nat} {rows : List Row}
    (h : collect fuel b conn = (.ok rows, conn₁)) : rows.length ≤ b.total conn.backend := by
  induction fuel generalizing b conn conn₁ rows with
  | zero =>
    obtain ⟨rfl, -⟩ : [] = rows ∧ conn = conn₁ := by simpa [collect] using h
    exact zero_le
  | succ fuel ih =>
    obtain ⟨result, b₂, log, n, -, -, hnext⟩ := next_uses false b conn.backend
    have hnext := hnext conn rfl
    rw [collect, hnext] at h
    cases result with
    | done =>
      obtain ⟨rfl, -⟩ : [] = rows ∧ _ = conn₁ := by simpa using h
      exact zero_le
    | error e => cases h
    | columns columns =>
      obtain ⟨cells, stop, b₃, m, -, hrows⟩ := rows_uses false (b₂.reach 0) b₂
      have hrows := hrows (conn.used log n)
      have hcells := total_rows_le hrows conn.backend
      simp only [hrows] at h
      rcases hmore : collect fuel b₃ ((conn.used log n).used [] m) with ⟨_ | more, conn₂⟩
      · rcases stop with _ | _ | _ | _ <;> simp [hmore] at h
      · have hall : cells ++ more = rows := by
          rcases stop with _ | _ | _ | _ <;> simp [hmore] at h <;> exact h.1
        have hrest := ih hmore
        simp only [Connection.used_backend] at hrest
        rw [← hall, List.length_append, Nat.cast_add, add_comm]
        exact (add_le_add_left hrest _).trans (hcells.trans (total_next_le hnext))

end Batch

end SqlConsole
