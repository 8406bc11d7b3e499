import Mathlib.Data.ENat.Basic
import SqlConsole.Output
import SqlConsole.Proofs.Batch.Safety

/-!
# Cancelled batches

A batch that was cancelled can hand over what was on its way: the row that had been fetched, if
there is one, and then an error, of which it may be told by a result set or by the next request for
one (`Stage.farewell`). Each request takes its answer out of that, leaves the connection alone and
starts no statement (`Fades`). So whatever is asked of such a batch, all of it together is at most
one row and at most one error behind it.

How many rows of a result set are left is counted in `ℕ∞` (`Rows.size`, `Stage.rowsLeft`), so that
two rows or more are left of every endless one.
-/

open scoped List

namespace SqlConsole

/-- What a consumer is handed: a row, or an error in place of one. -/
abbrev Item := Except Error Row

def NextResult.items : NextResult → List Item
  | error e => [.error e]
  | columns _ | done => []

def RowResult.items : RowResult → List Item
  | row cells => [.ok cells]
  | error e => [.error e]
  | done => []

/-- The rows of a result set and the error behind them. -/
def Batch.Outcome.items (o : Outcome) : List Item :=
  o.rows.map .ok ++ o.failure.toList.map .error

/-- The items of all that a batch yields. -/
def Batch.itemsOf (results : List (Except Error Outcome)) : List Item :=
  results.flatMap fun
    | .error e => [.error e]
    | .ok o => o.items

/-- The items that reading rows comes to. -/
def RowResult.itemsOf (cells : List Row) (stop : Option RowResult) : List Item :=
  cells.map .ok ++ (stop.getD .done).items

/-- Rows and errors behind them, told apart. -/
theorem Item.filter_isOk (rows : List Row) (errors : List Error) :
    (rows.map .ok ++ errors.map .error : List Item).filter (·.isOk) = rows.map .ok ∧
      (rows.map .ok ++ errors.map .error : List Item).filter (!·.isOk) = errors.map .error := by
  induction rows with
  | nil => induction errors <;> simp_all [Except.isOk, Except.toBool]
  | cons row rows ih => simp_all [Except.isOk, Except.toBool]

namespace Rows

/-- The number of rows. -/
def size : Rows → ℕ∞
  | finite rows => rows.length
  | cyclic [] => 0
  | cyclic (_ :: _) | counting _ => ⊤

theorem size_eq_zero_iff (rows : Rows) : rows.size = 0 ↔ rows.next? = none := by
  cases rows with
  | finite rows => cases rows <;> simp [size, next?]
  | cyclic rows => cases rows <;> simp [size, next?]
  | counting n => simp [size, next?]

theorem size_of_next? {rows rows' : Rows} {row : Row} (h : rows.next? = some (row, rows')) :
    rows.size = rows'.size + 1 := by
  cases rows with
  | finite rows =>
    cases rows with
    | nil => simp [next?] at h
    | cons first rows =>
      obtain ⟨rfl, rfl⟩ := Prod.mk.inj (Option.some.inj h)
      simp [size]
  | cyclic rows =>
    cases rows with
    | nil => simp [next?] at h
    | cons first rows =>
      obtain ⟨rfl, rfl⟩ := Prod.mk.inj (Option.some.inj h)
      cases rows <;> simp [size]
  | counting n =>
    obtain ⟨rfl, rfl⟩ := Prod.mk.inj (Option.some.inj h)
    simp [size]

end Rows

namespace Stage

/-- The number of rows that are still to be handed over of the current result set. -/
def rowsLeft : Stage → ℕ∞
  | streaming _ rows _ => rows.size + 1
  | idle | offering _ _ | failing _ | refused _ | ended => 0

/-- Behind its last row a result set has none. -/
theorem rowsLeft_settle (cancelled abandoned : Bool) (rest : Remainder) :
    (settle cancelled abandoned rest).rowsLeft = 0 := by
  obtain ⟨_ | ⟨set, sets⟩, failure⟩ := rest
  · cases failure <;> cases abandoned <;> rfl
  · cases abandoned <;> cases cancelled <;> rfl

/-- All that a cancelled batch may still hand over, in this order. -/
def farewell : Stage → List Item
  | streaming cells _ _ => [.ok cells, .error .cancelled]
  | failing e | refused e => [.error e]
  | idle | offering _ _ => [.error .cancelled]
  | ended => []

/-- It is one row at most, and one error behind it. -/
theorem farewell_eq (stage : Stage) : ∃ (rows : List Row) (errors : List Error),
    rows.length ≤ 1 ∧ errors.length ≤ 1 ∧ stage.farewell = rows.map .ok ++ errors.map .error := by
  cases stage with
  | streaming cells rows rest => exact ⟨[cells], [.cancelled], by simp, by simp, rfl⟩
  | failing e | refused e => exact ⟨[], [e], by simp, by simp, rfl⟩
  | idle | offering _ _ => exact ⟨[], [.cancelled], by simp, by simp, rfl⟩
  | ended => exact ⟨[], [], by simp, by simp, rfl⟩

/-- Behind its last row a cancelled result set has one error at most. -/
theorem farewell_settle (abandoned : Bool) (rest : Remainder) :
    (settle true abandoned rest).farewell <+ [.error .cancelled] := by
  obtain ⟨sets, failure⟩ := rest
  cases sets with
  | cons set sets => cases abandoned <;> simp [settle, farewell]
  | nil => cases failure <;> cases abandoned <;> simp [settle, farewell]

end Stage

namespace Batch

/-- A request to a cancelled batch: what was handed over is taken out of what could be, nothing is
started and the connection is not used. -/
structure Fades (s : Batch × Connection) (items : List Item) (s' : Batch × Connection) : Prop where
  conn : s'.2 = s.2
  todo : s'.1.todo = s.1.todo
  items : items ++ s'.1.stage.farewell <+ s.1.stage.farewell

namespace Fades

variable {s t u : Batch × Connection} {items items' : List Item}

theorem refl (s : Batch × Connection) : Fades s [] s := ⟨rfl, rfl, List.Sublist.refl _⟩

theorem trans (h : Fades s items t) (h' : Fades t items' u) : Fades s (items ++ items') u := by
  refine ⟨h'.conn.trans h.conn, h'.todo.trans h.todo, ?_⟩
  rw [List.append_assoc]
  exact (h'.items.append_left items).trans h.items

/-- Less was handed over. -/
theorem mono (h : Fades s items t) (hless : items' <+ items) : Fades s items' t :=
  ⟨h.conn, h.todo, (hless.append_right _).trans h.items⟩

end Fades

section Requests

variable (b : Batch) (conn : Connection)

theorem fades_dropRows : Fades (b, conn) [] (b.dropRows, conn) := by
  obtain ⟨hlog, htodo⟩ := quiet_dropRows b conn
  refine ⟨rfl, htodo, ?_⟩
  cases hs : b.stage with
  | streaming cells rows rest => cases hk : b.abandoned <;> simp [dropRows, hs, hk, Stage.farewell]
  | idle | offering _ _ | refused _ | failing _ | ended => simp [dropRows, hs, Stage.farewell]

theorem fades_abandon : Fades (b, conn) [] (b.abandon, conn) := by
  obtain ⟨hlog, htodo⟩ := quiet_abandon b conn
  refine ⟨rfl, htodo, ?_⟩
  cases hs : b.stage <;> simp [abandon, hs, Stage.farewell]

/-- No row is fetched. -/
theorem fetch_cancelled (rows : Rows) (rest : Remainder) :
    (b.fetch true rows rest conn).2 = conn ∧ (b.fetch true rows rest conn).1.todo = b.todo ∧
      (b.fetch true rows rest conn).1.stage.farewell <+ [.error .cancelled] := by
  unfold fetch
  cases rows.next? with
  | none => exact ⟨rfl, rfl, Stage.farewell_settle b.abandoned rest⟩
  | some p => exact ⟨rfl, rfl, List.Sublist.refl _⟩

/-- No statement is started. -/
theorem advance_cancelled (todo : List String) :
    Fades (⟨todo, .idle, false⟩, conn) (advance true todo conn).1.items
      (advance true todo conn).2 := by
  cases todo with
  | nil => exact ⟨rfl, rfl, List.nil_sublist _⟩
  | cons sql todo => exact ⟨rfl, rfl, List.Sublist.refl _⟩

theorem fades_next :
    Fades (b, conn) (b.next true conn).1.items (b.next true conn).2 := by
  have hdrop := fades_dropRows b conn
  obtain ⟨hs, h⟩ | ⟨set, rest, hs, h⟩ | ⟨e, hs, h⟩ | ⟨hs, h⟩ := next_cases true b conn <;> rw [h]
  · obtain ⟨hconn, htodo, hitems⟩ := advance_cancelled conn b.todo
    refine ⟨hconn, htodo, hitems.trans ?_⟩
    have hidle := hdrop.items
    rwa [hs] at hidle
  · obtain ⟨hconn, htodo, hitems⟩ := fetch_cancelled b conn set.rows rest
    refine ⟨hconn, htodo, ?_⟩
    simpa [hs, Stage.farewell, NextResult.items] using hitems
  · exact ⟨rfl, rfl, by simp [hs, Stage.farewell, NextResult.items]⟩
  · exact ⟨rfl, rfl, by simp [Stage.farewell, NextResult.items]⟩

theorem fades_row : Fades (b, conn) (b.row true conn).1.items (b.row true conn).2 := by
  obtain ⟨cells, rows, rest, hs, h⟩ | ⟨e, hs, h⟩ | ⟨-, h⟩ := row_cases true b conn <;> rw [h]
  · obtain ⟨hconn, htodo, hitems⟩ := fetch_cancelled b conn rows rest
    refine ⟨hconn, htodo, ?_⟩
    rw [hs]
    exact hitems.append_left [.ok cells]
  · exact ⟨rfl, rfl, by simp [hs, Stage.farewell, RowResult.items]⟩
  · exact .refl _

theorem fades_rows (n : Nat) :
    Fades (b, conn) (RowResult.itemsOf (rows true n b conn).1 (rows true n b conn).2.1)
      (rows true n b conn).2.2 := by
  induction n generalizing b conn with
  | zero => exact .refl _
  | succ n ih =>
    have hrow := fades_row b conn
    rw [rows]
    generalize b.row true conn = first at hrow ⊢
    obtain ⟨result, b₁, conn₁⟩ := first
    cases result with
    | row cells => exact hrow.trans (ih b₁ conn₁)
    | error e => exact hrow
    | done => exact hrow

theorem fades_outcomesWithin (fuel : Nat) :
    Fades (b, conn) (itemsOf (outcomesWithin true fuel b conn).1)
      (outcomesWithin true fuel b conn).2 := by
  induction fuel generalizing b conn with
  | zero => exact .refl _
  | succ fuel ih =>
    have hnext := fades_next b conn
    rw [outcomesWithin]
    generalize b.next true conn = first at hnext ⊢
    obtain ⟨result, b₁, conn₁⟩ := first
    cases result with
    | done => exact hnext
    | error e => exact hnext.trans (ih b₁ conn₁)
    | columns columns =>
      have hrows := fades_rows b₁ conn₁ (b₁.reach 0)
      simp only
      generalize rows true (b₁.reach 0) b₁ conn₁ = read at hrows ⊢
      obtain ⟨cells, stop, b₂, conn₂⟩ := read
      have hset := (hnext.trans hrows).trans (ih b₂ conn₂)
      -- Reading does not stop at a row, but its type has room for one, which would be left out.
      rcases stop with _ | cells' | e | _
      case some.row => exact hset.mono ((List.Sublist.append_left (by simp) _).append_right _)
      all_goals exact hset

/-- Behind a result set that was dropped there are no rows. -/
theorem farewell_dropRows_filter :
    b.dropRows.stage.farewell.filter (·.isOk) = [] ∧
      b.dropRows.stage.farewell.filter (!·.isOk) = b.dropRows.stage.farewell := by
  cases hs : b.stage with
  | streaming cells rows rest =>
    cases hk : b.abandoned <;> simp [dropRows, hs, hk, Stage.farewell, Except.isOk, Except.toBool]
  | idle | offering _ _ | refused _ | failing _ | ended =>
    simp [dropRows, hs, Stage.farewell, Except.isOk, Except.toBool]

theorem next_dropRows : b.dropRows.next true conn = b.next true conn := by
  cases hs : b.stage with
  | streaming cells rows rest => cases hk : b.abandoned <;> simp [next, dropRows, hs, hk]
  | idle | offering _ _ | refused _ | failing _ | ended => simp [next, dropRows, hs]

/-- A cancelled batch has no rows but those of its current result set. -/
theorem filter_isOk_outcomes : (itemsOf (b.outcomes true conn).1).filter (·.isOk) = [] := by
  have hdropped (fuel : Nat) :
      outcomesWithin true (fuel + 1) b.dropRows conn = outcomesWithin true (fuel + 1) b conn := by
    rw [outcomesWithin, outcomesWithin, next_dropRows]
  have hitems := (fades_outcomesWithin b.dropRows conn (b.setsLeft conn.backend + 1)).items
  rw [hdropped] at hitems
  -- The first request drops the rows, so the batch may as well have dropped them before.
  have hrows := ((List.sublist_append_left _ _).trans hitems).filter (·.isOk)
  rw [(farewell_dropRows_filter b).1] at hrows
  exact List.sublist_nil.mp hrows

/-- What was handed over in rows, and what is left once a result set that was read in part is
dropped, go together: there are no rows behind it. -/
theorem Fades.dropRows {s t : Batch × Connection} {items : List Item} {b' : Batch}
    {conn' : Connection} (h : Fades s items t) (h' : Fades s [] (b', conn')) :
    Fades s (items.filter (·.isOk)) (b'.dropRows, conn') := by
  have hdropped := h'.trans (fades_dropRows b' conn')
  refine ⟨hdropped.conn, hdropped.todo, ?_⟩
  -- Rows stand before errors in a farewell: the rows come of what was read, the errors of the rest.
  obtain ⟨rows, errors, -, -, hfarewell⟩ := s.1.stage.farewell_eq
  have hrows : items.filter (·.isOk) <+ rows.map .ok := by
    have hsub := ((List.sublist_append_left _ _).trans h.items).filter (·.isOk)
    rwa [hfarewell, (Item.filter_isOk rows errors).1] at hsub
  have herrors : b'.dropRows.stage.farewell <+ errors.map .error := by
    have hsub := hdropped.items.filter (!·.isOk)
    rwa [hfarewell, (Item.filter_isOk rows errors).2, List.nil_append, List.nil_append,
      (farewell_dropRows_filter b').2] at hsub
  rw [hfarewell]
  exact hrows.append herrors

end Requests

end Batch

/-! ## Printing -/

namespace Printer

variable {σ : Type} (p : Printer σ)

/-- A printer only reads. -/
theorem fades_feed (fuel : Nat) (s : σ) (b : Batch) (conn : Connection) (sink : Sink) :
    Batch.Fades (b, conn) [] ((p.feed true fuel s b conn sink).batch,
      (p.feed true fuel s b conn sink).conn) := by
  induction fuel generalizing s b conn sink with
  | zero => exact .refl _
  | succ fuel ih =>
    have hrow := (Batch.fades_row b conn).mono (List.nil_sublist _)
    rw [feed]
    generalize b.row true conn = first at hrow ⊢
    obtain ⟨result, b₁, conn₁⟩ := first
    cases result with
    | error e => exact hrow
    | done => exact hrow
    | row cells =>
      simp only
      rcases sink.putAll (p.row s cells).2 with ⟨_ | e, sink₁⟩
      · exact hrow.trans (ih (p.row s cells).1 b₁ conn₁ sink₁)
      · exact hrow

theorem fades_drain (columns : List String) (b : Batch) (conn : Connection) (sink : Sink) :
    Batch.Fades (b, conn) [] ((p.drain true columns b conn sink).batch,
      (p.drain true columns b conn sink).conn) := by
  simp only [drain]
  rcases sink.putAll (p.start columns).2 with ⟨_ | e, sink₁⟩
  · exact p.fades_feed (b.reach (patience sink₁)) (p.start columns).1 b conn sink₁
  · exact .refl _

end Printer

theorem Layout.fades_print (layout : Layout) (columns : List String) (b : Batch)
    (conn : Connection) (sink : Sink) :
    Batch.Fades (b, conn) [] ((layout.print true columns b conn sink).batch,
      (layout.print true columns b conn sink).conn) := by
  cases layout <;> exact Printer.fades_drain _ columns b conn sink

/-- Printing what a cancelled batch still yields does not use the connection. -/
theorem Batch.conn_printWithin_cancelled (settings : PrintSettings) (fuel : Nat) (b : Batch)
    (conn : Connection) (sink : Sink) :
    (b.printWithin true settings fuel conn sink).2.1 = conn := by
  induction fuel generalizing b conn sink with
  | zero => rfl
  | succ fuel ih =>
    have hnext := (fades_next b conn).conn
    rw [printWithin]
    generalize b.next true conn = first at hnext ⊢
    obtain ⟨result, b₁, conn₁⟩ := first
    cases result with
    | done => exact hnext
    | error e => exact hnext
    | columns columns =>
      have hprint := (Layout.fades_print (.choose columns settings) columns b₁ conn₁ sink).conn
      simp only
      generalize (Layout.choose columns settings).print true columns b₁ conn₁ sink = printed
        at hprint ⊢
      obtain ⟨_ | e, b₂, conn₂, sink₂⟩ := printed
      · exact (ih b₂ conn₂ sink₂).trans (hprint.trans hnext)
      · exact hprint.trans hnext

end SqlConsole
