import SqlConsole.Proofs.Batch.Cancel
import SqlConsole.Proofs.Batch.Drain
import Mathlib.Data.ENat.Lattice

/-!
# What a consumer is handed and what it costs

Whoever uses a batch is handed result sets and rows of them (`Handout`). For each result set that
was handed to somebody a `Tally` says how many rows it has and how many of them were taken. The rows
that were fetched are accounted for by the tallies alone: for each result set those that were taken
and one more, as far as there are so many (`Tally.cost`).

This holds all along (`Accounts`), because a result set is handed over with its first row fetched,
and each row that is taken makes room for the next one. A row that was fetched and not taken is part
of the result set that it belongs to, so that a consumer can leave it at any point. What `next` and
`row` do to the accounts is said once (`pays_next`, `pays_row`), and everything that reads several
rows or result sets pays by induction from that (`Pays.trans`).
-/

namespace SqlConsole

/-- What a consumer can be handed. -/
inductive Handout where
  /-- A result set, given by its rows. -/
  | set (rows : Rows)
  /-- The next row of the result set that was handed over last. -/
  | row

/-- A result set that was handed over. -/
structure Tally where
  /-- The number of its rows. -/
  size : ℕ∞
  /-- The number of its rows that were taken. -/
  taken : Nat := 0

/-- The number of rows that are fetched for a result set. -/
noncomputable def Tally.cost (t : Tally) : ℕ∞ := min (t.taken + 1) t.size

/-- Who is handed a result set. -/
inductive Holder where
  /-- Whoever reads a batch of a session, given by its place among them. -/
  | batch (i : Nat)
  /-- The dump of a name. -/
  | dump (id : String)
  /-- A printer or a question to the catalog, which are through before anything else is done. -/
  | step
  deriving DecidableEq, Repr

/-- The result sets that were handed over and to whom, the latest first. -/
abbrev Tallies := List (Holder × Tally)

namespace Tallies

/-- Takes a row of the latest result set of a holder. -/
def takeRow (holder : Holder) : Tallies → Tallies
  | [] => []
  | (h, t) :: ts =>
    if h = holder then (h, { t with taken := t.taken + 1 }) :: ts else (h, t) :: takeRow holder ts

/-- Notes what a holder is handed. -/
def note (holder : Holder) (ts : Tallies) : Handout → Tallies
  | .set rows => (holder, { size := rows.size }) :: ts
  | .row => takeRow holder ts

/-- Notes all that a holder is handed. -/
def noteAll (holder : Holder) (ts : Tallies) (handouts : List Handout) : Tallies :=
  handouts.foldl (note holder) ts

/-- The latest result set of a holder. -/
def latest? (holder : Holder) (ts : Tallies) : Option Tally := ts.lookup holder

/-- The number of rows that are fetched for all result sets. -/
noncomputable def cost (ts : Tallies) : ℕ∞ := (ts.map (·.2.cost)).sum

/-- There is one row at most for each result set besides those that were taken. -/
theorem cost_le (ts : Tallies) : ts.cost ≤ ((ts.map fun (_, t) => t.taken + 1).sum : Nat) := by
  induction ts with
  | nil => exact le_refl _
  | cons first ts ih =>
    have hfirst : first.2.cost ≤ ((first.2.taken + 1 : Nat) : ℕ∞) := min_le_left _ _
    simpa [cost] using add_le_add hfirst ih

variable {holder other : Holder} {ts : Tallies} {t : Tally}

@[simp] theorem noteAll_nil : noteAll holder ts [] = ts := rfl

theorem noteAll_append (a b : List Handout) :
    noteAll holder ts (a ++ b) = noteAll holder (noteAll holder ts a) b :=
  List.foldl_append

theorem latest?_cons (h : Holder) (t : Tally) (ts : Tallies) :
    latest? holder ((h, t) :: ts) = if holder = h then some t else latest? holder ts := by
  rw [latest?, List.lookup_cons]
  by_cases hname : holder = h
  · simp [hname]
  · rw [beq_false_of_ne hname, if_neg hname]
    rfl

/-- A row that is taken counts for the latest result set of its holder. -/
theorem takeRow_of_latest? (h : latest? holder ts = some t) :
    latest? holder (takeRow holder ts) = some { t with taken := t.taken + 1 } ∧
      ∃ rest, ts.cost = t.cost + rest ∧
        (takeRow holder ts).cost = Tally.cost { t with taken := t.taken + 1 } + rest := by
  induction ts with
  | nil => cases h
  | cons first ts ih =>
    obtain ⟨h₁, t₁⟩ := first
    rw [latest?_cons] at h
    by_cases hname : holder = h₁
    · obtain rfl : t₁ = t := by simpa [hname] using h
      refine ⟨by simp [takeRow, hname, latest?_cons], cost ts, by simp [cost], ?_⟩
      simp [takeRow, hname, cost]
    · rw [if_neg hname] at h
      obtain ⟨hlatest, rest, hcost, htaken⟩ := ih h
      have hskip : takeRow holder ((h₁, t₁) :: ts) = (h₁, t₁) :: takeRow holder ts := by
        rw [takeRow, if_neg (Ne.symm hname)]
      have hcons (ts : Tallies) : cost ((h₁, t₁) :: ts) = t₁.cost + ts.cost := by simp [cost]
      refine ⟨by rw [hskip, latest?_cons, if_neg hname, hlatest], t₁.cost + rest, ?_, ?_⟩
      · rw [hcons, hcost, add_left_comm]
      · rw [hskip, hcons, htaken, add_left_comm]

/-- What others are handed is not noted for a holder. -/
theorem latest?_noteAll (hne : other ≠ holder) (handouts : List Handout) :
    latest? other (noteAll holder ts handouts) = latest? other ts := by
  have htake (ts : Tallies) : latest? other (takeRow holder ts) = latest? other ts := by
    induction ts with
    | nil => rfl
    | cons first ts ih =>
      obtain ⟨h, t⟩ := first
      rw [takeRow]
      split
      case isTrue heq => rw [latest?_cons, latest?_cons, if_neg (heq ▸ hne), if_neg (heq ▸ hne)]
      case isFalse => rw [latest?_cons, latest?_cons, ih]
  induction handouts generalizing ts with
  | nil => rfl
  | cons handout handouts ih =>
    refine (@ih (note holder ts handout)).trans ?_
    cases handout with
    | set rows => rw [note, latest?_cons, if_neg hne]
    | row => exact htake ts

end Tallies

/-- The tallies account for the rows that were fetched, and the latest one of a holder for the rows
that are left. -/
structure Accounts (holder : Holder) (ts : Tallies) (stage : Stage) (conn : Connection) : Prop where
  cost : (conn.fetched : ℕ∞) = ts.cost
  current : stage.rowsLeft ≠ 0 →
    ∃ t, ts.latest? holder = some t ∧ t.size = t.taken + stage.rowsLeft

/-- Rows are fetched only as they are accounted for by what is handed over. -/
def Pays (s : Stage × Connection) (handouts : List Handout) (s' : Stage × Connection) : Prop :=
  ∀ holder ts, Accounts holder ts s.1 s.2 →
    Accounts holder (ts.noteAll holder handouts) s'.1 s'.2

namespace Pays

variable {s t u : Stage × Connection} {handouts handouts' : List Handout}

theorem refl (s : Stage × Connection) : Pays s [] s := fun _ _ h => h

theorem trans (h : Pays s handouts t) (h' : Pays t handouts' u) :
    Pays s (handouts ++ handouts') u := by
  intro holder ts hs
  rw [Tallies.noteAll_append]
  exact h' holder _ (h holder ts hs)

/-- Rows that are left can be left alone. -/
theorem leave {stage : Stage} (h : Pays s handouts t) (hstage : stage.rowsLeft = 0) :
    Pays s handouts (stage, t.2) :=
  fun holder ts hs => ⟨(h holder ts hs).cost, fun hleft => absurd hstage hleft⟩

end Pays

namespace Batch

/-! ## Requests -/

/-- The first result set that statements offer. -/
def firstSet? (backend : Backend) : List String → Option ResultSet
  | [] => none
  | sql :: todo =>
    match (backend sql).refusal, (backend sql).sets, (backend sql).failure with
    | some _, _, _ => none
    | none, set :: _, _ => some set
    | none, [], some _ => none
    | none, [], none => firstSet? backend todo

section FirstSet

variable {backend : Backend} {sql : String} (todo : List String)

theorem firstSet?_of_rejected {message : String} (h : (backend sql).rejection? = some message) :
    firstSet? backend (sql :: todo) = none := by
  rcases Reply.rejection?_eq_some_iff.mp h with hr | ⟨hr, hs, hf⟩
  · rw [firstSet?, hr]
  · rw [firstSet?, hr, hs, hf]

theorem firstSet?_of_set (h : (backend sql).rejection? = none) {set : ResultSet}
    {sets : List ResultSet} (hs : (backend sql).sets = set :: sets) :
    firstSet? backend (sql :: todo) = some set := by
  rw [firstSet?, (Reply.rejection?_eq_none_iff.mp h).1, hs]

theorem firstSet?_of_silent (h : (backend sql).rejection? = none) (hs : (backend sql).sets = []) :
    firstSet? backend (sql :: todo) = firstSet? backend todo := by
  obtain ⟨hr, hf⟩ := Reply.rejection?_eq_none_iff.mp h
  rw [firstSet?, hr, hs, hf hs]

end FirstSet

/-- The result set that a batch hands over when it is asked for one. -/
def nextSet? (b : Batch) (backend : Backend) : Option ResultSet :=
  match b.dropRows.stage with
  | .idle => firstSet? backend b.todo
  | .offering set _ => some set
  | .streaming _ _ _ | .failing _ | .refused _ | .ended => none

/-- What is handed over by a request for a result set. -/
def nextHandouts (b : Batch) (conn : Connection) : List Handout :=
  (b.nextSet? conn.backend).toList.map (.set ·.rows)

/-- What is handed over with an answer to a request for a row. -/
def rowHandouts : RowResult → List Handout
  | .row _ => [.row]
  | .error _ | .done => []

section Requests

variable (b : Batch) (conn : Connection)

theorem fetch_of_none {rows : Rows} (h : rows.next? = none) (rest : Remainder) :
    b.fetch false rows rest conn = ({ b with stage := .settle false b.abandoned rest }, conn) := by
  rw [fetch, h]

theorem fetch_of_some {row : Row} {rows rows' : Rows} (h : rows.next? = some (row, rows'))
    (rest : Remainder) :
    b.fetch false rows rest conn =
      ({ b with stage := .streaming row rows' rest }, conn.used [] 1) := by
  rw [fetch, h]
  simp [Connection.used]

/-- **A result set is handed over** with its first row fetched, if it has one. -/
theorem pays_fetch (stage : Stage) (rows : Rows) (rest : Remainder) :
    Pays (stage, conn) [.set rows]
      ((b.fetch false rows rest conn).1.stage, (b.fetch false rows rest conn).2) := by
  rintro holder ts ⟨hcost, -⟩
  have hnote : ts.noteAll holder [.set rows] = (holder, ⟨rows.size, 0⟩) :: ts := rfl
  have hadd (t : Tally) : Tallies.cost ((holder, t) :: ts) = t.cost + conn.fetched := by
    rw [hcost]
    simp [Tallies.cost]
  rw [hnote]
  cases hnext : rows.next? with
  | none =>
    have hsize : rows.size = 0 := (Rows.size_eq_zero_iff rows).mpr hnext
    rw [fetch_of_none b conn hnext]
    refine ⟨?_, fun hleft => absurd (Stage.rowsLeft_settle _ _ _) hleft⟩
    simp [hadd, Tally.cost, hsize]
  | some p =>
    obtain ⟨row, rows'⟩ := p
    have hsize : rows.size = rows'.size + 1 := Rows.size_of_next? hnext
    rw [fetch_of_some b conn hnext]
    refine ⟨?_, fun _ => ⟨⟨rows.size, 0⟩, by simp [Tallies.latest?_cons], ?_⟩⟩
    · simp [hadd, Tally.cost, hsize, Connection.used, add_comm]
    · simp [hsize, Stage.rowsLeft]

/-- **A row that is taken** makes room for the next one, if there is one. -/
theorem pays_row :
    Pays (b.stage, conn) (rowHandouts (b.row false conn).1)
      ((b.row false conn).2.1.stage, (b.row false conn).2.2) := by
  obtain ⟨cells, rows, rest, hs, h⟩ | ⟨e, hs, h⟩ | ⟨-, h⟩ := row_cases false b conn <;> rw [h]
  case inr.inl => exact (Pays.refl _).leave rfl
  case inr.inr => exact Pays.refl _
  case inl =>
    rintro holder ts ⟨hcost, hcurrent⟩
    rw [hs] at hcurrent
    obtain ⟨t, hlatest, hsize⟩ := hcurrent (by simp [Stage.rowsLeft])
    have hsize : t.size = t.taken + 1 + rows.size := by
      rw [hsize, Stage.rowsLeft, add_comm rows.size, add_assoc]
    have hpaid : t.cost = t.taken + 1 := min_eq_left (hsize ▸ le_self_add)
    obtain ⟨htaken, others, hbefore, hafter⟩ := Tallies.takeRow_of_latest? hlatest
    have hfetched : (conn.fetched : ℕ∞) = t.taken + 1 + others := by rw [hcost, hbefore, hpaid]
    have hnote : ts.noteAll holder (rowHandouts (.row cells)) = ts.takeRow holder := rfl
    rw [hnote]
    cases hnext : rows.next? with
    | none =>
      have hempty : rows.size = 0 := (Rows.size_eq_zero_iff rows).mpr hnext
      rw [hempty, add_zero] at hsize
      have hall : Tally.cost { t with taken := t.taken + 1 } = t.taken + 1 :=
        (min_eq_right (by simp [hsize])).trans hsize
      rw [fetch_of_none b conn hnext]
      refine ⟨?_, fun hleft => absurd (Stage.rowsLeft_settle _ _ _) hleft⟩
      rw [hafter, hall]
      exact hfetched
    | some p =>
      obtain ⟨row, rows'⟩ := p
      rw [Rows.size_of_next? hnext, add_comm rows'.size, ← add_assoc] at hsize
      have hone : Tally.cost { t with taken := t.taken + 1 } = t.taken + 1 + 1 :=
        min_eq_left (hsize ▸ le_self_add)
      rw [fetch_of_some b conn hnext]
      refine ⟨?_, fun _ => ⟨_, htaken, ?_⟩⟩
      · rw [hafter, hone, add_right_comm, ← hfetched]
        rfl
      · simp only [hsize, Stage.rowsLeft]
        rw [add_comm rows'.size, ← add_assoc]
        rfl

theorem pays_rows (n : Nat) :
    Pays (b.stage, conn) ((b.rows false n conn).1.map fun _ => .row)
      ((b.rows false n conn).2.2.1.stage, (b.rows false n conn).2.2.2) := by
  induction n generalizing b conn with
  | zero => exact Pays.refl _
  | succ n ih =>
    have hrow := pays_row b conn
    rw [rows]
    generalize b.row false conn = first at hrow ⊢
    obtain ⟨result, b₁, conn₁⟩ := first
    cases result with
    | row cells => exact hrow.trans (ih b₁ conn₁)
    | error e => exact hrow
    | done => exact hrow

theorem pays_dropRows : Pays (b.stage, conn) [] (b.dropRows.stage, conn) := by
  unfold dropRows
  cases hs : b.stage with
  | streaming cells rows rest => cases b.abandoned <;> exact (Pays.refl _).leave rfl
  | failing e => exact (Pays.refl _).leave rfl
  | idle | offering _ _ | refused _ | ended =>
    exact (Pays.refl _).leave (by simp [hs, Stage.rowsLeft])

/-- Giving up on a batch leaves the rows that can still be read. -/
theorem pays_abandon : Pays (b.stage, conn) [] (b.abandon.stage, conn) := by
  unfold abandon
  cases hs : b.stage with
  | streaming cells rows rest | failing e => simpa [hs] using Pays.refl (b.stage, conn)
  | idle | offering _ _ | refused _ | ended => exact (Pays.refl _).leave rfl

/-- A statement costs nothing before it offers a result set. -/
theorem pays_logged (stage : Stage) (sql : String) :
    Pays (stage, conn) [] (stage, conn.logged sql) :=
  fun _ _ h => ⟨h.cost, h.current⟩

theorem pays_advance (stage : Stage) (todo : List String) :
    Pays (stage, conn) ((firstSet? conn.backend todo).toList.map (.set ·.rows))
      ((advance false todo conn).2.1.stage, (advance false todo conn).2.2) := by
  induction todo generalizing conn with
  | nil => exact (Pays.refl _).leave rfl
  | cons sql todo ih =>
    have hlogged := pays_logged conn stage sql
    obtain ⟨message, hr, h⟩ | ⟨set, sets, hr, hs, h⟩ | ⟨hr, hs, h⟩ :=
      advance_cases todo sql conn <;> rw [h]
    · rw [firstSet?_of_rejected todo hr]
      exact hlogged.leave rfl
    · rw [firstSet?_of_set todo hr hs]
      exact hlogged.trans (pays_fetch _ _ stage set.rows _)
    · rw [firstSet?_of_silent todo hr hs]
      exact hlogged.trans (ih (conn.logged sql))

/-- The columns of a result set that is handed over. -/
def columns? : NextResult → Option (List String)
  | .columns names => some names
  | .error _ | .done => none

theorem map_columns_firstSet? (todo : List String) :
    (firstSet? conn.backend todo).map (·.columns) = columns? (advance false todo conn).1 := by
  induction todo generalizing conn with
  | nil => rfl
  | cons sql todo ih =>
    obtain ⟨message, hr, h⟩ | ⟨set, sets, hr, hs, h⟩ | ⟨hr, hs, h⟩ :=
      advance_cases todo sql conn <;> rw [h]
    · rw [firstSet?_of_rejected todo hr]
      rfl
    · rw [firstSet?_of_set todo hr hs]
      rfl
    · rw [firstSet?_of_silent todo hr hs]
      exact ih (conn.logged sql)

/-- **What is handed over is what is answered**: a request hands over a result set if its answer
says so, the one of these columns. -/
theorem map_columns_nextSet? :
    (b.nextSet? conn.backend).map (·.columns) = columns? (b.next false conn).1 := by
  rw [nextSet?]
  obtain ⟨hs, h⟩ | ⟨set, rest, hs, h⟩ | ⟨e, hs, h⟩ | ⟨hs, h⟩ := next_cases false b conn <;> rw [h]
  · rw [hs]
    exact map_columns_firstSet? conn b.todo
  · have hdrop : b.dropRows.stage = .offering set rest := by simp [dropRows, hs]
    rw [hdrop]
    rfl
  · have hdrop : b.dropRows.stage = .refused e := by simp [dropRows, hs]
    rw [hdrop]
    rfl
  · rw [hs]
    rfl

/-- **A request for a result set** leaves what is left of the one before. -/
theorem pays_next (stage : Stage) :
    Pays (stage, conn) (b.nextHandouts conn)
      ((b.next false conn).2.1.stage, (b.next false conn).2.2) := by
  rw [nextHandouts, nextSet?]
  obtain ⟨hs, h⟩ | ⟨set, rest, hs, h⟩ | ⟨e, hs, h⟩ | ⟨hs, h⟩ := next_cases false b conn <;> rw [h]
  · rw [hs]
    exact pays_advance conn stage b.todo
  · have hdrop : b.dropRows.stage = .offering set rest := by simp [dropRows, hs]
    rw [hdrop]
    exact pays_fetch b conn stage set.rows rest
  · have hdrop : b.dropRows.stage = .refused e := by simp [dropRows, hs]
    rw [hdrop]
    exact (Pays.refl _).leave rfl
  · rw [hs]
    exact (Pays.refl _).leave rfl

end Requests

/-! ## Reading a whole batch -/

/-- What is handed over while all rows are collected. -/
def collectHandouts : Nat → Batch → Connection → List Handout
  | 0, _, _ => []
  | fuel + 1, b, conn =>
    b.nextHandouts conn ++
      match b.next false conn with
      | (.done, _, _) | (.error _, _, _) => []
      | (.columns _, b, conn) =>
        match rows false (b.reach 0) b conn with
        | (cells, some (.error _), _, _) => cells.map fun _ => .row
        | (cells, _, b, conn) => (cells.map fun _ => .row) ++ collectHandouts fuel b conn

/-- What is handed over while all result sets are read. -/
def outcomesHandouts : Nat → Batch → Connection → List Handout
  | 0, _, _ => []
  | fuel + 1, b, conn =>
    b.nextHandouts conn ++
      match b.next false conn with
      | (.done, _, _) => []
      | (.error _, b, conn) => outcomesHandouts fuel b conn
      | (.columns _, b, conn) =>
        match rows false (b.reach 0) b conn with
        | (cells, _, b, conn) => (cells.map fun _ => .row) ++ outcomesHandouts fuel b conn

theorem pays_collect (fuel : Nat) (b : Batch) (conn : Connection) (stage : Stage) :
    Pays (stage, conn) (collectHandouts fuel b conn) (.ended, (collect fuel b conn).2) := by
  induction fuel generalizing b conn stage with
  | zero => exact (Pays.refl _).leave rfl
  | succ fuel ih =>
    have hnext := pays_next b conn stage
    rw [collect, collectHandouts]
    generalize b.next false conn = first at hnext ⊢
    obtain ⟨result, b₁, conn₁⟩ := first
    cases result with
    | done | error e => exact hnext.trans ((Pays.refl _).leave rfl)
    | columns columns =>
      have hrows := pays_rows b₁ conn₁ (b₁.reach 0)
      refine hnext.trans ?_
      simp only
      generalize rows false (b₁.reach 0) b₁ conn₁ = read at hrows ⊢
      obtain ⟨cells, stop, b₂, conn₂⟩ := read
      rcases stop with _ | _ | e | _
      case some.error => exact hrows.leave rfl
      all_goals
        refine hrows.trans ?_
        have hrest := ih b₂ conn₂ b₂.stage
        simp only
        generalize collect fuel b₂ conn₂ = collected at hrest ⊢
        obtain ⟨_ | _, conn₃⟩ := collected <;> exact hrest

theorem pays_outcomesWithin (fuel : Nat) (b : Batch) (conn : Connection) :
    Pays (b.stage, conn) (outcomesHandouts fuel b conn)
      ((outcomesWithin false fuel b conn).2.1.stage, (outcomesWithin false fuel b conn).2.2) := by
  induction fuel generalizing b conn with
  | zero => exact Pays.refl _
  | succ fuel ih =>
    have hnext := pays_next b conn b.stage
    rw [outcomesWithin, outcomesHandouts]
    generalize b.next false conn = first at hnext ⊢
    obtain ⟨result, b₁, conn₁⟩ := first
    refine hnext.trans ?_
    cases result with
    | done => exact Pays.refl _
    | error e => exact ih b₁ conn₁
    | columns columns =>
      have hrows := pays_rows b₁ conn₁ (b₁.reach 0)
      simp only
      generalize rows false (b₁.reach 0) b₁ conn₁ = read at hrows ⊢
      obtain ⟨cells, stop, b₂, conn₂⟩ := read
      exact hrows.trans (ih b₂ conn₂)

end Batch

/-- What is handed over with the answer to a question. -/
def Connection.queryHandouts (conn : Connection) (sql : String) : List Handout :=
  let b := Batch.start [Statement.ofText sql] conn
  b.collectHandouts (b.setsLeft conn.backend) conn

theorem Batch.rowsLeft_start (statements : List Statement) (conn : Connection) :
    (start statements conn).stage.rowsLeft = 0 := by
  rw [start]
  split <;> rfl

theorem Connection.pays_query (conn : Connection) (sql : String) (stage : Stage) :
    Pays (stage, conn) (conn.queryHandouts sql) (.ended, (conn.query sql).2) :=
  Batch.pays_collect _ _ conn stage

/-! ## Printing -/

namespace Printer

variable {σ : Type} (p : Printer σ)

/-- The rows that are handed to a printer. -/
def feedHandouts : Nat → σ → Batch → Connection → Sink → List Handout
  | 0, _, _, _, _ => []
  | fuel + 1, s, b, conn, sink =>
    match b.row false conn with
    | (.row cells, b, conn) =>
      .row ::
        match sink.putAll (p.row s cells).2 with
        | (none, sink) => feedHandouts fuel (p.row s cells).1 b conn sink
        | (some _, _) => []
    | (.error _, _, _) | (.done, _, _) => []

/-- The rows that are handed to a printer, if it can write the beginning. -/
def handouts (columns : List String) (b : Batch) (conn : Connection) (sink : Sink) :
    List Handout :=
  match sink.putAll (p.start columns).2 with
  | (none, sink) => p.feedHandouts (b.reach (patience sink)) (p.start columns).1 b conn sink
  | (some _, _) => []

theorem pays_feed (fuel : Nat) (s : σ) (b : Batch) (conn : Connection) (sink : Sink) :
    Pays (b.stage, conn) (p.feedHandouts fuel s b conn sink)
      ((p.feed false fuel s b conn sink).batch.stage,
        (p.feed false fuel s b conn sink).conn) := by
  induction fuel generalizing s b conn sink with
  | zero => exact Pays.refl _
  | succ fuel ih =>
    have hrow := Batch.pays_row b conn
    rw [feed, feedHandouts]
    generalize b.row false conn = first at hrow ⊢
    obtain ⟨result, b₁, conn₁⟩ := first
    cases result with
    | error e | done => exact hrow
    | row cells =>
      simp only
      rcases sink.putAll (p.row s cells).2 with ⟨_ | e, sink₁⟩
      · exact hrow.trans (ih (p.row s cells).1 b₁ conn₁ sink₁)
      · exact hrow

theorem pays_drain (columns : List String) (b : Batch) (conn : Connection) (sink : Sink) :
    Pays (b.stage, conn) (p.handouts columns b conn sink)
      ((p.drain false columns b conn sink).batch.stage,
        (p.drain false columns b conn sink).conn) := by
  simp only [drain, handouts]
  rcases sink.putAll (p.start columns).2 with ⟨_ | e, sink₁⟩
  · exact p.pays_feed (b.reach (patience sink₁)) (p.start columns).1 b conn sink₁
  · exact Pays.refl _

end Printer

/-- The rows that are handed to a printer of a layout. -/
def Layout.handouts (layout : Layout) (columns : List String) (b : Batch) (conn : Connection)
    (sink : Sink) : List Handout :=
  match layout with
  | silent => Printer.silent.handouts columns b conn sink
  | plan => Plan.printer.handouts columns b conn sink
  | table header => (Table.printer header).handouts columns b conn sink
  | csv header => (Csv.printer header).handouts columns b conn sink
  | json => Records.printer.handouts columns b conn sink

theorem Layout.pays_print (layout : Layout) (columns : List String) (b : Batch)
    (conn : Connection) (sink : Sink) :
    Pays (b.stage, conn) (layout.handouts columns b conn sink)
      ((layout.print false columns b conn sink).batch.stage,
        (layout.print false columns b conn sink).conn) := by
  cases layout with
  | silent => exact Printer.silent.pays_drain columns b conn sink
  | plan => exact Plan.printer.pays_drain columns b conn sink
  | table header => exact (Table.printer header).pays_drain columns b conn sink
  | csv header => exact (Csv.printer header).pays_drain columns b conn sink
  | json => exact Records.printer.pays_drain columns b conn sink

namespace Batch

/-- What is handed over while a batch is printed. -/
def printHandouts (settings : PrintSettings) : Nat → Batch → Connection → Sink → List Handout
  | 0, _, _, _ => []
  | fuel + 1, b, conn, sink =>
    b.nextHandouts conn ++
      match b.next false conn with
      | (.done, _, _) | (.error _, _, _) => []
      | (.columns columns, b, conn) =>
        (Layout.choose columns settings).handouts columns b conn sink ++
          match (Layout.choose columns settings).print false columns b conn sink with
          | ⟨some _, _, _, _⟩ => []
          | ⟨none, b, conn, sink⟩ => printHandouts settings fuel b conn sink

theorem pays_printWithin (settings : PrintSettings) (fuel : Nat) (b : Batch) (conn : Connection)
    (sink : Sink) (stage : Stage) :
    Pays (stage, conn) (b.printHandouts settings fuel conn sink)
      (.ended, (b.printWithin false settings fuel conn sink).2.1) := by
  induction fuel generalizing b conn sink stage with
  | zero => exact (Pays.refl _).leave rfl
  | succ fuel ih =>
    have hnext := pays_next b conn stage
    rw [printWithin, printHandouts]
    generalize b.next false conn = first at hnext ⊢
    obtain ⟨result, b₁, conn₁⟩ := first
    refine hnext.trans ?_
    cases result with
    | done | error e => exact (Pays.refl _).leave rfl
    | columns columns =>
      have hprint := Layout.pays_print (.choose columns settings) columns b₁ conn₁ sink
      refine hprint.trans ?_
      simp only
      rcases (Layout.choose columns settings).print false columns b₁ conn₁ sink with
        ⟨_ | e, b₂, conn₂, sink₂⟩
      · exact ih b₂ conn₂ sink₂ _
      · exact (Pays.refl _).leave rfl

end Batch

end SqlConsole
