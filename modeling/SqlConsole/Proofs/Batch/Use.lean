import SqlConsole.Proofs.Batch.Drain

/-!
# What a request uses

What was run on a connection before and how many rows were fetched is nothing that a request depends
on. So the statements that a request runs, the rows that it fetches and what it answers are known
from the database alone: on every connection to it the request does the same, and adds the same to
what the connection was used for (`Connection.used`).

The statements that a batch runs are the next ones it has to do, and none once it was cancelled.
-/

namespace SqlConsole

namespace Connection

variable (conn : Connection) (log : List String) (rows : Nat)

@[simp] theorem used_backend : (conn.used log rows).backend = conn.backend := rfl

@[simp] theorem used_broken : (conn.used log rows).broken = conn.broken := rfl

end Connection

/-- Connections to the same database, both broken or neither. -/
structure Connection.Alike (a b : Connection) : Prop where
  backend : a.backend = b.backend
  broken : a.broken = b.broken

namespace Connection.Alike

variable {a b c : Connection}

theorem refl (a : Connection) : Alike a a := ⟨rfl, rfl⟩

theorem symm (h : Alike a b) : Alike b a := ⟨h.backend.symm, h.broken.symm⟩

theorem trans (h : Alike a b) (h' : Alike b c) : Alike a c :=
  ⟨h.backend.trans h'.backend, h.broken.trans h'.broken⟩

/-- Connections that were used for the same are the same. -/
theorem eq (h : Alike a b) (hlog : a.log = b.log) (hfetched : a.fetched = b.fetched) : a = b := by
  obtain ⟨backend, broken, log, fetched⟩ := a
  obtain ⟨rfl, rfl⟩ := h
  obtain rfl : log = b.log := hlog
  obtain rfl : fetched = b.fetched := hfetched
  rfl

theorem used (conn : Connection) (log : List String) (rows : Nat) :
    Alike (conn.used log rows) conn := ⟨rfl, rfl⟩

theorem used_both (h : Alike a b) (log log' : List String) (n n' : Nat) :
    Alike (a.used log n) (b.used log' n') :=
  ((used a log n).trans h).trans (used b log' n').symm

end Connection.Alike

namespace Batch

/-- A request that leaves the connection alone uses nothing. -/
theorem uses_nothing {α β : Type} (a : α) (b : β) (conn : Connection) :
    (a, b, conn) = (a, b, conn.used [] 0) := by
  rw [conn.used_nil]

theorem fetch_uses (cancelled : Bool) (b : Batch) (rows : Rows) (rest : Remainder) :
    ∃ b₁ n, b₁.todo = b.todo ∧
      ∀ conn, b.fetch cancelled rows rest conn = (b₁, conn.used [] n) := by
  unfold fetch
  cases rows.next? with
  | none =>
    exact ⟨{ b with stage := .settle cancelled b.abandoned rest }, 0, rfl,
      fun conn => by rw [conn.used_nil]⟩
  | some p =>
    cases cancelled with
    | true =>
      exact ⟨{ b with stage := .failing .cancelled }, 0, rfl, fun conn => by rw [conn.used_nil]; rfl⟩
    | false =>
      exact ⟨{ b with stage := .streaming p.1 p.2 rest }, 1, rfl,
        fun conn => by simp [Connection.used]⟩

/-- What statements do is known from the replies to them alone. -/
theorem advance_uses (cancelled : Bool) (todo : List String) (backend : Backend) :
    ∃ result b₁ log n, todo = log ++ b₁.todo ∧ (cancelled = true → log = []) ∧
      ∀ conn, (∀ sql ∈ todo, conn.backend sql = backend sql) →
        advance cancelled todo conn = (result, b₁, conn.used log n) := by
  induction todo with
  | nil => exact ⟨_, _, [], 0, rfl, fun _ => rfl, fun conn _ => uses_nothing _ _ conn⟩
  | cons sql todo ih =>
    cases cancelled with
    | true => exact ⟨_, _, [], 0, rfl, fun _ => rfl, fun conn _ => uses_nothing _ _ conn⟩
    | false =>
      have hnot (log : List String) : false = true → log = [] := fun h => nomatch h
      cases hr : (backend sql).refusal with
      | some message =>
        refine ⟨.error (.ofBackend message), ⟨todo, .ended, false⟩, [sql], 0, rfl, hnot _, ?_⟩
        intro conn h
        rw [← h sql List.mem_cons_self] at hr
        exact advance_refused hr
      | none =>
        cases hs : (backend sql).sets with
        | cons set sets =>
          obtain ⟨b₁, n, htodo, hfetch⟩ :=
            fetch_uses false ⟨todo, .idle, false⟩ set.rows ⟨sets, (backend sql).failure⟩
          refine ⟨.columns set.columns, b₁, [sql], 0 + n, by rw [htodo]; rfl, hnot _, ?_⟩
          intro conn h
          rw [← h sql List.mem_cons_self] at hr hs hfetch
          rw [advance_set hr hs, hfetch, Connection.logged_eq_used, Connection.used_used,
            List.append_nil]
        | nil =>
          cases hf : (backend sql).failure with
          | some message =>
            refine ⟨.error (.ofBackend message), ⟨todo, .ended, false⟩, [sql], 0, rfl, hnot _, ?_⟩
            intro conn h
            rw [← h sql List.mem_cons_self] at hr hs hf
            exact advance_failed hr hs hf
          | none =>
            obtain ⟨result, b₁, log, n, htodo, -, hadvance⟩ := ih
            refine ⟨result, b₁, [sql] ++ log, 0 + n, by rw [htodo]; rfl, hnot _, ?_⟩
            intro conn h
            rw [← h sql List.mem_cons_self] at hr hs hf
            have hrest := hadvance (conn.logged sql) fun s hs => h s (List.mem_cons_of_mem _ hs)
            rw [advance_silent hr hs hf, hrest, Connection.logged_eq_used, Connection.used_used]

theorem todo_dropRows (b : Batch) : b.dropRows.todo = b.todo := by
  unfold dropRows
  cases b.stage <;> rfl

/-- **A request for a result set** runs statements in order, and none if the batch is cancelled. -/
theorem next_uses_on (cancelled : Bool) (b : Batch) (backend : Backend) :
    ∃ result b₁ log n, b.todo = log ++ b₁.todo ∧ (cancelled = true → log = []) ∧
      ∀ conn, (∀ sql ∈ b.todo, conn.backend sql = backend sql) →
        b.next cancelled conn = (result, b₁, conn.used log n) := by
  rw [← todo_dropRows b]
  simp only [next]
  cases b.dropRows.stage with
  | idle => exact advance_uses cancelled b.dropRows.todo backend
  | offering set rest =>
    obtain ⟨b₁, n, htodo, hfetch⟩ := fetch_uses cancelled b.dropRows set.rows rest
    exact ⟨_, b₁, [], n, htodo.symm, fun _ => rfl, fun conn _ => congrArg (_, ·) (hfetch conn)⟩
  | streaming _ _ _ | failing _ | refused _ | ended =>
    exact ⟨_, { b.dropRows with stage := .ended }, [], 0, rfl, fun _ => rfl,
      fun conn _ => uses_nothing _ _ conn⟩

/-- So it does the same on all connections to a database. -/
theorem next_uses (cancelled : Bool) (b : Batch) (backend : Backend) :
    ∃ result b₁ log n, b.todo = log ++ b₁.todo ∧ (cancelled = true → log = []) ∧
      ∀ conn, conn.backend = backend →
        b.next cancelled conn = (result, b₁, conn.used log n) := by
  obtain ⟨result, b₁, log, n, htodo, hnone, hnext⟩ := next_uses_on cancelled b backend
  exact ⟨result, b₁, log, n, htodo, hnone, fun conn h => hnext conn fun _ _ => by rw [h]⟩

/-- **A request for a row** runs nothing. -/
theorem row_uses (cancelled : Bool) (b : Batch) :
    ∃ result b₁ n, b₁.todo = b.todo ∧
      ∀ conn, b.row cancelled conn = (result, b₁, conn.used [] n) := by
  unfold row
  cases b.stage with
  | streaming cells rows rest =>
    obtain ⟨b₁, n, htodo, hfetch⟩ := fetch_uses cancelled b rows rest
    exact ⟨_, b₁, n, htodo, fun conn => congrArg (_, ·) (hfetch conn)⟩
  | failing e => exact ⟨_, { b with stage := .ended }, 0, rfl, fun conn => uses_nothing _ _ conn⟩
  | idle | offering _ _ | refused _ | ended =>
    exact ⟨_, b, 0, rfl, fun conn => uses_nothing _ _ conn⟩

theorem rows_uses (cancelled : Bool) (k : Nat) (b : Batch) :
    ∃ cells stop b₁ n, b₁.todo = b.todo ∧
      ∀ conn, rows cancelled k b conn = (cells, stop, b₁, conn.used [] n) := by
  induction k generalizing b with
  | zero =>
    exact ⟨[], none, b, 0, rfl, fun conn => congrArg ([], ·) (uses_nothing none b conn)⟩
  | succ k ih =>
    obtain ⟨result, b₁, n, htodo, hrow⟩ := row_uses cancelled b
    cases result with
    | row cells =>
      obtain ⟨more, stop, b₂, m, htodo', hrows⟩ := ih b₁
      refine ⟨cells :: more, stop, b₂, n + m, htodo'.trans htodo, fun conn => ?_⟩
      simp only [rows, hrow, hrows, Connection.used_used, List.append_nil]
    | error e => exact ⟨[], some (.error e), b₁, n, htodo, fun conn => by rw [rows, hrow]⟩
    | done => exact ⟨[], some .done, b₁, n, htodo, fun conn => by rw [rows, hrow]⟩

/-- Reading a whole batch for its rows. -/
theorem collect_uses (fuel : Nat) (b : Batch) (backend : Backend) :
    ∃ result log n, log <+: b.todo ∧
      ∀ conn, conn.backend = backend → collect fuel b conn = (result, conn.used log n) := by
  induction fuel generalizing b with
  | zero => exact ⟨.ok [], [], 0, List.nil_prefix, fun conn _ => by rw [conn.used_nil]; rfl⟩
  | succ fuel ih =>
    obtain ⟨result, b₁, log, n, htodo, -, hnext⟩ := next_uses false b backend
    have hlog : log <+: b.todo := ⟨b₁.todo, htodo.symm⟩
    cases result with
    | done => exact ⟨.ok [], log, n, hlog, fun conn h => by rw [collect, hnext conn h]⟩
    | error e => exact ⟨.error e, log, n, hlog, fun conn h => by rw [collect, hnext conn h]⟩
    | columns columns =>
      obtain ⟨cells, stop, b₂, m, htodo₂, hrows⟩ := rows_uses false (b₁.reach 0) b₁
      obtain ⟨more, log', k, hlog', hcollect⟩ := ih b₂
      have hmore : log ++ log' <+: b.todo := by
        rw [htodo, ← htodo₂]
        exact (List.prefix_append_right_inj log).mpr hlog'
      have hread (conn : Connection) (h : conn.backend = backend) :
          rows false (b₁.reach 0) b₁ (conn.used log n) = (cells, stop, b₂, conn.used log (n + m)) ∧
            collect fuel b₂ (conn.used log (n + m)) =
              (more, conn.used (log ++ log') (n + m + k)) := by
        rw [hrows, hcollect (conn.used log (n + m)) h, Connection.used_used, Connection.used_used,
          List.append_nil]
        exact ⟨rfl, rfl⟩
      -- Only an error behind the rows keeps the other result sets from being read.
      rcases stop with _ | _ | e | _
      case some.error =>
        refine ⟨.error e, log, n + m, hlog, fun conn h => ?_⟩
        simp only [collect, hnext conn h, (hread conn h).1]
      all_goals
        refine ⟨more.map (cells ++ ·), log ++ log', n + m + k, hmore, fun conn h => ?_⟩
        simp only [collect, hnext conn h, (hread conn h).1, (hread conn h).2]
        cases more <;> rfl

/-- The error that the rows of a result set ended in. -/
def failure? : Option RowResult → Option Error
  | some (.error e) => some e
  | some (.row _) | some .done | none => none

/-- Reading a whole batch for its result sets. -/
theorem outcomesWithin_uses (cancelled : Bool) (fuel : Nat) (b : Batch) (backend : Backend) :
    ∃ results b₁ log n, b.todo = log ++ b₁.todo ∧ (cancelled = true → log = []) ∧
      ∀ conn, conn.backend = backend →
        outcomesWithin cancelled fuel b conn = (results, b₁, conn.used log n) := by
  induction fuel generalizing b with
  | zero => exact ⟨[], b, [], 0, rfl, fun _ => rfl, fun conn _ => uses_nothing _ _ conn⟩
  | succ fuel ih =>
    obtain ⟨result, b₁, log, n, htodo, hnone, hnext⟩ := next_uses cancelled b backend
    cases result with
    | done =>
      exact ⟨[], b₁, log, n, htodo, hnone, fun conn h => by rw [outcomesWithin, hnext conn h]⟩
    | error e =>
      obtain ⟨more, b₂, log', m, htodo', hnone', hmore⟩ := ih b₁
      refine ⟨.error e :: more, b₂, log ++ log', n + m, ?_, ?_, fun conn h => ?_⟩
      · rw [htodo, htodo', List.append_assoc]
      · exact fun hc => List.append_eq_nil_iff.mpr ⟨hnone hc, hnone' hc⟩
      · simp only [outcomesWithin, hnext conn h, hmore (conn.used log n) h, Connection.used_used]
    | columns columns =>
      obtain ⟨cells, stop, b₂, m, htodo₂, hrows⟩ := rows_uses cancelled (b₁.reach 0) b₁
      obtain ⟨more, b₃, log', k, htodo', hnone', hmore⟩ := ih b₂
      refine ⟨.ok ⟨columns, cells, failure? stop⟩ :: more, b₃, log ++ log', n + m + k, ?_, ?_,
        fun conn h => ?_⟩
      · rw [htodo, ← htodo₂, htodo', List.append_assoc]
      · exact fun hc => List.append_eq_nil_iff.mpr ⟨hnone hc, hnone' hc⟩
      · have hmid := hmore (conn.used log (n + m)) h
        simp only [outcomesWithin, hnext conn h, hrows, Connection.used_used, List.append_nil,
          hmid]
        rcases stop with _ | _ | _ | _ <;> rfl

end Batch

end SqlConsole
