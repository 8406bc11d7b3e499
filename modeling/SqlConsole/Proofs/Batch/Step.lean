import SqlConsole.Batch

/-!
# One step of a batch

What `Batch.next` and `Batch.row` do, case by case, for a consumer who has not cancelled. A request
for a result set is answered by the stage the batch is in, or by the next statement, whose reply
decides: it is refused, offers a result set, fails without one, or has nothing to show.
-/

namespace SqlConsole

/-- The connection once a statement more was run on it. -/
def Connection.logged (conn : Connection) (sql : String) : Connection :=
  { conn with log := conn.log ++ [sql] }

@[simp] theorem Connection.logged_log (conn : Connection) (sql : String) :
    (conn.logged sql).log = conn.log ++ [sql] := rfl

@[simp] theorem Connection.logged_backend (conn : Connection) (sql : String) :
    (conn.logged sql).backend = conn.backend := rfl

namespace Reply

/-- The message with which a statement fails before it has anything to show. -/
def rejection? (reply : Reply) : Option String :=
  match reply.refusal, reply.sets, reply.failure with
  | some message, _, _ | none, [], some message => some message
  | none, [], none | none, _ :: _, _ => none

variable {reply : Reply}

theorem rejection?_eq_some_iff {message : String} :
    reply.rejection? = some message ↔
      reply.refusal = some message ∨
        reply.refusal = none ∧ reply.sets = [] ∧ reply.failure = some message := by
  obtain ⟨_ | _, _ | _, _ | _⟩ := reply <;> simp [rejection?]

theorem rejection?_eq_none_iff :
    reply.rejection? = none ↔ reply.refusal = none ∧ (reply.sets = [] → reply.failure = none) := by
  obtain ⟨_ | _, _ | _, _ | _⟩ := reply <;> simp [rejection?]

end Reply

namespace Batch

section Statements

variable {conn : Connection} {sql : String} {todo : List String}

theorem advance_cons (todo : List String) (sql : String) (conn : Connection) :
    advance false (sql :: todo) conn =
      match (conn.backend sql).refusal, (conn.backend sql).sets, (conn.backend sql).failure with
      | some message, _, _ => (.error (.ofBackend message), ⟨todo, .ended, false⟩, conn.logged sql)
      | none, set :: sets, failure =>
        (.columns set.columns,
          fetch false ⟨todo, .idle, false⟩ set.rows ⟨sets, failure⟩ (conn.logged sql))
      | none, [], some message =>
        (.error (.ofBackend message), ⟨todo, .ended, false⟩, conn.logged sql)
      | none, [], none => advance false todo (conn.logged sql) := rfl

/-- A statement that is refused ends the batch. -/
theorem advance_refused {message : String} (h : (conn.backend sql).refusal = some message) :
    advance false (sql :: todo) conn =
      (.error (.ofBackend message), ⟨todo, .ended, false⟩, conn.logged sql) := by
  rw [advance_cons, h]

/-- A statement that offers a result set is run up to its first row. -/
theorem advance_set (h : (conn.backend sql).refusal = none) {set : ResultSet}
    {sets : List ResultSet} (hs : (conn.backend sql).sets = set :: sets) :
    advance false (sql :: todo) conn =
      (.columns set.columns, fetch false ⟨todo, .idle, false⟩ set.rows
        ⟨sets, (conn.backend sql).failure⟩ (conn.logged sql)) := by
  rw [advance_cons, h, hs]

/-- A statement that fails without a result set ends the batch. -/
theorem advance_failed (h : (conn.backend sql).refusal = none)
    (hs : (conn.backend sql).sets = []) {message : String}
    (hf : (conn.backend sql).failure = some message) :
    advance false (sql :: todo) conn =
      (.error (.ofBackend message), ⟨todo, .ended, false⟩, conn.logged sql) := by
  rw [advance_cons, h, hs, hf]

/-- A statement with nothing to show is passed over. -/
theorem advance_silent (h : (conn.backend sql).refusal = none)
    (hs : (conn.backend sql).sets = []) (hf : (conn.backend sql).failure = none) :
    advance false (sql :: todo) conn = advance false todo (conn.logged sql) := by
  rw [advance_cons, h, hs, hf]

/-- **What the next statement comes to**: an error in place of its result sets, the first of them,
or nothing to show. -/
theorem advance_cases (todo : List String) (sql : String) (conn : Connection) :
    (∃ message, (conn.backend sql).rejection? = some message ∧
      advance false (sql :: todo) conn =
        (.error (.ofBackend message), ⟨todo, .ended, false⟩, conn.logged sql)) ∨
    (∃ set sets, (conn.backend sql).rejection? = none ∧ (conn.backend sql).sets = set :: sets ∧
      advance false (sql :: todo) conn =
        (.columns set.columns, fetch false ⟨todo, .idle, false⟩ set.rows
          ⟨sets, (conn.backend sql).failure⟩ (conn.logged sql))) ∨
    ((conn.backend sql).rejection? = none ∧ (conn.backend sql).sets = [] ∧
      advance false (sql :: todo) conn = advance false todo (conn.logged sql)) := by
  cases hrejection : (conn.backend sql).rejection? with
  | some message =>
    refine Or.inl ⟨message, rfl, ?_⟩
    rcases Reply.rejection?_eq_some_iff.mp hrejection with hr | ⟨hr, hs, hf⟩
    · exact advance_refused hr
    · exact advance_failed hr hs hf
  | none =>
    obtain ⟨hr, hf⟩ := Reply.rejection?_eq_none_iff.mp hrejection
    cases hs : (conn.backend sql).sets with
    | cons set sets => exact Or.inr (Or.inl ⟨set, sets, rfl, rfl, advance_set hr hs⟩)
    | nil => exact Or.inr (Or.inr ⟨rfl, rfl, advance_silent hr hs (hf hs)⟩)

end Statements

section Stages

variable {b : Batch} {conn : Connection}

theorem next_idle (hs : b.stage = .idle) :
    b.next false conn = advance false b.todo conn := by
  simp [next, dropRows, hs]

/-- Rows that are left are dropped, and the next statement is run. -/
theorem next_streaming (hk : b.abandoned = false) {cells : Row} {rows : Rows} {rest : Remainder}
    (hs : b.stage = .streaming cells rows rest) :
    b.next false conn = advance false b.todo conn := by
  simp [next, dropRows, hs, hk]

theorem next_offering {set : ResultSet} {rest : Remainder} (hs : b.stage = .offering set rest) :
    b.next false conn = (.columns set.columns, b.fetch false set.rows rest conn) := by
  simp [next, dropRows, hs]

/-- An error that is the next item is dropped like a row, and the batch is at its end. -/
theorem next_failing {e : Error} (hs : b.stage = .failing e) :
    b.next false conn = (.done, { b with stage := .ended }, conn) := by
  simp [next, dropRows, hs]

theorem next_refused {e : Error} (hs : b.stage = .refused e) :
    b.next false conn = (.error e, { b with stage := .ended }, conn) := by
  simp [next, dropRows, hs]

/-- A batch at its end stays there. -/
theorem next_ended (hs : b.stage = .ended) : b.next false conn = (.done, b, conn) := by
  obtain ⟨todo, stage, abandoned⟩ := b
  obtain rfl : stage = .ended := hs
  rfl

theorem row_streaming {cancelled : Bool} {cells : Row} {rows : Rows} {rest : Remainder}
    (hs : b.stage = .streaming cells rows rest) :
    b.row cancelled conn = (.row cells, b.fetch cancelled rows rest conn) := by
  rw [row, hs]

theorem row_failing {cancelled : Bool} {e : Error} (hs : b.stage = .failing e) :
    b.row cancelled conn = (.error e, { b with stage := .ended }, conn) := by
  rw [row, hs]

/-- An error is the next item of the current result set only if the statement has failed. -/
theorem row_eq_error_iff {e : Error} : (b.row false conn).1 = .error e ↔ b.stage = .failing e := by
  unfold row
  cases b.stage <;> simp

end Stages

end Batch

end SqlConsole
