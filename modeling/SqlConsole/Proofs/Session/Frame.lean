import SqlConsole.Session

/-!
# What the steps of a session leave alone

A request to a batch changes that batch and the connection, and nothing else of a session; dropping
a result set or a batch does not use the connection. The requests that read or print several rows at
once have names of their own (`Batch.readRest`, `Batch.printSet`, `Batch.printRest`).
-/

namespace SqlConsole

namespace Named

variable {α : Type} (xs : Named α) (name name' : String)

theorem get?_cons (a : α) :
    get? ((name, a) :: xs) name' = if name' = name then some a else xs.get? name' := by
  rw [get?, List.lookup_cons]
  by_cases hname : name' = name
  · simp [hname]
  · rw [beq_false_of_ne hname, if_neg hname]
    rfl

theorem get?_erase : (xs.erase name).get? name' = if name' = name then none else xs.get? name' := by
  induction xs with
  | nil => simp [erase, get?]
  | cons x xs ih =>
    obtain ⟨key, a⟩ := x
    rw [erase] at ih ⊢
    by_cases hkey : key = name
    · rw [List.filter_cons_of_neg (by simp [hkey]), ih, get?_cons, hkey]
      split <;> rfl
    · rw [List.filter_cons_of_pos (by simp [hkey]), get?_cons, get?_cons, ih]
      by_cases hname : name' = key
      · simp [hname, hkey]
      · simp [hname]

/-- What a name still stands for it stood for before. -/
theorem of_get?_erase {a : α} (h : (xs.erase name).get? name' = some a) :
    name' ≠ name ∧ xs.get? name' = some a := by
  rw [get?_erase] at h
  split at h
  case isTrue => cases h
  case isFalse hne => exact ⟨hne, h⟩

/-- A name that stands for nothing need not be forgotten. -/
theorem erase_of_get?_eq_none (h : xs.get? name = none) : xs.erase name = xs := by
  refine List.filter_eq_self.mpr fun x hx => ?_
  have hne := List.lookup_eq_none_iff.mp h x hx
  simpa [bne, BEq.comm] using hne

theorem get?_put (a : α) :
    (xs.put name a).get? name' = if name' = name then some a else xs.get? name' := by
  rw [put, get?_cons, get?_erase]
  split <;> rfl

end Named

namespace Batch

/-- Reads what is left of the current result set. -/
def readRest (cancelled : Bool) (b : Batch) (conn : Connection) :
    Option (List Row × RowResult) × Batch × Connection :=
  let (cells, stop, b, conn) := b.rows cancelled (b.reach 0) conn
  (some (cells, stop.getD .done), b, conn)

/-- Prints what is left of the current result set, and drops it. -/
def printSet (layout : Layout ⊕ PrintSettings) (sink : Sink) (columns : List String)
    (cancelled : Bool) (b : Batch) (conn : Connection) : SqlConsole.Answer × Batch × Connection :=
  let printed := (layout.elim id (.choose columns)).print cancelled columns b conn sink
  (.output printed.error printed.sink, printed.batch.dropRows, printed.conn)

/-- Prints all that the batch still yields, and drops it. -/
def printRest (settings : PrintSettings) (sink : Sink) (cancelled : Bool) (b : Batch)
    (conn : Connection) : SqlConsole.Answer × Batch × Connection :=
  let (e, conn, sink) := b.print cancelled settings conn sink
  (.output e sink, b.abandon, conn)

end Batch

namespace Session

section Act

variable {α : Type} (s : Session) (i : Nat) (missing : α)
  (f : Bool → Batch → Connection → α × Batch × Connection)

@[simp] theorem act_executions : (s.act i missing f).2.executions = s.executions := by
  rw [act]; cases s.runs[i]? <;> rfl

@[simp] theorem act_results : (s.act i missing f).2.results = s.results := by
  rw [act]; cases s.runs[i]? <;> rfl

@[simp] theorem act_dumps : (s.act i missing f).2.dumps = s.dumps := by
  rw [act]; cases s.runs[i]? <;> rfl

@[simp] theorem act_tokens : (s.act i missing f).2.tokens = s.tokens := by
  rw [act]; cases s.runs[i]? <;> rfl

@[simp] theorem act_tokenCount : (s.act i missing f).2.tokenCount = s.tokenCount := by
  rw [act]; cases s.runs[i]? <;> rfl

@[simp] theorem act_cancelled : (s.act i missing f).2.cancelled = s.cancelled := by
  rw [act]; cases s.runs[i]? <;> rfl

/-- A request to a batch changes that batch. -/
theorem act_runs : (s.act i missing f).2.runs = s.runs.modify i fun r =>
    { r with batch := (f (s.cancelled.contains r.token) r.batch s.conn).2.1 } := by
  rw [act]
  cases hrun : s.runs[i]? with
  | none => exact (List.modify_eq_self (List.getElem?_eq_none_iff.mp hrun)).symm
  | some r =>
    refine List.ext_getElem? fun j => ?_
    by_cases hj : i = j
    · subst hj
      rw [List.getElem?_set_self (List.getElem?_eq_some_iff.mp hrun).1, List.getElem?_modify_eq,
        hrun]
      rfl
    · simp [hj]

/-- A request that does not use the connection. -/
theorem act_conn {f : Bool → Batch → Connection → α × Batch × Connection}
    (hf : ∀ cancelled b conn, (f cancelled b conn).2.2 = conn) :
    (s.act i missing f).2.conn = s.conn := by
  rw [act]
  cases s.runs[i]? with
  | none => rfl
  | some r => exact hf _ _ _

end Act

section Drop

variable (s : Session) (id : String)

@[simp] theorem dropResult_executions : (s.dropResult id).2.executions = s.executions := by
  rw [dropResult]
  cases s.results.get? id with
  | none => rfl
  | some p => exact act_executions s p.1 () _

@[simp] theorem dropResult_conn : (s.dropResult id).2.conn = s.conn := by
  rw [dropResult]
  cases s.results.get? id with
  | none => rfl
  | some p => exact act_conn s p.1 () fun _ _ _ => rfl

@[simp] theorem dropBatch_conn : (s.dropBatch id).2.conn = s.conn := by
  rw [dropBatch]
  cases s.executions.get? id with
  | none => rfl
  | some i => exact act_conn s i () fun _ _ _ => rfl

end Drop

section Tokens

variable (s : Session) (name : String)

@[simp] theorem token_runs : (s.token name).2.runs = s.runs := by
  rw [token]; cases s.tokens.get? name <;> rfl

@[simp] theorem token_executions : (s.token name).2.executions = s.executions := by
  rw [token]; cases s.tokens.get? name <;> rfl

@[simp] theorem token_cancelled : (s.token name).2.cancelled = s.cancelled := by
  rw [token]; cases s.tokens.get? name <;> rfl

@[simp] theorem token_conn : (s.token name).2.conn = s.conn := by
  rw [token]; cases s.tokens.get? name <;> rfl

end Tokens

theorem row_results (s : Session) (id : String) : (s.row id).2.results = s.results := by
  rw [row]
  cases s.results.get? id with
  | none => rfl
  | some p => exact act_results s p.1 RowResult.done _

/-- What is read at once leaves the session in the same state, be it told or read over. -/
theorem step_rows_snd (s : Session) (id : String) : (s.step (.rows id)).2 = (s.rest id).2 := by
  rw [step]
  rcases s.rest id with ⟨_ | ⟨cells, stop⟩, s'⟩ <;> rfl

theorem step_drain_snd (s : Session) (id : String) : (s.step (.drain id)).2 = (s.rest id).2 := by
  rw [step]
  rcases s.rest id with ⟨_ | ⟨cells, stop⟩, s'⟩ <;> rfl

end Session

end SqlConsole
