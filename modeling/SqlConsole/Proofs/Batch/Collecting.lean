import SqlConsole.Proofs.Batch.Extent
import SqlConsole.Proofs.Dump.Script
import SqlConsole.Proofs.Output.Contribution

/-!
# Collecting the rows of a batch

`Batch.collect` gathers the rows of all result sets and stops at the first error, within bounds on
the number of result sets and of rows. It is a consumer like any other who takes everything, and so
it comes to what such a consumer is shown (`Batch.Drains.collect_eq`): the first error of all that
is shown, or all rows in order. Neither bound is met on the way.

A question is a batch of one statement. What is shown of it can be written down from the reply alone
(`Connection.report`), and so can its answer (`Connection.query_eq_gathered`). Rows without an end
are never through, so it is asked of the reply that it has none, unless they are not come to
(`Connection.Settles`).
-/

namespace SqlConsole

namespace Batch

/-- The errors among what a batch shows, in order. -/
def errors : List (Except Error Outcome) → List Error
  | [] => []
  | .error e :: shown => e :: errors shown
  | .ok outcome :: shown => outcome.failure.toList ++ errors shown

/-- The rows of all result sets that a batch shows, in order. -/
def shownRows : List (Except Error Outcome) → List Row
  | [] => []
  | .error _ :: shown => shownRows shown
  | .ok outcome :: shown => outcome.rows ++ shownRows shown

/-- All rows that a batch shows, or the first error if it shows one. -/
def gathered (shown : List (Except Error Outcome)) : Except Error (List Row) :=
  match errors shown with
  | e :: _ => .error e
  | [] => .ok (shownRows shown)

variable {s last : Batch × Connection}

/-- A result set that can be read to its end is read to its end within its own reach. -/
theorem ReadsOut.rows_reach {cells : List Row} {failure : Option Error}
    (h : ReadsOut s cells failure last) (patience : Nat) :
    rows false (s.1.reach patience) s.1 s.2 = (cells, some (behindRows failure), last) :=
  h.rows_eq (length_lt_reach (h.rows_eq (Nat.lt_succ_self _)) patience)

/-- **A batch is collected as it is drained.** -/
theorem Drains.collect_eq {shown : List (Except Error Outcome)} (h : Drains s shown last)
    {fuel : Nat} (hfuel : setCount shown < fuel) :
    (collect fuel s.1 s.2).1 = gathered shown := by
  obtain ⟨fuel, rfl⟩ := Nat.exists_eq_add_one_of_ne_zero (Nat.ne_zero_of_lt hfuel)
  induction h generalizing fuel with
  | done h => simp only [collect, h, gathered, errors, shownRows]
  | failed h _ _ => simp only [collect, h, gathered, errors]
  | @set s s' s'' last columns cells failure shown h hrows _ ih =>
    have hcells := hrows.rows_reach 0
    cases failure with
    | some e =>
      simp only [collect, h, hcells, behindRows, gathered, errors, Option.elim, Option.toList,
        List.singleton_append]
    | none =>
      -- One result set is gone, so the fuel suffices for the others.
      have hcount : setCount (.ok ⟨columns, cells, none⟩ :: shown) = setCount shown + 1 :=
        List.countP_cons_of_pos rfl
      have hmore : setCount shown < fuel := by omega
      obtain ⟨fuel, rfl⟩ := Nat.exists_eq_add_one_of_ne_zero (Nat.ne_zero_of_lt hmore)
      have hrest := ih fuel hmore
      rw [collect]
      simp only [h, hcells, behindRows, Option.elim]
      rcases hcollect : collect (fuel + 1) s''.1 s''.2 with ⟨result, conn⟩
      rw [hcollect] at hrest
      simp only at hrest
      subst hrest
      simp only [gathered, errors, shownRows, Option.toList, List.nil_append]
      cases errors shown <;> rfl

end Batch

/-! ## Reports -/

/-- All rows of a result set that comes to an end. -/
def Rows.listed (rows : Rows) : List Row := rows.all?.getD []

/-- A result set with its rows written down. -/
def ResultSet.listed (set : ResultSet) : List String × List Row := (set.columns, set.rows.listed)

/-- A reply with its rows written down. -/
def Reply.script (r : Reply) : Script where
  sets := r.sets.map ResultSet.listed
  refusal := r.refusal
  failure := r.failure

namespace Connection

/-- What is reported of a question to a consumer who takes everything. -/
def report (conn : Connection) (sql : String) : List (Except Error Batch.Outcome) :=
  if conn.broken then [.error .brokenConnection] else Batch.shown (conn.backend sql).script

/-- The reply to a question has an end: nothing is run, it is refused, or all its result sets have
one. -/
def Settles (conn : Connection) (sql : String) : Prop :=
  conn.broken = false → (conn.backend sql).refusal = none → (conn.backend sql).Finite

/-- A script that is played once has an end. -/
theorem Settles.of_script {conn : Connection} {sql : String} (script : Script)
    (h : conn.backend sql = script.reply) (honce : script.endless = false) : conn.Settles sql := by
  intro _ _ set hset
  rw [h, Script.reply, honce] at hset
  obtain ⟨written, -, rfl⟩ := List.mem_map.mp hset
  exact ENat.natCast_ne_top _

end Connection

namespace Batch

theorem readsOut_fetch_of_finite {b : Batch} (hk : b.abandoned = false) {rows : Rows}
    (h : rows.size ≠ ⊤) (rest : Remainder) (conn : Connection) :
    ReadsOut (b.fetch false rows rest conn) rows.listed rest.error?
      ({ b with stage := rest.stage }, conn.used [] rows.listed.length) := by
  cases rows with
  | finite rows => exact readsOut_fetch hk rows rest conn
  | cyclic rows =>
    cases rows with
    | nil => exact readsOut_fetch hk [] rest conn
    | cons row rows => exact absurd rfl h
  | counting n => exact absurd rfl h

/-- Behind the last result set of the last statement there is nothing. -/
theorem next_behind (failure : Option String) (conn : Connection) :
    Batch.next false ⟨[], (Remainder.mk [] failure).stage, false⟩ conn =
      (.done, ⟨[], .ended, false⟩, conn) := by
  cases failure <;> rfl

/-- The result sets of the last statement are shown in order, the failure behind the last one. -/
theorem drains_sets (set : ResultSet) (sets : List ResultSet) (failure : Option String)
    (conn : Connection) (h : ∀ s ∈ set :: sets, s.rows.size ≠ ⊤) :
    ∃ last, Drains (⟨[], .offering set ⟨sets, failure⟩, false⟩, conn)
      (shownSets (failure.map .ofBackend) ((set :: sets).map ResultSet.listed)) last := by
  induction sets generalizing set conn with
  | nil =>
    have herror : failure.map .ofBackend = (Remainder.mk [] failure).error? := by
      cases failure <;> rfl
    rw [List.map_singleton, ResultSet.listed, shownSets, herror]
    exact ⟨_, .set (next_offering rfl)
      (readsOut_fetch_of_finite rfl (h set List.mem_cons_self) ⟨[], failure⟩ conn)
      (.done (next_behind failure _))⟩
  | cons set' sets ih =>
    obtain ⟨hset, hsets⟩ := List.forall_mem_cons.mp h
    obtain ⟨last, hrest⟩ := ih set' (conn.used [] set.rows.listed.length) hsets
    exact ⟨last, .set (next_offering rfl)
      (readsOut_fetch_of_finite rfl hset ⟨set' :: sets, failure⟩ conn) hrest⟩

/-- **A single statement is shown as its reply has it.** -/
theorem drains_single {conn : Connection} {sql : String}
    (h : (conn.backend sql).refusal = none → (conn.backend sql).Finite) :
    ∃ last, Drains (⟨[sql], .idle, false⟩, conn) (shown (conn.backend sql).script) last := by
  have hidle : Batch.next false ⟨[sql], .idle, false⟩ conn = advance false [sql] conn :=
    next_idle rfl
  rw [shown, Reply.script]
  cases hrefusal : (conn.backend sql).refusal with
  | some message =>
    exact ⟨_, .failed (hidle.trans (advance_refused hrefusal)) (.done (next_ended rfl))⟩
  | none =>
    have hfinite := h hrefusal
    rw [Reply.Finite] at hfinite
    cases hsets : (conn.backend sql).sets with
    | nil =>
      cases hfailure : (conn.backend sql).failure with
      | some message =>
        exact ⟨_, .failed (hidle.trans (advance_failed hrefusal hsets hfailure))
          (.done (next_ended rfl))⟩
      | none => exact ⟨_, .done (hidle.trans (advance_silent hrefusal hsets hfailure))⟩
    | cons set sets =>
      -- The first result set is offered at once, the others behind it.
      rw [hsets] at hfinite
      obtain ⟨last, hdrains⟩ :=
        drains_sets set sets (conn.backend sql).failure (conn.logged sql) hfinite
      have hadvance : advance false [sql] conn = _ := advance_set hrefusal hsets
      rw [fetch_idle [] (.offering set ⟨sets, (conn.backend sql).failure⟩)] at hadvance
      exact ⟨last, hdrains.of_next_eq (hidle.trans (hadvance.trans (next_offering rfl).symm))⟩

end Batch

namespace Connection

variable {conn : Connection} {sql : String}

theorem start_question (hsql : Statement.Verbatim sql) (h : conn.broken = false) :
    Batch.start [Statement.ofText sql] conn = ⟨[sql], .idle, false⟩ := by
  simp [Batch.start, h, hsql.isBlank, hsql.sql]

/-- **The report** is what a consumer who takes everything is shown. -/
theorem drains_report (hsql : Statement.Verbatim sql) (h : conn.Settles sql) :
    ∃ last,
      Batch.Drains (Batch.start [Statement.ofText sql] conn, conn) (conn.report sql) last := by
  cases hbroken : conn.broken with
  | true =>
    have hstage : (Batch.start [Statement.ofText sql] conn).stage = .refused .brokenConnection := by
      rw [Batch.start, hbroken]
      rfl
    rw [report, if_pos hbroken]
    exact ⟨_, .failed (Batch.next_refused hstage) (.done (Batch.next_ended rfl))⟩
  | false =>
    rw [report, hbroken, if_neg Bool.false_ne_true, start_question hsql hbroken]
    exact Batch.drains_single (h hbroken)

theorem setCount_report_lt (hsql : Statement.Verbatim sql) :
    Batch.setCount (conn.report sql) <
      (Batch.start [Statement.ofText sql] conn).setsLeft conn.backend := by
  cases hbroken : conn.broken with
  | true =>
    rw [report, if_pos hbroken]
    exact Nat.succ_pos _
  | false =>
    have hcount := Batch.setCount_shown_le (conn.backend sql).script
    rw [Reply.script, List.length_map] at hcount
    rw [report, hbroken, if_neg Bool.false_ne_true, start_question hsql hbroken]
    simpa [Batch.setsLeft, Reply.script] using Nat.lt_succ_of_le hcount

/-- **A question** is answered with all rows of its report, or with the first error. -/
theorem query_eq_gathered (hsql : Statement.Verbatim sql) (h : conn.Settles sql) :
    (conn.query sql).1 = Batch.gathered (conn.report sql) := by
  obtain ⟨last, hdrains⟩ := drains_report hsql h
  exact hdrains.collect_eq (setCount_report_lt hsql)

end Connection

/-! ## Errors of a report -/

theorem Error.ofBackend_ne_catalog (message : String) (source : Error) :
    ofBackend message ≠ catalog source := by
  rw [ofBackend]
  split_ifs <;> simp

/-- The only error behind result sets is the failure of the statement. -/
theorem Batch.errors_shownSets (failure : Option Error) (sets : List (List String × List Row)) :
    errors (shownSets failure sets) = failure.toList := by
  fun_induction shownSets failure sets with
  | case1 e h =>
    subst h
    rfl
  | case2 h =>
    subst h
    rfl
  | case3 columns rows => simp [errors]
  | case4 columns rows set sets ih => simpa [errors] using ih

/-- No error of a report is one of the catalog already. -/
theorem Connection.ne_catalog_of_mem_report {conn : Connection} {sql : String} {e : Error}
    (h : e ∈ Batch.errors (conn.report sql)) (source : Error) : e ≠ .catalog source := by
  rw [report] at h
  split at h
  · obtain rfl : e = .brokenConnection := by simpa [Batch.errors] using h
    exact Error.noConfusion
  · rw [Batch.shown] at h
    split at h
    · obtain rfl : e = .ofBackend _ := by simpa [Batch.errors] using h
      exact Error.ofBackend_ne_catalog _ source
    · rw [Batch.errors_shownSets, Option.mem_toList, Option.map_eq_some_iff] at h
      obtain ⟨message, -, rfl⟩ := h
      exact Error.ofBackend_ne_catalog message source

end SqlConsole
