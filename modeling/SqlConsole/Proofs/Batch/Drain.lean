import SqlConsole.Proofs.Batch.Consumer

/-!
# Draining a batch

A consumer drains a batch who asks for result sets until there are no more and reads each to its end
(`Drains`). What such a consumer is shown can be said from the scripts of the database alone
(`reference`): the statements are run in order, each shows its result sets with all their rows, and
the first error is the end. `drains_start_iff` says that this is what a batch shows, and nothing
else.

An error behind the rows belongs to the statement's last result set (`Outcome.failure`), and stands
for itself if the statement has none. A result set is read by one lemma (`readsOut_fetch`), the
result sets of a statement by induction from it (`drains_offering`), and the statements by induction
from that (`drains_idle`).
-/

namespace SqlConsole

/-- The connection after statements were run on it and rows fetched. -/
def Connection.used (conn : Connection) (log : List String) (rows : Nat) : Connection :=
  { conn with log := conn.log ++ log, fetched := conn.fetched + rows }

theorem Connection.used_nil (conn : Connection) : conn.used [] 0 = conn := by
  simp [used]

theorem Connection.used_used (conn : Connection) (a b : List String) (m n : Nat) :
    (conn.used a m).used b n = conn.used (a ++ b) (m + n) := by
  simp [used, Nat.add_assoc]

theorem Connection.logged_eq_used (conn : Connection) (sql : String) :
    conn.logged sql = conn.used [sql] 0 := rfl

/-- The error that a consumer reads behind the last row of a result set. -/
def Remainder.error? (rest : Remainder) : Option Error :=
  match rest.sets, rest.failure with
  | [], some message => some (.ofBackend message)
  | [], none | _ :: _, _ => none

/-- What a batch waits for when a result set was read to its end. -/
def Remainder.stage (rest : Remainder) : Stage :=
  match rest.sets, rest.failure with
  | set :: sets, failure => .offering set ⟨sets, failure⟩
  | [], some _ => .ended
  | [], none => .idle

namespace Batch

/-! ## The consumer -/

/-- The current result set is read to its end: its rows, and the error behind them if there is
one. -/
inductive ReadsOut : Batch × Connection → List Row → Option Error → Batch × Connection → Prop
  | done {s s'} (h : s.1.row false s.2 = (.done, s')) : ReadsOut s [] none s'
  | failed {s s' e} (h : s.1.row false s.2 = (.error e, s')) : ReadsOut s [] (some e) s'
  | row {s s' last cells rows failure} (h : s.1.row false s.2 = (.row cells, s'))
      (hrest : ReadsOut s' rows failure last) : ReadsOut s (cells :: rows) failure last

/-- Result sets are asked for until there are no more, and each is read to its end. -/
inductive Drains : Batch × Connection → List (Except Error Outcome) → Batch × Connection → Prop
  | done {s s'} (h : s.1.next false s.2 = (.done, s')) : Drains s [] s'
  | failed {s s' last e shown} (h : s.1.next false s.2 = (.error e, s'))
      (hrest : Drains s' shown last) : Drains s (.error e :: shown) last
  | set {s s' s'' last columns rows failure shown} (h : s.1.next false s.2 = (.columns columns, s'))
      (hrows : ReadsOut s' rows failure s'') (hrest : Drains s'' shown last) :
      Drains s (.ok ⟨columns, rows, failure⟩ :: shown) last

theorem ReadsOut.unique {s a b : Batch × Connection} {rows rows' : List Row}
    {failure failure' : Option Error} (h : ReadsOut s rows failure a)
    (h' : ReadsOut s rows' failure' b) : rows' = rows ∧ failure' = failure ∧ b = a := by
  induction h generalizing rows' failure' b with
  | done h => cases h' <;> simp_all
  | failed h => cases h' <;> simp_all
  | row h _ ih =>
    cases h' with
    | done hd => simp [h] at hd
    | failed hf => simp [h] at hf
    | row hr hrest =>
      obtain ⟨rfl, rfl⟩ : _ ∧ _ := by simpa [h] using hr
      obtain ⟨rfl, rfl, rfl⟩ := ih hrest
      exact ⟨rfl, rfl, rfl⟩

/-- **A batch shows the same to all who drain it.** -/
theorem Drains.unique {s a b : Batch × Connection} {shown shown' : List (Except Error Outcome)}
    (h : Drains s shown a) (h' : Drains s shown' b) : shown' = shown ∧ b = a := by
  induction h generalizing shown' b with
  | done h => cases h' <;> simp_all
  | failed h _ ih =>
    cases h' with
    | done hd => simp [h] at hd
    | set hc _ _ => simp [h] at hc
    | failed hf hrest =>
      obtain ⟨rfl, rfl⟩ : _ ∧ _ := by simpa [h] using hf
      obtain ⟨rfl, rfl⟩ := ih hrest
      exact ⟨rfl, rfl⟩
  | set h hrows _ ih =>
    cases h' with
    | done hd => simp [h] at hd
    | failed hf _ => simp [h] at hf
    | set hc hrows' hrest =>
      obtain ⟨rfl, rfl⟩ : _ ∧ _ := by simpa [h] using hc
      obtain ⟨rfl, rfl, rfl⟩ := hrows.unique hrows'
      obtain ⟨rfl, rfl⟩ := ih hrest
      exact ⟨rfl, rfl⟩

/-- Only the answer to the first request tells two batches apart. -/
theorem Drains.of_next_eq {s t last : Batch × Connection} {shown : List (Except Error Outcome)}
    (h : Drains t shown last) (he : s.1.next false s.2 = t.1.next false t.2) :
    Drains s shown last := by
  cases h with
  | done h => exact .done (he.trans h)
  | failed h hrest => exact .failed (he.trans h) hrest
  | set h hrows hrest => exact .set (he.trans h) hrows hrest

/-! ## The reference run -/

/-- The script for a text is the last one there is. A text without any shows one result set, which
has no columns and no rows. -/
def scriptOf (scripts : List (String × Script)) (sql : String) : Script :=
  match scripts.reverse.find? (·.1 == sql) with
  | some (_, script) => script
  | none => { sets := [([], [])] }

/-- What result sets show with a failure behind them. -/
def shownSets (failure : Option Error) : List (List String × List Row) →
    List (Except Error Outcome)
  | [] => match failure with
    | some e => [.error e]
    | none => []
  | [(columns, rows)] => [.ok ⟨columns, rows, failure⟩]
  | (columns, rows) :: set :: sets => .ok ⟨columns, rows, none⟩ :: shownSets failure (set :: sets)

/-- What a statement shows. -/
def shown (script : Script) : List (Except Error Outcome) :=
  match script.refusal with
  | some message => [.error (.ofBackend message)]
  | none => shownSets (script.failure.map .ofBackend) script.sets

/-- Whether a statement ends the batch with an error. -/
def fails (script : Script) : Bool := script.refusal.isSome || script.failure.isSome

/-- What statements show that are run one after the other up to the first error, and those that were
run. -/
def reference (scripts : List (String × Script)) :
    List String → List (Except Error Outcome) × List String
  | [] => ([], [])
  | sql :: todo =>
    if fails (scriptOf scripts sql) then (shown (scriptOf scripts sql), [sql])
    else
      let (more, log) := reference scripts todo
      (shown (scriptOf scripts sql) ++ more, sql :: log)

/-- What a batch shows, and the statements that were run. On a broken connection it is an error and
no statement. -/
def referenceRun (scripts : List (String × Script)) (statements : List Statement)
    (conn : Connection) : List (Except Error Outcome) × List String :=
  if conn.broken then ([.error .brokenConnection], []) else reference scripts (texts statements)

/-- The number of rows that were shown. -/
def rowCount : List (Except Error Outcome) → Nat
  | [] => 0
  | .ok outcome :: shown => outcome.rows.length + rowCount shown
  | .error _ :: shown => rowCount shown

theorem rowCount_append (a b : List (Except Error Outcome)) :
    rowCount (a ++ b) = rowCount a + rowCount b := by
  induction a with
  | nil => simp [rowCount]
  | cons shown a ih => cases shown <;> simp [rowCount, ih, Nat.add_assoc]

/-! ## Reading result sets -/

/-- **A result set is read row by row**, and the error behind it is its last item. -/
theorem readsOut_fetch {b : Batch} (hk : b.abandoned = false) (rows : List Row) (rest : Remainder)
    (conn : Connection) :
    ReadsOut (b.fetch false (.finite rows) rest conn) rows rest.error?
      ({ b with stage := rest.stage }, conn.used [] rows.length) := by
  induction rows generalizing b conn with
  | nil =>
    have hfetch : b.fetch false (.finite []) rest conn =
        ({ b with stage := .settle false false rest }, conn) := by
      rw [← hk]; rfl
    rw [hfetch, List.length_nil, conn.used_nil]
    obtain ⟨sets, failure⟩ := rest
    cases sets with
    | cons set sets => exact .done rfl
    | nil =>
      cases failure with
      | some message => exact .failed rfl
      | none => exact .done rfl
  | cons cells rows ih =>
    have hused : conn.used [] (rows.length + 1) = (conn.used [] 1).used [] rows.length := by
      rw [Connection.used_used, Nat.add_comm]; rfl
    have hfetch : b.fetch false (.finite (cells :: rows)) rest conn =
        ({ b with stage := .streaming cells (.finite rows) rest }, conn.used [] 1) := by
      simp [fetch, Rows.next?, Connection.used]
    rw [List.length_cons, hused, hfetch]
    exact .row (row_streaming rfl)
      (ih (b := { b with stage := .streaming cells (.finite rows) rest }) hk (conn.used [] 1))

/-- A result set whose rows are written down. -/
def written (set : List String × List Row) : ResultSet := ⟨set.1, .finite set.2⟩

/-- A result set is shown with its rows and what ends it. -/
theorem Drains.offering {b : Batch} (hk : b.abandoned = false) {set : List String × List Row}
    {rest : Remainder} (hs : b.stage = .offering (written set) rest) {conn : Connection}
    {more : List (Except Error Outcome)} {last : Batch × Connection}
    (h : Drains ({ b with stage := rest.stage }, conn.used [] set.2.length) more last) :
    Drains (b, conn) (.ok ⟨set.1, set.2, rest.error?⟩ :: more) last :=
  .set (next_offering hs) (readsOut_fetch hk set.2 rest conn) h

/-- **The result sets of a statement are shown in order**, and then what is shown behind them. -/
theorem drains_offering {todo : List String} (set : List String × List Row)
    (sets : List (List String × List Row)) (failure : Option String) (conn : Connection)
    {more : List (Except Error Outcome)} {last : Batch × Connection}
    (h : Drains (⟨todo, (Remainder.mk [] failure).stage, false⟩,
      conn.used [] (rowCount (shownSets (failure.map .ofBackend) (set :: sets)))) more last) :
    Drains (⟨todo, .offering (written set) ⟨sets.map written, failure⟩, false⟩, conn)
      (shownSets (failure.map .ofBackend) (set :: sets) ++ more) last := by
  induction sets generalizing set conn with
  | nil =>
    have herror : failure.map .ofBackend = (Remainder.mk [] failure).error? := by
      cases failure <;> rfl
    have hcount : rowCount (shownSets (failure.map .ofBackend) [set]) = set.2.length := by
      simp [shownSets, rowCount]
    rw [hcount] at h
    rw [shownSets, herror]
    exact Drains.offering rfl rfl h
  | cons set' sets ih =>
    have hcount : rowCount (shownSets (failure.map .ofBackend) (set :: set' :: sets)) =
        set.2.length + rowCount (shownSets (failure.map .ofBackend) (set' :: sets)) := by
      simp [shownSets, rowCount]
    have hrest : Drains (⟨todo, (Remainder.mk [] failure).stage, false⟩,
        (conn.used [] set.2.length).used []
          (rowCount (shownSets (failure.map .ofBackend) (set' :: sets)))) more last := by
      rw [Connection.used_used, ← hcount]
      exact h
    exact Drains.offering
      (b := ⟨todo, .offering (written set) ⟨(set' :: sets).map written, failure⟩, false⟩) rfl rfl
      (ih set' _ hrest)

/-! ## Running statements -/

section Scripts

variable {scripts : List (String × Script)}

/-- The reply to a statement is that of its script. -/
theorem ofScripts_eq (hfinite : ∀ s ∈ scripts, s.2.endless = false) (sql : String) :
    Backend.ofScripts scripts sql =
      ⟨(scriptOf scripts sql).refusal, (scriptOf scripts sql).sets.map written,
        (scriptOf scripts sql).failure⟩ := by
  have hfind : ((scripts.map fun p => (p.1, p.2.reply)).reverse.find? (·.1 == sql)) =
      (scripts.reverse.find? (·.1 == sql)).map fun p => (p.1, p.2.reply) := by
    rw [← List.map_reverse, List.find?_map]
    rfl
  rw [Backend.ofScripts, Backend.ofReplies, hfind, scriptOf]
  cases hs : scripts.reverse.find? (·.1 == sql) with
  | none => rfl
  | some p =>
    have hp : p.2.endless = false := hfinite p (List.mem_reverse.mp (List.mem_of_find?_eq_some hs))
    simp [Script.reply, hp, written]

/-- The stage a batch is in makes no difference to fetching a row. -/
theorem fetch_idle (todo : List String) (stage : Stage) (rows : Rows) (rest : Remainder)
    (conn : Connection) :
    fetch false ⟨todo, .idle, false⟩ rows rest conn =
      fetch false ⟨todo, stage, false⟩ rows rest conn := by
  unfold fetch
  cases rows.next? <;> rfl

/-- **One statement is run and shown**, and then what is shown behind it. -/
theorem drains_statement {script : Script} {sql : String} {conn : Connection}
    (hreply : conn.backend sql =
      ⟨script.refusal, script.sets.map written, script.failure⟩) {todo : List String}
    {more : List (Except Error Outcome)} {last : Batch × Connection}
    (h : Drains (⟨todo, if fails script then .ended else .idle, false⟩,
      conn.used [sql] (rowCount (shown script))) more last) :
    Drains (⟨sql :: todo, .idle, false⟩, conn) (shown script ++ more) last := by
  obtain ⟨sets, refusal, failure, endless⟩ := script
  have hidle : Batch.next false ⟨sql :: todo, .idle, false⟩ conn =
      advance false (sql :: todo) conn := next_idle rfl
  have hrefusal : (conn.backend sql).refusal = refusal := by rw [hreply]
  have hsets : (conn.backend sql).sets = sets.map written := by rw [hreply]
  have hfailure : (conn.backend sql).failure = failure := by rw [hreply]
  cases refusal with
  | some message => exact .failed (hidle.trans (advance_refused hrefusal)) h
  | none =>
    cases sets with
    | nil =>
      cases failure with
      | some message => exact .failed (hidle.trans (advance_failed hrefusal hsets hfailure)) h
      | none =>
        have hnext : Batch.next false ⟨todo, .idle, false⟩ (conn.logged sql) =
            advance false todo (conn.logged sql) := next_idle rfl
        have hrest : Drains (⟨todo, .idle, false⟩, conn.logged sql) more last := h
        exact hrest.of_next_eq
          (hidle.trans ((advance_silent hrefusal hsets hfailure).trans hnext.symm))
    | cons set sets =>
      have hset : advance false (sql :: todo) conn = _ := advance_set hrefusal hsets
      rw [hfailure, fetch_idle todo (.offering (written set) ⟨sets.map written, failure⟩)] at hset
      refine (drains_offering set sets failure (conn.logged sql) ?_).of_next_eq
        (hidle.trans (hset.trans (next_offering rfl).symm))
      rw [Connection.logged_eq_used, Connection.used_used, Nat.zero_add]
      cases failure <;> exact h

/-- **Statements are run in order up to the first error.** -/
theorem drains_idle (hfinite : ∀ s ∈ scripts, s.2.endless = false) (todo : List String)
    {conn : Connection} (hb : conn.backend = .ofScripts scripts) :
    ∃ rest, Drains (⟨todo, .idle, false⟩, conn) (reference scripts todo).1
      (⟨rest, .ended, false⟩,
        conn.used (reference scripts todo).2 (rowCount (reference scripts todo).1)) := by
  induction todo generalizing conn with
  | nil =>
    have hused : conn.used (reference scripts []).2 (rowCount (reference scripts []).1) = conn :=
      conn.used_nil
    rw [hused]
    exact ⟨[], .done rfl⟩
  | cons sql todo ih =>
    have hreply := ofScripts_eq hfinite sql
    rw [← hb] at hreply
    cases hfails : fails (scriptOf scripts sql) with
    | true =>
      have href : reference scripts (sql :: todo) =
          (shown (scriptOf scripts sql) ++ [], [sql]) := by
        simp [reference, hfails]
      rw [href]
      refine ⟨todo, drains_statement hreply ?_⟩
      rw [hfails, List.append_nil]
      exact .done (next_ended rfl)
    | false =>
      have href : reference scripts (sql :: todo) =
          (shown (scriptOf scripts sql) ++ (reference scripts todo).1,
            [sql] ++ (reference scripts todo).2) := by
        simp [reference, hfails]
      have hused : (conn.used [sql] (rowCount (shown (scriptOf scripts sql)))).backend =
          .ofScripts scripts := hb
      obtain ⟨rest, hrest⟩ := ih hused
      rw [href, rowCount_append, ← Connection.used_used]
      refine ⟨rest, drains_statement hreply ?_⟩
      rw [hfails]
      exact hrest

/-- **What a batch shows.** On a database of scripts that come to an end a batch can be drained in
one way only: it shows the reference run, no row is fetched that is not shown, and from then on
there is nothing more. -/
theorem drains_start_iff (hfinite : ∀ s ∈ scripts, s.2.endless = false)
    (statements : List Statement) {conn : Connection} (hb : conn.backend = .ofScripts scripts) :
    ∃ b : Batch, ∃ last : Connection,
      (∀ os s, Drains (start statements conn, conn) os s ↔
        os = (referenceRun scripts statements conn).1 ∧ s = (b, last)) ∧
      last = conn.used (referenceRun scripts statements conn).2
        (rowCount (referenceRun scripts statements conn).1) ∧
      b.next false last = (.done, b, last) := by
  obtain ⟨rest, hdrains⟩ : ∃ rest, Drains (start statements conn, conn)
      (referenceRun scripts statements conn).1 (⟨rest, .ended, false⟩,
        conn.used (referenceRun scripts statements conn).2
          (rowCount (referenceRun scripts statements conn).1)) := by
    cases hbroken : conn.broken with
    | false =>
      have hstart : start statements conn = ⟨texts statements, .idle, false⟩ := by
        simp [start, hbroken, texts]
      have href : referenceRun scripts statements conn = reference scripts (texts statements) := by
        simp [referenceRun, hbroken]
      rw [hstart, href]
      exact drains_idle hfinite (texts statements) hb
    | true =>
      have hstage : (start statements conn).stage = .refused .brokenConnection := by
        simp [start, hbroken]
      have href : referenceRun scripts statements conn = ([.error .brokenConnection], []) := by
        simp [referenceRun, hbroken]
      have hused : conn.used [] (rowCount [.error .brokenConnection]) = conn := conn.used_nil
      rw [href, hused]
      exact ⟨texts statements, .failed (next_refused hstage) (.done (next_ended rfl))⟩
  refine ⟨⟨rest, .ended, false⟩, _, fun os s => ⟨fun h => hdrains.unique h, ?_⟩, rfl,
    next_ended rfl⟩
  rintro ⟨rfl, rfl⟩
  exact hdrains

end Scripts

/-- Scripts of a statement with nothing to show, one that fails behind its second result set, and
one that is not reached. -/
def sampleScripts : List (String × Script) :=
  [("CREATE TABLE t(a)", { sets := [] }),
    ("SELECT a", { sets := [(["a"], [[.int 1], [.int 2]]), (["b"], [])], failure := some "full" }),
    ("SELECT c", { sets := [(["c"], [[.int 3]])] })]

/-- The rows of both result sets are shown, the error is the last item of the second, and the last
statement is not run. -/
theorem drains_start_sample :
    ∃ b : Batch, ∃ last : Connection,
      (∀ os s, Drains (start (Statement.split "CREATE TABLE t(a);; SELECT a; SELECT c;")
          { backend := .ofScripts sampleScripts }, { backend := .ofScripts sampleScripts }) os s ↔
        os = [.ok ⟨["a"], [[.int 1], [.int 2]], none⟩,
          .ok ⟨["b"], [], some (.ofBackend "full")⟩] ∧ s = (b, last)) ∧
      last = Connection.used { backend := .ofScripts sampleScripts }
        ["CREATE TABLE t(a)", "SELECT a"] 2 ∧
      b.next false last = (.done, b, last) :=
  @drains_start_iff sampleScripts (by decide)
    (Statement.split "CREATE TABLE t(a);; SELECT a; SELECT c;")
    { backend := .ofScripts sampleScripts } rfl

end Batch

end SqlConsole
