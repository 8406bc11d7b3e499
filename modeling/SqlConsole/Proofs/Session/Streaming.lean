import SqlConsole.Proofs.Dump.Handout
import SqlConsole.Proofs.Session.Frame

/-!
# Rows fetched in a session

In a session any number of batches and dumps are read, printed and left in any order. Each step
hands something to one holder (`Session.handouts`), and the tallies of what was handed over
(`tallies`) account for all rows that were fetched (`Accounted`): for each result set those that were
taken and one more, if there is one.

A step changes the batch or the dump that it is about, and leaves the accounts of all others alone
(`Accounts.other`). So one step keeps the accounts (`Accounted.step`), and a run does by induction
(`Accounted.run`). Nothing is known of cancelled batches here: a row that was on its way to one is
lost.
-/

namespace SqlConsole

/-- Whether a step cancels something. -/
def Step.cancels : Step → Bool
  | .cancel _ | .cancelToken _ => true
  | _ => false

namespace Session

/-- The rows that an answer hands over. -/
def answerHandouts : Answer → List Handout
  | .row result => Batch.rowHandouts result
  | _ => []

/-- What somebody is handed of a batch. -/
def runHandouts (s : Session) (i : Nat) (f : Batch → List Handout) : List Handout :=
  (s.runs[i]?.map fun r => f r.batch).getD []

/-- What a dump is handed. -/
def dumpHandouts (s : Session) (id : String) (f : Dump → List Handout) : List Handout :=
  ((s.dumps.get? id).map fun p => f p.1).getD []

/-- What is handed over with a step, and to whom. -/
def handouts (s : Session) : Step → Holder × List Handout
  | .next id =>
    match s.executions.get? id with
    | none => (.step, [])
    | some i => (.batch i, (s.dropResult id).2.runHandouts i fun b => b.nextHandouts s.conn)
  | .row id =>
    match s.results.get? id with
    | none => (.step, [])
    | some (i, _) => (.batch i, answerHandouts (s.row id).1)
  | .take id n =>
    match s.results.get? id with
    | none => (.step, [])
    | some (i, _) => (.batch i, (s.take id n).1.flatMap answerHandouts)
  | .rows id | .drain id =>
    match s.results.get? id with
    | none => (.step, [])
    | some (i, _) =>
      (.batch i, s.runHandouts i fun b => (b.rows false (b.reach 0) s.conn).1.map fun _ => .row)
  | .outcomes id =>
    match s.executions.get? id with
    | none => (.step, [])
    | some i =>
      (.batch i, (s.dropResult id).2.runHandouts i fun b =>
        b.outcomesHandouts (b.setsLeft s.conn.backend + 1) s.conn)
  | .print sql settings sink =>
    let b := Batch.start (Statement.split sql) s.conn
    (.step, b.printHandouts settings (b.setsLeft s.conn.backend) s.conn sink)
  | .printRest id settings sink =>
    match s.executions.get? id with
    | none => (.step, [])
    | some i =>
      (.step, (s.dropResult id).2.runHandouts i fun b =>
        b.printHandouts settings (b.setsLeft s.conn.backend) s.conn sink)
  | .printSet id layout sink =>
    match s.results.get? id with
    | none => (.step, [])
    | some (i, columns) =>
      (.batch i, s.runHandouts i fun b =>
        (layout.elim (fun layout => layout) (.choose columns)).handouts columns b s.conn sink)
  | .tables _ => (.step, s.conn.queryHandouts Catalog.tablesQuery)
  | .tableDefinitions table => (.step, s.conn.queryHandouts (Catalog.definitionsQuery table))
  | .views => (.step, s.conn.queryHandouts Catalog.viewsQuery)
  | .indexes table => (.step, s.conn.queryHandouts (Catalog.indexesQuery table))
  | .schema pattern _ => (.step, s.conn.queryHandouts (Catalog.schemaQuery pattern))
  | .line id => (.dump id, s.dumpHandouts id fun d => d.nextHandouts s.conn)
  | .lines id =>
    (.dump id, s.dumpHandouts id fun d => Dump.linesHandouts (d.reach 0 s.conn) d s.conn)
  | .writeDump id sink =>
    (.dump id, s.dumpHandouts id fun d =>
      Dump.writeHandouts (d.reach (sink.room.getD 0 + 1) s.conn) d s.conn sink)
  | .writeNewDump settings sink =>
    let d : Dump := { settings }
    (.step, Dump.writeHandouts (d.reach (sink.room.getD 0 + 1) s.conn) d s.conn sink)
  | .execute _ _ _ | .executeStatements _ _ _ | .dropRows _ | .drop _ | .dropDump _ | .cancel _
  | .cancelToken _ | .isCancelled _ | .log | .breakConnection | .dump _ _ => (.step, [])

/-- The result sets that are handed over with steps, behind those that were before. -/
def tallies (s : Session) (ts : Tallies) : List Step → Tallies
  | [] => ts
  | step :: steps =>
    (s.step step).2.tallies (ts.noteAll (s.handouts step).1 (s.handouts step).2) steps

/-- The tallies account for all rows that were fetched, and nothing was cancelled. -/
structure Accounted (s : Session) (ts : Tallies) : Prop where
  cost : (s.conn.fetched : ℕ∞) = ts.cost
  runs : ∀ i r, s.runs[i]? = some r → Accounts (.batch i) ts r.batch.stage s.conn
  dumps : ∀ id d t, s.dumps.get? id = some (d, t) → Accounts (.dump id) ts d.reading s.conn
  cancelled : s.cancelled = []
  raced : s.raced = false

end Session

/-- What somebody else is handed does not concern a holder. -/
theorem Accounts.other {holder other : Holder} {ts : Tallies} {stage : Stage}
    {conn conn' : Connection} {handouts : List Handout} (h : Accounts other ts stage conn)
    (hne : other ≠ holder) (hcost : (conn'.fetched : ℕ∞) = (ts.noteAll holder handouts).cost) :
    Accounts other (ts.noteAll holder handouts) stage conn' := by
  refine ⟨hcost, fun hleft => ?_⟩
  rw [Tallies.latest?_noteAll hne]
  exact h.current hleft

namespace Session

section Frames

variable {s t : Session} {ts : Tallies}

/-- What else is changed of a session does not count. -/
theorem Accounted.congr (h : s.Accounted ts) (hconn : t.conn.fetched = s.conn.fetched)
    (hruns : t.runs = s.runs) (hdumps : t.dumps = s.dumps) (hcancelled : t.cancelled = s.cancelled)
    (hraced : t.raced = s.raced) : t.Accounted ts where
  cost := hconn ▸ h.cost
  runs i r hr := ⟨hconn ▸ h.cost, (h.runs i r (hruns ▸ hr)).current⟩
  dumps id d token hd := ⟨hconn ▸ h.cost, (h.dumps id d token (hdumps ▸ hd)).current⟩
  cancelled := hcancelled.trans h.cancelled
  raced := hraced.trans h.raced

/-- Something is done besides the batches and dumps that are held. -/
theorem Accounted.besides (h : s.Accounted ts) {conn' : Connection} {handouts : List Handout}
    (hpays : Pays (.ended, s.conn) handouts (.ended, conn')) :
    Accounted { s with conn := conn' } (ts.noteAll .step handouts) := by
  have hcost := (hpays .step ts ⟨h.cost, fun hleft => absurd rfl hleft⟩).cost
  exact
    { cost := hcost
      runs := fun i r hr => (h.runs i r hr).other (by simp) hcost
      dumps := fun id d token hd => (h.dumps id d token hd).other (by simp) hcost
      cancelled := h.cancelled
      raced := h.raced }

/-- Something is done with a batch. -/
theorem Accounted.act (h : s.Accounted ts) {α : Type} (i : Nat) (missing : α)
    {f : Bool → Batch → Connection → α × Batch × Connection} {g : Batch → List Handout}
    (hpays : ∀ r, s.runs[i]? = some r → Pays (r.batch.stage, s.conn) (g r.batch)
      ((f false r.batch s.conn).2.1.stage, (f false r.batch s.conn).2.2)) :
    (s.act i missing f).2.Accounted (ts.noteAll (.batch i) (s.runHandouts i g)) := by
  rw [Session.act, runHandouts]
  cases hrun : s.runs[i]? with
  | none => exact h
  | some r =>
    have hlt : i < s.runs.length := (List.getElem?_eq_some_iff.mp hrun).1
    have hcancelled : s.cancelled.contains r.token = false := by rw [h.cancelled]; rfl
    have hacted := hpays r hrun _ ts (h.runs i r hrun)
    simp only [hcancelled]
    refine
      { cost := hacted.cost
        runs := fun j r' hr' => ?_
        dumps := fun id d token hd => (h.dumps id d token hd).other (by simp) hacted.cost
        cancelled := h.cancelled
        raced := h.raced }
    by_cases hj : i = j
    · subst hj
      rw [List.getElem?_set_self hlt] at hr'
      cases hr'
      exact hacted
    · rw [List.getElem?_set_ne hj] at hr'
      exact (h.runs j r' hr').other (by simpa using Ne.symm hj) hacted.cost

/-- Something is done with a batch that nobody is handed anything for. -/
theorem Accounted.act_quiet (h : s.Accounted ts) {α : Type} (i : Nat) (missing : α)
    {f : Bool → Batch → Connection → α × Batch × Connection}
    (hpays : ∀ b, Pays (b.stage, s.conn) []
      ((f false b s.conn).2.1.stage, (f false b s.conn).2.2)) :
    (s.act i missing f).2.Accounted ts := by
  have hacted := h.act i missing (g := fun _ => []) fun r _ => hpays r.batch
  rw [runHandouts] at hacted
  cases hrun : s.runs[i]? <;> simpa [hrun] using hacted

/-- Somebody else reads what a batch still yields, and the batch is left as it was. -/
theorem Accounted.act_besides (h : s.Accounted ts) {α : Type} (i : Nat) (missing : α)
    {f : Bool → Batch → Connection → α × Batch × Connection} {g : Batch → List Handout}
    (hbatch : ∀ b conn, Pays (b.stage, conn) [] ((f false b s.conn).2.1.stage, conn))
    (hpays : ∀ b, Pays (.ended, s.conn) (g b) (.ended, (f false b s.conn).2.2)) :
    (s.act i missing f).2.Accounted (ts.noteAll .step (s.runHandouts i g)) := by
  rw [runHandouts]
  cases hrun : s.runs[i]? with
  | none =>
    rw [Session.act, hrun]
    exact h
  | some r =>
    have hread := h.besides (hpays r.batch)
    have hacted := hread.act i missing (g := fun _ => [])
      (f := fun _ _ conn => ((f false r.batch s.conn).1, (f false r.batch s.conn).2.1, conn))
      fun r' hr' => by
        obtain rfl : r = r' := Option.some.inj (hrun.symm.trans hr')
        exact hbatch r.batch _
    have hcancelled : s.cancelled.contains r.token = false := by rw [h.cancelled]; rfl
    simp only [Session.act, runHandouts, hrun, hcancelled] at hacted ⊢
    exact hacted

theorem Accounted.dropResult (h : s.Accounted ts) (id : String) :
    (s.dropResult id).2.Accounted ts := by
  rw [Session.dropResult]
  cases s.results.get? id with
  | none => exact h
  | some p => exact (h.act_quiet p.1 () fun b => b.pays_dropRows s.conn).congr rfl rfl rfl rfl rfl

theorem Accounted.dropBatch (h : s.Accounted ts) (id : String) :
    (s.dropBatch id).2.Accounted ts := by
  rw [Session.dropBatch]
  cases s.executions.get? id with
  | none => exact h
  | some i => exact (h.act_quiet i () fun b => b.pays_abandon s.conn).congr rfl rfl rfl rfl rfl

theorem Accounted.token (h : s.Accounted ts) (name : String) : (s.token name).2.Accounted ts := by
  rw [Session.token]
  cases s.tokens.get? name <;> exact h.congr rfl rfl rfl rfl rfl

/-- Nothing is fetched for a batch that was not asked for anything. -/
theorem Accounted.begin (h : s.Accounted ts) (id : String) (statements : List Statement)
    (token : Nat) : (s.begin id statements token).Accounted ts := by
  have hdropped := h.dropBatch id
  rw [Session.begin]
  refine { hdropped with runs := fun i r hr => ?_ }
  rw [List.getElem?_append] at hr
  split at hr
  case isTrue => exact hdropped.runs i r hr
  case isFalse =>
    obtain rfl := List.mem_singleton.mp (List.mem_of_getElem? hr)
    exact ⟨hdropped.cost, fun hleft => absurd (Batch.rowsLeft_start _ _) hleft⟩

/-- Something is done with a dump. -/
theorem Accounted.dumpStep (h : s.Accounted ts) (id : String)
    {f : Bool → Dump → Connection → Answer × Dump × Connection} {g : Dump → List Handout}
    (hpays : ∀ d, Pays (d.reading, s.conn) (g d)
      ((f false d s.conn).2.1.reading, (f false d s.conn).2.2)) :
    (s.dumpStep id f).2.Accounted
      (ts.noteAll (.dump id) (s.dumpHandouts id g)) := by
  rw [Session.dumpStep, dumpHandouts]
  cases hdump : s.dumps.get? id with
  | none => exact h
  | some p =>
    obtain ⟨d, token⟩ := p
    have hcancelled : s.cancelled.contains token = false := by rw [h.cancelled]; rfl
    have hstep := hpays d _ ts (h.dumps id d token hdump)
    simp only [hcancelled]
    refine
      { cost := hstep.cost
        runs := fun i r hr => (h.runs i r hr).other (by simp) hstep.cost
        dumps := fun name d' token' hd => ?_
        cancelled := h.cancelled
        raced := h.raced }
    rw [Named.get?_put] at hd
    split at hd
    case isTrue hname =>
      cases hd
      exact hname ▸ hstep
    case isFalse hname => exact (h.dumps name d' token' hd).other (by simpa using hname) hstep.cost

theorem Accounted.next (h : s.Accounted ts) (id : String) :
    (s.next id).2.Accounted
      (ts.noteAll (s.handouts (.next id)).1 (s.handouts (.next id)).2) := by
  have hdropped := h.dropResult id
  rw [Session.next, handouts]
  simp only [dropResult_executions]
  cases s.executions.get? id with
  | none => exact hdropped
  | some i =>
    have hacted := hdropped.act i NextResult.done (f := Batch.next)
      (g := fun b => b.nextHandouts s.conn) fun r _ => by
        rw [dropResult_conn]
        exact r.batch.pays_next s.conn r.batch.stage
    simp only
    generalize (s.dropResult id).2.act i NextResult.done Batch.next = acted at hacted ⊢
    obtain ⟨result, s'⟩ := acted
    cases result <;> exact hacted.congr rfl rfl rfl rfl rfl

/-- **What a request for a result set hands over is what it answers**: a result set of the columns
that the answer names, and nothing with any other answer. -/
theorem Accounted.handouts_next (h : s.Accounted ts) (id : String) :
    ∃ (set? : Option ResultSet) (result : NextResult),
      (s.handouts (.next id)).2 = set?.toList.map (.set ·.rows) ∧
        (s.next id).1 = .next result ∧ set?.map (·.columns) = Batch.columns? result := by
  have hdropped := h.dropResult id
  rw [Session.next, handouts]
  simp only [dropResult_executions]
  cases s.executions.get? id with
  | none => exact ⟨none, .done, rfl, rfl, rfl⟩
  | some i =>
    simp only [Session.act, runHandouts, hdropped.cancelled, dropResult_conn]
    cases (s.dropResult id).2.runs[i]? with
    | none => exact ⟨none, .done, rfl, rfl, rfl⟩
    | some r =>
      refine ⟨r.batch.nextSet? s.conn.backend, (r.batch.next false s.conn).1, rfl, ?_,
        r.batch.map_columns_nextSet? s.conn⟩
      simp only [List.contains_nil]
      generalize r.batch.next false s.conn = answered
      obtain ⟨result, batch, conn⟩ := answered
      cases result <;> rfl

theorem Accounted.row (h : s.Accounted ts) {id : String} {i : Nat} {columns : List String}
    (hid : s.results.get? id = some (i, columns)) :
    (s.row id).2.Accounted (ts.noteAll (.batch i) (answerHandouts (s.row id).1)) := by
  have hacted := h.act i RowResult.done (f := Batch.row)
    (g := fun b => Batch.rowHandouts (b.row false s.conn).1) fun r _ =>
      r.batch.pays_row s.conn
  have hanswer : answerHandouts (s.row id).1 =
      s.runHandouts i fun b => Batch.rowHandouts (b.row false s.conn).1 := by
    simp only [Session.row, hid, Session.act, runHandouts]
    cases s.runs[i]? with
    | none => rfl
    | some r => simp [answerHandouts, h.cancelled]
  rw [hanswer, Session.row, hid]
  exact hacted

theorem Accounted.take (h : s.Accounted ts) {id : String} {i : Nat} {columns : List String}
    (hid : s.results.get? id = some (i, columns)) (n : Nat) :
    (s.take id n).2.Accounted (ts.noteAll (.batch i) ((s.take id n).1.flatMap answerHandouts)) := by
  induction n generalizing s ts with
  | zero => exact h
  | succ n ih =>
    -- The result set is held under the name whatever row is read of it.
    have hrest := ih (h.row hid) ((row_results s id).symm ▸ hid)
    rw [← Tallies.noteAll_append] at hrest
    exact hrest

theorem Accounted.rest (h : s.Accounted ts) {id : String} {i : Nat} {columns : List String}
    (hid : s.results.get? id = some (i, columns)) :
    (s.rest id).2.Accounted (ts.noteAll (.batch i) (s.runHandouts i fun b =>
      (b.rows false (b.reach 0) s.conn).1.map fun _ => .row)) := by
  rw [Session.rest, hid]
  exact h.act i none (f := Batch.readRest) fun r _ => r.batch.pays_rows s.conn (r.batch.reach 0)

theorem Accounted.outcomes (h : s.Accounted ts) (id : String) :
    (s.outcomes id).2.Accounted
      (ts.noteAll (s.handouts (.outcomes id)).1 (s.handouts (.outcomes id)).2) := by
  have hdropped := h.dropResult id
  rw [Session.outcomes, handouts]
  simp only [dropResult_executions]
  cases s.executions.get? id with
  | none => exact hdropped
  | some i =>
    exact hdropped.act i [] (f := fun cancelled b conn => b.outcomes cancelled conn)
      (g := fun b => b.outcomesHandouts (b.setsLeft s.conn.backend + 1) s.conn) fun r _ => by
        rw [dropResult_conn]
        exact Batch.pays_outcomesWithin (r.batch.setsLeft s.conn.backend + 1) r.batch s.conn

theorem Accounted.printSet (h : s.Accounted ts) (id : String) (layout : Layout ⊕ PrintSettings)
    (sink : Sink) :
    (s.printSet id layout sink).2.Accounted
      (ts.noteAll (s.handouts (.printSet id layout sink)).1
        (s.handouts (.printSet id layout sink)).2) := by
  rw [Session.printSet, handouts]
  cases s.results.get? id with
  | none => exact h
  | some p =>
    obtain ⟨i, columns⟩ := p
    have hacted := h.act i .closed (f := Batch.printSet layout sink columns)
      (g := fun b =>
        (layout.elim (fun layout => layout) (.choose columns)).handouts columns b s.conn sink)
      fun r _ => by
        have hprinted := (Layout.pays_print (layout.elim (fun layout => layout) (.choose columns))
          columns r.batch s.conn sink).trans (Batch.pays_dropRows _ _)
        rw [List.append_nil] at hprinted
        exact hprinted
    cases layout <;> exact hacted.congr rfl rfl rfl rfl rfl

/-- What a batch still yields is printed by somebody else, and the batch is dropped. -/
theorem Accounted.printRest (h : s.Accounted ts) (id : String) (settings : PrintSettings)
    (sink : Sink) :
    (s.printRest id settings sink).2.Accounted
      (ts.noteAll (s.handouts (.printRest id settings sink)).1
        (s.handouts (.printRest id settings sink)).2) := by
  have hdropped := h.dropResult id
  rw [Session.printRest, handouts]
  simp only [dropResult_executions]
  cases s.executions.get? id with
  | none => exact hdropped
  | some i =>
    have hacted := hdropped.act_besides i .closed (f := Batch.printRest settings sink)
      (g := fun b => b.printHandouts settings (b.setsLeft s.conn.backend) s.conn sink)
      (fun b conn => b.pays_abandon conn) fun b => by
        rw [dropResult_conn]
        exact b.pays_printWithin settings (b.setsLeft s.conn.backend) s.conn sink .ended
    exact hacted.congr rfl rfl rfl rfl rfl

/-- A dump is written and is gone then. -/
theorem Accounted.writeDump (h : s.Accounted ts) (id : String) (sink : Sink) :
    (s.step (.writeDump id sink)).2.Accounted
      (ts.noteAll (s.handouts (.writeDump id sink)).1 (s.handouts (.writeDump id sink)).2) := by
  rw [Session.step, handouts, dumpHandouts]
  cases hdump : s.dumps.get? id with
  | none => exact h
  | some p =>
    obtain ⟨d, token⟩ := p
    have hcancelled : s.cancelled.contains token = false := by rw [h.cancelled]; rfl
    have hwritten := d.pays_writeWithin s.conn (d.reach (sink.room.getD 0 + 1) s.conn) sink _ ts
      (h.dumps id d token hdump)
    simp only [hcancelled]
    refine
      { cost := hwritten.cost
        runs := fun i r hr => (h.runs i r hr).other (by simp) hwritten.cost
        dumps := fun name d' token' hd => ?_
        cancelled := h.cancelled
        raced := h.raced }
    obtain ⟨hname, hheld⟩ := Named.of_get?_erase _ id name hd
    exact (h.dumps name d' token' hheld).other (by simpa using hname) hwritten.cost

/-- **One step** is accounted for by what it hands over. -/
theorem Accounted.step (h : s.Accounted ts) {st : Step} (hst : st.cancels = false) :
    (s.step st).2.Accounted (ts.noteAll (s.handouts st).1 (s.handouts st).2) := by
  have hasked {α : Type} (sql : String) (read : List Row → α) :
      Accounted { s with conn := (s.conn.ask sql read).2 }
        (ts.noteAll .step (s.conn.queryHandouts sql)) :=
    h.besides (s.conn.pays_ask sql read .ended)
  cases st with
  | execute id sql name =>
    cases name with
    | none => exact (h.congr (t := s.newToken.2) rfl rfl rfl rfl rfl).begin _ _ _
    | some name => exact (h.token name).begin _ _ _
  | executeStatements id statements name => exact (h.token _).begin _ _ _
  | next id => exact h.next id
  | row id =>
    rw [handouts]
    cases hid : s.results.get? id with
    | none => simpa [Session.step, Session.row, hid] using h
    | some p => exact h.row hid
  | take id n =>
    rw [handouts]
    cases hid : s.results.get? id with
    | none =>
      have hsame : (s.take id n).2 = s := by
        induction n with
        | zero => rfl
        | succ n ih => simpa [Session.take, Session.row, hid] using ih rfl
      rw [Session.step, hsame]
      exact h
    | some p => exact h.take hid n
  | rows id | drain id =>
    rw [handouts, Session.step]
    cases hid : s.results.get? id with
    | none => simpa [Session.rest, hid] using h
    | some p =>
      have hrest := h.rest hid
      simp only
      generalize s.rest id = read at hrest ⊢
      obtain ⟨_ | ⟨cells, stop⟩, s'⟩ := read <;> exact hrest
  | outcomes id => exact h.outcomes id
  | dropRows id => exact h.dropResult id
  | drop id => exact h.dropBatch id
  | dropDump id =>
    exact { h with
      dumps := fun name d token hd =>
        h.dumps name d token (Named.of_get?_erase _ id name hd).2 }
  | cancel id | cancelToken name => cases hst
  | isCancelled _ | log => exact h
  | breakConnection => exact h.congr rfl rfl rfl rfl rfl
  | print sql settings sink => exact h.besides (Batch.pays_printWithin _ _ _ _ _ .ended)
  | printRest id settings sink => exact h.printRest id settings sink
  | printSet id layout sink => exact h.printSet id layout sink
  | tables exclusions => exact hasked _ _
  | tableDefinitions table => exact hasked _ _
  | views => exact hasked _ _
  | indexes table => exact hasked _ _
  | schema pattern exclusions => exact hasked _ _
  | dump id settings =>
    refine { h with dumps := fun name d token hd => ?_ }
    have hd : (s.dumps.put id ({ settings }, s.tokenCount)).get? name = some (d, token) := hd
    rw [Named.get?_put] at hd
    split at hd
    case isTrue =>
      cases hd
      exact ⟨h.cost, fun hleft => absurd rfl hleft⟩
    case isFalse => exact h.dumps name d token hd
  | line id =>
    refine h.dumpStep id (g := fun d => d.nextHandouts s.conn) fun d => ?_
    exact d.pays_next s.conn
  | lines id =>
    refine h.dumpStep id
      (g := fun d => Dump.linesHandouts (d.reach 0 s.conn) d s.conn) fun d => ?_
    exact d.pays_linesWithin s.conn (d.reach 0 s.conn)
  | writeDump id sink => exact h.writeDump id sink
  | writeNewDump settings sink =>
    exact h.besides (Dump.pays_writeWithin { settings } s.conn _ sink)

/-- **Any number of steps** are accounted for. -/
theorem Accounted.run (h : s.Accounted ts) {steps : List Step}
    (hsteps : ∀ step ∈ steps, step.cancels = false) :
    (s.run steps).2.Accounted (s.tallies ts steps) := by
  induction steps generalizing s ts with
  | nil => exact h
  | cons st steps ih =>
    obtain ⟨hst, hsteps⟩ := List.forall_mem_cons.mp hsteps
    exact ih (h.step hst) hsteps

end Frames

/-- Nothing was fetched before a session begins. -/
theorem accounted_on (backend : Backend) : (on backend).Accounted [] where
  cost := rfl
  runs i r hr := by cases hr
  dumps id d t hd := by cases hd
  cancelled := rfl
  raced := rfl

/-- **Rows are fetched as they are taken, and one ahead.** At any moment of a session in which
nothing is cancelled, the rows that were fetched are, for each result set that was handed to anybody,
those that were taken of it and one more, as far as it has so many. Rows of other result sets were
not fetched. -/
theorem fetched_of_no_cancel (backend : Backend) (steps : List Step)
    (h : ∀ step ∈ steps, step.cancels = false) :
    ∃ n : Nat, ((on backend).run steps).2.fetched? = some n ∧
      (n : ℕ∞) =
        (((on backend).tallies [] steps).map fun (_, t) => min (t.taken + 1 : ℕ∞) t.size).sum ∧
      n ≤ (((on backend).tallies [] steps).map fun (_, t) => t.taken + 1).sum := by
  have hrun := (accounted_on backend).run h
  refine ⟨((on backend).run steps).2.conn.fetched, ?_, hrun.cost, ?_⟩
  · rw [fetched?, hrun.raced]
    rfl
  · exact_mod_cast hrun.cost.trans_le ((on backend).tallies [] steps).cost_le

/-- A statement with two result sets, and one whose result set has no end. -/
def sampleBackend : Backend :=
  .ofScripts [
    ("SELECT a", { sets := [(["a"], [[.int 1], [.int 2], [.int 3]]), (["b"], [[.int 4]])] }),
    ("SELECT c", { sets := [(["c"], [[.int 5]])], endless := true })]

/-- The first result set is left behind its first row, and the third one behind its second. -/
def sampleSteps : List Step :=
  [.execute "e" "SELECT a; SELECT c;" none, .next "e", .row "e", .next "e", .take "e" 2, .drop "e",
    .dropRows "e"]

/-- Two rows were fetched of the first result set, none of the second, and three of the third. -/
theorem fetched_sampleSteps :
    (∀ step ∈ sampleSteps, step.cancels = false) ∧
      (∃ n : Nat, ((on sampleBackend).run sampleSteps).2.fetched? = some n ∧
        (n : ℕ∞) = (((on sampleBackend).tallies [] sampleSteps).map
          fun (_, t) => min (t.taken + 1 : ℕ∞) t.size).sum ∧
        n ≤ (((on sampleBackend).tallies [] sampleSteps).map fun (_, t) => t.taken + 1).sum) ∧
      (on sampleBackend).tallies [] sampleSteps = [(.batch 0, ⟨⊤, 2⟩), (.batch 0, ⟨3, 1⟩)] ∧
      ((on sampleBackend).run sampleSteps).2.fetched? = some 5 :=
  ⟨by decide, fetched_of_no_cancel sampleBackend sampleSteps (by decide), rfl, rfl⟩

end Session

end SqlConsole
