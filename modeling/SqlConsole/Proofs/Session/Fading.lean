import SqlConsole.Proofs.Batch.Cancel
import SqlConsole.Proofs.Session.Frame

/-!
# Cancelled batches in a session

Steps of a session concern one batch (`Session.subject?`), and leave the others alone but for result
sets and batches that they drop. `Cancelled.step` says what any step does to a batch that was
cancelled, and `Cancelled.run` what any number of steps does: the items that are handed over
(`Session.handed`) are taken out of what the batch could still hand over, it starts no statement,
and a step that concerns it does not use the connection.
-/

open scoped List

namespace SqlConsole

namespace Answer

/-- What is handed over with the answer to one request. -/
def item : Answer → List Item
  | next result => result.items
  | row result => result.items
  | nothing | flag _ | closed | several _ | outcomes _ | statements _ | output _ _ | names _
  | definitions _ | line _ | lines _ _ => []

/-- The rows and errors of a batch that are handed over with an answer. -/
def items : Answer → List Item
  | several answers => answers.flatMap item
  | outcomes results => Batch.itemsOf results
  | a => a.item

/-- Rows that were read one by one, and what came behind them. -/
theorem items_several (cells : List Row) (stop : RowResult) :
    (several (cells.map (row <| .row ·) ++ [row stop])).items = cells.map .ok ++ stop.items := by
  simp only [items, List.flatMap_append, List.flatMap_map]
  simp [item, RowResult.items, List.map_eq_flatMap]

end Answer

namespace Session

/-- The batch whose current result set is held under a name. -/
def holder? (s : Session) (id : String) : Option Nat := (s.results.get? id).map (·.1)

theorem holder?_row (s : Session) (id name : String) :
    (s.row id).2.holder? name = s.holder? name := by
  rw [holder?, row_results, holder?]

/-- The batch that a step is about. -/
def subject? (s : Session) : Step → Option Nat
  | .next id | .outcomes id | .drop id | .cancel id | .printRest id _ _ => s.executions.get? id
  | .row id | .take id _ | .rows id | .drain id | .dropRows id | .printSet id _ _ => s.holder? id
  | .execute _ _ _ | .executeStatements _ _ _ | .dropDump _ | .cancelToken _ | .isCancelled _ | .log
  | .breakConnection | .print _ _ _ | .tables _ | .tableDefinitions _ | .views | .indexes _
  | .schema _ _ | .dump _ _ | .line _ | .lines _ | .writeDump _ _ | .writeNewDump _ _ => none

/-- The rows and errors that a step hands over of the batch it is about. Rows that are read over are
handed over too, and a printer may be handed all rows that could be read. -/
def given (s : Session) : Step → List Item
  | .drain id => (s.step (.rows id)).1.items
  | .printSet id _ _ => (s.step (.rows id)).1.items.filter (·.isOk)
  | .printRest id _ _ => (s.step (.outcomes id)).1.items.filter (·.isOk)
  | step => (s.step step).1.items

/-- The rows and errors of a batch that steps hand over. -/
def handed (s : Session) (i : Nat) : List Step → List Item
  | [] => []
  | step :: steps =>
    (if s.subject? step = some i then s.given step else []) ++ (s.step step).2.handed i steps

/-- What is cancelled stays so. -/
theorem contains_cancel {s : Session} {token other : Nat} (h : s.cancelled.contains other = true) :
    (s.cancel token).cancelled.contains other = true := by
  rw [cancel, List.contains_cons, h, Bool.or_true]

/-- A batch that was cancelled. -/
structure Cancelled (s : Session) (i : Nat) (r : Running) : Prop where
  found : s.runs[i]? = some r
  cancelled : s.cancelled.contains r.token = true

/-- What something does to a cancelled batch, which hands over some items; it may be known not to
use the connection. -/
structure Fades (i : Nat) (quiet : Prop) (s : Session) (r : Running) (items : List Item)
    (s' : Session) (r' : Running) : Prop where
  stopped : s'.Cancelled i r'
  token : r'.token = r.token
  todo : r'.batch.todo = r.batch.todo
  items : items ++ r'.batch.stage.farewell <+ r.batch.stage.farewell
  conn : quiet → s'.conn = s.conn

section Frames

variable {s t u : Session} {i : Nat} {r r₁ r₂ : Running} {quiet quiet' : Prop}
  {items items' : List Item}

theorem Fades.trans (h : Fades i quiet s r items t r₁) (h' : Fades i quiet t r₁ items' u r₂) :
    Fades i quiet s r (items ++ items') u r₂ := by
  refine ⟨h'.stopped, h'.token.trans h.token, h'.todo.trans h.todo, ?_,
    fun hq => (h'.conn hq).trans (h.conn hq)⟩
  rw [List.append_assoc]
  exact (h'.items.append_left items).trans h.items

theorem Fades.imp (h : Fades i quiet s r items t r₁) (hq : quiet' → quiet) :
    Fades i quiet' s r items t r₁ :=
  { h with conn := fun hq' => h.conn (hq hq') }

/-- What else is changed of a session does not count. -/
theorem Fades.congr (h : Fades i quiet s r items t r₁) (hruns : u.runs = t.runs)
    (hcancelled : u.cancelled = t.cancelled) (hconn : u.conn = t.conn) :
    Fades i quiet s r items u r₁ :=
  ⟨⟨hruns ▸ h.stopped.found, hcancelled ▸ h.stopped.cancelled⟩, h.token, h.todo, h.items,
    fun hq => hconn.trans (h.conn hq)⟩

variable (h : s.Cancelled i r)
include h

/-- A step that is not about batches. -/
theorem Cancelled.frame (hruns : t.runs = s.runs)
    (hcancelled : ∀ token, s.cancelled.contains token = true → t.cancelled.contains token = true)
    (hconn : quiet → t.conn = s.conn) : Fades i quiet s r [] t r :=
  ⟨⟨hruns ▸ h.found, hcancelled _ h.cancelled⟩, rfl, rfl, List.Sublist.refl _, hconn⟩

/-- A request to a batch, be it this one or another. -/
theorem Cancelled.act {α : Type} (j : Nat) (missing : α)
    (f : Bool → Batch → Connection → α × Batch × Connection) (items : List Item)
    (hf : j = i → Batch.Fades (r.batch, s.conn) items (f true r.batch s.conn).2) :
    ∃ r', Fades i (j = i) s r (if j = i then items else []) (s.act j missing f).2 r' := by
  by_cases hj : j = i
  · subst hj
    obtain ⟨hconn, htodo, hitems⟩ := hf rfl
    have hlt : j < s.runs.length := (List.getElem?_eq_some_iff.mp h.found).1
    refine ⟨⟨(f true r.batch s.conn).2.1, r.token⟩, ?_⟩
    rw [if_pos rfl, Session.act, h.found]
    simp only [h.cancelled]
    exact ⟨⟨by simp [hlt], h.cancelled⟩, rfl, htodo, hitems, fun _ => hconn⟩
  · refine ⟨r, ?_⟩
    rw [if_neg hj, Session.act]
    cases hrun : s.runs[j]? with
    | none => exact h.frame rfl (fun _ hc => hc) fun hq => absurd hq hj
    | some r₁ =>
      exact ⟨⟨by simp [hj, h.found], h.cancelled⟩, rfl, rfl, List.Sublist.refl _,
        fun hq => absurd hq hj⟩

/-- A request whose answer tells what was handed over. -/
theorem Cancelled.act_answer {α : Type} (j : Nat) (missing : α)
    {f : Bool → Batch → Connection → α × Batch × Connection} {items : α → List Item}
    (hf : ∀ b conn, Batch.Fades (b, conn) (items (f true b conn).1) (f true b conn).2) :
    ∃ r', Fades i (j = i) s r (if j = i then items (s.act j missing f).1 else [])
      (s.act j missing f).2 r' := by
  obtain ⟨r', hr'⟩ := h.act j missing f _ fun _ => hf r.batch s.conn
  refine ⟨r', ?_⟩
  by_cases hj : j = i
  · subst hj
    have hanswer : (s.act j missing f).1 = (f true r.batch s.conn).1 := by
      rw [Session.act, h.found]
      simp only [h.cancelled]
    rw [hanswer]
    exact hr'
  · rwa [if_neg hj] at hr' ⊢

/-- A request that hands over nothing and uses no connection, whatever batch it is made to. -/
theorem Cancelled.act_quiet {α : Type} (j : Nat) (missing : α) (a : α) {f : Batch → Batch}
    (hf : ∀ b conn, Batch.Fades (b, conn) [] (f b, conn)) :
    ∃ r', Fades i True s r [] (s.act j missing fun _ b conn => (a, f b, conn)).2 r' := by
  obtain ⟨r', hr'⟩ := h.act j missing (fun _ b conn => (a, f b, conn)) []
    fun _ => hf r.batch s.conn
  rw [ite_self] at hr'
  refine ⟨r', hr'.stopped, hr'.token, hr'.todo, hr'.items, fun _ => ?_⟩
  rw [Session.act]
  cases s.runs[j]? <;> rfl

theorem Cancelled.dropResult (id : String) :
    ∃ r', Fades i True s r [] (s.dropResult id).2 r' := by
  rw [Session.dropResult]
  cases s.results.get? id with
  | none => exact ⟨r, h.frame rfl (fun _ hc => hc) fun _ => rfl⟩
  | some p =>
    obtain ⟨r', hr'⟩ := h.act_quiet p.1 () () Batch.fades_dropRows
    exact ⟨r', hr'.congr rfl rfl rfl⟩

theorem Cancelled.dropBatch (id : String) :
    ∃ r', Fades i True s r [] (s.dropBatch id).2 r' := by
  rw [Session.dropBatch]
  cases s.executions.get? id with
  | none => exact ⟨r, h.frame rfl (fun _ hc => hc) fun _ => rfl⟩
  | some j =>
    obtain ⟨r', hr'⟩ := h.act_quiet j () () Batch.fades_abandon
    exact ⟨r', hr'.congr rfl rfl rfl⟩

theorem Cancelled.begin (id : String) (statements : List Statement) (token : Nat) :
    ∃ r', Fades i False s r [] (s.begin id statements token) r' := by
  obtain ⟨r', hr'⟩ := h.dropBatch id
  refine ⟨r', ?_⟩
  have hlt : i < (s.dropBatch id).2.runs.length :=
    (List.getElem?_eq_some_iff.mp hr'.stopped.found).1
  refine ⟨⟨?_, hr'.stopped.cancelled⟩, hr'.token, hr'.todo, hr'.items, False.elim⟩
  rw [Session.begin, List.getElem?_append_left hlt]
  exact hr'.stopped.found

theorem Cancelled.next (id : String) :
    ∃ r', Fades i (s.executions.get? id = some i) s r
      (if s.executions.get? id = some i then (s.next id).1.items else []) (s.next id).2 r' := by
  obtain ⟨r₁, h₁⟩ := h.dropResult id
  rw [Session.next]
  simp only [dropResult_executions]
  cases s.executions.get? id with
  | none => exact ⟨r₁, h₁.imp fun _ => trivial⟩
  | some j =>
    obtain ⟨r₂, h₂⟩ := h₁.stopped.act_answer j NextResult.done Batch.fades_next
    simp only [Option.some.injEq]
    generalize (s.dropResult id).2.act j NextResult.done Batch.next = acted at h₂ ⊢
    obtain ⟨result, s₂⟩ := acted
    have hnext := (h₁.imp fun _ => trivial).trans h₂
    cases result <;> exact ⟨r₂, hnext.congr rfl rfl rfl⟩

theorem Cancelled.row (id : String) :
    ∃ r', Fades i (s.holder? id = some i) s r
      (if s.holder? id = some i then (s.row id).1.items else []) (s.row id).2 r' := by
  rw [Session.row, holder?]
  cases s.results.get? id with
  | none => exact ⟨r, h.frame rfl (fun _ hc => hc) fun _ => rfl⟩
  | some p =>
    obtain ⟨r', hr'⟩ := h.act_answer p.1 RowResult.done Batch.fades_row
    simpa using ⟨r', hr'⟩

theorem Cancelled.take (id : String) (n : Nat) :
    ∃ r', Fades i (s.holder? id = some i) s r
      (if s.holder? id = some i then (s.take id n).1.flatMap Answer.item else [])
      (s.take id n).2 r' := by
  induction n generalizing s r with
  | zero => exact ⟨r, by simpa [Session.take] using h.frame rfl (fun _ hc => hc) fun _ => rfl⟩
  | succ n ih =>
    obtain ⟨r₁, h₁⟩ := h.row id
    obtain ⟨r₂, h₂⟩ := ih h₁.stopped
    -- The result set is held under the name whatever row is read of it.
    rw [holder?_row] at h₂
    refine ⟨r₂, ?_⟩
    have hboth := h₁.trans h₂
    have hitem : (s.row id).1.items = (s.row id).1.item := by
      rw [Session.row]
      cases s.results.get? id <;> rfl
    split at hboth
    · rwa [if_pos ‹_›, Session.take, List.flatMap_cons, ← hitem]
    · rwa [if_neg ‹_›]

/-- The rows that are read of a cancelled batch, and what comes behind them. -/
theorem Cancelled.items_rows {id : String} {columns : List String}
    (hid : s.results.get? id = some (i, columns)) :
    (s.step (.rows id)).1.items =
      RowResult.itemsOf (Batch.rows true (r.batch.reach 0) r.batch s.conn).1
        (Batch.rows true (r.batch.reach 0) r.batch s.conn).2.1 := by
  rw [step, Session.rest, hid]
  simp only [Session.act, h.found, h.cancelled]
  exact Answer.items_several _ _

theorem Cancelled.rest (id : String) :
    ∃ r', Fades i (s.holder? id = some i) s r
      (if s.holder? id = some i then (s.step (.rows id)).1.items else [])
      (s.rest id).2 r' := by
  rw [Session.rest, holder?]
  cases hid : s.results.get? id with
  | none => exact ⟨r, h.frame rfl (fun _ hc => hc) fun _ => rfl⟩
  | some p =>
    obtain ⟨j, columns⟩ := p
    simp only [Option.map_some, Option.some.injEq]
    refine h.act j _ _ _ fun hj => ?_
    subst hj
    rw [h.items_rows hid]
    exact Batch.fades_rows r.batch s.conn (r.batch.reach 0)

theorem Cancelled.outcomes (id : String) :
    ∃ r', Fades i (s.executions.get? id = some i) s r
      (if s.executions.get? id = some i then (s.outcomes id).1.items else [])
      (s.outcomes id).2 r' := by
  obtain ⟨r₁, h₁⟩ := h.dropResult id
  rw [Session.outcomes]
  simp only [dropResult_executions]
  cases s.executions.get? id with
  | none => exact ⟨r₁, h₁.imp fun _ => trivial⟩
  | some j =>
    obtain ⟨r₂, h₂⟩ := h₁.stopped.act_answer j []
      (f := fun cancelled b conn => b.outcomes cancelled conn) fun b conn =>
        Batch.fades_outcomesWithin b conn (b.setsLeft conn.backend + 1)
    simp only [Option.some.injEq]
    exact ⟨r₂, (h₁.imp fun _ => trivial).trans h₂⟩

theorem Cancelled.printSet (id : String) (layout : Layout ⊕ PrintSettings) (sink : Sink) :
    ∃ r', Fades i (s.holder? id = some i) s r
      (if s.holder? id = some i then
        (s.step (.rows id)).1.items.filter (·.isOk) else [])
      (s.printSet id layout sink).2 r' := by
  rw [Session.printSet, holder?]
  cases hid : s.results.get? id with
  | none => exact ⟨r, h.frame rfl (fun _ hc => hc) fun _ => rfl⟩
  | some p =>
    obtain ⟨j, columns⟩ := p
    simp only [Option.map_some, Option.some.injEq]
    obtain ⟨r', hr'⟩ := h.act j .closed (Batch.printSet layout sink columns)
      ((s.step (.rows id)).1.items.filter (·.isOk)) fun hj => by
        rw [h.items_rows (hj ▸ hid)]
        exact (Batch.fades_rows r.batch s.conn (r.batch.reach 0)).dropRows
          (Layout.fades_print _ columns r.batch s.conn sink)
    cases layout <;> exact ⟨r', hr'.congr rfl rfl rfl⟩

theorem Cancelled.printRest (id : String) (settings : PrintSettings) (sink : Sink) :
    ∃ r', Fades i (s.executions.get? id = some i) s r
      (if s.executions.get? id = some i then (s.outcomes id).1.items.filter (·.isOk) else [])
      (s.printRest id settings sink).2 r' := by
  obtain ⟨r₁, h₁⟩ := h.dropResult id
  rw [Session.printRest, Session.outcomes]
  simp only [dropResult_executions]
  cases s.executions.get? id with
  | none => exact ⟨r₁, h₁.imp fun _ => trivial⟩
  | some j =>
    simp only [Option.some.injEq]
    obtain ⟨r₂, h₂⟩ := h₁.stopped.act j .closed (Batch.printRest settings sink) [] fun _ => by
      have hconn := Batch.conn_printWithin_cancelled settings
        (r₁.batch.setsLeft (s.dropResult id).2.conn.backend) r₁.batch (s.dropResult id).2.conn sink
      exact ⟨hconn, (Batch.fades_abandon r₁.batch (s.dropResult id).2.conn).todo,
        (Batch.fades_abandon r₁.batch (s.dropResult id).2.conn).items⟩
    -- The rows on their way were dropped, so there are none that could be printed.
    have hnone : (if j = i then (Answer.outcomes ((s.dropResult id).2.act j []
        fun cancelled b conn => b.outcomes cancelled conn).1).items.filter (·.isOk) else []) = [] := by
      split
      · subst j
        rw [Session.act, h₁.stopped.found]
        simp only [h₁.stopped.cancelled]
        exact Batch.filter_isOk_outcomes r₁.batch (s.dropResult id).2.conn
      · rfl
    rw [hnone]
    rw [ite_self] at h₂
    exact ⟨r₂, ((h₁.imp fun _ => trivial).trans h₂).congr rfl rfl rfl⟩

/-- **One step** takes what it hands over out of what a cancelled batch can hand over. A step that
is about the batch does not use the connection. -/
theorem Cancelled.step (st : Step) :
    ∃ r', Fades i (s.subject? st = some i) s r
      (if s.subject? st = some i then s.given st else []) (s.step st).2 r' := by
  have hnone : none ≠ some i := (Option.some_ne_none i).symm
  have hkept (t : Session) (hruns : t.runs = s.runs) (hcancelled : t.cancelled = s.cancelled) :
      ∃ r', Fades i (none = some i) s r [] t r' :=
    ⟨r, h.frame hruns (fun _ hc => hcancelled ▸ hc) fun hq => absurd hq hnone⟩
  have hbegin (t : Session) (hruns : t.runs = s.runs) (hcancelled : t.cancelled = s.cancelled)
      (id : String) (statements : List Statement) (token : Nat) :
      ∃ r', Fades i (none = some i) s r [] (t.begin id statements token) r' := by
    have ht : Fades i (none = some i) s r [] t r :=
      h.frame hruns (fun _ hc => hcancelled ▸ hc) fun hq => absurd hq hnone
    obtain ⟨r', hr'⟩ := ht.stopped.begin id statements token
    exact ⟨r', ht.trans (hr'.imp fun hq => absurd hq hnone)⟩
  cases st with
  | execute id sql name =>
    cases name with
    | none => exact hbegin s.newToken.2 rfl rfl _ _ _
    | some name => exact hbegin _ (token_runs s name) (token_cancelled s name) _ _ _
  | executeStatements id statements name =>
    exact hbegin _ (token_runs s _) (token_cancelled s _) _ _ _
  | next id => exact h.next id
  | row id => exact h.row id
  | take id n => exact h.take id n
  | rows id =>
    rw [step_rows_snd]
    exact h.rest id
  | drain id =>
    rw [step_drain_snd]
    exact h.rest id
  | outcomes id => exact h.outcomes id
  | dropRows id =>
    obtain ⟨r', hr'⟩ := h.dropResult id
    refine ⟨r', ?_⟩
    simpa [given, Session.step, Answer.items, Answer.item] using hr'.imp fun _ => trivial
  | drop id =>
    obtain ⟨r', hr'⟩ := h.dropBatch id
    refine ⟨r', ?_⟩
    simpa [given, Session.step, Answer.items, Answer.item] using hr'.imp fun _ => trivial
  | cancel id =>
    have hcancel : Fades i (s.subject? (.cancel id) = some i) s r [] (s.step (.cancel id)).2 r := by
      rw [Session.step]
      cases (s.executions.get? id).bind fun i => s.runs[i]?.map (·.token) with
      | none => exact h.frame rfl (fun _ hc => hc) fun _ => rfl
      | some token => exact h.frame rfl (fun _ => contains_cancel) fun _ => rfl
    exact ⟨r, by simpa [given, Session.step, Answer.items, Answer.item] using hcancel⟩
  | cancelToken name =>
    refine ⟨r, h.frame (token_runs s name) (fun other hc => ?_) fun hq => absurd hq hnone⟩
    rw [← token_cancelled s name] at hc
    exact contains_cancel hc
  | printRest id settings sink => exact h.printRest id settings sink
  | printSet id layout sink => exact h.printSet id layout sink
  | dropDump id | isCancelled name | log | breakConnection | print sql settings sink | tables _
  | tableDefinitions _ | views | indexes _ | schema _ _ | dump _ _ | writeNewDump settings sink =>
    exact hkept _ rfl rfl
  | line id | lines id =>
    refine hkept _ ?_ ?_ <;>
    · rw [Session.step, dumpStep]
      cases s.dumps.get? id <;> rfl
  | writeDump id sink =>
    refine hkept _ ?_ ?_ <;>
    · rw [Session.step]
      cases s.dumps.get? id <;> rfl

/-- **Any number of steps.** -/
theorem Cancelled.run (steps : List Step) :
    ∃ r', Fades i False s r (s.handed i steps) (s.run steps).2 r' := by
  induction steps generalizing s r with
  | nil => exact ⟨r, h.frame rfl (fun _ hc => hc) False.elim⟩
  | cons st steps ih =>
    obtain ⟨r₁, h₁⟩ := h.step st
    obtain ⟨r₂, h₂⟩ := ih h₁.stopped
    exact ⟨r₂, (h₁.imp False.elim).trans h₂⟩

/-! ## Answers -/

end Frames

end Session

end SqlConsole
