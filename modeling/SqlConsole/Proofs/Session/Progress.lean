import SqlConsole.Proofs.Batch.Progress
import SqlConsole.Proofs.Session.Courses

/-!
# How far the batches of a session were read

Each step of a session tells how far the batches were read that it is about (`Session.note`), by what
it is answered, the statements that it was seen to run and the cancellations before it. So the
history of a session tells it of all batches (`Session.progress`), and they stand where the history
has them (`Tracked.run`): a batch that was begun is read from its first statement on, each request
changes the batch that it is made to as it tells, and leaves the others where they are.
-/

namespace SqlConsole

namespace Answer

/-- Whether a result set came. -/
def isColumns : Answer → Bool
  | next result => result.isColumns
  | _ => false

/-- The number of rows that are handed over with an answer. -/
def rowCount (a : Answer) : Nat := a.items.countP (·.isOk)

/-- The error that printing ended in. -/
def failure? : Answer → Option Error
  | output error _ => error
  | _ => none

end Answer

namespace Session

/-- The statements that a step runs. -/
def ran (s : Session) (st : Step) : List String := (s.step st).2.conn.log.drop s.conn.log.length

/-- Whether the token of a batch was cancelled. -/
def stopped (s : Session) (i : Nat) : Bool := (s.tokenAt? i).any s.cancelled.contains

/-- Notes something of a batch, if there is one. -/
def noteAt (s : Session) (ps : List Progress) (i? : Option Nat) (g : Bool → Progress → Progress) :
    List Progress :=
  i?.elim ps fun i => ps.modify i (g (s.stopped i))

/-- Notes that a current result set was dropped. -/
def noteLeave (s : Session) (ps : List Progress) (id : String) : List Progress :=
  s.noteAt ps (s.holder? id) fun _ => .leave s.conn.backend

/-- Notes what a step tells of the batches. Rows that are read over are handed over too. What is run
of a batch that is printed to its end is not noted, as it is gone then. -/
def note (s : Session) (ps : List Progress) : Step → List Progress
  | .execute _ sql _ => ps ++ [.start (Statement.split sql) s.conn]
  | .executeStatements _ statements _ => ps ++ [.start (statements.map Statement.ofText) s.conn]
  | .next id =>
    s.noteAt (s.noteLeave ps id) (s.executions.get? id) fun stopped =>
      .asked s.conn.backend stopped (s.step (.next id)).1.isColumns (s.ran (.next id))
  | .row id => s.noteAt ps (s.holder? id) fun stopped =>
    .took s.conn.backend stopped (s.step (.row id)).1.rowCount
  | .take id n => s.noteAt ps (s.holder? id) fun stopped =>
    .took s.conn.backend stopped (s.step (.take id n)).1.rowCount
  | .rows id | .drain id => s.noteAt ps (s.holder? id) fun stopped =>
    .took s.conn.backend stopped (s.step (.rows id)).1.rowCount
  | .outcomes id =>
    s.noteAt (s.noteLeave ps id) (s.executions.get? id) fun _ p =>
      ⟨p.left.drop (s.ran (.outcomes id)).length, .elsewhere⟩
  | .printRest id _ _ =>
    s.noteAt (s.noteLeave ps id) (s.executions.get? id) fun _ p => ⟨p.left, .elsewhere⟩
  | .printSet id layout sink => s.noteAt ps (s.holder? id) fun _ =>
    .printed s.conn.backend (s.step (.printSet id layout sink)).1.failure?
  | .dropRows id => s.noteLeave ps id
  | .drop _ | .dropDump _ | .cancel _ | .cancelToken _ | .isCancelled _ | .log | .breakConnection
  | .print _ _ _ | .tables _ | .tableDefinitions _ | .views | .indexes _ | .schema _ _ | .dump _ _
  | .line _ | .lines _ | .writeDump _ _ | .writeNewDump _ _ => ps

/-- How far the batches were read once steps were done. -/
def progress (s : Session) (ps : List Progress) : List Step → List Progress
  | [] => ps
  | st :: steps => (s.step st).2.progress (s.note ps st) steps

/-- The batches of a session stand where they were noted to be, and those that have a name, each its
own, were not given up. -/
structure Tracked (s : Session) (ps : List Progress) : Prop where
  length : ps.length = s.runs.length
  fits : ∀ (i : Nat) (p : Progress) (r : Running), ps[i]? = some p → s.runs[i]? = some r →
    p.Fits s.conn.backend r.batch
  bounded : ∀ id i, s.executions.get? id = some i → i < s.runs.length
  unique : ∀ id id' i, s.executions.get? id = some i → s.executions.get? id' = some i → id = id'
  alive : ∀ (id : String) (i : Nat) (p : Progress) (r : Running), s.executions.get? id = some i →
    ps[i]? = some p → s.runs[i]? = some r → p.spot.Alive r.batch

section Frames

variable {s t : Session} {ps : List Progress}

/-- What else is changed of a session does not count; names may be forgotten. -/
theorem Tracked.congr (h : s.Tracked ps) (hruns : t.runs = s.runs)
    (hbackend : t.conn.backend = s.conn.backend)
    (hnames : ∀ id i, t.executions.get? id = some i → s.executions.get? id = some i) :
    t.Tracked ps where
  length := hruns ▸ h.length
  fits i p r hp hr := hbackend ▸ h.fits i p r hp (hruns ▸ hr)
  bounded id i hid := hruns ▸ h.bounded id i (hnames id i hid)
  unique id id' i hid hid' := h.unique id id' i (hnames id i hid) (hnames id' i hid')
  alive id i p r hid hp hr := h.alive id i p r (hnames id i hid) hp (hruns ▸ hr)

theorem stopped_of_get? {i : Nat} {r : Running} (h : s.runs[i]? = some r) :
    s.cancelled.contains r.token = s.stopped i := by
  simp [stopped, tokenAt?, h]

theorem Framed.stopped (h : Framed s t) (i : Nat) : t.stopped i = s.stopped i := by
  rw [Session.stopped, Session.stopped, h.tokenAt, h.cancelled]

theorem stopped_dropResult (s : Session) (id : String) (i : Nat) :
    (s.dropResult id).2.stopped i = s.stopped i := by
  rw [Session.dropResult]
  cases s.results.get? id with
  | none => rfl
  | some e => exact (framed_act s e.1 () _).stopped i

/-- Something is done with a batch, and noted of it. -/
theorem Tracked.act (h : s.Tracked ps) {α : Type} (i : Nat) (missing : α)
    {f : Bool → Batch → Connection → α × Batch × Connection} {g : Bool → Progress → Progress}
    (hbackend : (s.act i missing f).2.conn.backend = s.conn.backend)
    (hfits : ∀ (p : Progress) r, s.runs[i]? = some r → p.Fits s.conn.backend r.batch →
      (g (s.stopped i) p).Fits s.conn.backend (f (s.stopped i) r.batch s.conn).2.1)
    (halive : ∀ id (p : Progress) r, s.executions.get? id = some i → s.runs[i]? = some r →
      p.spot.Alive r.batch →
        (g (s.stopped i) p).spot.Alive (f (s.stopped i) r.batch s.conn).2.1) :
    (s.act i missing f).2.Tracked (s.noteAt ps (some i) g) := by
  rw [noteAt, Option.elim_some]
  refine
    { length := by simp [act_runs, h.length]
      fits := fun j p r hp hr => ?_
      bounded := fun id j hid => ?_
      unique := fun id id' j hid hid' => ?_
      alive := fun id j p r hid hp hr => ?_ }
  all_goals simp only [act_executions, act_runs, List.length_modify, hbackend] at *
  · rw [List.getElem?_modify] at hp hr
    obtain ⟨q, hq, rfl⟩ := Option.map_eq_some_iff.mp hp
    obtain ⟨run, hrun, rfl⟩ := Option.map_eq_some_iff.mp hr
    have hold := h.fits j q run hq hrun
    split
    case isTrue hj =>
      subst hj
      simpa only [stopped_of_get? hrun] using hfits q run hrun hold
    case isFalse => exact hold
  · exact h.bounded id j hid
  · exact h.unique id id' j hid hid'
  · rw [List.getElem?_modify] at hp hr
    obtain ⟨q, hq, rfl⟩ := Option.map_eq_some_iff.mp hp
    obtain ⟨run, hrun, rfl⟩ := Option.map_eq_some_iff.mp hr
    have hold := h.alive id j q run hid hq hrun
    split
    case isTrue hj =>
      subst hj
      simpa only [stopped_of_get? hrun] using halive id q run hid hrun hold
    case isFalse => exact hold

theorem backend_act {α : Type} (s : Session) (i : Nat) (missing : α)
    {f : Bool → Batch → Connection → α × Batch × Connection}
    (hf : ∀ cancelled, Uniform (f cancelled)) :
    (s.act i missing f).2.conn.backend = s.conn.backend := by
  rw [Session.act]
  cases s.runs[i]? with
  | none => rfl
  | some r =>
    obtain ⟨_, _, log, n, hsame⟩ := hf (s.cancelled.contains r.token) r.batch s.conn
    simp only [hsame s.conn (.refl _)]
    rfl

/-- A request that is noted as it is made. -/
theorem Tracked.act_notes (h : s.Tracked ps) {α : Type} (i : Nat) (missing : α)
    {f : Bool → Batch → Connection → α × Batch × Connection} {g : Bool → Progress → Progress}
    (hf : ∀ cancelled, Uniform (f cancelled))
    (hnotes : ∀ p r, s.runs[i]? = some r → Progress.Notes s.conn.backend p r.batch
      (g (s.stopped i) p) (f (s.stopped i) r.batch s.conn).2.1) :
    (s.act i missing f).2.Tracked (s.noteAt ps (some i) g) :=
  h.act i missing (s.backend_act i missing hf) (fun p r hr => (hnotes p r hr).fits)
    fun _ p r _ hr => (hnotes p r hr).alive

theorem Tracked.dropResult (h : s.Tracked ps) (id : String) :
    (s.dropResult id).2.Tracked (s.noteLeave ps id) := by
  rw [Session.dropResult, noteLeave, holder?]
  cases s.results.get? id with
  | none => exact h
  | some p =>
    have hacted := h.act_notes p.1 () (f := fun _ b conn => ((), b.dropRows, conn))
      (g := fun _ => .leave s.conn.backend) (fun _ => uniform_change Batch.dropRows)
      fun p r _ => p.notes_dropRows r.batch
    exact hacted.congr rfl rfl fun _ _ hid => hid

theorem Tracked.dropBatch (h : s.Tracked ps) (id : String) : (s.dropBatch id).2.Tracked ps := by
  rw [Session.dropBatch]
  cases hid : s.executions.get? id with
  | none => exact h
  | some i =>
    -- The name is forgotten first, so that nobody knows the batch that is given up.
    have hforgotten : Tracked { s with executions := s.executions.erase id } ps :=
      h.congr rfl rfl fun name j hj => (Named.of_get?_erase _ id name hj).2
    have hacted := hforgotten.act i () (f := fun _ b conn => ((), b.abandon, conn))
      (g := fun _ p => p) (congrArg _ (act_conn _ _ _ fun _ _ _ => rfl))
      (fun p r _ hfits =>
        ⟨(Batch.fades_abandon r.batch s.conn).todo.trans hfits.todo, hfits.spot.abandon⟩)
      fun name p r hname _ _ => by
        obtain ⟨hne, hold⟩ := Named.of_get?_erase _ id name hname
        exact absurd (h.unique name id i hold hid) hne
    rw [noteAt, Option.elim_some] at hacted
    have hsame : ps.modify i (fun p => p) = ps := List.modify_id i ps
    rw [hsame] at hacted
    refine hacted.congr ?_ ?_ fun name j hname => ?_
    · simp only [act_runs]
    · have hquiet := fun _ : Bool => uniform_change Batch.abandon
      exact (backend_act s i () hquiet).trans
        (backend_act { s with executions := s.executions.erase id } i () hquiet).symm
    · simpa only [act_executions] using hname

/-- A batch that is added gets a name of its own. -/
theorem Tracked.add (h : s.Tracked ps) (id : String) (statements : List Statement)
    (token : Nat) (tokens : Named Nat) :
    Tracked
      { s with
        runs := s.runs ++ [⟨Batch.start statements s.conn, token⟩]
        executions := s.executions.put id s.runs.length
        tokens }
      (ps ++ [.start statements s.conn]) := by
  have hnew (j : Nat) (p : Progress) (r : Running)
      (hp : (ps ++ [.start statements s.conn])[j]? = some p)
      (hr : (s.runs ++ [⟨Batch.start statements s.conn, token⟩])[j]? = some r) :
      (ps[j]? = some p ∧ s.runs[j]? = some r) ∨
        (p = .start statements s.conn ∧ r.batch = Batch.start statements s.conn) := by
    rw [List.getElem?_append] at hp hr
    rw [h.length] at hp
    split at hr
    case isTrue hlt => exact Or.inl ⟨by rwa [if_pos hlt] at hp, hr⟩
    case isFalse hlt =>
      rw [if_neg hlt] at hp
      obtain rfl := List.mem_singleton.mp (List.mem_of_getElem? hp)
      obtain rfl := List.mem_singleton.mp (List.mem_of_getElem? hr)
      exact Or.inr ⟨rfl, rfl⟩
  have hname (name : String) (j : Nat)
      (hj : (s.executions.put id s.runs.length).get? name = some j) :
      (name = id ∧ j = s.runs.length) ∨ s.executions.get? name = some j := by
    rw [Named.get?_put] at hj
    split at hj
    case isTrue hid => exact Or.inl ⟨hid, (Option.some.inj hj).symm⟩
    case isFalse => exact Or.inr hj
  refine
    { length := by simp [h.length]
      fits := fun j p r hp hr => ?_
      bounded := fun name j hj => ?_
      unique := fun name name' j hj hj' => ?_
      alive := fun name j p r hj hp hr => ?_ }
  · obtain ⟨hold, hrun⟩ | ⟨rfl, hbatch⟩ := hnew j p r hp hr
    · exact h.fits j p r hold hrun
    · rw [hbatch]
      exact Progress.fits_start s.conn statements
  · rw [List.length_append, List.length_singleton]
    obtain ⟨-, rfl⟩ | hold := hname name j hj
    · exact Nat.lt_add_one _
    · exact Nat.lt_add_right 1 (h.bounded name j hold)
  · obtain ⟨rfl, hlast⟩ | hold := hname name j hj <;>
      obtain ⟨rfl, hlast'⟩ | hold' := hname name' j hj'
    · rfl
    · exact absurd (hlast ▸ h.bounded name' j hold') (Nat.lt_irrefl _)
    · exact absurd (hlast' ▸ h.bounded name j hold) (Nat.lt_irrefl _)
    · exact h.unique name name' j hold hold'
  · obtain ⟨hp, hr⟩ | ⟨rfl, hbatch⟩ := hnew j p r hp hr
    · obtain ⟨-, rfl⟩ | hold := hname name j hj
      · exact absurd (List.getElem?_eq_some_iff.mp hr).1 (Nat.lt_irrefl _)
      · exact h.alive name j p r hold hp hr
    · rw [hbatch]
      exact Progress.alive_start s.conn statements

theorem Tracked.begin (h : s.Tracked ps) (id : String) (statements : List Statement)
    (token : Nat) : (s.begin id statements token).Tracked (ps ++ [.start statements s.conn]) := by
  rw [Session.begin, ← s.dropBatch_conn id]
  exact (h.dropBatch id).add id statements token _

/-- A request to a batch whose current result set is dropped before. -/
theorem Tracked.act_behind (h : s.Tracked ps) (id : String) {α : Type} (i : Nat) (missing : α)
    {f : Bool → Batch → Connection → α × Batch × Connection} {g : Bool → Progress → Progress}
    (hf : ∀ cancelled, Uniform (f cancelled))
    (hnotes : ∀ p r, (s.dropResult id).2.runs[i]? = some r → Progress.Notes s.conn.backend p r.batch
      (g (s.stopped i) p) (f (s.stopped i) r.batch s.conn).2.1) :
    ((s.dropResult id).2.act i missing f).2.Tracked (s.noteAt (s.noteLeave ps id) (some i) g) := by
  have hacted := (h.dropResult id).act_notes i missing (g := g) hf fun p r hr => by
    rw [stopped_dropResult, dropResult_conn]
    exact hnotes p r hr
  rwa [noteAt, Option.elim_some, stopped_dropResult] at hacted

/-- What a batch answers, and what it leaves of the connection. -/
theorem act_of_get? {α : Type} {i : Nat} {r : Running} (hr : s.runs[i]? = some r) (missing : α)
    (f : Bool → Batch → Connection → α × Batch × Connection) :
    (s.act i missing f).1 = (f (s.stopped i) r.batch s.conn).1 ∧
      (s.act i missing f).2.conn = (f (s.stopped i) r.batch s.conn).2.2 := by
  rw [← stopped_of_get? hr, Session.act, hr]
  exact ⟨rfl, rfl⟩

theorem Tracked.next (h : s.Tracked ps) (id : String) :
    (s.next id).2.Tracked (s.note ps (.next id)) := by
  have hdropped := h.dropResult id
  rw [note]
  cases hid : s.executions.get? id with
  | none =>
    rw [Session.next]
    simp only [dropResult_executions, hid]
    exact hdropped
  | some i =>
    -- All but what is held is as the request has left it.
    have hnext : (s.next id).1 = .next ((s.dropResult id).2.act i .done Batch.next).1 ∧
        (s.next id).2.conn = ((s.dropResult id).2.act i .done Batch.next).2.conn ∧
        (s.next id).2.runs = ((s.dropResult id).2.act i .done Batch.next).2.runs ∧
        (s.next id).2.executions =
          ((s.dropResult id).2.act i .done Batch.next).2.executions := by
      rw [Session.next]
      simp only [dropResult_executions, hid]
      generalize (s.dropResult id).2.act i NextResult.done Batch.next = acted
      obtain ⟨_ | _ | _, s'⟩ := acted <;> exact ⟨rfl, rfl, rfl, rfl⟩
    obtain ⟨hanswer, hconn, hruns, hexecutions⟩ := hnext
    refine Tracked.congr (h.act_behind id i .done uniform_next fun p r hr => ?_) hruns
      (congrArg _ hconn) fun name j hj => hexecutions ▸ hj
    obtain ⟨hresult, hused⟩ := act_of_get? hr NextResult.done Batch.next
    rw [stopped_dropResult, dropResult_conn] at hresult hused
    have hcolumns : (s.step (.next id)).1.isColumns =
        (r.batch.next (s.stopped i) s.conn).1.isColumns := by
      rw [Session.step, hanswer, hresult]
      rfl
    rw [hcolumns]
    refine p.notes_next r.batch _ s.conn rfl ?_
    obtain ⟨_, _, log, n, -, -, huses⟩ := r.batch.next_uses (s.stopped i) s.conn.backend
    rw [ran, Session.step, hconn, hused, huses s.conn rfl]
    simp [Connection.used]

theorem Tracked.row (h : s.Tracked ps) (id : String) :
    (s.row id).2.Tracked (s.note ps (.row id)) := by
  rw [note, holder?]
  cases hid : s.results.get? id with
  | none =>
    rw [Session.row, hid]
    exact h
  | some e =>
    have hrow : (s.row id).2 = (s.act e.1 RowResult.done Batch.row).2 := by rw [Session.row, hid]
    rw [hrow]
    refine h.act_notes e.1 RowResult.done uniform_row fun p r hr => ?_
    have hanswer : (s.step (.row id)).1.items =
        (r.batch.row (s.stopped e.1) s.conn).1.items := by
      rw [← stopped_of_get? hr]
      simp only [Session.step, Session.row, hid, Session.act, hr]
      rfl
    rw [Answer.rowCount, hanswer]
    exact p.notes_row r.batch _ s.conn

/-- The rows of several requests. -/
theorem rowCount_take (s : Session) (id : String) (n : Nat) :
    (s.step (.take id (n + 1))).1.rowCount =
      (s.step (.row id)).1.rowCount + ((s.row id).2.step (.take id n)).1.rowCount := by
  have hrow : (s.step (.row id)).1.items = (s.row id).1.item := by
    rw [Session.step, Session.row]
    cases s.results.get? id <;> rfl
  have htake : (s.step (.take id (n + 1))).1.items =
      (s.row id).1.item ++ ((s.row id).2.step (.take id n)).1.items := rfl
  rw [Answer.rowCount, Answer.rowCount, Answer.rowCount, htake, hrow, List.countP_append]

theorem Tracked.take (h : s.Tracked ps) (id : String) (n : Nat) :
    (s.take id n).2.Tracked (s.note ps (.take id n)) := by
  induction n generalizing s ps with
  | zero =>
    have hnothing : s.note ps (.take id 0) = ps := by
      rw [note, noteAt]
      cases s.holder? id with
      | none => rfl
      | some i => exact List.modify_id i ps
    rw [hnothing]
    exact h
  | succ n ih =>
    have hboth : (s.row id).2.note (s.note ps (.row id)) (.take id n) =
        s.note ps (.take id (n + 1)) := by
      have hframed : Framed s (s.row id).2 := by
        rw [row_eq_request]
        exact framed_requestSet s id .done fun _ => Batch.row
      have hbackend : (s.row id).2.conn.backend = s.conn.backend := by
        rw [Session.row]
        cases s.results.get? id with
        | none => rfl
        | some e => exact s.backend_act e.1 .done uniform_row
      rw [note, note, note, holder?_row, rowCount_take, hbackend]
      cases s.holder? id with
      | none => rfl
      | some i =>
        simp only [noteAt, Option.elim_some, hframed.stopped, List.modify_modify_eq]
        refine congrArg _ (funext fun p => ?_)
        exact p.took_took _ _ _
    rw [← hboth]
    exact ih (h.row id)

theorem Tracked.rest (h : s.Tracked ps) (id : String) :
    (s.rest id).2.Tracked (s.note ps (.rows id)) := by
  rw [note, holder?]
  cases hid : s.results.get? id with
  | none =>
    rw [Session.rest, hid]
    exact h
  | some e =>
    have hrest : (s.rest id).2 = (s.act e.1 none Batch.readRest).2 := by
      rw [Session.rest, hid]
      rfl
    rw [hrest]
    refine h.act_notes e.1 none uniform_readRest fun p r hr => ?_
    have hanswer : (s.step (.rows id)).1.items = RowResult.itemsOf
        (r.batch.rows (s.stopped e.1) (r.batch.reach 0) s.conn).1
        (r.batch.rows (s.stopped e.1) (r.batch.reach 0) s.conn).2.1 := by
      rw [← stopped_of_get? hr, Session.step, Session.rest, hid]
      simp only [Session.act, hr]
      exact Answer.items_several _ _
    rw [Answer.rowCount, hanswer, Batch.countP_rows]
    exact p.notes_rows r.batch _ s.conn _

theorem Tracked.outcomes (h : s.Tracked ps) (id : String) :
    (s.outcomes id).2.Tracked (s.note ps (.outcomes id)) := by
  rw [note]
  cases hid : s.executions.get? id with
  | none =>
    rw [Session.outcomes]
    simp only [dropResult_executions, hid]
    exact h.dropResult id
  | some i =>
    have houtcomes : (s.outcomes id).2 =
        ((s.dropResult id).2.act i [] fun cancelled b conn => b.outcomes cancelled conn).2 := by
      rw [Session.outcomes]
      simp only [dropResult_executions, hid]
    rw [houtcomes]
    refine h.act_behind id i [] uniform_outcomes fun p r hr => p.notes_elsewhere r.batch ?_
    obtain ⟨-, hused⟩ := act_of_get? hr [] fun cancelled b conn => b.outcomes cancelled conn
    rw [stopped_dropResult, dropResult_conn] at hused
    obtain ⟨_, b', log, n, htodo, -, huses⟩ := r.batch.outcomesWithin_uses (s.stopped i)
      (r.batch.setsLeft s.conn.backend + 1) s.conn.backend
    have hran : s.ran (.outcomes id) = log := by
      rw [ran, Session.step, houtcomes, hused, Batch.outcomes, huses s.conn rfl]
      simp [Connection.used]
    intro hleft
    rw [hran, ← hleft, htodo, List.drop_left, Batch.outcomes, huses s.conn rfl]

theorem Tracked.printSet (h : s.Tracked ps) (id : String) (layout : Layout ⊕ PrintSettings)
    (sink : Sink) :
    (s.printSet id layout sink).2.Tracked (s.note ps (.printSet id layout sink)) := by
  rw [note, holder?]
  cases hid : s.results.get? id with
  | none =>
    rw [Session.printSet, hid]
    exact h
  | some e =>
    obtain ⟨i, columns⟩ := e
    have hprint : (s.printSet id layout sink).1 =
          (s.act i .closed (Batch.printSet layout sink columns)).1 ∧
        (s.printSet id layout sink).2.conn =
          (s.act i .closed (Batch.printSet layout sink columns)).2.conn ∧
        (s.printSet id layout sink).2.runs =
          (s.act i .closed (Batch.printSet layout sink columns)).2.runs ∧
        (s.printSet id layout sink).2.executions =
          (s.act i .closed (Batch.printSet layout sink columns)).2.executions := by
      rw [Session.printSet, hid]
      cases layout <;> exact ⟨rfl, rfl, rfl, rfl⟩
    obtain ⟨hanswer, hconn, hruns, hexecutions⟩ := hprint
    refine Tracked.congr (h.act_notes i .closed (uniform_printSet layout sink columns)
      fun p r hr => ?_) hruns (congrArg _ hconn) fun name j hj => hexecutions ▸ hj
    obtain ⟨hresult, -⟩ := act_of_get? hr .closed (Batch.printSet layout sink columns)
    rw [Session.step, hanswer, hresult]
    exact p.notes_printed r.batch (s.stopped i) s.conn _ columns sink

theorem Tracked.printRest (h : s.Tracked ps) (id : String) (settings : PrintSettings)
    (sink : Sink) :
    (s.printRest id settings sink).2.Tracked (s.note ps (.printRest id settings sink)) := by
  rw [note]
  cases hid : s.executions.get? id with
  | none =>
    rw [Session.printRest]
    simp only [dropResult_executions, hid]
    exact h.dropResult id
  | some i =>
    have hacted := h.act_behind id i .closed (g := fun _ p => ⟨p.left, .elsewhere⟩)
      (uniform_printRest settings sink) fun p r _ => p.notes_elsewhere r.batch
        (Batch.fades_abandon r.batch s.conn).todo.trans
    have hprint : (s.printRest id settings sink).2 =
        let acted := (s.dropResult id).2.act i .closed (Batch.printRest settings sink)
        { acted.2 with executions := acted.2.executions.erase id } := by
      rw [Session.printRest]
      simp only [dropResult_executions, hid]
      rfl
    rw [hprint]
    exact hacted.congr rfl rfl fun name j hj => (Named.of_get?_erase _ id name hj).2

/-- **One step** changes the batches as it tells. -/
theorem Tracked.step (h : s.Tracked ps) (st : Step) : (s.step st).2.Tracked (s.note ps st) := by
  have hasked {α : Type} {f : Connection → α × Connection} (hf : UniformQuestion f)
      (answer : α → Answer) : (s.ask f answer).2.Tracked ps := by
    obtain ⟨_, log, n, hsame⟩ := hf s.conn
    rw [Session.ask, hsame s.conn (.refl _)]
    exact h.congr rfl rfl fun _ _ hid => hid
  have hdump (id : String) {f : Bool → Dump → Connection → Answer × Dump × Connection}
      (hf : ∀ cancelled, Uniform (f cancelled)) : (s.dumpStep id f).2.Tracked ps := by
    rw [Session.dumpStep]
    cases s.dumps.get? id with
    | none => exact h
    | some e =>
      obtain ⟨_, _, log, n, hsame⟩ := hf (s.cancelled.contains e.2) e.1 s.conn
      simp only [hsame s.conn (.refl _)]
      exact h.congr rfl rfl fun _ _ hid => hid
  have hwrite (t : Session) (hruns : t.runs = s.runs) (hexecutions : t.executions = s.executions)
      (hbackend : t.conn.backend = s.conn.backend) (cancelled : Bool) (d : Dump) (sink : Sink) :
      (t.writeDump cancelled d sink).2.Tracked ps := by
    obtain ⟨_, log, n, _, hsame⟩ := d.write_uses cancelled t.conn sink
    rw [Session.writeDump, hsame t.conn (.refl _)]
    exact h.congr hruns hbackend fun _ _ hid => hexecutions ▸ hid
  have htoken (name : String) : (s.token name).2.Tracked ps :=
    h.congr (token_runs s name) (by rw [token_conn]) fun _ _ hid => by
      rwa [token_executions] at hid
  cases st with
  | execute id sql name =>
    cases name with
    | none => exact (h.congr (t := s.newToken.2) rfl rfl fun _ _ hid => hid).begin id _ _
    | some name =>
      have hbegun := (htoken name).begin id (Statement.split sql) (s.token name).1
      rw [token_conn] at hbegun
      exact hbegun
  | executeStatements id statements name =>
    have hbegun := (htoken (name.getD id)).begin id (statements.map Statement.ofText)
      (s.token (name.getD id)).1
    rw [token_conn] at hbegun
    exact hbegun
  | next id => exact h.next id
  | row id => exact h.row id
  | take id n => exact h.take id n
  | rows id =>
    rw [step_rows_snd]
    exact h.rest id
  | drain id =>
    rw [step_drain_snd]
    exact h.rest id
  | outcomes id => exact h.outcomes id
  | dropRows id => exact h.dropResult id
  | drop id => exact h.dropBatch id
  | cancel id =>
    rw [Session.step]
    cases (s.executions.get? id).bind fun i => s.runs[i]?.map (·.token) <;>
      exact h.congr rfl rfl fun _ _ hid => hid
  | cancelToken name => exact (htoken name).congr rfl rfl fun _ _ hid => hid
  | print sql settings sink =>
    exact hasked (uniform_print sql settings sink) fun printed => .output printed.1 printed.2
  | printRest id settings sink => exact h.printRest id settings sink
  | printSet id layout sink => exact h.printSet id layout sink
  | tables _ | tableDefinitions _ | views | indexes _ | schema _ _ =>
    exact hasked (fun conn => conn.ask_uses _ _) _
  | line id => exact hdump id uniform_line
  | lines id => exact hdump id uniform_lines
  | writeDump id sink =>
    rw [Session.step]
    cases s.dumps.get? id with
    | none => exact h
    | some e => exact hwrite { s with dumps := s.dumps.erase id } rfl rfl rfl _ e.1 sink
  | writeNewDump settings sink => exact hwrite s rfl rfl rfl false { settings } sink
  | isCancelled _ | log => exact h
  | dropDump id | breakConnection | dump id settings => exact h.congr rfl rfl fun _ _ hid => hid

/-- **Any number of steps.** -/
theorem Tracked.run (h : s.Tracked ps) (steps : List Step) :
    (s.run steps).2.Tracked (s.progress ps steps) := by
  induction steps generalizing s ps with
  | nil => exact h
  | cons st steps ih => exact ih (h.step st)

end Frames

end Session

end SqlConsole
