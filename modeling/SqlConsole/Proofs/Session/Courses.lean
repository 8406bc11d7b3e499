import SqlConsole.Proofs.Batch.Printing
import SqlConsole.Proofs.Dump.Use
import SqlConsole.Proofs.Session.Agreement

/-!
# Two courses of a session

When the same steps are done in two sessions that agree, they go on to agree (`Agree.step`,
`Agree.run`). A step that has nothing to do with the tokens in which they differ (`Session.Spares`)
is answered in the same way in both, and runs the same statements. Each kind of step is a request to
a batch (`requestSet`, `requestBatch`, `requestBehind`), a question to the database or a request to
a dump, and what is noted of it in the session.
-/

namespace SqlConsole

namespace Session

/-! ## Batches -/

section Batches

variable {p : Nat → Prop} {a b : Session} {α : Type}

theorem uniform_row (cancelled : Bool) : Uniform (Batch.row cancelled) := by
  intro b conn
  obtain ⟨result, b₁, n, -, hrow⟩ := b.row_uses cancelled
  exact ⟨result, b₁, [], n, fun c _ => hrow c⟩

theorem row_eq_request (s : Session) (id : String) :
    s.row id = ((s.requestSet id .done fun _ => Batch.row).1.elim .closed .row,
      (s.requestSet id .done fun _ => Batch.row).2) := by
  rw [Session.row, Session.requestSet]
  cases s.results.get? id <;> rfl

theorem Agree.row (h : Agree p a b) (id : String) :
    Along p (a.Free p (a.holder? id) ∧ b.Free p (b.holder? id)) a b (a.row id) (b.row id) := by
  rw [row_eq_request a, row_eq_request b]
  exact (h.requestSet id .done fun _ => uniform_row).map fun o => o.elim Answer.closed .row

theorem Agree.take (h : Agree p a b) (id : String) (n : Nat) :
    Along p (a.Free p (a.holder? id) ∧ b.Free p (b.holder? id)) a b
      (a.take id n) (b.take id n) := by
  induction n generalizing a b with
  | zero => exact h.along rfl rfl []
  | succ n ih =>
    have hrow := h.row id
    have hfree (s : Session) (hs : s.Free p (s.holder? id)) :
        (s.row id).2.Free p ((s.row id).2.holder? id) := by
      rw [holder?_row]
      have hframed : Framed s (s.row id).2 := by
        rw [row_eq_request]
        exact framed_requestSet s id .done fun _ => Batch.row
      exact hframed.free_iff.mpr hs
    exact hrow.then (ih hrow.agree) (fun ⟨ha, hb⟩ => ⟨hfree a ha, hfree b hb⟩) List.cons

theorem uniform_readRest (cancelled : Bool) : Uniform (Batch.readRest cancelled) := by
  intro b conn
  obtain ⟨cells, stop, b₁, n, -, hrows⟩ := b.rows_uses cancelled (b.reach 0)
  exact ⟨some (cells, stop.getD .done), b₁, [], n, fun c _ => by rw [Batch.readRest, hrows]⟩

theorem Agree.rest (h : Agree p a b) (id : String) :
    Along p (a.Free p (a.holder? id) ∧ b.Free p (b.holder? id)) a b (a.rest id) (b.rest id) := by
  have hrest (s : Session) : s.rest id =
      let request := s.requestSet id none fun _ => Batch.readRest
      (request.1.join, request.2) := by
    rw [Session.rest, Session.requestSet]
    cases s.results.get? id <;> rfl
  rw [hrest a, hrest b]
  exact (h.requestSet id none fun _ => uniform_readRest).map Option.join

/-- What is held of result sets may be changed, as long as it stays the same for batches that are
free of the tokens. -/
theorem Agree.withResults (h : Agree p a b) {results results' : Named (Nat × List String)}
    (hresults : ∀ i, a.Free p (some i) → ∀ id columns,
      results.get? id = some (i, columns) ↔ results'.get? id = some (i, columns)) :
    Agree p { a with results } { b with results := results' } :=
  { h with results := hresults }

theorem Agree.eraseResult (h : Agree p a b) (id : String) :
    Agree p { a with results := a.results.erase id } { b with results := b.results.erase id } := by
  refine h.withResults fun i hi name columns => ?_
  rw [Named.get?_erase, Named.get?_erase]
  by_cases hname : name = id
  · simp [hname]
  · rw [if_neg hname, if_neg hname]
    exact h.results i hi name columns

/-- What changes a batch and nothing else. -/
theorem uniform_change (f : Batch → Batch) : Uniform fun b conn => ((), f b, conn) :=
  fun b _ => ⟨(), f b, [], 0, fun c _ => Batch.uses_nothing _ _ c⟩

theorem Agree.dropResult (h : Agree p a b) (id : String) :
    Along p (a.Free p (a.holder? id) ∧ b.Free p (b.holder? id)) a b
      (a.dropResult id) (b.dropResult id) := by
  have hdrop (s : Session) : s.dropResult id =
      let request := s.requestSet id () fun _ _ b conn => ((), b.dropRows, conn)
      (request.1.isSome, { request.2 with results := request.2.results.erase id }) := by
    rw [Session.dropResult, Session.requestSet]
    cases hid : s.results.get? id with
    | none => simp only [Option.map_none, Session.request, Named.erase_of_get?_eq_none _ _ hid]; rfl
    | some e => rfl
  rw [hdrop a, hdrop b]
  have hrequest := h.requestSet id () fun _ _ => uniform_change Batch.dropRows
  exact hrequest.besides Option.isSome (hrequest.agree.eraseResult id) rfl rfl

theorem Agree.eraseExecution (h : Agree p a b) (id : String) :
    Agree p { a with executions := a.executions.erase id }
      { b with executions := b.executions.erase id } :=
  { h with executions := by rw [h.executions] }

theorem Agree.dropBatch (h : Agree p a b) (id : String) :
    Along p (a.Free p (a.executions.get? id)) a b (a.dropBatch id) (b.dropBatch id) := by
  have hdrop (s : Session) : s.dropBatch id =
      let request := s.requestBatch id () fun _ b conn => ((), b.abandon, conn)
      (request.1.isSome, { request.2 with executions := request.2.executions.erase id }) := by
    rw [Session.dropBatch, Session.requestBatch]
    cases hid : s.executions.get? id with
    | none => simp only [Option.map_none, Session.request, Named.erase_of_get?_eq_none _ _ hid]; rfl
    | some i => rfl
  rw [hdrop a, hdrop b]
  have hrequest := h.requestBatch id () fun _ => uniform_change Batch.abandon
  exact hrequest.besides Option.isSome (hrequest.agree.eraseExecution id) rfl rfl

/-- Asking for a result set drops what is held under the name. -/
theorem dropResult_results (s : Session) (id name : String) :
    (s.dropResult id).2.results.get? name = if name = id then none else s.results.get? name := by
  rw [Session.dropResult]
  cases hid : s.results.get? id with
  | none =>
    by_cases hname : name = id
    · simp [hname, hid]
    · simp [hname]
  | some e => simp [Named.get?_erase]

theorem free_dropResult {s : Session} {id : String} {i : Option Nat} :
    (s.dropResult id).2.Free p i ↔ s.Free p i := by
  have htoken : (s.dropResult id).2.tokenAt? = s.tokenAt? := by
    rw [Session.dropResult]
    cases s.results.get? id with
    | none => rfl
    | some e => exact funext (framed_act s e.1 () _).tokenAt
  rw [Free, Free, htoken]

/-- A request to the batch of a name, the current result set of that name being dropped first. -/
def requestBehind (s : Session) (id : String) (missing : α)
    (f : Bool → Batch → Connection → α × Batch × Connection) : Option α × Session :=
  (s.dropResult id).2.requestBatch id missing f

theorem Agree.requestBehind (h : Agree p a b) (id : String) (missing : α)
    {f : Bool → Batch → Connection → α × Batch × Connection}
    (hf : ∀ cancelled, Uniform (f cancelled)) :
    Along p (a.Free p (a.executions.get? id)) a b
      (a.requestBehind id missing f) (b.requestBehind id missing f) := by
  have hdrop := (h.dropResult id).agree
  refine (hdrop.along (dropResult_conn a id) (dropResult_conn b id) ()).then
    (hdrop.requestBatch id missing hf) (fun hs => ?_) fun _ answer => answer
  rw [dropResult_executions]
  exact free_dropResult.mpr hs

theorem uniform_next (cancelled : Bool) : Uniform (Batch.next cancelled) := by
  intro b conn
  obtain ⟨result, b₁, log, n, -, -, hnext⟩ := b.next_uses cancelled conn.backend
  exact ⟨result, b₁, log, n, fun c h => hnext c h.backend⟩

/-- What is held of result sets once one was asked for. -/
def held (s : Session) (id : String) : Option NextResult → Named (Nat × List String)
  | some (.columns names) =>
    (s.executions.get? id).elim s.results fun i => s.results.put id (i, names)
  | some (.error _) | some .done | none => s.results

theorem next_eq_request (s : Session) (id : String) :
    s.next id =
      let request := s.requestBehind id .done Batch.next
      (.next (request.1.getD .done),
        { request.2 with results := request.2.held id request.1 }) := by
  rw [Session.next, Session.requestBehind, Session.requestBatch]
  generalize s.dropResult id = dropped
  obtain ⟨-, s⟩ := dropped
  cases hid : s.executions.get? id with
  | none => simp only [hid, Option.map_none, Session.request, held, Option.getD_none]
  | some i =>
    have hexecutions : (s.act i NextResult.done Batch.next).2.executions.get? id = some i := by
      rw [act_executions, hid]
    simp only [hid, Option.map_some, Session.request]
    generalize s.act i NextResult.done Batch.next = acted at hexecutions ⊢
    obtain ⟨result, s'⟩ := acted
    cases result with
    | columns names => simp only [held, hexecutions, Option.getD_some, Option.elim_some]
    | error e => rfl
    | done => rfl

/-- What was held under other names is still held, and nothing else but what was asked for. -/
theorem held_get? {s : Session} {id : String} (answer : Option NextResult)
    (hnone : s.results.get? id = none) {i : Nat} (hi : s.executions.get? id ≠ some i)
    (name : String) (columns : List String) :
    (s.held id answer).get? name = some (i, columns) ↔ s.results.get? name = some (i, columns) := by
  rcases answer with _ | names | _ | _
  case some.columns =>
    rw [held]
    cases hid : s.executions.get? id with
    | none => rfl
    | some k =>
      have hne : k ≠ i := fun h => hi (by rw [hid, h])
      rw [Option.elim_some, Named.get?_put]
      by_cases hname : name = id
      · simp [hname, hnone, hne]
      · rw [if_neg hname]
  all_goals rfl

theorem Agree.next (h : Agree p a b) (id : String) :
    Along p (a.Free p (a.executions.get? id)) a b (a.next id) (b.next id) := by
  have hrequest := h.requestBehind id .done uniform_next
  rw [next_eq_request a, next_eq_request b]
  have hframed (s : Session) :=
    framed_requestBatch (s.dropResult id).2 id NextResult.done Batch.next
  have hnone (s : Session) : (s.requestBehind id .done Batch.next).2.results.get? id = none := by
    rw [Session.requestBehind, (hframed s).results, dropResult_results, if_pos rfl]
  have hexecutions (s : Session) :
      (s.requestBehind id .done Batch.next).2.executions = s.executions := by
    rw [Session.requestBehind, (hframed s).executions, dropResult_executions]
  refine hrequest.besides (fun o => Answer.next (o.getD .done))
    (hrequest.agree.withResults fun i hi name columns => ?_) rfl rfl
  have hresults := hrequest.agree.results i hi name columns
  by_cases hid : a.executions.get? id = some i
  · -- The batch is free of the tokens, so the same is held in both sessions.
    have hs : a.Free p (a.executions.get? id) := by
      rw [hid]
      exact free_dropResult.mp ((hframed a).free_iff.mp hi)
    rw [← (hrequest.same hs).answer]
    generalize (a.requestBehind id NextResult.done Batch.next).1 = answer
    rcases answer with _ | names | _ | _
    case some.columns =>
      simp only [held, hrequest.agree.executions]
      cases (b.requestBehind id NextResult.done Batch.next).2.executions.get? id with
      | none => exact hresults
      | some k =>
        rw [Option.elim_some, Option.elim_some, Named.get?_put, Named.get?_put]
        split
        · rfl
        · exact hresults
    all_goals exact hresults
  · -- The name stands for another batch, so what is held of this one stays as it was.
    have hb : b.executions.get? id ≠ some i := h.executions ▸ hid
    rw [held_get? _ (hnone a) (by rwa [hexecutions]), held_get? _ (hnone b) (by rwa [hexecutions])]
    exact hresults

theorem uniform_outcomes (cancelled : Bool) :
    Uniform fun (b : Batch) conn => b.outcomes cancelled conn := by
  intro b conn
  obtain ⟨results, b₁, log, n, -, -, houtcomes⟩ :=
    b.outcomesWithin_uses cancelled (b.setsLeft conn.backend + 1) conn.backend
  exact ⟨results, b₁, log, n, fun c h => by
    simp only [Batch.outcomes, h.backend, houtcomes c h.backend]⟩

theorem Agree.outcomes (h : Agree p a b) (id : String) :
    Along p (a.Free p (a.executions.get? id)) a b (a.outcomes id) (b.outcomes id) := by
  have houtcomes (s : Session) : s.outcomes id =
      let request := s.requestBehind id [] fun cancelled b conn => b.outcomes cancelled conn
      (.outcomes (request.1.getD []), request.2) := by
    rw [Session.outcomes, Session.requestBehind, Session.requestBatch]
    generalize s.dropResult id = dropped
    obtain ⟨-, s⟩ := dropped
    cases hid : s.executions.get? id with
    | none => simp only [hid, Option.map_none, Session.request, Option.getD_none]
    | some i => simp only [hid, Option.map_some, Session.request, Option.getD_some]
  rw [houtcomes a, houtcomes b]
  exact (h.requestBehind id [] uniform_outcomes).map fun o => Answer.outcomes (o.getD [])

theorem uniform_printSet (layout : Layout ⊕ PrintSettings) (sink : Sink) (columns : List String)
    (cancelled : Bool) : Uniform (Batch.printSet layout sink columns cancelled) := by
  intro b conn
  obtain ⟨error, b₁, out, n, hprint⟩ :=
    (layout.elim id (.choose columns)).print_uses cancelled columns b sink
  exact ⟨.output error out, b₁.dropRows, [], n, fun c _ => by simp only [Batch.printSet, hprint]⟩

theorem Agree.printSet (h : Agree p a b) (id : String) (layout : Layout ⊕ PrintSettings)
    (sink : Sink) :
    Along p (a.Free p (a.holder? id) ∧ b.Free p (b.holder? id)) a b
      (a.printSet id layout sink) (b.printSet id layout sink) := by
  have hprint (s : Session) : s.printSet id layout sink =
      let request := s.requestSet id .closed (Batch.printSet layout sink)
      (request.1.getD .closed, { request.2 with results := request.2.results.erase id }) := by
    rw [Session.printSet, Session.requestSet]
    cases hid : s.results.get? id with
    | none => simp only [Option.map_none, Session.request, Named.erase_of_get?_eq_none _ _ hid]; rfl
    | some e => cases layout <;> rfl
  rw [hprint a, hprint b]
  have hrequest := h.requestSet id .closed (uniform_printSet layout sink)
  exact hrequest.besides (·.getD .closed) (hrequest.agree.eraseResult id) rfl rfl

theorem uniform_printRest (settings : PrintSettings) (sink : Sink) (cancelled : Bool) :
    Uniform (Batch.printRest settings sink cancelled) := by
  intro b conn
  obtain ⟨error, log, n, out, hprint⟩ := b.print_uses cancelled settings sink conn.backend
  exact ⟨.output error out, b.abandon, log, n, fun c h => by
    rw [Batch.printRest, hprint c h.backend]⟩

theorem Agree.printRest (h : Agree p a b) (id : String) (settings : PrintSettings) (sink : Sink) :
    Along p (a.Free p (a.executions.get? id)) a b
      (a.printRest id settings sink) (b.printRest id settings sink) := by
  have hprint (s : Session) : s.printRest id settings sink =
      let request := s.requestBehind id .closed (Batch.printRest settings sink)
      (request.1.getD .closed, { request.2 with executions := request.2.executions.erase id }) := by
    rw [Session.printRest, Session.requestBehind, Session.requestBatch]
    generalize s.dropResult id = dropped
    obtain ⟨-, s⟩ := dropped
    cases hid : s.executions.get? id with
    | none =>
      simp only [hid, Option.map_none, Session.request, Named.erase_of_get?_eq_none _ _ hid]
      rfl
    | some i => simp only [hid, Option.map_some, Session.request, Option.getD_some]; rfl
  rw [hprint a, hprint b]
  have hrequest := h.requestBehind id .closed (uniform_printRest settings sink)
  exact hrequest.besides (·.getD .closed) (hrequest.agree.eraseExecution id) rfl rfl

/-- A batch is started in both sessions. -/
theorem Agree.started (h : Agree p a b) (r : Running) :
    Agree p { a with runs := a.runs ++ [r] } { b with runs := b.runs ++ [r] } where
  conn := h.conn
  tokenAt i := by
    have htoken := h.tokenAt i
    simp only [tokenAt?] at htoken ⊢
    rw [List.getElem?_append, List.getElem?_append, h.length]
    split
    · exact htoken
    · rfl
  length := by simp [h.length]
  runs i t ht hp := by
    simp only [tokenAt?] at ht ⊢
    rw [List.getElem?_append] at ht
    rw [List.getElem?_append, List.getElem?_append, h.length]
    split
    · rw [if_pos (h.length ▸ ‹_›)] at ht
      exact h.runs i t ht hp
    · rfl
  executions := h.executions
  results i hi := by
    refine h.results i fun t ht => hi t ?_
    obtain ⟨r', hr', -⟩ := Option.map_eq_some_iff.mp ht
    rw [tokenAt?, List.getElem?_append_left (List.getElem?_eq_some_iff.mp hr').1]
    exact ht
  dumpTokens := h.dumpTokens
  dumps := h.dumps
  tokens := h.tokens
  tokenCount := h.tokenCount
  cancelled := h.cancelled

theorem Agree.begin (h : Agree p a b) (id : String) (statements : List Statement) (token : Nat) :
    Agree p (a.begin id statements token) (b.begin id statements token) := by
  have hdrop := (h.dropBatch id).agree
  -- A batch looks at nothing but whether the connection is broken when it is started.
  have hstart : Batch.start statements (a.dropBatch id).2.conn =
      Batch.start statements (b.dropBatch id).2.conn := by
    rw [Batch.start, Batch.start, hdrop.conn.broken]
  have hstarted := hdrop.started ⟨Batch.start statements (a.dropBatch id).2.conn, token⟩
  simp only [Session.begin]
  rw [← hstart]
  exact
    { hstarted with
      executions := by rw [hdrop.executions, hdrop.length]
      tokens := by rw [hdrop.tokens] }

end Batches

/-! ## Tokens, questions and dumps -/

section Others

variable {p : Nat → Prop} {a b : Session} {α : Type}

theorem Agree.token (h : Agree p a b) (name : String) :
    (a.token name).1 = (b.token name).1 ∧ Agree p (a.token name).2 (b.token name).2 := by
  rw [Session.token, Session.token, h.tokens]
  cases b.tokens.get? name with
  | some t => exact ⟨rfl, h⟩
  | none =>
    refine ⟨h.tokenCount, { h with tokens := ?_, tokenCount := ?_ }⟩
    · simp only [newToken, h.tokenCount, h.tokens]
    · simp only [newToken, h.tokenCount]

theorem Agree.cancel (h : Agree p a b) (t : Nat) : Agree p (a.cancel t).race (b.cancel t).race :=
  { h with
    cancelled := fun other hp => by
      simp only [race, Session.cancel, List.contains_cons, h.cancelled other hp] }

theorem Agree.ask (h : Agree p a b) {f : Connection → α × Connection} (hf : UniformQuestion f)
    (answer : α → Answer) : Along p True a b (a.ask f answer) (b.ask f answer) := by
  obtain ⟨result, log, n, hf⟩ := hf a.conn
  rw [Session.ask, Session.ask, hf a.conn (.refl _), hf b.conn h.conn.symm]
  refine ⟨{ h with conn := ?_ }, fun _ => .of_used rfl rfl rfl⟩
  exact h.conn.used_both _ _ _ _

/-- A dump that is held in one session is held under the same token in the other one, and is the
same if this is not one of the tokens in `p`. -/
theorem Agree.dump_cases (h : Agree p a b) (id : String) :
    (a.dumps.get? id = none ∧ b.dumps.get? id = none) ∨
      ∃ d d' t, a.dumps.get? id = some (d, t) ∧ b.dumps.get? id = some (d', t) ∧
        (¬ p t → d = d' ∧ a.cancelled.contains t = b.cancelled.contains t) := by
  have htoken := h.dumpTokens id
  cases ha : a.dumps.get? id with
  | none =>
    rw [ha] at htoken
    exact Or.inl ⟨rfl, Option.map_eq_none_iff.mp htoken.symm⟩
  | some x =>
    obtain ⟨d, t⟩ := x
    rw [ha] at htoken
    obtain ⟨⟨d', t'⟩, hb, rfl⟩ := Option.map_eq_some_iff.mp htoken.symm
    refine Or.inr ⟨d, d', t', rfl, hb, fun hp => ⟨?_, h.cancelled t' hp⟩⟩
    have hsame := h.dumps id d t' ha hp
    rw [hb] at hsame
    exact (Prod.mk.inj (Option.some.inj hsame)).1.symm

theorem Agree.withDump (h : Agree p a b) (id : String) {d d' : Dump} {t : Nat}
    (hd : ¬ p t → d = d') :
    Agree p { a with dumps := a.dumps.put id (d, t) } { b with dumps := b.dumps.put id (d', t) } :=
  { h with
    dumpTokens := fun name => by
      rw [Named.get?_put, Named.get?_put]
      split
      · rfl
      · exact h.dumpTokens name
    dumps := fun name d₁ t₁ hget hp => by
      rw [Named.get?_put] at hget ⊢
      split at hget
      · obtain ⟨rfl, rfl⟩ := Prod.mk.inj (Option.some.inj hget)
        rw [if_pos ‹_›, hd hp]
      · rw [if_neg ‹_›]
        exact h.dumps name d₁ t₁ hget hp }

theorem Agree.eraseDump (h : Agree p a b) (id : String) :
    Agree p { a with dumps := a.dumps.erase id } { b with dumps := b.dumps.erase id } :=
  { h with
    dumpTokens := fun name => by
      rw [Named.get?_erase, Named.get?_erase]
      split
      · rfl
      · exact h.dumpTokens name
    dumps := fun name d t hget hp => by
      rw [Named.get?_erase] at hget ⊢
      split at hget
      · cases hget
      · rw [if_neg ‹_›]
        exact h.dumps name d t hget hp }

theorem Agree.dumpStep (h : Agree p a b) (id : String)
    {f : Bool → Dump → Connection → Answer × Dump × Connection}
    (hf : ∀ cancelled, Uniform (f cancelled)) :
    Along p (∀ t, (a.dumps.get? id).map (·.2) = some t → ¬ p t) a b
      (a.dumpStep id f) (b.dumpStep id f) := by
  obtain ⟨ha, hb⟩ | ⟨d, d', t, ha, hb, hsame⟩ := h.dump_cases id
  · rw [Session.dumpStep, Session.dumpStep, ha, hb]
    exact h.along rfl rfl Answer.closed
  · obtain ⟨answer, d₁, log, n, hfa⟩ := hf (a.cancelled.contains t) d a.conn
    rw [Session.dumpStep, Session.dumpStep, ha, hb]
    simp only [hfa a.conn (.refl _)]
    by_cases hp : p t
    · -- The dumps may differ, and each goes its own way.
      obtain ⟨answer', d₁', log', n', hfb⟩ := hf (b.cancelled.contains t) d' b.conn
      simp only [hfb b.conn (.refl _)]
      refine ⟨{ h.withDump id (fun hn => absurd hp hn) with conn := ?_ },
        fun hs => absurd hp (hs t rfl)⟩
      exact h.conn.used_both _ _ _ _
    · obtain ⟨rfl, hcancelled⟩ := hsame hp
      simp only [← hcancelled, hfa b.conn h.conn.symm]
      refine ⟨{ h.withDump id (fun _ => rfl) with conn := ?_ },
        fun _ => .of_used rfl rfl rfl⟩
      exact h.conn.used_both _ _ _ _

theorem uniform_line (cancelled : Bool) : Uniform fun (d : Dump) conn =>
    (Answer.line (d.next cancelled conn).1, (d.next cancelled conn).2) := by
  intro d conn
  obtain ⟨result, d₁, log, n, hnext⟩ := d.next_uses cancelled conn
  exact ⟨.line result, d₁, log, n, fun c hc => by simp only [hnext c hc]⟩

theorem uniform_lines (cancelled : Bool) : Uniform fun (d : Dump) conn =>
    (Answer.lines (d.lines cancelled conn).1 (d.lines cancelled conn).2.1,
      (d.lines cancelled conn).2.2) := by
  intro d conn
  obtain ⟨texts, error, d₁, log, n, hlines⟩ := d.lines_uses cancelled conn
  exact ⟨.lines texts error, d₁, log, n, fun c hc => by simp only [hlines c hc]⟩

theorem uniform_print (sql : String) (settings : PrintSettings) (sink : Sink) :
    UniformQuestion fun conn =>
      (((conn.print sql settings sink).1, (conn.print sql settings sink).2.2),
        (conn.print sql settings sink).2.1) := by
  intro conn
  obtain ⟨error, log, n, out, hprint⟩ := conn.print_uses sql settings sink
  exact ⟨(error, out), log, n, fun c hc => by simp only [hprint c hc]⟩

theorem Agree.writeDump (h : Agree p a b) (cancelled cancelled' : Bool) (d d' : Dump)
    (sink : Sink) :
    Along p (cancelled = cancelled' ∧ d = d') a b
      (a.writeDump cancelled d sink) (b.writeDump cancelled' d' sink) := by
  obtain ⟨error, log, n, out, hwrite⟩ := d.write_uses cancelled a.conn sink
  obtain ⟨error', log', n', out', hwrite'⟩ := d'.write_uses cancelled' b.conn sink
  rw [Session.writeDump, Session.writeDump, hwrite a.conn (.refl _)]
  refine ⟨?_, ?_⟩
  · rw [hwrite' b.conn (.refl _)]
    refine { h with conn := ?_ }
    exact h.conn.used_both _ _ _ _
  · rintro ⟨rfl, rfl⟩
    rw [hwrite b.conn h.conn.symm]
    exact .of_used rfl rfl rfl

end Others

/-! ## Steps -/

section Steps

variable {p : Nat → Prop} {a b : Session}

theorem begin_conn (s : Session) (id : String) (statements : List Statement) (token : Nat) :
    (s.begin id statements token).conn = s.conn := by
  simp only [Session.begin, dropBatch_conn]

/-- **One step** keeps sessions in agreement, and does the same in both if it is spared. -/
theorem Agree.step (h : Agree p a b) (st : Step) :
    Along p (a.Spares p st ∧ b.Spares p st) a b (a.step st) (b.step st) := by
  cases st with
  | execute id sql name =>
    cases name with
    | none =>
      have hnew : Agree p a.newToken.2 b.newToken.2 :=
        { h with tokenCount := by simp only [newToken, h.tokenCount] }
      simp only [Session.step, newToken, h.tokenCount] at hnew ⊢
      exact Agree.along (a := a) (b := b) (hnew.begin id _ _) (begin_conn _ _ _ _)
        (begin_conn _ _ _ _) _
    | some name =>
      obtain ⟨htoken, hagree⟩ := h.token name
      simp only [Session.step, htoken]
      exact (hagree.begin id _ _).along (by rw [begin_conn, token_conn])
        (by rw [begin_conn, token_conn]) _
  | executeStatements id statements name =>
    obtain ⟨htoken, hagree⟩ := h.token (name.getD id)
    simp only [Session.step, htoken]
    exact (hagree.begin id _ _).along (by rw [begin_conn, token_conn])
      (by rw [begin_conn, token_conn]) _
  | next id => exact (h.next id).imp fun hs => hs.1.2
  | row id => exact (h.row id).imp fun hs => ⟨hs.1.2, hs.2.2⟩
  | take id n =>
    exact ((h.take id n).map Answer.several).imp fun hs => ⟨hs.1.2, hs.2.2⟩
  | rows id =>
    let told (read : Option (List Row × RowResult)) : Answer :=
      read.elim (.several [.closed]) fun read =>
        .several (read.1.map (.row <| .row ·) ++ [.row read.2])
    have hrows (s : Session) : s.step (.rows id) = (told (s.rest id).1, (s.rest id).2) := by
      rw [Session.step]
      rcases s.rest id with ⟨_ | ⟨cells, stop⟩, s'⟩ <;> rfl
    rw [hrows a, hrows b]
    exact ((h.rest id).map told).imp fun hs => ⟨hs.1.2, hs.2.2⟩
  | drain id =>
    let told (read : Option (List Row × RowResult)) : Answer :=
      read.elim .closed fun read => .row read.2
    have hdrain (s : Session) : s.step (.drain id) = (told (s.rest id).1, (s.rest id).2) := by
      rw [Session.step]
      rcases s.rest id with ⟨_ | ⟨cells, stop⟩, s'⟩ <;> rfl
    rw [hdrain a, hdrain b]
    exact ((h.rest id).map told).imp fun hs => ⟨hs.1.2, hs.2.2⟩
  | outcomes id => exact (h.outcomes id).imp fun hs => hs.1.2
  | dropRows id => exact ((h.dropResult id).map Answer.flag).imp fun hs => ⟨hs.1.2, hs.2.2⟩
  | drop id => exact ((h.dropBatch id).map Answer.flag).imp fun hs => hs.1.2
  | dropDump id =>
    have hsome : (a.dumps.get? id).isSome = (b.dumps.get? id).isSome := by
      obtain ⟨ha, hb⟩ | ⟨d, d', t, ha, hb, -⟩ := h.dump_cases id <;> simp [ha, hb]
    simp only [Session.step, hsome]
    exact Agree.along (a := a) (b := b) (h.eraseDump id) rfl rfl _
  | cancel id =>
    have htoken : ((a.executions.get? id).bind fun i => a.runs[i]?.map (·.token)) =
        (b.executions.get? id).bind fun i => b.runs[i]?.map (·.token) := by
      rw [h.executions]
      exact Option.bind_congr fun i _ => h.tokenAt i
    simp only [Session.step, htoken]
    cases (b.executions.get? id).bind fun i => b.runs[i]?.map (·.token) with
    | none =>
      have hrace : Agree p a.race b.race := { h with }
      exact Agree.along (a := a) (b := b) hrace rfl rfl _
    | some t => exact Agree.along (a := a) (b := b) (h.cancel t) rfl rfl _
  | cancelToken name =>
    obtain ⟨htoken, hagree⟩ := h.token name
    simp only [Session.step, htoken]
    exact (hagree.cancel _).along (token_conn a name) (token_conn b name) _
  | isCancelled name =>
    refine ⟨h, fun hs =>
      ⟨?_, [], 0, ⟨(List.append_nil _).symm, rfl⟩, (List.append_nil _).symm, rfl⟩⟩
    simp only [Session.step, ← h.tokens]
    cases ht : a.tokens.get? name with
    | none => rfl
    | some t => rw [Option.any_some, Option.any_some, h.cancelled t (hs.1.2 t ht)]
  | log => exact ⟨h, fun hs => absurd rfl hs.1.1⟩
  | breakConnection =>
    refine ⟨{ h with conn := ⟨h.conn.backend, rfl⟩ }, fun _ => ⟨rfl, [], 0, ?_, ?_⟩⟩
    · exact ⟨(List.append_nil _).symm, rfl⟩
    · exact ⟨(List.append_nil _).symm, rfl⟩
  | print sql settings sink =>
    exact (h.ask (uniform_print sql settings sink) fun printed =>
      .output printed.1 printed.2).imp fun _ => trivial
  | printRest id settings sink => exact (h.printRest id settings sink).imp fun hs => hs.1.2
  | printSet id layout sink =>
    exact (h.printSet id layout sink).imp fun hs => ⟨hs.1.2, hs.2.2⟩
  | tables _ | tableDefinitions _ | views | indexes _ | schema _ _ =>
    exact (h.ask (fun conn => conn.ask_uses _ _) _).imp fun _ => trivial
  | dump id settings =>
    have hdump := h.withDump id fun _ : ¬ p b.tokenCount => (rfl : ({ settings } : Dump) = _)
    simp only [Session.step, newToken, h.tokenCount]
    have hnamed : Agree p
        { a with
          dumps := a.dumps.put id ({ settings }, b.tokenCount)
          tokens := a.tokens.put id b.tokenCount
          tokenCount := b.tokenCount + 1 }
        { b with
          dumps := b.dumps.put id ({ settings }, b.tokenCount)
          tokens := b.tokens.put id b.tokenCount
          tokenCount := b.tokenCount + 1 } :=
      { hdump with tokens := by rw [h.tokens], tokenCount := rfl }
    exact Agree.along (a := a) (b := b) hnamed rfl rfl _
  | line id => exact (h.dumpStep id uniform_line).imp fun hs => hs.1.2
  | lines id => exact (h.dumpStep id uniform_lines).imp fun hs => hs.1.2
  | writeDump id sink =>
    rw [Session.step, Session.step]
    obtain ⟨ha, hb⟩ | ⟨d, d', t, ha, hb, hsame⟩ := h.dump_cases id
    · rw [ha, hb]
      exact h.along rfl rfl _
    · rw [ha, hb]
      have hwrite := (h.eraseDump id).writeDump (a.cancelled.contains t) (b.cancelled.contains t)
        d d' sink
      refine ⟨hwrite.agree, fun hs => ?_⟩
      obtain ⟨hd, hcancelled⟩ := hsame (hs.1.2 t (by simp [tokenOf?, ha]))
      exact ⟨(hwrite.same ⟨hcancelled, hd⟩).answer, (hwrite.same ⟨hcancelled, hd⟩).use⟩
  | writeNewDump settings sink =>
    exact (h.writeDump false false { settings } { settings } sink).imp fun _ => ⟨rfl, rfl⟩

/-- **Any number of steps** keep sessions in agreement. -/
theorem Agree.run (h : Agree p a b) (steps : List Step) :
    Agree p (a.run steps).2 (b.run steps).2 := by
  induction steps generalizing a b with
  | nil => exact h
  | cons st steps ih => exact ih (h.step st).agree

end Steps

end Session

end SqlConsole
