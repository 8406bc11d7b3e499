import SqlConsole.Proofs.Batch.Use
import SqlConsole.Proofs.Session.Fading

/-!
# Agreement

Two sessions on the same database agree (`Session.Agree`) if they differ in nothing but what was
done under certain tokens: the batches and dumps under these tokens may have come further in one of
them, and the connections may have been used differently. A request that is made in both keeps them
in agreement. If the batch that it is made to is under none of the tokens, it is answered in the same
way in both and adds the same to what the connections were used for (`Session.Same`).

Requests are made by name, and what a name stands for may depend on what was done under the tokens;
`Agree.request` says what is needed of the two batches.
-/

namespace SqlConsole

/-- A request that does the same on all connections to a database. -/
def Uniform {α β : Type} (f : β → Connection → α × β × Connection) : Prop :=
  ∀ b conn, ∃ a b₁ log n, ∀ c : Connection, c.Alike conn → f b c = (a, b₁, c.used log n)

/-- A question that is answered in the same way on all connections to a database. -/
def UniformQuestion {α : Type} (f : Connection → α × Connection) : Prop :=
  ∀ conn, ∃ a log n, ∀ c : Connection, c.Alike conn → f c = (a, c.used log n)

namespace Session

/-- The token of a batch. -/
def tokenAt? (s : Session) (i : Nat) : Option Nat := s.runs[i]?.map (·.token)

/-- The token that a step has to do with: that of the batch or of the dump it is about, or the one
it asks for. -/
def tokenOf? (s : Session) : Step → Option Nat
  | .line id | .lines id | .writeDump id _ | .dropDump id => (s.dumps.get? id).map (·.2)
  | .isCancelled name => s.tokens.get? name
  | step => (s.subject? step).bind s.tokenAt?

/-- A step that has nothing to do with certain tokens. What was run on the connection is known of
all of them together. -/
def Spares (s : Session) (p : Nat → Prop) (step : Step) : Prop :=
  step ≠ .log ∧ ∀ t, s.tokenOf? step = some t → ¬ p t

/-- What a connection was used for in addition. -/
def Used (s s' : Session) (log : List String) (rows : Nat) : Prop :=
  s'.conn.log = s.conn.log ++ log ∧ s'.conn.fetched = s.conn.fetched + rows

/-- The same was answered in two sessions, and the same statements were run and the same number of
rows fetched for it. -/
structure Same {α : Type} (a b : Session) (x y : α × Session) : Prop where
  answer : x.1 = y.1
  use : ∃ log n, a.Used x.2 log n ∧ b.Used y.2 log n

/-- Sessions on the same database that may differ in what was done under the tokens in `p`. -/
structure Agree (p : Nat → Prop) (a b : Session) : Prop where
  conn : a.conn.Alike b.conn
  tokenAt : ∀ i, a.tokenAt? i = b.tokenAt? i
  length : a.runs.length = b.runs.length
  runs : ∀ i t, a.tokenAt? i = some t → ¬ p t → a.runs[i]? = b.runs[i]?
  executions : a.executions = b.executions
  results : ∀ i, (∀ t, a.tokenAt? i = some t → ¬ p t) → ∀ id columns,
    a.results.get? id = some (i, columns) ↔ b.results.get? id = some (i, columns)
  dumpTokens : ∀ id, (a.dumps.get? id).map (·.2) = (b.dumps.get? id).map (·.2)
  dumps : ∀ id d t, a.dumps.get? id = some (d, t) → ¬ p t → b.dumps.get? id = some (d, t)
  tokens : a.tokens = b.tokens
  tokenCount : a.tokenCount = b.tokenCount
  cancelled : ∀ t, ¬ p t → a.cancelled.contains t = b.cancelled.contains t

/-- What comes of doing the same in two sessions: they still agree, and if what was done is spared
the same was done in both. -/
structure Along {α : Type} (p : Nat → Prop) (spared : Prop) (a b : Session) (x y : α × Session) :
    Prop where
  agree : Agree p x.2 y.2
  same : spared → Same a b x y

section Agreement

variable {p : Nat → Prop} {a b a' b' : Session} {α : Type}

theorem Agree.symm (h : Agree p a b) : Agree p b a where
  conn := h.conn.symm
  tokenAt i := (h.tokenAt i).symm
  length := h.length.symm
  runs i t ht hp := (h.runs i t ((h.tokenAt i).trans ht) hp).symm
  executions := h.executions.symm
  results i hi id columns := (h.results i (fun t ht => hi t (h.tokenAt i ▸ ht)) id columns).symm
  dumpTokens id := (h.dumpTokens id).symm
  dumps id d t hd hp := by
    -- The other session has a dump of that name under the same token.
    have htoken := h.dumpTokens id
    rw [hd] at htoken
    obtain ⟨⟨d', t'⟩, hd', rfl⟩ := Option.map_eq_some_iff.mp htoken
    rw [hd', ← hd, h.dumps id d' t' hd' hp]
  tokens := h.tokens.symm
  tokenCount := h.tokenCount.symm
  cancelled t hp := (h.cancelled t hp).symm

/-- The same was answered, and the same added to what the connections were used for. -/
theorem Same.of_used {x y : α × Session} {log : List String} {n : Nat} (h : x.1 = y.1)
    (hx : x.2.conn = a.conn.used log n) (hy : y.2.conn = b.conn.used log n) : Same a b x y := by
  refine ⟨h, log, n, ⟨?_, ?_⟩, ?_, ?_⟩
  · rw [hx, Connection.used]
  · rw [hx, Connection.used]
  · rw [hy, Connection.used]
  · rw [hy, Connection.used]

/-- The same was answered, and the connections were not used. -/
theorem Same.of_conn_eq {x y : α × Session} (h : x.1 = y.1) (hx : x.2.conn = a.conn)
    (hy : y.2.conn = b.conn) : Same a b x y :=
  .of_used h (by rw [hx, Connection.used_nil]) (by rw [hy, Connection.used_nil])

theorem Along.imp {spared spared' : Prop} {x y : α × Session} (h : Along p spared a b x y)
    (hs : spared' → spared) : Along p spared' a b x y :=
  ⟨h.agree, fun hspared => h.same (hs hspared)⟩

/-- What is done besides, without the connections, counts for the agreement only. -/
theorem Along.besides {β : Type} {spared : Prop} {x y : α × Session} (h : Along p spared a b x y)
    (g : α → β) (hagree : Agree p a' b') (ha : a'.conn = x.2.conn) (hb : b'.conn = y.2.conn) :
    Along p spared a b (g x.1, a') (g y.1, b') := by
  refine ⟨hagree, fun hs => ?_⟩
  obtain ⟨hanswer, huse⟩ := h.same hs
  refine ⟨congrArg g hanswer, ?_⟩
  simpa only [Used, ha, hb] using huse

theorem Along.map {β : Type} {spared : Prop} {x y : α × Session} (g : α → β)
    (h : Along p spared a b x y) : Along p spared a b (g x.1, x.2) (g y.1, y.2) :=
  h.besides g h.agree rfl rfl

/-- Nothing was done that uses the connections. -/
theorem Agree.along {spared : Prop} (h : Agree p a' b') (ha : a'.conn = a.conn)
    (hb : b'.conn = b.conn) (answer : α) : Along p spared a b (answer, a') (answer, b') :=
  ⟨h, fun _ => .of_conn_eq rfl ha hb⟩

/-- One thing is done after the other. -/
theorem Along.then {β γ : Type} {spared spared' : Prop} {x y : α × Session} {x' y' : β × Session}
    (h : Along p spared a b x y) (h' : Along p spared' x.2 y.2 x' y') (hs : spared → spared')
    (g : α → β → γ) : Along p spared a b (g x.1 x'.1, x'.2) (g y.1 y'.1, y'.2) := by
  refine ⟨h'.agree, fun hspared => ?_⟩
  obtain ⟨hanswer, log, n, ⟨halog, harows⟩, hblog, hbrows⟩ := h.same hspared
  obtain ⟨hanswer', log', m, ⟨halog', harows'⟩, hblog', hbrows'⟩ := h'.same (hs hspared)
  refine ⟨by rw [hanswer, hanswer'], log ++ log', n + m, ⟨?_, ?_⟩, ?_, ?_⟩
  · rw [halog', halog, List.append_assoc]
  · rw [harows', harows, Nat.add_assoc]
  · rw [hblog', hblog, List.append_assoc]
  · rw [hbrows', hbrows, Nat.add_assoc]

end Agreement

/-! ## Requests to batches -/

/-- Nothing was done but requests to batches. -/
structure Framed (s s' : Session) : Prop where
  tokenAt : ∀ i, s'.tokenAt? i = s.tokenAt? i
  length : s'.runs.length = s.runs.length
  executions : s'.executions = s.executions
  results : s'.results = s.results
  dumps : s'.dumps = s.dumps
  tokens : s'.tokens = s.tokens
  tokenCount : s'.tokenCount = s.tokenCount
  cancelled : s'.cancelled = s.cancelled

theorem Framed.refl (s : Session) : Framed s s := ⟨fun _ => rfl, rfl, rfl, rfl, rfl, rfl, rfl, rfl⟩

section Act

variable {α : Type} (s : Session) (i : Nat) (missing : α)
  (f : Bool → Batch → Connection → α × Batch × Connection)

theorem framed_act : Framed s (s.act i missing f).2 where
  tokenAt k := by
    rw [tokenAt?, tokenAt?, act_runs, List.getElem?_modify]
    cases s.runs[k]? with
    | none => rfl
    | some r => by_cases hk : i = k <;> simp [hk]
  length := by rw [act_runs, List.length_modify]
  executions := act_executions s i missing f
  results := act_results s i missing f
  dumps := act_dumps s i missing f
  tokens := act_tokens s i missing f
  tokenCount := act_tokenCount s i missing f
  cancelled := act_cancelled s i missing f

/-- A request to one batch leaves the others alone. -/
theorem act_runs_of_ne {k : Nat} (h : i ≠ k) :
    (s.act i missing f).2.runs[k]? = s.runs[k]? := by
  rw [act_runs, List.getElem?_modify_ne _ _ h]

end Act

section Requests

variable {p : Nat → Prop} {a b a' b' : Session} {α : Type}

/-- After requests to batches it remains to look at the connections and at the batches. -/
theorem Agree.framed (h : Agree p a b) (ha : Framed a a') (hb : Framed b b')
    (hconn : a'.conn.Alike b'.conn)
    (hruns : ∀ i t, a.tokenAt? i = some t → ¬ p t → a'.runs[i]? = b'.runs[i]?) :
    Agree p a' b' where
  conn := hconn
  tokenAt i := by rw [ha.tokenAt, hb.tokenAt, h.tokenAt]
  length := by rw [ha.length, hb.length, h.length]
  runs i t ht := hruns i t (ha.tokenAt i ▸ ht)
  executions := by rw [ha.executions, hb.executions, h.executions]
  results i hi id columns := by
    rw [ha.results, hb.results]
    exact h.results i (fun t ht => hi t ((ha.tokenAt i).trans ht)) id columns
  dumpTokens id := by rw [ha.dumps, hb.dumps, h.dumpTokens]
  dumps id d t := by
    rw [ha.dumps, hb.dumps]
    exact h.dumps id d t
  tokens := by rw [ha.tokens, hb.tokens, h.tokens]
  tokenCount := by rw [ha.tokenCount, hb.tokenCount, h.tokenCount]
  cancelled t hp := by rw [ha.cancelled, hb.cancelled, h.cancelled t hp]

/-- A request to a batch under one of the tokens makes no difference to anything else. -/
theorem Agree.act_left (h : Agree p a b) {i t : Nat} (ht : a.tokenAt? i = some t) (hp : p t)
    (missing : α) {f : Bool → Batch → Connection → α × Batch × Connection}
    (hf : ∀ cancelled, Uniform (f cancelled)) : Agree p (a.act i missing f).2 b := by
  have hconn : (a.act i missing f).2.conn.Alike a.conn := by
    rw [act]
    cases a.runs[i]? with
    | none => exact .refl _
    | some r =>
      obtain ⟨answer, b₁, log, n, huses⟩ := hf (a.cancelled.contains r.token) r.batch a.conn
      simp only [huses a.conn (.refl _)]
      exact .used _ _ _
  refine h.framed (framed_act a i missing f) (.refl b) (hconn.trans h.conn) fun k t' ht' hp' => ?_
  have hne : i ≠ k := by
    rintro rfl
    rw [ht] at ht'
    exact hp' (Option.some.inj ht' ▸ hp)
  rw [act_runs_of_ne a i missing f hne]
  exact h.runs k t' ht' hp'

/-- A request to another batch is answered in the same way. -/
theorem Agree.act_both (h : Agree p a b) {i : Nat} (hi : ∀ t, a.tokenAt? i = some t → ¬ p t)
    (missing : α) {f : Bool → Batch → Connection → α × Batch × Connection}
    (hf : ∀ cancelled, Uniform (f cancelled)) :
    Along p True a b (a.act i missing f) (b.act i missing f) := by
  cases hrun : a.runs[i]? with
  | none =>
    have hrun' : b.runs[i]? = none := by
      have htoken := h.tokenAt i
      rw [tokenAt?, hrun] at htoken
      exact Option.map_eq_none_iff.mp htoken.symm
    rw [act, act, hrun, hrun']
    exact ⟨h, fun _ => .of_conn_eq rfl rfl rfl⟩
  | some r =>
    have htoken : a.tokenAt? i = some r.token := by rw [tokenAt?, hrun, Option.map_some]
    have hspared := hi r.token htoken
    have hrun' : b.runs[i]? = some r := by rw [← h.runs i r.token htoken hspared, hrun]
    obtain ⟨answer, b₁, log, n, huses⟩ := hf (a.cancelled.contains r.token) r.batch a.conn
    have hact (s : Session) (hs : s.runs[i]? = some r) (hconn : s.conn.Alike a.conn)
        (hcancelled : s.cancelled.contains r.token = a.cancelled.contains r.token) :
        s.act i missing f =
          (answer, { s with conn := s.conn.used log n, runs := s.runs.set i ⟨b₁, r.token⟩ }) := by
      rw [act, hs]
      simp only [hcancelled, huses s.conn hconn]
    -- It is the same batch on both sides, and as cancelled, so one equation does for both.
    have hacta := hact a hrun (.refl _) rfl
    have hactb := hact b hrun' h.conn.symm (h.cancelled r.token hspared).symm
    refine ⟨h.framed (framed_act a i missing f) (framed_act b i missing f) ?_ ?_, fun _ => ?_⟩
    · rw [hacta, hactb]
      exact h.conn.used_both _ _ _ _
    · intro k t ht hp
      by_cases hk : i = k
      · subst hk
        have hlt : i < a.runs.length := (List.getElem?_eq_some_iff.mp hrun).1
        rw [hacta, hactb, List.getElem?_set_self hlt, List.getElem?_set_self (h.length ▸ hlt)]
      · rw [act_runs_of_ne a i missing f hk, act_runs_of_ne b i missing f hk, h.runs k t ht hp]
    · rw [hacta, hactb]
      exact .of_used rfl rfl rfl

/-- A request to the batch that a name stands for, if it stands for one. -/
def request (s : Session) (missing : α) :
    Option (Nat × (Bool → Batch → Connection → α × Batch × Connection)) → Option α × Session
  | none => (none, s)
  | some (i, f) => (some (s.act i missing f).1, (s.act i missing f).2)

/-- No batch, or one under a token that is not in `p`. -/
def Free (s : Session) (p : Nat → Prop) (i : Option Nat) : Prop :=
  ∀ t, i.bind s.tokenAt? = some t → ¬ p t

variable {o o' : Option (Nat × (Bool → Batch → Connection → α × Batch × Connection))}

theorem Framed.free_iff {s s' : Session} (h : Framed s s') {i : Option Nat} :
    s'.Free p i ↔ s.Free p i := by
  rw [Free, Free, show s'.tokenAt? = s.tokenAt? from funext h.tokenAt]

theorem framed_request (s : Session) (missing : α) : Framed s (s.request missing o).2 := by
  rcases o with _ | ⟨i, f⟩
  · exact .refl s
  · exact framed_act s i missing f

theorem Agree.request_left (h : Agree p a b) (missing : α)
    (hp : ∀ i f, o = some (i, f) → ¬ a.Free p (some i))
    (hf : ∀ i f, o = some (i, f) → ∀ cancelled, Uniform (f cancelled)) :
    Agree p (a.request missing o).2 b := by
  rcases o with _ | ⟨i, f⟩
  · exact h
  · have hfree := hp i f rfl
    simp only [Free, Option.bind_some, not_forall, not_not] at hfree
    obtain ⟨t, ht, hpt⟩ := hfree
    exact h.act_left ht hpt missing (hf i f rfl)

/-- **A request by name.** The name may stand for different batches, or for one in only one of the
sessions, as long as all these batches are under the tokens. -/
theorem Agree.request (h : Agree p a b) (missing : α)
    (ho : ∀ i f, a.Free p (some i) → (o = some (i, f) ↔ o' = some (i, f)))
    (hf : ∀ i f, o = some (i, f) → ∀ cancelled, Uniform (f cancelled))
    (hf' : ∀ i f, o' = some (i, f) → ∀ cancelled, Uniform (f cancelled)) :
    Along p (a.Free p (o.map (·.1)) ∧ b.Free p (o'.map (·.1))) a b
      (a.request missing o) (b.request missing o') := by
  have hfree (i : Nat) : b.Free p (some i) ↔ a.Free p (some i) := by
    simp only [Free, Option.bind_some, h.tokenAt i]
  by_cases hspared : ∃ i f, o = some (i, f) ∧ a.Free p (some i)
  · obtain ⟨i, f, rfl, hi⟩ := hspared
    obtain rfl := (ho i f hi).mp rfl
    obtain ⟨hagree, hsame⟩ := h.act_both hi missing (hf i f rfl)
    obtain ⟨hanswer, huse⟩ := hsame trivial
    exact ⟨hagree, fun _ => ⟨congrArg some hanswer, huse⟩⟩
  · -- Neither side makes a request to a batch that is free of the tokens.
    have hp : ∀ i f, o = some (i, f) → ¬ a.Free p (some i) :=
      fun i f hi hfree => hspared ⟨i, f, hi, hfree⟩
    have hp' : ∀ i f, o' = some (i, f) → ¬ b.Free p (some i) := fun i f hi hb =>
      hp i f ((ho i f ((hfree i).mp hb)).mpr hi) ((hfree i).mp hb)
    -- Each request by itself leaves all else alone: first the one on the left, then the other.
    have hleft := h.request_left missing hp hf
    have hboth := (hleft.symm.request_left missing hp' hf').symm
    refine ⟨hboth, fun ⟨hfa, hfb⟩ => ?_⟩
    rcases o with _ | ⟨i, f⟩
    · rcases o' with _ | ⟨j, g⟩
      · exact .of_conn_eq rfl rfl rfl
      · exact absurd hfb (hp' j g rfl)
    · exact absurd hfa (hp i f rfl)

/-- A request to the batch whose current result set is held under a name. -/
def requestSet (s : Session) (id : String) (missing : α)
    (f : List String → Bool → Batch → Connection → α × Batch × Connection) : Option α × Session :=
  s.request missing ((s.results.get? id).map fun e => (e.1, f e.2))

theorem framed_requestSet (s : Session) (id : String) (missing : α)
    (f : List String → Bool → Batch → Connection → α × Batch × Connection) :
    Framed s (s.requestSet id missing f).2 :=
  framed_request s missing

theorem Agree.requestSet (h : Agree p a b) (id : String) (missing : α)
    {f : List String → Bool → Batch → Connection → α × Batch × Connection}
    (hf : ∀ columns cancelled, Uniform (f columns cancelled)) :
    Along p (a.Free p (a.holder? id) ∧ b.Free p (b.holder? id)) a b
      (a.requestSet id missing f) (b.requestSet id missing f) := by
  have huniform (s : Session) : ∀ i g,
      (s.results.get? id).map (fun e => (e.1, f e.2)) = some (i, g) →
        ∀ cancelled, Uniform (g cancelled) := by
    intro i g hg
    obtain ⟨e, -, he⟩ := Option.map_eq_some_iff.mp hg
    obtain ⟨-, rfl⟩ := Prod.mk.inj he
    exact hf e.2
  have hrequest := h.request missing (fun i g hi => ?_) (huniform a) (huniform b)
  · simp only [Option.map_map, Function.comp_def] at hrequest
    exact hrequest
  · have hresults := h.results i hi id
    simp only [Option.map_eq_some_iff, Prod.mk.injEq, Prod.exists]
    constructor
    · rintro ⟨j, columns, he, rfl, rfl⟩
      exact ⟨j, columns, (hresults columns).mp he, rfl, rfl⟩
    · rintro ⟨j, columns, he, rfl, rfl⟩
      exact ⟨j, columns, (hresults columns).mpr he, rfl, rfl⟩

/-- A request to the batch of a name. -/
def requestBatch (s : Session) (id : String) (missing : α)
    (f : Bool → Batch → Connection → α × Batch × Connection) : Option α × Session :=
  s.request missing ((s.executions.get? id).map (·, f))

theorem framed_requestBatch (s : Session) (id : String) (missing : α)
    (f : Bool → Batch → Connection → α × Batch × Connection) :
    Framed s (s.requestBatch id missing f).2 :=
  framed_request s missing

theorem Agree.requestBatch (h : Agree p a b) (id : String) (missing : α)
    {f : Bool → Batch → Connection → α × Batch × Connection}
    (hf : ∀ cancelled, Uniform (f cancelled)) :
    Along p (a.Free p (a.executions.get? id)) a b
      (a.requestBatch id missing f) (b.requestBatch id missing f) := by
  have huniform : ∀ i g, (b.executions.get? id).map (·, f) = some (i, g) →
      ∀ cancelled, Uniform (g cancelled) := by
    intro i g hg
    obtain ⟨j, -, hj⟩ := Option.map_eq_some_iff.mp hg
    obtain ⟨-, rfl⟩ := Prod.mk.inj hj
    exact hf
  have hrequest := h.request missing (fun i g _ => Iff.rfl) huniform huniform
  rw [Session.requestBatch, Session.requestBatch, h.executions]
  refine ⟨hrequest.agree, fun hs => hrequest.same ?_⟩
  simp only [Option.map_map, Function.comp_def, Option.map_id']
  refine ⟨hs, fun t ht => hs t ?_⟩
  obtain ⟨i, hi, ht⟩ := Option.bind_eq_some_iff.mp ht
  exact Option.bind_eq_some_iff.mpr ⟨i, hi, (h.tokenAt i).trans ht⟩

end Requests

end Session

end SqlConsole
