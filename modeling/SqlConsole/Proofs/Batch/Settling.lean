import SqlConsole.Proofs.Batch.Safety
import SqlConsole.Proofs.Batch.Worker

/-!
# Where the worker of a batch comes to rest

Left alone, the worker comes to rest at a stage of the batch (`Engine.At`, `Engine.Settles`). Once a
result set was asked for, it comes to the point where the consumer is told what the batch answers,
and from there to rest (`Engine.Foretells`). Both are shown backwards, from where the worker rests
to the points on its way there: to the end of a result set first (`settles_fetching`), and from that
through statements that have nothing to show to one that has (`foretells_waiting`).

It does not matter how far the worker has come: a step on its way changes nothing of where it comes
to rest or of what the consumer is told (`Settles.work`, `Foretells.work`).
-/

namespace SqlConsole

open Batch (Use)

namespace Engine

/-! ## Where the worker rests -/

/-- The worker rests at a stage of the batch. -/
inductive At (e : Engine) : Stage → Prop
  | idle : e.point = .waiting → e.todo ≠ [] → e.abandoned = false → At e .idle
  /-- The last statement is over, and nobody has asked for more yet. -/
  | through : e.point = .gone → e.todo = [] → At e .idle
  | offering {set rest} :
      e.point = .offering set rest → e.abandoned = false → At e (.offering set rest)
  | streaming {row rows rest} :
      e.point = .streaming row rows rest → e.receiver = true → At e (.streaming row rows rest)
  | failing {error} : e.point = .failing error → e.receiver = true → At e (.failing error)
  | refused {error} : e.point = .refusing error → e.abandoned = false → At e (.refused error)
  | ended : e.point = .gone → At e .ended

/-- The batch of an engine at a stage. -/
def use (e : Engine) (stage : Stage) : Use := ⟨⟨e.todo, stage, e.abandoned⟩, e.conn, e.cancelled⟩

def Rests (e : Engine) (u : Use) : Prop := ∃ stage, e.At stage ∧ u = e.use stage

/-- Left alone, the worker comes to rest. -/
def Settles (e : Engine) (u : Use) : Prop := ∃ r, Works e r ∧ r.Rests u

/-- Left alone, the worker comes to where the consumer is told something, and then to rest. -/
def Foretells (e : Engine) (a : NextResult) (u : Use) : Prop :=
  ∃ r r', Works e r ∧ r.set? = some (a, r') ∧ r'.Settles u

section Ways

variable {e e' : Engine} {u : Use} {a : NextResult}

theorem At.settles {stage : Stage} (h : e.At stage) : e.Settles (e.use stage) :=
  ⟨e, .refl, stage, h, rfl⟩

theorem At.congr {stage : Stage} (h : e.At stage) (hpoint : e'.point = e.point)
    (htodo : e'.todo = e.todo) (habandoned : e'.abandoned = e.abandoned)
    (hreceiver : e'.receiver = e.receiver) : e'.At stage := by
  cases h with
  | idle hp ht hk => exact .idle (hpoint.trans hp) (htodo ▸ ht) (habandoned.trans hk)
  | through hp ht => exact .through (hpoint.trans hp) (htodo.trans ht)
  | offering hp hk => exact .offering (hpoint.trans hp) (habandoned.trans hk)
  | streaming hp hr => exact .streaming (hpoint.trans hp) (hreceiver.trans hr)
  | failing hp hr => exact .failing (hpoint.trans hp) (hreceiver.trans hr)
  | refused hp hk => exact .refused (hpoint.trans hp) (habandoned.trans hk)
  | ended hp => exact .ended (hpoint.trans hp)

/-- Only a worker that is gone rests at more than one stage. -/
theorem At.unique {stage stage' : Stage} (h : e.At stage) (h' : e.At stage')
    (hp : e.point ≠ .gone) : stage = stage' := by
  cases h <;> cases h' <;> simp_all

theorem Settles.of_works (hw : Works e e') (h : e'.Settles u) : e.Settles u := by
  obtain ⟨r, hr, hu⟩ := h
  exact ⟨r, hw.trans hr, hu⟩

theorem Foretells.of_works (hw : Works e e') (h : e'.Foretells a u) : e.Foretells a u := by
  obtain ⟨r, r', hr, hset, hu⟩ := h
  exact ⟨r, r', hw.trans hr, hset, hu⟩

/-! ## To the end of a result set -/

theorem settles_waiting (hp : e.point = .waiting) :
    e.Settles (e.use (if e.abandoned then .ended else .idle)) := by
  cases hk : e.abandoned with
  | true =>
    have hw : e.work? = some e.quit := by cases ht : e.todo <;> simp [work?, hp, hk, ht]
    exact .of_works (.single hw) (At.ended rfl).settles
  | false =>
    cases htodo : e.todo with
    | nil =>
      have hw : e.work? = some e.quit := by simp [work?, hp, htodo]
      exact .of_works (.single hw) (At.through (e := e.quit) rfl htodo).settles
    | cons sql todo => exact (At.idle hp (by simp [htodo]) hk).settles

/-- Behind the last row of a result set. -/
theorem settles_opening {rest : Remainder} (hp : e.point = .opening rest)
    (hsender : e.sender = true) (hreceiver : e.receiver = true) :
    e.Settles (e.use (.settle e.cancelled e.abandoned rest)) := by
  obtain ⟨point, todo, conn, requested, delivered, abandoned, asked, sender, receiver, cancelled,
    armed, interrupted⟩ := e
  obtain ⟨sets, failure⟩ := rest
  simp only at hp hsender hreceiver
  subst hp hsender hreceiver
  rcases sets with _ | ⟨set, sets⟩
  · rcases failure with _ | message
    · exact .of_works (.head rfl <| .head rfl <| .single rfl) (settles_waiting rfl)
    · exact .of_works (.head rfl <| .head rfl <| .single rfl) (At.failing rfl rfl).settles
  · cases cancelled <;> cases abandoned
    · exact .of_works (.single rfl) (At.offering rfl rfl).settles
    · exact .of_works (.head rfl <| .head rfl <| .head rfl <| .single rfl) (At.ended rfl).settles
    · exact .of_works (.head rfl <| .head rfl <| .single rfl) (At.refused rfl rfl).settles
    · exact .of_works (.head rfl <| .head rfl <| .head rfl <| .single rfl) (At.ended rfl).settles

theorem settles_fetching (h : e.Sound) {rows : Rows} {rest : Remainder}
    (hp : e.point = .fetching rows rest) (hreceiver : e.receiver = true) (stage : Stage) :
    let fetched := Batch.fetch e.cancelled ⟨e.todo, stage, e.abandoned⟩ rows rest e.conn
    e.Settles ⟨fetched.1, fetched.2, e.cancelled⟩ := by
  have hsender : e.sender = true := h.sender true (by rw [hp]; rfl)
  have hinterrupted : e.interrupted = e.cancelled :=
    Bool.eq_iff_iff.mpr ⟨h.interrupted, h.noted (by rw [hp]; rfl)⟩
  have hw : e.work? = some (e.onRow rest rows.next?) := by rw [work?, hp]
  refine .of_works (.single hw) ?_
  rw [Batch.fetch]
  cases rows.next? with
  | none => exact settles_opening rfl hsender hreceiver
  | some p =>
    obtain ⟨row, rows'⟩ := p
    obtain ⟨point, todo, conn, requested, delivered, abandoned, asked, sender, receiver, cancelled,
      armed, interrupted⟩ := e
    simp only at hsender hreceiver hinterrupted
    subst hsender hreceiver hinterrupted
    cases interrupted
    · exact .of_works (.single rfl) (At.streaming rfl rfl).settles
    · exact .of_works (.head rfl <| .single rfl) (At.failing rfl rfl).settles

/-- A statement whose rows nobody takes any more is broken off. -/
theorem works_dropped {row : Row} {rows : Rows} {rest : Remainder}
    (hp : e.point = .streaming row rows rest) (hreceiver : e.receiver = false) :
    Works e { e with point := .waiting, sender := false, armed := false } := by
  obtain ⟨point, todo, conn, requested, delivered, abandoned, asked, sender, receiver, cancelled,
    armed, interrupted⟩ := e
  simp only at hp hreceiver
  subst hp hreceiver
  exact .head rfl <| .head rfl <| .single rfl

/-! ## To the answer to a request -/

/-- A consumer who is told something has a sound engine again. -/
theorem Sound.tell (h : e.Sound) (hasked : e.asked = true) (hset : e.set? = some (a, e')) :
    e'.Sound := by
  obtain ⟨point, todo, conn, requested, delivered, abandoned, asked, sender, receiver, cancelled,
    armed, interrupted⟩ := e
  obtain ⟨hcounted, hbegun, harmed, hinterrupted, hnoted, hsender, htold, hasking⟩ := h
  cases point <;> simp only [set?] at hset <;> cases hset <;> constructor <;>
    simp_all [Point.due, Point.begins, Point.running, Point.reading, Point.sender?,
      Point.telling]

theorem foretells_gone (hp : e.point = .gone) : e.Foretells .done (e.use .ended) :=
  ⟨e, { e with asked := false }, .refl, by rw [set?, hp],
    { e with asked := false }, .refl, .ended, .ended hp, rfl⟩

theorem foretells_refusing {error : Error} (hp : e.point = .refusing error) :
    e.Foretells (.error error) (e.use .ended) :=
  ⟨e, { e with point := .refused, asked := false }, .refl, by rw [set?, hp],
    .of_works (.single rfl) (At.ended rfl).settles⟩

theorem foretells_offering (h : e.Sound) (hasked : e.asked = true) {set : ResultSet}
    {rest : Remainder} (hp : e.point = .offering set rest) (stage : Stage) :
    let fetched := Batch.fetch e.cancelled ⟨e.todo, stage, e.abandoned⟩ set.rows rest e.conn
    e.Foretells (.columns set.columns) ⟨fetched.1, fetched.2, e.cancelled⟩ := by
  have hset : e.set? = some (.columns set.columns,
      { e with point := .opened set rest, asked := false, sender := true, receiver := true }) := by
    rw [set?, hp]
  have hsound := (h.tell hasked hset).work rfl
  exact ⟨e, _, .refl, hset, .of_works (.single rfl) (settles_fetching hsound rfl rfl stage)⟩

/-- A statement that has failed with no result set open. -/
theorem foretells_disarming {message : String} (hp : e.point = .disarming none (some message))
    (hsender : e.sender = false) :
    e.Foretells (.error (if e.cancelled then .cancelled else .ofBackend message))
      (e.use .ended) := by
  obtain ⟨point, todo, conn, requested, delivered, abandoned, asked, sender, receiver, cancelled,
    armed, interrupted⟩ := e
  simp only at hp hsender
  subst hp hsender
  exact .of_works (.head rfl <| .single rfl) (foretells_refusing rfl)

/-- What the worker makes of the reply to a statement, one way for each that a batch may go on. -/
theorem works_onReply (reply : Reply) (hsender : e.sender = false) (hc : e.cancelled = false) :
    (∀ message, reply.rejection? = some message →
      Works (e.onReply reply) { e with point := .disarming none (some message) }) ∧
    (∀ set sets, reply.rejection? = none → reply.sets = set :: sets →
      Works (e.onReply reply) { e with point := .offering set ⟨sets, reply.failure⟩ }) ∧
    (reply.rejection? = none → reply.sets = [] →
      Works (e.onReply reply) { e with point := .waiting, armed := false }) := by
  obtain ⟨point, todo, conn, requested, delivered, abandoned, asked, sender, receiver, cancelled,
    armed, interrupted⟩ := e
  simp only at hsender hc
  subst hsender hc
  refine ⟨fun message h => ?_, fun set sets h hs => ?_, fun h hs => ?_⟩
  · rcases Reply.rejection?_eq_some_iff.mp h with hr | ⟨hr, hs, hf⟩
    · rw [onReply, hr]
    · rw [onReply, hr, hs, hf]
      exact .single rfl
  · rw [onReply, (Reply.rejection?_eq_none_iff.mp h).1, hs]
    exact .single rfl
  · obtain ⟨hr, hf⟩ := Reply.rejection?_eq_none_iff.mp h
    rw [onReply, hr, hs, hf hs]
    exact .head rfl <| .head rfl <| .single rfl

/-- **From statement to statement**, until one has something to show: by induction on the statements
that are left. -/
theorem foretells_waiting (h : e.Sound) (hasked : e.asked = true) (hp : e.point = .waiting) :
    let next := Batch.advance e.cancelled e.todo e.conn
    e.Foretells next.1 ⟨next.2.1, next.2.2, e.cancelled⟩ := by
  generalize htodo : e.todo = todo
  induction todo generalizing e with
  | nil =>
    obtain ⟨hk, -⟩ := h.asking hasked
    obtain ⟨point, _, conn, requested, delivered, abandoned, asked, sender, receiver, cancelled,
      armed, interrupted⟩ := e
    simp only at hp htodo hk
    subst hp htodo hk
    exact .of_works (.single rfl) (foretells_gone rfl)
  | cons sql todo ih =>
    obtain ⟨hk, -⟩ := h.asking hasked
    have hcounted := h.counted (by rw [hp]; simp)
    have hw : e.work? = some { e with point := .starting } := by
      simp [work?, hp, htodo, hk, hcounted, Point.due, hasked]
    refine .of_works (.single hw) ?_
    replace h := h.work hw
    obtain ⟨point, _, conn, requested, delivered, abandoned, asked, sender, receiver, cancelled,
      armed, interrupted⟩ := e
    simp only at htodo hk hasked
    subst htodo hk hasked
    cases cancelled with
    | true => exact .of_works (.single rfl) (foretells_refusing rfl)
    | false =>
      have hsender : sender = false := h.sender false rfl
      let run : Engine :=
        { point := .querying, todo, conn := conn.logged sql, requested, delivered, asked := true,
          sender, receiver, armed := true }
      have hrun : Works
          { run with point := .starting, todo := sql :: todo, conn, armed, interrupted }
          (run.onReply (conn.backend sql)) := .head rfl <| .head rfl <| .single rfl
      obtain ⟨hrejected, hoffered, hsilent⟩ :=
        works_onReply (e := run) (conn.backend sql) hsender rfl
      obtain ⟨message, hr, hnext⟩ | ⟨set, sets, hr, hs, hnext⟩ | ⟨hr, hs, hnext⟩ :=
        Batch.advance_cases todo sql conn <;> rw [hnext]
      · exact .of_works (hrun.trans (hrejected message hr)) (foretells_disarming rfl hsender)
      · have hoffer := hoffered set sets hr hs
        exact .of_works (hrun.trans hoffer)
          (foretells_offering (hoffer.sound (hrun.sound h)) rfl rfl .idle)
      · have hover := hsilent hr hs
        exact .of_works (hrun.trans hover) (ih (hover.sound (hrun.sound h)) rfl rfl rfl)

end Ways

/-! ## What the worker does at rest, and before -/

section Rest

variable {e e' r : Engine} {u : Use} {a : NextResult}

theorem Rests.still (hu : r.Rests u) (h : r.Sound) (hasked : r.asked = false) :
    r.work? = none := by
  have hcounted := h.counted
  rw [hasked] at hcounted
  obtain ⟨stage, hstage, -⟩ := hu
  cases hstage with
  | idle hp htodo hk =>
    obtain ⟨sql, todo, htodo⟩ := List.exists_cons_of_ne_nil htodo
    simp [work?, hp, htodo, hk, hcounted, Point.due]
  | through hp _ | ended hp => rw [work?, hp]
  | offering hp hk | refused hp hk => simp [work?, hp, hk]
  | streaming hp hr | failing hp hr => simp [work?, hp, hr]

theorem work?_of_set? (hset : e.set? = some (a, e')) (hk : e.abandoned = false) :
    e.work? = none := by
  cases hp : e.point <;> simp_all [set?, work?]

theorem Settles.work (hu : e.Settles u) (h : e.Sound) (hasked : e.asked = false)
    (hw : e.work? = some e') : e'.Settles u := by
  obtain ⟨r, hr, hrests⟩ := hu
  exact ⟨r, hr.of_work (hrests.still (hr.sound h) (hr.frame.asked.trans hasked)) hw, hrests⟩

theorem Foretells.work (hu : e.Foretells a u) (h : e.Sound) (hasked : e.asked = true)
    (hw : e.work? = some e') : e'.Foretells a u := by
  obtain ⟨r, r', hr, hset, hrests⟩ := hu
  have hk := hr.frame.abandoned.trans (h.asking hasked).1
  exact ⟨r, r', hr.of_work (work?_of_set? hset hk) hw, hset, hrests⟩

theorem Settles.rests (hu : e.Settles u) (hstill : e.work? = none) : e.Rests u := by
  obtain ⟨r, hr, hrests⟩ := hu
  rcases hr.cases_head with rfl | ⟨e₁, he₁, -⟩
  · exact hrests
  · rw [hstill] at he₁
    cases he₁

end Rest

end Engine

end SqlConsole
