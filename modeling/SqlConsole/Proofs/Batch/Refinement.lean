import SqlConsole.Proofs.Batch.Settling

/-!
# The engine refines the batch

A consumer cannot tell an engine from a `Batch` in use. What can be done to a worker at rest is a
deed of the batch, with the answer of the batch. A consumer need not wait until the worker rests:
what is done to a worker on its way comes to the same as if it had been done afterwards
(`Works.meanwhile`). So every step of the engine either cannot be noticed or is a deed of the batch
(`Follows.silent`, `Follows.event`).

The one exception is a cancellation, which the worker may notice before it rests. Runs in which it
finds the worker at rest (`Engine.Calm`) are those of the batch: `refines` says so of every run, and
`exists_run` that every course of a batch is one of them.
-/

namespace SqlConsole

open Batch (Use Deed)
open scoped List

namespace Engine

/-! ## What the consumer does -/

section Deeds

variable {e e' r : Engine} {u : Use} {a : NextResult}

theorem Foretells.tell {a' : NextResult} (hu : e.Foretells a u) (hk : e.abandoned = false)
    (hset : e.set? = some (a', e')) : a' = a ∧ e'.Settles u := by
  obtain ⟨r, r', hr, hset', hrests⟩ := hu
  rcases hr.cases_head with rfl | ⟨e₁, he₁, -⟩
  · rw [hset'] at hset
    cases hset
    exact ⟨rfl, hrests⟩
  · rw [work?_of_set? hset hk] at he₁
    cases he₁

theorem Sound.ask (h : e.Sound) (hasked : e.asked = false) (hk : e.abandoned = false) :
    e.ask.Sound where
  counted hp := by
    have hcounted := h.counted hp
    simp only [Engine.ask, Engine.letGo, hasked] at hcounted ⊢
    simp [hcounted]
  begun hb := by simp [(h.begun hb).1] at hasked
  armed := h.armed
  interrupted := h.interrupted
  noted := h.noted
  sender := h.sender
  told _ := Or.inl rfl
  asking _ := ⟨hk, rfl⟩

theorem Rests.ask (hu : r.Rests u) (h : r.Sound) (hasked : r.asked = false)
    (hk : r.abandoned = false) :
    r.ask.Foretells (u.batch.next u.cancelled u.conn).1 (u.act .next).2 := by
  replace h := h.ask hasked hk
  obtain ⟨stage, hstage, rfl⟩ := hu
  obtain ⟨point, todo, conn, requested, delivered, abandoned, asked, sender, receiver, cancelled,
    armed, interrupted⟩ := r
  simp only at hk
  subst hk
  cases hstage with
  | idle hp _ _ => exact foretells_waiting h rfl hp
  | through hp htodo =>
    simp only at htodo
    subst htodo
    exact foretells_gone hp
  | offering hp _ => exact foretells_offering h rfl hp _
  | streaming hp _ =>
    have hw := works_dropped (e := Engine.ask ⟨point, todo, conn, requested, delivered, false,
      asked, sender, receiver, cancelled, armed, interrupted⟩) hp rfl
    exact .of_works hw (foretells_waiting (hw.sound h) rfl rfl)
  | failing hp _ =>
    simp only at hp
    subst hp
    exact .of_works (.single rfl) (foretells_gone rfl)
  | refused hp _ => exact foretells_refusing hp
  | ended hp => exact foretells_gone hp

theorem Settles.ask (hu : e.Settles u) (h : e.Sound) (hasked : e.asked = false)
    (hk : e.abandoned = false) :
    e.ask.Foretells (u.batch.next u.cancelled u.conn).1 (u.act .next).2 := by
  obtain ⟨r, hr, hrests⟩ := hu
  have hframe := hr.frame
  have hw : Works e.ask (r.meanwhile (e.requested + 1) e.abandoned true false) :=
    hr.meanwhile h hasked _ id true fun hno => Bool.noConfusion hno
  rw [← hframe.requested, ← hframe.abandoned] at hw
  exact .of_works hw
    (hrests.ask (hr.sound h) (hframe.asked.trans hasked) (hframe.abandoned.trans hk))

theorem Sound.letGo (h : e.Sound) : e.letGo.Sound :=
  { h with asking := fun hasked => ⟨(h.asking hasked).1, rfl⟩ }

theorem Rests.letGo (hu : r.Rests u) : r.letGo.Settles (u.act .dropRows).2 := by
  obtain ⟨stage, hstage, rfl⟩ := hu
  cases hstage with
  | idle hp htodo hk => exact (At.idle (e := r.letGo) hp htodo hk).settles
  | through hp htodo => exact (At.through (e := r.letGo) hp htodo).settles
  | offering hp hk => exact (At.offering (e := r.letGo) hp hk).settles
  | refused hp hk => exact (At.refused (e := r.letGo) hp hk).settles
  | ended hp => exact (At.ended (e := r.letGo) hp).settles
  | streaming hp _ =>
    exact .of_works (works_dropped (e := r.letGo) hp rfl) (settles_waiting rfl)
  | failing hp _ =>
    have hw : r.letGo.work? = some r.letGo.quit := by rw [work?, Engine.letGo, hp]; rfl
    exact .of_works (.single hw) (At.ended rfl).settles

theorem Settles.letGo (hu : e.Settles u) (h : e.Sound) (hasked : e.asked = false) :
    e.letGo.Settles (u.act .dropRows).2 := by
  obtain ⟨r, hr, hrests⟩ := hu
  have hframe := hr.frame
  have hw : Works e.letGo (r.meanwhile e.requested e.abandoned e.asked false) :=
    hr.meanwhile h hasked _ id _ (by simp)
  rw [← hframe.requested, ← hframe.abandoned, ← hframe.asked] at hw
  exact .of_works hw hrests.letGo

theorem Sound.giveUp (h : e.Sound) (hasked : e.asked = false) : e.giveUp.Sound :=
  { h with asking := fun hasked' => absurd (hasked.symm.trans hasked') (by simp) }

theorem Rests.giveUp (hu : r.Rests u) : r.giveUp.Settles (u.act .drop).2 := by
  obtain ⟨stage, hstage, rfl⟩ := hu
  cases hstage with
  | idle hp htodo _ =>
    obtain ⟨sql, todo, htodo⟩ := List.exists_cons_of_ne_nil htodo
    have hw : r.giveUp.work? = some r.giveUp.quit := by rw [work?, Engine.giveUp, hp, htodo]; rfl
    exact .of_works (.single hw) (At.ended rfl).settles
  | through hp _ | ended hp => exact (At.ended (e := r.giveUp) hp).settles
  | offering hp _ =>
    have hw : r.giveUp.work? =
        some { r.giveUp with point := .disarming (some .disconnected) none } := by
      rw [work?, Engine.giveUp, hp]; rfl
    exact .of_works (.head hw <| .head rfl <| .single rfl) (At.ended rfl).settles
  | refused hp _ =>
    have hw : r.giveUp.work? = some r.giveUp.quit := by rw [work?, Engine.giveUp, hp]; rfl
    exact .of_works (.single hw) (At.ended rfl).settles
  | streaming hp hr => exact (At.streaming (e := r.giveUp) hp hr).settles
  | failing hp hr => exact (At.failing (e := r.giveUp) hp hr).settles

theorem Settles.giveUp (hu : e.Settles u) (h : e.Sound) (hasked : e.asked = false) :
    e.giveUp.Settles (u.act .drop).2 := by
  obtain ⟨r, hr, hrests⟩ := hu
  have hframe := hr.frame
  have hw : Works e.giveUp (r.meanwhile e.requested true e.asked e.receiver) :=
    hr.meanwhile h hasked _ (fun _ => rfl) _ id
  rw [← hframe.requested, ← hframe.asked, ← hframe.receiver] at hw
  exact .of_works hw hrests.giveUp

theorem Sound.item {a : RowResult} (h : e.Sound) (hitem : e.item? = some (a, e')) : e'.Sound := by
  have hsame := h
  obtain ⟨point, todo, conn, requested, delivered, abandoned, asked, sender, receiver, cancelled,
    armed, interrupted⟩ := e
  obtain ⟨hcounted, hbegun, harmed, hinterrupted, hnoted, hsender, htold, hasking⟩ := h
  cases point <;> simp only [item?, quit] at hitem <;> (repeat' split at hitem) <;> cases hitem <;>
    first
    | exact hsame
    | constructor <;>
        simp_all [Point.due, Point.begins, Point.running, Point.reading, Point.sender?,
      Point.telling]

/-- Without a channel that is open at both ends there is nothing to read. -/
theorem Settles.row_done (hu : e.Settles u) (h : e.Sound)
    (hclosed : e.sender = false ∨ e.receiver = false) : u.act .row = (some (.item .done), u) := by
  obtain ⟨r, hr, stage, hstage, rfl⟩ := hu
  have hsender : r.sender = true → e.sender = true := hr.frame.sender
  have hreceiver : r.receiver = e.receiver := hr.frame.receiver
  have hopen {held : Bool} := (hr.sound h).sender held
  cases hstage with
  | streaming hp hr | failing hp hr =>
    have hheld : e.sender = true := hsender (hopen (by rw [hp]; rfl))
    simp [hheld, ← hreceiver, hr] at hclosed
  | idle | through | offering | refused | ended => rfl

theorem Settles.item {a : RowResult} (hu : e.Settles u) (h : e.Sound)
    (hitem : e.item? = some (a, e')) :
    (u.act .row).1 = some (.item a) ∧ e'.Settles (u.act .row).2 := by
  have hsound := h.item hitem
  rw [item?] at hitem
  split at hitem
  case isFalse hr =>
    cases hitem
    rw [hu.row_done h (Or.inr (by simpa using hr))]
    exact ⟨rfl, hu⟩
  case isTrue hr =>
    split at hitem
    case h_1 row rows rest hp =>
      cases hitem
      obtain ⟨stage, hstage, rfl⟩ := hu.rests (by simp [work?, hp, hr])
      obtain rfl := hstage.unique (.streaming hp hr) (by simp [hp])
      exact ⟨rfl, settles_fetching hsound rfl hr _⟩
    case h_2 error hp =>
      cases hitem
      obtain ⟨stage, hstage, rfl⟩ := hu.rests (by simp [work?, hp, hr])
      obtain rfl := hstage.unique (.failing hp hr) (by simp [hp])
      exact ⟨rfl, (At.ended (e := e.quit) rfl).settles⟩
    all_goals
      -- Nothing is on its way any more.
      split at hitem
      case isTrue => cases hitem
      case isFalse hs =>
        cases hitem
        rw [hu.row_done h (Or.inl (by simpa using hs))]
        exact ⟨rfl, hu⟩

theorem Sound.cancel (h : e.Sound) : e.cancel.Sound := by
  rw [Engine.cancel]
  split
  case isTrue => exact h
  case isFalse =>
    refine { h with interrupted := fun _ => rfl, noted := fun hp _ => ?_ }
    have harmed : e.armed = true := by
      rw [h.armed]
      cases hpoint : e.point <;> simp_all [Point.reading, Point.running]
    simp [harmed]

theorem Rests.cancel (hu : r.Rests u) : r.cancel.Rests (u.act .cancel).2 := by
  obtain ⟨stage, hstage, rfl⟩ := hu
  rw [Engine.cancel]
  split
  case isTrue hc =>
    refine ⟨stage, hstage, ?_⟩
    simp [use, Use.act, hc]
  case isFalse => exact ⟨stage, hstage.congr rfl rfl rfl rfl, rfl⟩

end Deeds

/-! ## Runs -/

/-- What the consumer does, and is answered. -/
abbrev Event := Deed × Option Batch.Answer

/-- One step of the worker or of the consumer, who does nothing but wait while a request is under
way. The token may be cancelled by anybody at any time. A step of the worker is no event, nor is the
beginning of a request. -/
inductive Move : Engine → Option Event → Engine → Prop
  | work {e e'} : e.work? = some e' → Move e none e'
  | ask {e} : e.asked = false → e.abandoned = false → Move e none e.ask
  | tell {e e' a} : e.asked = true → e.set? = some (a, e') → Move e (some (.next, some (.set a))) e'
  | item {e e' a} :
      e.asked = false → e.item? = some (a, e') → Move e (some (.row, some (.item a))) e'
  | letGo {e} : e.asked = false → Move e (some (.dropRows, some .dropped)) e.letGo
  | giveUp {e} : e.asked = false → Move e (some (.drop, none)) e.giveUp
  | cancel {e} : Move e (some (.cancel, none)) e.cancel

/-- Any number of steps and the events among them. The token is cancelled only where it may be. -/
inductive Run (may : Engine → Prop) : Engine → List Event → Engine → Prop
  | refl (e) : Run may e [] e
  | silent {e e₁ e' events} : Move e none e₁ → Run may e₁ events e' → Run may e events e'
  | event {e e₁ e' event events} : Move e (some event) e₁ → (event.1 = .cancel → may e) →
      Run may e₁ events e' → Run may e (event :: events) e'

/-- Nothing is on its way that a cancellation could stop, or the token was cancelled before. -/
def Calm (e : Engine) : Prop := e.cancelled = true ∨ e.work? = none ∧ e.asked = false

/-- An engine is about to do what a batch does, and answers a request that is under way like the
batch. -/
structure Follows (e : Engine) (u : Use) : Prop where
  sound : e.Sound
  cancelled : e.cancelled = u.cancelled
  settles : e.asked = false → e.Settles u
  foretells : e.asked = true →
    e.Foretells (u.batch.next u.cancelled u.conn).1 (u.act .next).2

theorem follows_start (statements : List Statement) (conn : Connection) (cancelled : Bool) :
    (start statements conn cancelled).Follows (Use.start statements conn cancelled) := by
  refine ⟨sound_start _ _ _, rfl, fun _ => ?_, fun hasked => by cases hasked⟩
  have hw : (start statements conn cancelled).work? =
      if conn.broken then
        some { start statements conn cancelled with point := .refusing .brokenConnection }
      else some { start statements conn cancelled with point := .waiting } := rfl
  rw [Use.start, Batch.start]
  split
  case isTrue hbroken =>
    rw [if_pos hbroken] at hw
    exact .of_works (.single hw) (At.refused rfl rfl).settles
  case isFalse hbroken =>
    rw [if_neg hbroken] at hw
    exact .of_works (.single hw) (settles_waiting rfl)

section Runs

variable {e e' r : Engine} {u : Use} {events : List Event}

theorem Follows.work (h : e.Follows u) (hw : e.work? = some e') : e'.Follows u := by
  have hframe := frame_work hw
  exact
    { sound := h.sound.work hw
      cancelled := hframe.cancelled.trans h.cancelled
      settles := fun hasked =>
        have hasked := hframe.asked.symm.trans hasked
        (h.settles hasked).work h.sound hasked hw
      foretells := fun hasked =>
        have hasked := hframe.asked.symm.trans hasked
        (h.foretells hasked).work h.sound hasked hw }

/-- What is no event is nothing to the batch. -/
theorem Follows.silent (h : e.Follows u) (hm : Move e none e') : e'.Follows u := by
  cases hm with
  | work hw => exact h.work hw
  | ask hasked hk =>
    exact ⟨h.sound.ask hasked hk, h.cancelled, fun hno => (by cases hno),
      fun _ => (h.settles hasked).ask h.sound hasked hk⟩

/-- An engine of which nobody has asked for a result set. -/
theorem Follows.of_settles (h : e.Sound) (hasked : e.asked = false)
    (hcancelled : e.cancelled = u.cancelled) (hu : e.Settles u) : e.Follows u :=
  ⟨h, hcancelled, fun _ => hu, fun hno => by simp [hasked] at hno⟩

theorem set?_spec {a : NextResult} (hset : e.set? = some (a, e')) :
    e'.asked = false ∧ e'.abandoned = e.abandoned ∧ e'.cancelled = e.cancelled := by
  unfold set? at hset
  split at hset <;> cases hset <;> simp

theorem item?_spec {a : RowResult} (hitem : e.item? = some (a, e')) :
    e'.asked = e.asked ∧ e'.abandoned = e.abandoned ∧ e'.cancelled = e.cancelled := by
  unfold item? at hitem
  (repeat' split at hitem) <;> cases hitem <;> simp [quit]

/-- A cancellation that finds the worker at rest, or comes again. -/
theorem Follows.cancel (h : e.Follows u) (hcalm : e.Calm) : e.cancel.Follows (u.act .cancel).2 := by
  rcases hcalm with hc | ⟨hstill, hasked⟩
  · have hsame : (u.act .cancel).2 = u := by
      obtain ⟨batch, conn, cancelled⟩ := u
      obtain rfl : cancelled = true := h.cancelled.symm.trans hc
      rfl
    rw [Engine.cancel, if_pos hc, hsame]
    exact h
  · have hrests := ((h.settles hasked).rests hstill).cancel
    have hspec : e.cancel.asked = e.asked ∧ e.cancel.cancelled = true := by
      rw [Engine.cancel]
      split <;> simp_all
    exact .of_settles h.sound.cancel (hspec.1.trans hasked) hspec.2 ⟨_, .refl, hrests⟩

/-- **One event** is a deed of the batch, with the answer of the batch. -/
theorem Follows.event (h : e.Follows u) {deed : Deed} {a : Option Batch.Answer}
    (hm : Move e (some (deed, a)) e') (hcalm : deed = .cancel → e.Calm) :
    a = (u.act deed).1 ∧ e'.Follows (u.act deed).2 := by
  cases hm with
  | tell hasked hset =>
    obtain ⟨htold, -, hcancelled⟩ := set?_spec hset
    obtain ⟨rfl, hu⟩ := (h.foretells hasked).tell (h.sound.asking hasked).1 hset
    exact ⟨rfl, .of_settles (h.sound.tell hasked hset) htold (hcancelled.trans h.cancelled) hu⟩
  | item hasked hitem =>
    obtain ⟨hkept, -, hcancelled⟩ := item?_spec hitem
    obtain ⟨ha, hu⟩ := (h.settles hasked).item h.sound hitem
    exact ⟨ha.symm, .of_settles (h.sound.item hitem) (hkept.trans hasked)
      (hcancelled.trans h.cancelled) hu⟩
  | letGo hasked =>
    exact ⟨rfl, .of_settles h.sound.letGo hasked h.cancelled
      ((h.settles hasked).letGo h.sound hasked)⟩
  | giveUp hasked =>
    exact ⟨rfl, .of_settles (h.sound.giveUp hasked) hasked h.cancelled
      ((h.settles hasked).giveUp h.sound hasked)⟩
  | cancel => exact ⟨rfl, h.cancel (hcalm rfl)⟩

/-- **Any number of events** are deeds of the batch, by induction on the run. -/
theorem Follows.run (h : e.Follows u) (hr : Run Calm e events e') :
    events.map (·.2) = (u.actAll (events.map (·.1))).1 ∧
      e'.Follows (u.actAll (events.map (·.1))).2 := by
  induction hr generalizing u with
  | refl e => exact ⟨rfl, h⟩
  | silent hm _ ih => exact ih (h.silent hm)
  | @event e e₁ e' event events hm hcalm _ ih =>
    obtain ⟨deed, a⟩ := event
    obtain ⟨rfl, hnext⟩ := h.event hm hcalm
    obtain ⟨hanswers, hlast⟩ := ih hnext
    simp only [List.map_cons, Use.actAll_cons, hanswers]
    exact ⟨trivial, hlast⟩

/-! ## Every course of a batch -/

theorem Run.of_works {may : Engine → Prop} (hw : Works e r) (hr : Run may r events e') :
    Run may e events e' := by
  induction hw using Relation.ReflTransGen.head_induction_on with
  | refl => exact hr
  | head hstep _ ih => exact .silent (.work hstep) ih

/-- A consumer of a worker at rest need not wait for the next item. -/
theorem Rests.exists_item (hu : r.Rests u) (h : r.Sound) : ∃ a r', r.item? = some (a, r') := by
  have hsender {held : Bool} := h.sender held
  obtain ⟨stage, hstage, -⟩ := hu
  rw [item?]
  split
  case isFalse => exact ⟨_, _, rfl⟩
  case isTrue =>
    cases hstage with
    | streaming hp _ | failing hp _ => simp [hp]
    | idle hp _ _ | offering hp _ | refused hp _ | through hp _ | ended hp =>
      have hclosed : r.sender = false := hsender (by rw [hp]; rfl)
      simp [hp, hclosed]

/-- The consumer can do any deed, as long as the batch is not asked for a result set behind its
end. -/
theorem Follows.exists_event (h : e.Follows u) (hasked : e.asked = false) (deed : Deed)
    (hk : deed = .next → e.abandoned = false) :
    ∃ a e₁, e₁.asked = false ∧ (e₁.abandoned = true → e.abandoned = true ∨ deed = .drop) ∧
      ∀ {events e'}, Run Calm e₁ events e' → Run Calm e ((deed, a) :: events) e' := by
  obtain ⟨r, hr, hrests⟩ := h.settles hasked
  have hframe := hr.frame
  have hsound := hr.sound h.sound
  have hasked' : r.asked = false := hframe.asked.trans hasked
  cases deed with
  | next =>
    have hk := hk rfl
    obtain ⟨r, r', hr, hset, -⟩ := (h.settles hasked).ask h.sound hasked hk
    obtain ⟨htold, hkept, -⟩ := set?_spec hset
    refine ⟨some (.set (u.batch.next u.cancelled u.conn).1), r', htold, fun hyes => Or.inl ?_,
      fun hrun => ?_⟩
    · exact (hkept.trans hr.frame.abandoned).symm.trans hyes
    have htell := Run.event (.tell (hr.frame.asked.trans rfl) hset) (by simp) hrun
    exact .silent (.ask hasked hk) (.of_works hr htell)
  | row =>
    obtain ⟨a, r', hitem⟩ := hrests.exists_item hsound
    obtain ⟨hkept, habandoned, -⟩ := item?_spec hitem
    refine ⟨some (.item a), r', hkept.trans hasked', fun hyes => Or.inl ?_, fun hrun => ?_⟩
    · exact (habandoned.trans hframe.abandoned).symm.trans hyes
    exact .of_works hr (.event (.item hasked' hitem) (by simp) hrun)
  | dropRows => exact ⟨some .dropped, e.letGo, hasked, Or.inl, .event (.letGo hasked) (by simp)⟩
  | drop => exact ⟨none, e.giveUp, hasked, fun _ => Or.inr rfl, .event (.giveUp hasked) (by simp)⟩
  | cancel =>
    have hcalm : r.Calm := Or.inr ⟨hrests.still hsound hasked', hasked'⟩
    have hspec : r.cancel.asked = r.asked ∧ r.cancel.abandoned = r.abandoned := by
      rw [Engine.cancel]
      split <;> simp
    refine ⟨none, r.cancel, hspec.1.trans hasked',
      fun hyes => Or.inl (hframe.abandoned ▸ hspec.2 ▸ hyes), fun hrun => ?_⟩
    exact .of_works hr (.event .cancel (fun _ => hcalm) hrun)

theorem Follows.exists_run (h : e.Follows u) (hasked : e.asked = false) {deeds : List Deed}
    (hk : e.abandoned = true → .next ∉ deeds) (hdeeds : ¬ [.drop, .next] <+ deeds) :
    ∃ events e', Run Calm e events e' ∧ events.map (·.1) = deeds := by
  induction deeds generalizing e u with
  | nil => exact ⟨[], e, .refl e, rfl⟩
  | cons deed deeds ih =>
    have hnext : deed = .next → e.abandoned = false := by
      rintro rfl
      exact Bool.eq_false_iff.mpr fun hyes => hk hyes List.mem_cons_self
    obtain ⟨a, e₁, hasked₁, habandoned, hrun⟩ := h.exists_event hasked deed hnext
    have hfollows := (h.run (hrun (.refl e₁))).2
    have hlater : e₁.abandoned = true → .next ∉ deeds := by
      intro hyes hmem
      rcases habandoned hyes with hyes | rfl
      · exact hk hyes (List.mem_cons_of_mem _ hmem)
      · exact hdeeds ((List.singleton_sublist.mpr hmem).cons_cons _)
    obtain ⟨events, e', hr, rfl⟩ := ih hfollows hasked₁ hlater fun hsub => hdeeds (hsub.cons deed)
    exact ⟨(deed, a) :: events, e', hrun hr, rfl⟩

end Runs

/-- **The engine refines the batch.** Whatever the worker and the consumer of an engine do, in any
order, the consumer is told what the batch would answer; and where the worker rests the connection
was used as the batch would have used it. -/
theorem refines (statements : List Statement) (conn : Connection) (cancelled : Bool)
    {events : List Event} {e : Engine} (h : Run Calm (start statements conn cancelled) events e) :
    let course := (Use.start statements conn cancelled).actAll (events.map (·.1))
    events.map (·.2) = course.1 ∧
      (e.work? = none → e.asked = false →
        e.At course.2.batch.stage ∧ e.conn = course.2.conn ∧ e.todo = course.2.batch.todo) := by
  obtain ⟨hanswers, hlast⟩ := (follows_start statements conn cancelled).run h
  refine ⟨hanswers, fun hstill hasked => ?_⟩
  obtain ⟨stage, hstage, hu⟩ := (hlast.settles hasked).rests hstill
  rw [hu]
  exact ⟨hstage, rfl, rfl⟩

/-- **Every course of a batch is one of the engine**, unless it asks for a result set once the batch
was dropped. -/
theorem exists_run (statements : List Statement) (conn : Connection) (cancelled : Bool)
    {deeds : List Deed} (h : ¬ [.drop, .next] <+ deeds) :
    ∃ events e, Run Calm (start statements conn cancelled) events e ∧
      events.map (·.1) = deeds ∧
      events.map (·.2) = ((Use.start statements conn cancelled).actAll deeds).1 := by
  have hstart := follows_start statements conn cancelled
  obtain ⟨events, e, hr, rfl⟩ := hstart.exists_run rfl (fun hno => by cases hno) h
  exact ⟨events, e, hr, rfl, (hstart.run hr).1⟩

/-- **Nobody waits for ever**: the worker alone comes to where a consumer who has asked for a result
set is told something, and one who has not is handed the next item. -/
theorem Follows.answers {e : Engine} {u : Use} (h : e.Follows u) : ∃ r, Works e r ∧
    (e.asked = true → r.set?.isSome) ∧ (e.asked = false → r.item?.isSome) := by
  cases hasked : e.asked with
  | true =>
    obtain ⟨r, r', hr, hset, -⟩ := h.foretells hasked
    exact ⟨r, hr, fun _ => by simp [hset], by simp⟩
  | false =>
    obtain ⟨r, hr, hrests⟩ := h.settles hasked
    obtain ⟨a, r', hitem⟩ := hrests.exists_item (hr.sound h.sound)
    exact ⟨r, hr, by simp, fun _ => by simp [hitem]⟩

end Engine

end SqlConsole
