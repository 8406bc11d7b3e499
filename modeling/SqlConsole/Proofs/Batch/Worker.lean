import Mathlib.Logic.Relation
import SqlConsole.Batch.Engine

/-!
# The worker of a batch

What holds of an engine at every moment (`Engine.Sound`): the demand is counted, so that what was
asked for and not taken is exactly the request that is under way; the interrupter is with the token
exactly while a statement is running; and whether the worker holds a channel for rows can be told
from where it is. A step of the worker keeps that (`Sound.work`).

The worker is on its own between two meetings with the consumer (`Works`). Nothing is left to chance
there: an engine comes to rest in one way only (`Works.of_work`). What the consumer does meanwhile
does not turn the worker aside (`Works.meanwhile`), as long as no request is under way.
-/

namespace SqlConsole

namespace Point

/-- What was taken and is not counted yet. -/
def due : Point → Nat
  | opened _ _ | refused => 1
  | locking | waiting | starting | arming | querying | opening _ | offering _ _ | fetching _ _
  | pushing _ _ _ | streaming _ _ _ | disarming _ _ | finishing _ _ | failing _ | refusing _
  | gone => 0

/-- Whether a statement is about to be run. -/
def begins : Point → Bool
  | starting | arming | querying => true
  | locking | waiting | opening _ | offering _ _ | opened _ _ | fetching _ _ | pushing _ _ _
  | streaming _ _ _ | disarming _ _ | finishing _ _ | failing _ | refusing _ | refused
  | gone => false

/-- Whether the token holds the interrupter. -/
def running : Point → Bool
  | querying | opening _ | offering _ _ | opened _ _ | fetching _ _ | pushing _ _ _
  | streaming _ _ _ | disarming _ _ => true
  | locking | waiting | starting | arming | finishing _ _ | failing _ | refusing _ | refused
  | gone => false

/-- Whether a result set is offered or read. -/
def reading : Point → Bool
  | offering _ _ | opened _ _ | fetching _ _ | pushing _ _ _ | streaming _ _ _ => true
  | locking | waiting | starting | arming | querying | opening _ | disarming _ _ | finishing _ _
  | failing _ | refusing _ | refused | gone => false

/-- Whether the worker holds a channel for rows, where that is certain. -/
def sender? : Point → Option Bool
  | opened _ _ | fetching _ _ | pushing _ _ _ | streaming _ _ _ | failing _ => some true
  | locking | waiting | starting | arming | querying | offering _ _ | refusing _ | refused
  | gone => some false
  | opening _ | disarming _ _ | finishing _ _ => none

/-- Whether the worker goes on with a statement that it must tell the consumer of. -/
def telling : Point → Bool
  | opening _ => true
  | disarming halt failure | finishing halt failure => halt.isNone && failure.isSome
  | locking | waiting | starting | arming | querying | offering _ _ | opened _ _ | fetching _ _
  | pushing _ _ _ | streaming _ _ _ | failing _ | refusing _ | refused | gone => false

end Point

namespace Engine

/-- What holds of an engine at every moment. -/
structure Sound (e : Engine) : Prop where
  /-- What was asked for was taken and counted, or taken and not counted yet, or is under way. -/
  counted : e.point ≠ .gone → e.requested = e.delivered + e.point.due + e.asked.toNat
  begun : e.point.begins = true → e.asked = true ∧ e.todo ≠ []
  armed : e.armed = e.point.running
  interrupted : e.interrupted = true → e.cancelled = true
  noted : e.point.reading = true → e.cancelled = true → e.interrupted = true
  sender : ∀ held, e.point.sender? = some held → e.sender = held
  /-- There is a request under way or a result set open for what the worker has to tell. -/
  told : e.point.telling = true → e.asked = true ∨ e.sender = true
  /-- Whoever asks for a result set holds no other, and has not given up on the batch. -/
  asking : e.asked = true → e.abandoned = false ∧ e.receiver = false

theorem sound_start (statements : List Statement) (conn : Connection) (cancelled : Bool) :
    (start statements conn cancelled).Sound := by
  constructor <;> simp [start, Point.due, Point.begins, Point.running, Point.reading, Point.sender?,
      Point.telling]

section Steps

variable {e e' r : Engine}

/-- **A step of the worker**, one case for each point it may be at. -/
theorem Sound.work (h : e.Sound) (hw : e.work? = some e') : e'.Sound := by
  obtain ⟨point, todo, conn, requested, delivered, abandoned, asked, sender, receiver, cancelled,
    armed, interrupted⟩ := e
  obtain ⟨hcounted, hbegun, harmed, hinterrupted, hnoted, hsender, htold, hasking⟩ := h
  cases point <;> simp only [work?, quit, report, onReply, onRow] at hw <;>
    (repeat' split at hw) <;> cases hw <;> constructor <;>
    simp_all [Point.due, Point.begins, Point.running, Point.reading, Point.sender?,
      Point.telling]

/-- What the worker leaves alone. It opens no channel by itself: a consumer who takes a result set
does that. -/
structure Frame (e e' : Engine) : Prop where
  sender : e'.sender = true → e.sender = true
  requested : e'.requested = e.requested
  abandoned : e'.abandoned = e.abandoned
  asked : e'.asked = e.asked
  receiver : e'.receiver = e.receiver
  cancelled : e'.cancelled = e.cancelled

theorem frame_work (hw : e.work? = some e') : Frame e e' := by
  obtain ⟨point, todo, conn, requested, delivered, abandoned, asked, sender, receiver, cancelled,
    armed, interrupted⟩ := e
  cases point <;> simp only [work?, quit, report, onReply, onRow] at hw <;>
    (repeat' split at hw) <;> cases hw <;> constructor <;> simp

/-- What the consumer can change of an engine. -/
def meanwhile (requested : Nat) (abandoned asked receiver : Bool) (e : Engine) : Engine :=
  { e with requested, abandoned, asked, receiver }

/-- A worker that has something to do goes on with it, whatever is asked for or given up. A worker
that waits for a request has nothing to do as long as there is none. -/
theorem work?_meanwhile (h : e.Sound) (hasked : e.asked = false) (hw : e.work? = some e')
    (requested : Nat) {abandoned : Bool} (habandoned : e.abandoned = true → abandoned = true)
    (asked : Bool) {receiver : Bool} (hreceiver : receiver = true → e.receiver = true) :
    (e.meanwhile requested abandoned asked receiver).work? =
      some (e'.meanwhile requested abandoned asked receiver) := by
  have hcounted := h.counted
  obtain ⟨point, todo, conn, requested', delivered, abandoned', asked', sender, receiver',
    cancelled, armed, interrupted⟩ := e
  cases point <;> simp only [work?, quit, report, onReply, onRow, meanwhile] at hw ⊢ <;>
    (repeat' split at hw) <;> cases hw <;> simp_all [Point.due]

end Steps

/-- The worker takes any number of steps, and the consumer none. -/
abbrev Works : Engine → Engine → Prop := Relation.ReflTransGen fun e e' => e.work? = some e'

section Runs

variable {e e' r : Engine}

theorem Works.sound (hw : Works e r) (h : e.Sound) : r.Sound := by
  induction hw with
  | refl => exact h
  | tail _ hstep ih => exact ih.work hstep

theorem Works.frame (hw : Works e r) : Frame e r := by
  induction hw with
  | refl => exact ⟨id, rfl, rfl, rfl, rfl, rfl⟩
  | tail _ hstep ih =>
    have hframe := frame_work hstep
    exact ⟨ih.sender ∘ hframe.sender, hframe.requested.trans ih.requested,
      hframe.abandoned.trans ih.abandoned, hframe.asked.trans ih.asked,
      hframe.receiver.trans ih.receiver, hframe.cancelled.trans ih.cancelled⟩

/-- The worker comes to rest in one way only. -/
theorem Works.of_work (hw : Works e r) (hrest : r.work? = none) (hstep : e.work? = some e') :
    Works e' r := by
  rcases hw.cases_head with rfl | ⟨e₁, he₁, hw₁⟩
  · rw [hrest] at hstep
    cases hstep
  · rw [Option.some.inj (hstep.symm.trans he₁)]
    exact hw₁

theorem Works.meanwhile (hw : Works e r) (h : e.Sound) (hasked : e.asked = false) (requested : Nat)
    {abandoned : Bool} (habandoned : e.abandoned = true → abandoned = true) (asked : Bool)
    {receiver : Bool} (hreceiver : receiver = true → e.receiver = true) :
    Works (e.meanwhile requested abandoned asked receiver)
      (r.meanwhile requested abandoned asked receiver) := by
  induction hw using Relation.ReflTransGen.head_induction_on with
  | refl => exact .refl
  | head hstep _ ih =>
    have hframe := frame_work hstep
    exact .head (work?_meanwhile h hasked hstep requested habandoned asked hreceiver)
      (ih (h.work hstep) (hframe.asked.trans hasked) (hframe.abandoned ▸ habandoned)
        (hframe.receiver ▸ hreceiver))

end Runs

end Engine

end SqlConsole
