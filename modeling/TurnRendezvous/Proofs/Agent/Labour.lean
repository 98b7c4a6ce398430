/-
# `Agent.Labours` — the background work of an agent over a hub

`Agent.Moves` lets a task go on and end with whatever any feed says at any time.  Over
a hub a task reads the feed of its player as it is: it goes on only when it has found
nothing there (`Work.GoesOn`), it ends with what it has found (`Work.Ends`), and the
turn that it hands over is the hub's (`Labours.land`).

* `Labours.moves`: all of these are moves of the agent;
* `Labours.later`: and the hub only changes by calls;
* `Toils.keeps`: what one of these keeps, a step of a task keeps.
-/
import TurnRendezvous.Proofs.Agent.Callbacks
import TurnRendezvous.Proofs.Hub.Later

namespace TurnRendezvous

/-- How work goes on that looks at `feed` at the time `now`. -/
def Work.GoesOn (feed : Feed MatchNews) (now : Instant) : Work → Work → Prop
  | .submit data next false, w => w = .submit data next true
  | .awaitTurn v, w => v.result? feed now = none ∧ w = .awaitTurn (v.caughtUp feed)
  | .awaitEnd v, w => v.result? feed = none ∧ w = .awaitEnd (v.caughtUp feed)
  | .probe invite localId none, w => ∃ reply, w = .probe invite localId (some reply)
  | _, _ => False

/-- How work ends that looks at `feed` at the time `now`; that a turn is accepted is
left out. -/
def Work.Ends (feed : Feed MatchNews) (now : Instant) : Work → TaskEnd → Prop
  | .submit _ _ true, .submitted (.error _) => True
  | .awaitTurn v, .turn result => v.result? feed now = some result
  | .awaitEnd v, .ended how => v.result? feed = some how
  | .probe .., .probed _ => True
  | .timer _, .timeUp => True
  | _, _ => False

theorem Work.GoesOn.mayBecome {feed : Feed MatchNews} {now : Instant} {w w' : Work}
    (h : w.GoesOn feed now w') : w.MayBecome w' := by
  unfold GoesOn at h
  split at h
  next => exact h
  next => exact ⟨feed, h.2⟩
  next => exact ⟨feed, h.2⟩
  next => exact h
  next => exact h.elim

theorem Work.Ends.mayEnd {feed : Feed MatchNews} {now : Instant} {w : Work} {how : TaskEnd}
    (h : w.Ends feed now how) : w.MayEnd how := by
  unfold Ends at h
  split at h
  next => rfl
  next => exact ⟨feed, now, h⟩
  next => exact ⟨feed, h⟩
  next => trivial
  next => trivial
  next => exact h.elim

namespace Agent

/-- What a task of an agent of the player `p` does at the time `now`. -/
inductive Labours (p : PlayerId) (now : Instant) (h : Hub) (a : Agent) : Hub → Agent → Prop
  | goOn {j : JobId} {t : Task} {work : Work} :
      a.task? j = some t → t.work.GoesOn (h.feed p) now work →
      Labours p now h a h (a.progress j work)
  | finish {j : JobId} {t : Task} {how : TaskEnd} :
      a.task? j = some t → t.work.Ends (h.feed p) now how →
      Labours p now h a h (a.complete j how)
  /-- The hub accepts a turn. -/
  | land {j : JobId} {t : Task} {r : Rendezvous} {data : Bytes} {next : Option PlayerId}
      {room : Match} :
      a.task? j = some t → t.work = .submit data next true → a.rendezvous = some r →
      (h.takeTurn p r.matchId data next).2 = .ok room →
      Labours p now h a (h.takeTurn p r.matchId data next).1
        (a.complete j (.submitted (.ok ())))

/-- What a task does in one step: a turn that was not handed over yet may be answered
right away. -/
inductive Toils (p : PlayerId) (now : Instant) (h : Hub) (a : Agent) : Hub → Agent → Prop
  | once {h' : Hub} {a' : Agent} : Labours p now h a h' a' → Toils p now h a h' a'
  | atOnce {j : JobId} {t : Task} {data : Bytes} {next : Option PlayerId} {h' : Hub} {a' : Agent} :
      a.task? j = some t → t.work = .submit data next false →
      Labours p now h (a.progress j (.submit data next true)) h' a' → Toils p now h a h' a'

section Labours
variable {p : PlayerId} {now : Instant} {h h' : Hub} {a a' : Agent}

/-- Whatever a task does is a move of its agent that tells the owner nothing. -/
theorem Labours.moves (hl : Labours p now h a h' a') :
    ∃ mv, a.Moves mv [] a' ∧ mv.startedOn? = none := by
  cases hl with
  | goOn ht hw => exact ⟨_, .goOn ht hw.mayBecome, rfl⟩
  | finish ht hw => exact ⟨_, .finish ht hw.mayEnd, rfl⟩
  | land ht hw => exact ⟨_, .finish ht (by rw [hw]; rfl), rfl⟩

theorem Labours.onward (hl : Labours p now h a h' a') : Hub.Onward h h' := by
  cases hl with
  | goOn => exact .refl
  | finish => exact .refl
  | land => exact .call (a := .takeTurn ..) .refl trivial

theorem Labours.staying (hl : Labours p now h a h' a') (q : PlayerId) : Hub.Staying q h h' := by
  cases hl with
  | goOn => exact .refl
  | finish => exact .refl
  | land => exact .one (a := .takeTurn ..) trivial (by simp)

theorem Labours.later (hl : Labours p now h a h' a') : Hub.Later h h' := (hl.staying p).later

/-- A task does not take the rendezvous further. -/
theorem Labours.mode_eq (hl : Labours p now h a h' a') : a'.mode = a.mode := by
  have done {j : JobId} {t : Task} (ht : a.task? j = some t) (how : TaskEnd) :
      (a.complete j how).mode = a.mode := by
    obtain ⟨r, -, hr, -⟩ := exists_of_task? ht
    simp [mode, complete, hr, ht, modeOf]
  cases hl with
  | goOn ht =>
    obtain ⟨r, -, hr, -⟩ := exists_of_task? ht
    simp [mode, progress, hr, modeOf]
  | finish ht => exact done ht _
  | land ht => exact done ht _

/-- What every single thing keeps, a step keeps. -/
theorem Toils.keeps {P : Hub → Agent → Prop}
    (hP : ∀ {h h' a a'}, P h a → Labours p now h a h' a' → P h' a') (ht : Toils p now h a h' a')
    (h₀ : P h a) : P h' a' := by
  cases ht with
  | once hl => exact hP h₀ hl
  | atOnce ht hw hl =>
    have issued : Labours p now h a h _ := .goOn ht (by rw [hw]; rfl)
    exact hP (hP h₀ issued) hl

theorem Toils.onward (ht : Toils p now h a h' a') : Hub.Onward h h' := by
  cases ht with
  | once hl => exact hl.onward
  | atOnce _ _ hl => exact hl.onward

theorem Toils.staying (ht : Toils p now h a h' a') (q : PlayerId) : Hub.Staying q h h' := by
  cases ht with
  | once hl => exact hl.staying q
  | atOnce _ _ hl => exact hl.staying q

theorem Toils.later (ht : Toils p now h a h' a') : Hub.Later h h' := (ht.staying p).later

theorem Toils.mode_eq (ht : Toils p now h a h' a') : a'.mode = a.mode := by
  refine ht.keeps (P := fun _ b => b.mode = a.mode) ?_ rfl
  intro _ _ _ _ hm hl
  exact hl.mode_eq.trans hm

theorem Toils.standing (ht : Toils p now h a h' a') (hst : a.Standing) : a'.Standing := by
  refine ht.keeps (P := fun _ a => a.Standing) ?_ hst
  intro _ _ _ _ hst hl
  obtain ⟨mv, hmv, -⟩ := hl.moves
  exact standing_of_moves hst hmv

/-- Only an agent that was started has tasks. -/
theorem Toils.started (ht : Toils p now h a h' a') : ∃ r, a.rendezvous = some r := by
  have task {j : JobId} {t : Task} (ht : a.task? j = some t) : ∃ r, a.rendezvous = some r :=
    (exists_of_task? ht).imp fun r h => h.choose_spec.1
  cases ht with
  | once hl =>
    cases hl with
    | goOn ht => exact task ht
    | finish ht => exact task ht
    | land ht => exact task ht
  | atOnce ht => exact task ht

end Labours

end Agent

end TurnRendezvous
