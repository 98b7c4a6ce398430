/-
# `Invitation.Hosting`, `Invitation.Visiting` — the two agents of an invitation

The host's agent plays one turn and watches the room from then on; the guest's agent
waits for the turn, if it has to, plays it and leaves.  Each has one thing to do at a
time (`Rendezvous.Alone`), and where it stands is a matter of the hour of the room: the
two inductives list the places, each with the hours at which an agent can be there and
with what its owner has been told by then.

* `hosting_start`, `hosting_step` and `visiting_start`, `visiting_step`: the start of an
  agent and its steps lead from one place to another;
* `hosting_task`, `visiting_task`: so does what goes on in the background, of which there is
  one thing at most;
* `hosting_settled`, `visiting_settled`: in which places an agent has nothing to do.
-/
import TurnRendezvous.Proofs.Agent.Submissions
import TurnRendezvous.Proofs.Hub.Invitation
import TurnRendezvous.Proofs.Wire

namespace TurnRendezvous

/-! ## One thing at a time -/

namespace Rendezvous

/-- Nothing goes on in the background. -/
def Idle (r : Rendezvous) : Prop := ∀ j ∈ r.jobs.jobs, j.isWorking = false

/-- The job `i` does this work for the current phase, and no other job works. -/
structure Alone (r : Rendezvous) (i : JobId) (work : Work) : Prop where
  job : r.jobs.get? i = some { work := ⟨r.generation, work⟩ }
  only : ∀ k j, r.jobs.get? k = some j → j.isWorking = true → k = i

section Jobs
variable {r : Rendezvous} {i : JobId} {work : Work}

/-- A job that is started while nothing else goes on. -/
theorem Idle.spawn (h : r.Idle) {r' : Rendezvous}
    (hj : r'.jobs = (r.jobs.spawn ⟨r'.generation, work⟩).2) :
    r'.Alone r.jobs.jobs.length work := by
  constructor
  · simp [hj, Registry.get?, Registry.spawn]
  · intro k j hk hw
    rw [hj] at hk
    rcases Registry.get?_spawn hk with hk | hk
    · have hidle := h j (List.mem_of_getElem? hk)
      exact absurd (hidle.symm.trans hw) Bool.false_ne_true
    · exact hk

theorem Idle.leave (h : r.Idle) : r.leave.Idle := by
  refine jobs_leave (P := fun g => ∀ j ∈ g.jobs, j.isWorking = false) h ?_ ?_
  · intro g i hg
    refine Registry.forall_modify hg i fun j _ hj => ?_
    unfold Job.cancel
    split
    · exact hj
    · split <;> simp_all [Job.isWorking]
  · exact fun g i hg => Registry.forall_modify hg i fun j _ hj => hj

theorem Alone.progress (h : r.Alone i work) (work' : Work) :
    (r.withJobs (r.jobs.modify i (·.progress ({ · with work := work' })))).Alone i work' := by
  constructor
  · simp [withJobs, Registry.get?_modify, h.job, Job.progress]
  · intro k j hk hw
    by_cases hki : i = k
    · exact hki.symm
    · simp only [withJobs, Registry.get?_modify, if_neg hki] at hk
      exact h.only k j hk hw

theorem Alone.complete (h : r.Alone i work) :
    (r.jobs.complete i).1 = true ∧ (r.withJobs (r.jobs.complete i).2).Idle := by
  constructor
  · simp [Registry.complete, h.job, Job.fst_complete, Job.mayDeliver, Job.isWorking]
  · intro j hj
    obtain ⟨k, hk⟩ := List.mem_iff_getElem?.1 hj
    have hk : (r.jobs.modify i (·.complete.2)).get? k = some j := hk
    rw [Registry.get?_modify] at hk
    by_cases hki : i = k
    · obtain ⟨j', -, rfl⟩ := Option.map_eq_some_iff.1 (by simpa [hki] using hk)
      exact Job.isWorking_complete j'
    · rw [if_neg hki] at hk
      exact Bool.eq_false_iff.2 fun hw => hki (h.only k j hk hw).symm

end Jobs

end Rendezvous

namespace Agent

section Jobs
variable {a : Agent} {r : Rendezvous} {i j : JobId} {work : Work} {t : Task}

/-- The one task that is at work. -/
theorem eq_of_task? (hr : a.rendezvous = some r) (h : r.Alone i work) (ht : a.task? j = some t) :
    j = i ∧ t = ⟨r.generation, work⟩ := by
  obtain ⟨r', job, hr', hj, hw, rfl⟩ := exists_of_task? ht
  obtain rfl := Option.some.inj (hr.symm.trans hr')
  obtain rfl := h.only j job hj hw
  obtain rfl := Option.some.inj (h.job.symm.trans hj)
  exact ⟨rfl, rfl⟩

theorem task?_of_alone (hr : a.rendezvous = some r) (h : r.Alone i work) :
    a.task? i = some ⟨r.generation, work⟩ := by
  simp [task?, hr, h.job, Job.isWorking]

theorem task?_of_idle (hr : a.rendezvous = some r) (h : r.Idle) : a.task? j = none := by
  cases ht : a.task? j with
  | none => rfl
  | some t =>
    obtain ⟨r', job, hr', hj, hw, -⟩ := exists_of_task? ht
    obtain rfl := Option.some.inj (hr.symm.trans hr')
    exact absurd ((h job (List.mem_of_getElem? hj)).symm.trans hw) Bool.false_ne_true

/-- The end of the one task is heard. -/
theorem complete_of_alone (hr : a.rendezvous = some r) (h : r.Alone i work) (how : TaskEnd) :
    a.complete i how =
      { a with
        rendezvous := some (r.withJobs (r.jobs.complete i).2)
        queue := a.queue ++ [.done r.generation how] } := by
  rw [complete_eq hr (task?_of_alone hr h) how, if_pos h.complete.1]

end Jobs

/-! ## The next step -/

section Step
variable {a : Agent} {r : Rendezvous} {s : Surroundings}

theorem step?_of_fresh {m : Match} {position : Nat} (hr : a.rendezvous = some r)
    (hp : r.progress = .fresh m position) :
    a.step? s = some (a.absorb (r.firstStep s m position)) := by
  simp [step?, next?, hr, hp]

theorem step?_of_notice {n : Notice} {queue : List Notice} (hr : a.rendezvous = some r)
    (hp : r.progress = .underway) (hq : a.queue = n :: queue) :
    a.step? s = some (absorb { a with queue } (r.react s n)) := by
  simp [step?, next?, hr, hp, hq]

theorem step?_of_silence (hr : a.rendezvous = some r) (hp : r.progress = .underway)
    (hq : a.queue = []) : a.step? s = none := by
  simp [step?, next?, hr, hp, hq]

end Step

/-- A step whose outputs do not end the rendezvous leaves the agent otherwise as it is. -/
theorem absorb_of_underway (a : Agent) {r : Rendezvous} {out : List Output}
    (hp : r.progress = .underway) (ho : ∀ o ∈ out, o.isFinal = false) :
    a.absorb (r, out) = ({ a with rendezvous := some r }, (outputs r.matchId a.gate out).1) := by
  have hgate : (outputs r.matchId a.gate out).2 = a.gate := by
    induction out with
    | nil => rfl
    | cons o out ih =>
      obtain ⟨h, hs⟩ := List.forall_mem_cons.1 ho
      cases o with
      | concluded => simp [Output.isFinal] at h
      | _ => exact ih hs
  simp [absorb, hp, hgate]

end Agent

namespace Rendezvous

variable {r : Rendezvous} {s : Surroundings} {m : Match} {position : Nat} {p : Submission}
  {invite : Option String}

theorem firstStep_of_turn (h : m.isMyTurn = true) :
    r.firstStep s m position = { r with progress := .underway }.playTurn m position := by
  have hlive : m.status.isLive = true := (Bool.and_eq_true_iff.1 h).1
  simp [firstStep, hlive, h]

theorem firstStep_of_wait (hl : m.status.isLive = true) (h : m.isMyTurn = false) :
    r.firstStep s m position =
      ({ r with progress := .underway }.awaitTurn s.now position r.timing.firstTurnWait.limit?,
        []) := by
  simp [firstStep, hl, h]

/-- A turn that ends in success has landed, and the match is watched. -/
theorem react_of_landed (hpend : r.pending = some p) (hwait : p.nextWait = .finished)
    (hsig : p.signal = some (.complete invite)) (hd : r.dismisses = false) :
    r.react s (.done r.generation (.submitted (.ok ()))) =
      ({ r with submission := none, pending := none }.awaitEnd p.position,
        [.reported (.complete invite)]) := by
  simp [react, taskDone, turnAnswered, turnAccepted, hpend, hsig, hwait, goOn, hd]

/-- A turn that ends in success has landed, and the match is given up. -/
theorem react_of_landed_leaving (hpend : r.pending = some p) (hwait : p.nextWait = .finished)
    (hsig : p.signal = some (.complete invite)) (hd : r.dismisses = true) :
    r.react s (.done r.generation (.submitted (.ok ()))) =
      ({ r with submission := none, pending := none }.leave,
        [.dismissed, .concluded (.complete invite)]) := by
  simp [react, taskDone, turnAnswered, turnAccepted, hpend, hsig, hwait, Patience.isFinished, hd,
    succeed, leave, letGo]

end Rendezvous

namespace Invitation

variable {I : Invitation} {t t' : Invitation.Hour} {h h' : Hub} {a b : Agent}
  {r : Rendezvous} {queue : List Notice} {s : Surroundings} {d : List Report}
  {effects : List Effect}

/-! ## At the rendezvous -/

/-- An agent at its rendezvous, which its owner has not let go of. -/
structure Attends (I : Invitation) (dismisses : Bool) (a : Agent) (r : Rendezvous)
    (queue : List Notice) : Prop where
  rendezvous : a.rendezvous = some r
  started : a.role = none
  queue : a.queue = queue
  gate : a.gate.closed = false
  matchId : r.matchId = I.id
  dismisses : r.dismisses = dismisses

section Attends
variable {leaves : Bool}

theorem Attends.matchId_eq (he : I.Attends leaves a r queue) {r' : Rendezvous}
    (hr : a.rendezvous = some r') : r'.matchId = I.id :=
  Option.some.inj (he.rendezvous.symm.trans hr) ▸ he.matchId

theorem Attends.start?_eq_none (he : I.Attends leaves a r queue) (signedIn : Bool) (m : Match)
    (position : Nat) : a.start? signedIn m position = none := by
  simp [Agent.start?, he.started]

theorem Attends.progress (he : I.Attends leaves a r queue) (i : JobId) (work : Work) :
    I.Attends leaves (a.progress i work)
      (r.withJobs (r.jobs.modify i (·.progress ({ · with work })))) queue :=
  ⟨Agent.rendezvous_progress he.rendezvous i work, he.started, he.queue, he.gate, he.matchId,
    he.dismisses⟩

theorem Attends.complete (he : I.Attends leaves a r []) {i : JobId} {work : Work}
    (h : r.Alone i work) (how : TaskEnd) :
    I.Attends leaves (a.complete i how) (r.withJobs (r.jobs.complete i).2)
      [.done r.generation how] := by
  rw [Agent.complete_of_alone he.rendezvous h how, he.queue]
  exact ⟨rfl, he.started, rfl, he.gate, he.matchId, he.dismisses⟩

end Attends

/-- A rendezvous of this role in which no turn was played yet. -/
structure Unplayed (role : Role) (r : Rendezvous) : Prop where
  role : r.role = role
  oldData : r.oldData = none

/-! ## The host's agent -/

/-- Where the host's agent can be at an hour, and what its owner has been told. -/
inductive Hosting (I : Invitation) (t : Hour) (a : Agent) : List Report → Prop
  | unstarted {timing : Timing} :
      t = .opened → a = .ofRole (.host I.invite) timing → timing.dismissOnFinish = none →
      Hosting I t a []
  /-- It is about to play its turn. -/
  | fresh {r : Rendezvous} {position : Nat} :
      t = .opened → I.Attends false a r [] → Unplayed (.host I.invite) r →
      r.progress = .fresh (I.opened.snapshot I.host) position → r.Idle → Hosting I t a []
  /-- Its turn is on the way. -/
  | offering {r : Rendezvous} {j : JobId} {issued : Bool} {p : Submission} :
      t = .opened → I.Attends false a r [] → r.progress = .underway → r.pending = some p →
      p.nextWait = .finished → p.signal = some (.complete none) →
      r.Alone j (.submit I.offer.encode (some I.guest) issued) → Hosting I t a []
  /-- Its turn has landed. -/
  | landed {r : Rendezvous} {p : Submission} :
      t ≠ .opened → I.Attends false a r [.done r.generation (.submitted (.ok ()))] →
      r.progress = .underway → r.pending = some p → p.nextWait = .finished →
      p.signal = some (.complete none) → r.Idle → Hosting I t a []
  /-- It has succeeded and watches the room. -/
  | watching {r : Rendezvous} {j : JobId} {v : EndWatch} :
      t ≠ .opened → I.Attends false a r [] → r.progress = .underway → r.phase = .monitoring →
      v.matchId = I.id → r.Alone j (.awaitEnd v) → Hosting I t a [⟨I.id, .complete none⟩]

/-- After the first hour it is all one to the host how late it is. -/
theorem Hosting.later (ha : I.Hosting t a d) (ht : t ≠ .opened) (ht' : t' ≠ .opened) :
    I.Hosting t' a d := by
  cases ha with
  | unstarted h => exact absurd h ht
  | fresh h => exact absurd h ht
  | offering h => exact absurd h ht
  | landed _ h₁ h₂ h₃ h₄ h₅ h₆ => exact .landed ht' h₁ h₂ h₃ h₄ h₅ h₆
  | watching _ h₁ h₂ h₃ h₄ h₅ => exact .watching ht' h₁ h₂ h₃ h₄ h₅

theorem Hosting.matchId (ha : I.Hosting t a d) (hr : a.rendezvous = some r) :
    r.matchId = I.id := by
  cases ha with
  | unstarted _ ha =>
    subst ha
    cases hr
  | fresh _ he => exact he.matchId_eq hr
  | offering _ he => exact he.matchId_eq hr
  | landed _ he => exact he.matchId_eq hr
  | watching _ he => exact he.matchId_eq hr

/-- What the host makes of its turn. -/
theorem playTurn_of_host {position : Nat} (hr : Unplayed (.host I.invite) r) :
    r.playTurn (I.opened.snapshot I.host) position =
      ({ r with
          phase := .processingTurn
          role := .host I.invite
          oldData := some .uninitialized }.submit
        ⟨.host I.invite, I.offer, .finished, some (.complete none)⟩ (some I.guest) position) := by
  have hdata : (I.opened.snapshot I.host).data = none := rfl
  have hnext : (I.opened.snapshot I.host).opponent? = some I.guest := I.opponent_of_host .opened
  simp [Rendezvous.playTurn, Payload.decode, hdata, hnext, hr.oldData, hr.role, Role.onTurn,
    Role.hostTurn, Payload.withInvite_of_ne I.nonempty, offer]

/-- The agent is started on what the host sees. -/
theorem hosting_start {signedIn : Bool} {m : Match} {position : Nat} (hh : I.Holds t h)
    (hm : h.snapshot? I.id I.host = some m) (ha : I.Hosting t a d)
    (hb : a.start? signedIn m position = some b) : I.Hosting t b d := by
  cases ha with
  | unstarted ht ha hd =>
    subst ha ht
    obtain ⟨-, rfl⟩ : signedIn = true ∧ _ = b := by simpa [Agent.start?, Agent.ofRole] using hb
    obtain rfl := Option.some.inj ((hh.snapshot? (I.host_sees _)).symm.trans hm)
    refine .fresh rfl ⟨rfl, rfl, rfl, rfl, rfl, ?_⟩ ⟨rfl, rfl⟩ rfl (List.forall_mem_nil _)
    simp [hd, Role.leavesByDefault]
  | fresh _ he => cases (he.start?_eq_none _ _ _).symm.trans hb
  | offering _ he => cases (he.start?_eq_none _ _ _).symm.trans hb
  | landed _ he => cases (he.start?_eq_none _ _ _).symm.trans hb
  | watching _ he => cases (he.start?_eq_none _ _ _).symm.trans hb

theorem hosting_step (ha : I.Hosting t a d) (hs : a.step? s = some (b, effects)) :
    (I.Hosting t b d ∧ ∃ data next, effects = [.submitted data next]) ∨
      (I.Hosting t b (d ++ [⟨I.id, .complete none⟩]) ∧
        effects = [.delivered ⟨I.id, .complete none⟩]) := by
  cases ha with
  | unstarted _ ha =>
    subst ha
    cases hs
  | @fresh r position ht he hu hp hidle =>
    left
    have hu' : Unplayed (.host I.invite) { r with progress := .underway } := ⟨hu.role, hu.oldData⟩
    rw [Agent.step?_of_fresh he.rendezvous hp, Rendezvous.firstStep_of_turn I.isMyTurn_of_host,
      playTurn_of_host hu'] at hs
    simp only [Rendezvous.submit] at hs
    rw [Agent.absorb_of_underway a rfl (by simp [Output.isFinal])] at hs
    obtain ⟨rfl, rfl⟩ := Prod.ext_iff.1 (Option.some.inj hs)
    exact ⟨.offering ht ⟨rfl, he.started, he.queue, he.gate, he.matchId, he.dismisses⟩
      rfl rfl rfl rfl (hidle.spawn rfl), _, _, rfl⟩
  | offering _ he hp => cases (Agent.step?_of_silence he.rendezvous hp he.queue).symm.trans hs
  | @landed r p ht he hp hpend hwait hsig hidle =>
    right
    rw [Agent.step?_of_notice he.rendezvous hp he.queue,
      Rendezvous.react_of_landed hpend hwait hsig he.dismisses, Agent.absorb_of_underway] at hs
    · obtain ⟨rfl, rfl⟩ := Prod.ext_iff.1 (Option.some.inj hs)
      refine ⟨?_, ?_⟩
      · exact .watching ht ⟨rfl, he.started, rfl, he.gate, he.matchId, he.dismisses⟩
          hp rfl he.matchId (Rendezvous.Idle.spawn hidle rfl)
      · simp [Agent.outputs, Agent.output, he.gate, Rendezvous.awaitEnd, Rendezvous.watch,
          Rendezvous.enter, he.matchId]
    · exact hp
    · simp [Output.isFinal]
  | watching _ he hp => cases (Agent.step?_of_silence he.rendezvous hp he.queue).symm.trans hs

/-- What the host's agent has in the background: its turn, which may land, or the watch
for the end of the room, which may read on. -/
theorem hosting_task {j : JobId} {task : Task} (ha : I.Hosting t a d)
    (ht : a.task? j = some task) :
    (∃ issued, t = .opened ∧ task.work = .submit I.offer.encode (some I.guest) issued ∧
        ∀ b, b = a ∨ b = a.progress j (.submit I.offer.encode (some I.guest) true) →
          ∀ t' ≠ .opened, I.Hosting t' (b.complete j (.submitted (.ok ()))) d) ∨
      ∃ v, task.work = .awaitEnd v ∧ v.matchId = I.id ∧
        ∀ feed, I.Hosting t (a.progress j (.awaitEnd (v.caughtUp feed))) d := by
  cases ha with
  | unstarted _ ha =>
    subst ha
    cases ht
  | fresh _ he _ _ hidle => cases (Agent.task?_of_idle he.rendezvous hidle).symm.trans ht
  | landed _ he _ _ _ _ hidle => cases (Agent.task?_of_idle he.rendezvous hidle).symm.trans ht
  | @offering r _ issued p hopened he hp hpend hwait hsig halone =>
    obtain ⟨rfl, rfl⟩ := Agent.eq_of_task? he.rendezvous halone ht
    refine .inl ⟨issued, hopened, rfl, ?_⟩
    rintro b (rfl | rfl) t' ht'
    · exact .landed ht' (he.complete halone _) hp hpend hwait hsig halone.complete.2
    · have halone' := halone.progress (.submit I.offer.encode (some I.guest) true)
      exact .landed ht' ((he.progress _ _).complete halone' _) hp hpend hwait hsig
        halone'.complete.2
  | @watching r _ v ht' he hp hphase hv halone =>
    obtain ⟨rfl, rfl⟩ := Agent.eq_of_task? he.rendezvous halone ht
    refine .inr ⟨v, rfl, hv, ?_⟩
    intro feed
    exact .watching (v := v.caughtUp feed) ht' (he.progress _ _) hp hphase hv (halone.progress _)

/-- A host's agent that was started and has nothing to look at hands its turn over, or
has succeeded. -/
theorem hosting_settled (ha : I.Hosting t a d) (hr : a.rendezvous ≠ none)
    (hs : a.step? s = none) :
    (∃ j task data next issued, a.task? j = some task ∧ task.work = .submit data next issued) ∨
      (t ≠ .opened ∧ d = [⟨I.id, .complete none⟩] ∧ a.phase = .monitoring) := by
  cases ha with
  | unstarted _ ha =>
    subst ha
    exact absurd rfl hr
  | fresh _ he _ hp => cases (Agent.step?_of_fresh he.rendezvous hp).symm.trans hs
  | offering _ he _ _ _ _ halone =>
    exact .inl ⟨_, _, _, _, _, Agent.task?_of_alone he.rendezvous halone, rfl⟩
  | landed _ he hp => cases (Agent.step?_of_notice he.rendezvous hp he.queue).symm.trans hs
  | watching ht he _ hphase => exact .inr ⟨ht, rfl, by simp [Agent.phase, he.rendezvous, hphase]⟩

theorem Hosting.told (ha : I.Hosting t a d) : d = [] ∨ d = [⟨I.id, .complete none⟩] := by
  cases ha with
  | watching => exact .inr rfl
  | _ => exact .inl rfl

/-! ## The guest's agent -/

/-- Where the guest's agent can be at an hour, and what its owner has been told. -/
inductive Visiting (I : Invitation) (t : Hour) (h : Hub) (a : Agent) : List Report → Prop
  | unstarted {timing : Timing} :
      (t = .opened ∨ t = .offered) → a = .ofRole (.client none) timing →
      timing.dismissOnFinish = none → Visiting I t h a []
  /-- It was started before the guest was to move. -/
  | early {r : Rendezvous} {position : Nat} :
      (t = .opened ∨ t = .offered) → I.Attends true a r [] → Unplayed (.client none) r →
      r.progress = .fresh (I.opened.snapshot I.guest) position → r.Idle →
      I.Awaits t h position → Visiting I t h a []
  /-- It was started when the guest was to move. -/
  | late {r : Rendezvous} {position : Nat} :
      t = .offered → I.Attends true a r [] → Unplayed (.client none) r →
      r.progress = .fresh (I.offered.snapshot I.guest) position → r.Idle → Visiting I t h a []
  /-- It waits for the turn. -/
  | waiting {r : Rendezvous} {j : JobId} {v : TurnWatch} :
      (t = .opened ∨ t = .offered) → I.Attends true a r [] → Unplayed (.client none) r →
      r.progress = .underway → v.matchId = I.id → I.Awaits t h v.position →
      r.Alone j (.awaitTurn v) → Visiting I t h a []
  /-- The turn has come. -/
  | called {r : Rendezvous} :
      t = .offered →
      I.Attends true a r [.done r.generation (.turn (.myTurn (I.offered.snapshot I.guest)))] →
      Unplayed (.client none) r → r.progress = .underway → r.Idle → Visiting I t h a []
  /-- Its own turn is on the way. -/
  | answering {r : Rendezvous} {j : JobId} {issued : Bool} {p : Submission} :
      t = .offered → I.Attends true a r [] → r.progress = .underway → r.pending = some p →
      p.nextWait = .finished → p.signal = some (.complete (some I.invite)) →
      r.Alone j (.submit I.offer.encode (some I.host) issued) → Visiting I t h a []
  /-- Its own turn has landed. -/
  | landed {r : Rendezvous} {p : Submission} :
      t = .taken → I.Attends true a r [.done r.generation (.submitted (.ok ()))] →
      r.progress = .underway → r.pending = some p → p.nextWait = .finished →
      p.signal = some (.complete (some I.invite)) → r.Idle → Visiting I t h a []
  /-- It has succeeded and is gone. -/
  | gone {r : Rendezvous} :
      (t = .leaving ∨ t = .left) → a.rendezvous = some r → a.role = none → r.matchId = I.id →
      r.progress = .ended → r.Idle → Visiting I t h a [⟨I.id, .complete (some I.invite)⟩]

/-- What the guest makes of its turn. -/
theorem playTurn_of_guest {position : Nat} (hr : Unplayed (.client none) r) :
    r.playTurn (I.offered.snapshot I.guest) position =
      ({ r with
          phase := .processingTurn
          role := .client (some I.invite)
          oldData := some I.offer }.submit
        ⟨.client (some I.invite), I.offer, .finished, some (.complete (some I.invite))⟩
        (some I.host) position) := by
  have hdata : Payload.decode (I.offered.snapshot I.guest).data = I.offer :=
    Payload.decode_encode I.offer
  have hnext : (I.offered.snapshot I.guest).opponent? = some I.host := I.opponent_of_guest .offered
  simp [Rendezvous.playTurn, hdata, hnext, hr.oldData, hr.role, Role.onTurn, Role.clientTurn, offer]

theorem Visiting.matchId (ha : I.Visiting t h a d) (hr : a.rendezvous = some r) :
    r.matchId = I.id := by
  cases ha with
  | unstarted _ ha =>
    subst ha
    cases hr
  | early _ he => exact he.matchId_eq hr
  | late _ he => exact he.matchId_eq hr
  | waiting _ he => exact he.matchId_eq hr
  | called _ he => exact he.matchId_eq hr
  | answering _ he => exact he.matchId_eq hr
  | landed _ he => exact he.matchId_eq hr
  | gone _ hr' _ hid => exact Option.some.inj (hr'.symm.trans hr) ▸ hid

/-- The agent is started on what the guest sees, and begins to listen. -/
theorem visiting_start {signedIn : Bool} {m : Match} (hh : I.Holds t h)
    (hm : h.snapshot? I.id I.guest = some m) (ha : I.Visiting t h a d)
    (hb : a.start? signedIn m (h.feed I.guest).position = some b) :
    I.Visiting t (h.subscribe I.guest) b d := by
  cases ha with
  | unstarted ht ha hd =>
    subst ha
    obtain ⟨-, rfl⟩ : signedIn = true ∧ _ = b := by simpa [Agent.start?, Agent.ofRole] using hb
    rw [hh.snapshot? ((I.guest_sees_iff t).2 (by rintro rfl; simp at ht))] at hm
    obtain rfl := Option.some.inj hm
    rcases ht with rfl | rfl
    · refine .early (.inl rfl) ⟨rfl, rfl, rfl, rfl, rfl, ?_⟩ ⟨rfl, rfl⟩ rfl
        (List.forall_mem_nil _) ?_
      · simp [hd, Role.leavesByDefault]
      · have hl := Hub.listens_of_subscribe hh.reachable I.guest
        rw [← Hub.feed_subscribe h I.guest]
        exact awaits_position hl rfl
    · refine .late rfl ⟨rfl, rfl, rfl, rfl, rfl, ?_⟩ ⟨rfl, rfl⟩ rfl (List.forall_mem_nil _)
      simp [hd, Role.leavesByDefault]
  | gone _ _ hrole => simp [Agent.start?, hrole] at hb
  | early _ he => cases (he.start?_eq_none _ _ _).symm.trans hb
  | late _ he => cases (he.start?_eq_none _ _ _).symm.trans hb
  | waiting _ he => cases (he.start?_eq_none _ _ _).symm.trans hb
  | called _ he => cases (he.start?_eq_none _ _ _).symm.trans hb
  | answering _ he => cases (he.start?_eq_none _ _ _).symm.trans hb
  | landed _ he => cases (he.start?_eq_none _ _ _).symm.trans hb

/-- The guest's agent goes on from one hour to the next, or from one hub to another at the
same hour, if it can still hear what it waits for. -/
theorem Visiting.onward (ha : I.Visiting t h a d) (ht : t' = t ∨ (t = .opened ∧ t' = .offered))
    (hw : ∀ position, I.Awaits t h position → I.Awaits t' h' position) :
    I.Visiting t' h' a d := by
  have hsoon : (t = .opened ∨ t = .offered) → t' = .opened ∨ t' = .offered := by
    rcases ht with rfl | ⟨-, rfl⟩
    · exact fun h => h
    · exact fun _ => .inr rfl
  have hsame {x : Hour} (hx : x ≠ .opened) (h : t = x) : t' = x := by
    rcases ht with rfl | ⟨rfl, -⟩
    · exact h
    · exact absurd h.symm hx
  cases ha with
  | unstarted h h₁ h₂ => exact .unstarted (hsoon h) h₁ h₂
  | early h h₁ h₂ h₃ h₄ h₅ => exact .early (hsoon h) h₁ h₂ h₃ h₄ (hw _ h₅)
  | late h h₁ h₂ h₃ h₄ => exact .late (hsame nofun h) h₁ h₂ h₃ h₄
  | waiting h h₁ h₂ h₃ h₄ h₅ h₆ => exact .waiting (hsoon h) h₁ h₂ h₃ h₄ (hw _ h₅) h₆
  | called h h₁ h₂ h₃ h₄ => exact .called (hsame nofun h) h₁ h₂ h₃ h₄
  | answering h h₁ h₂ h₃ h₄ h₅ h₆ => exact .answering (hsame nofun h) h₁ h₂ h₃ h₄ h₅ h₆
  | landed h h₁ h₂ h₃ h₄ h₅ h₆ => exact .landed (hsame nofun h) h₁ h₂ h₃ h₄ h₅ h₆
  | gone h h₁ h₂ h₃ h₄ h₅ => exact .gone (h.imp (hsame nofun) (hsame nofun)) h₁ h₂ h₃ h₄ h₅

/-- Once it is gone nothing more becomes of it. -/
theorem Visiting.left (ha : I.Visiting .leaving h a d) : I.Visiting .left h' a d := by
  cases ha with
  | gone _ h₁ h₂ h₃ h₄ h₅ => exact .gone (.inr rfl) h₁ h₂ h₃ h₄ h₅
  | unstarted h => simp at h
  | early h => simp at h
  | late h => cases h
  | waiting h => simp at h
  | called h => cases h
  | answering h => cases h
  | landed h => cases h

theorem visiting_step (ha : I.Visiting t h a d) (hs : a.step? s = some (b, effects)) :
    (I.Visiting t h b d ∧ (effects = [] ∨ ∃ data next, effects = [.submitted data next] ∨
        effects = [.subscribed, .submitted data next])) ∨
      (t = .taken ∧ I.Visiting .leaving h b (d ++ [⟨I.id, .complete (some I.invite)⟩]) ∧
        effects = [.dismissed, .delivered ⟨I.id, .complete (some I.invite)⟩]) := by
  cases ha with
  | unstarted _ ha =>
    subst ha
    cases hs
  | @early r position ht he hu hp hidle hw =>
    left
    rw [Agent.step?_of_fresh he.rendezvous hp,
      Rendezvous.firstStep_of_wait rfl I.not_isMyTurn_of_guest,
      Agent.absorb_of_underway a rfl (by simp)] at hs
    obtain ⟨rfl, rfl⟩ := Prod.ext_iff.1 (Option.some.inj hs)
    exact ⟨.waiting ht ⟨rfl, he.started, he.queue, he.gate, he.matchId, he.dismisses⟩
      ⟨hu.role, hu.oldData⟩ rfl he.matchId hw (Rendezvous.Idle.spawn hidle rfl), .inl rfl⟩
  | @late r position ht he hu hp hidle =>
    left
    have hu' : Unplayed (.client none) { r with progress := .underway } := ⟨hu.role, hu.oldData⟩
    rw [Agent.step?_of_fresh he.rendezvous hp, Rendezvous.firstStep_of_turn I.isMyTurn_of_guest,
      playTurn_of_guest hu'] at hs
    simp only [Rendezvous.submit] at hs
    rw [Agent.absorb_of_underway a rfl (by simp [Output.isFinal])] at hs
    obtain ⟨rfl, rfl⟩ := Prod.ext_iff.1 (Option.some.inj hs)
    exact ⟨.answering ht ⟨rfl, he.started, he.queue, he.gate, he.matchId, he.dismisses⟩
      rfl rfl rfl rfl (hidle.spawn rfl), .inr ⟨_, _, .inl rfl⟩⟩
  | waiting _ he _ hp => cases (Agent.step?_of_silence he.rendezvous hp he.queue).symm.trans hs
  | @called r ht he hu hp hidle =>
    left
    rw [Agent.step?_of_notice he.rendezvous hp he.queue] at hs
    simp only [Rendezvous.react, if_true, Rendezvous.taskDone, Rendezvous.turnSettled,
      playTurn_of_guest hu, Rendezvous.submit] at hs
    rw [Agent.absorb_of_underway] at hs
    · obtain ⟨rfl, rfl⟩ := Prod.ext_iff.1 (Option.some.inj hs)
      exact ⟨.answering ht ⟨rfl, he.started, rfl, he.gate, he.matchId, he.dismisses⟩
        hp rfl rfl rfl (hidle.spawn rfl), .inr ⟨_, _, .inr rfl⟩⟩
    · exact hp
    · simp [Output.isFinal]
  | answering _ he hp => cases (Agent.step?_of_silence he.rendezvous hp he.queue).symm.trans hs
  | @landed r p ht he hp hpend hwait hsig hidle =>
    right
    rw [Agent.step?_of_notice he.rendezvous hp he.queue,
      Rendezvous.react_of_landed_leaving hpend hwait hsig he.dismisses] at hs
    obtain ⟨rfl, rfl⟩ := Prod.ext_iff.1 (Option.some.inj hs)
    refine ⟨ht, ?_, ?_⟩
    · exact .gone (.inl rfl) rfl he.started he.matchId rfl (Rendezvous.Idle.leave hidle)
    · simp [Agent.absorb, Agent.outputs, Agent.output, he.gate, Rendezvous.leave,
        Rendezvous.letGo, he.matchId]
  | gone _ hr _ _ hp => simp [Agent.step?, Agent.next?, hr, hp] at hs

/-- What the guest's agent has in the background: the wait for its turn, which may read on
or end with the turn, or its own turn, which may land. -/
theorem visiting_task {j : JobId} {task : Task} (ha : I.Visiting t h a d)
    (ht : a.task? j = some task) :
    (∃ issued, t = .offered ∧ task.work = .submit I.offer.encode (some I.host) issued ∧
        ∀ b, b = a ∨ b = a.progress j (.submit I.offer.encode (some I.host) true) →
          ∀ h', I.Visiting .taken h' (b.complete j (.submitted (.ok ()))) d) ∨
      ∃ v, task.work = .awaitTurn v ∧ v.matchId = I.id ∧ I.Awaits t h v.position ∧
        (∀ feed, I.Awaits t h feed.position →
          I.Visiting t h (a.progress j (.awaitTurn (v.caughtUp feed))) d) ∧
        ∀ result, I.call? t = some result → I.Visiting t h (a.complete j (.turn result)) d := by
  cases ha with
  | unstarted _ ha =>
    subst ha
    cases ht
  | early _ he _ _ hidle => cases (Agent.task?_of_idle he.rendezvous hidle).symm.trans ht
  | late _ he _ _ hidle => cases (Agent.task?_of_idle he.rendezvous hidle).symm.trans ht
  | called _ he _ _ hidle => cases (Agent.task?_of_idle he.rendezvous hidle).symm.trans ht
  | landed _ he _ _ _ _ hidle => cases (Agent.task?_of_idle he.rendezvous hidle).symm.trans ht
  | gone _ hr _ _ _ hidle => cases (Agent.task?_of_idle hr hidle).symm.trans ht
  | @waiting r _ v htime he hu hp hv hw halone =>
    obtain ⟨rfl, rfl⟩ := Agent.eq_of_task? he.rendezvous halone ht
    refine .inr ⟨v, rfl, hv, hw, ?_, ?_⟩
    · intro feed hfeed
      exact .waiting (v := v.caughtUp feed) htime (he.progress _ _) ⟨hu.role, hu.oldData⟩ hp hv
        hfeed (halone.progress _)
    · intro result hcall
      rcases htime with rfl | rfl
      · cases hcall
      · obtain rfl := Option.some.inj hcall
        exact .called rfl (he.complete halone _) ⟨hu.role, hu.oldData⟩ hp halone.complete.2
  | @answering r _ issued p hoffered he hp hpend hwait hsig halone =>
    obtain ⟨rfl, rfl⟩ := Agent.eq_of_task? he.rendezvous halone ht
    refine .inl ⟨issued, hoffered, rfl, ?_⟩
    rintro b (rfl | rfl) h'
    · exact .landed rfl (he.complete halone _) hp hpend hwait hsig halone.complete.2
    · have halone' := halone.progress (.submit I.offer.encode (some I.host) true)
      exact .landed rfl ((he.progress _ _).complete halone' _) hp hpend hwait hsig
        halone'.complete.2

/-- A guest's agent that was started and has nothing to look at hands its turn over, waits
for it, or has succeeded. -/
theorem visiting_settled (ha : I.Visiting t h a d) (hr : a.rendezvous ≠ none)
    (hs : a.step? s = none) :
    (∃ j task data next issued, a.task? j = some task ∧ task.work = .submit data next issued) ∨
      (∃ j task v, a.task? j = some task ∧ task.work = .awaitTurn v ∧
        (t = .opened ∨ t = .offered)) ∨
      ((t = .leaving ∨ t = .left) ∧ d = [⟨I.id, .complete (some I.invite)⟩]) := by
  cases ha with
  | unstarted _ ha =>
    subst ha
    exact absurd rfl hr
  | early _ he _ hp => cases (Agent.step?_of_fresh he.rendezvous hp).symm.trans hs
  | late _ he _ hp => cases (Agent.step?_of_fresh he.rendezvous hp).symm.trans hs
  | waiting ht he _ _ _ _ halone =>
    exact .inr (.inl ⟨_, _, _, Agent.task?_of_alone he.rendezvous halone, rfl, ht⟩)
  | called _ he _ hp => cases (Agent.step?_of_notice he.rendezvous hp he.queue).symm.trans hs
  | answering _ he _ _ _ _ halone =>
    exact .inl ⟨_, _, _, _, _, Agent.task?_of_alone he.rendezvous halone, rfl⟩
  | landed _ he hp => cases (Agent.step?_of_notice he.rendezvous hp he.queue).symm.trans hs
  | gone ht => exact .inr (.inr ⟨ht, rfl⟩)

theorem Visiting.told (ha : I.Visiting t h a d) :
    d = [] ∨ d = [⟨I.id, .complete (some I.invite)⟩] := by
  cases ha with
  | gone => exact .inr rfl
  | _ => exact .inl rfl

end Invitation

end TurnRendezvous
