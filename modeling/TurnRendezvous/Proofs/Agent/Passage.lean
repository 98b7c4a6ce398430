/-
# `Rendezvous.Passage` — what a step of a rendezvous can be

`Passage` lists the steps of a rendezvous that is on duty, the branches left
out that only guard against the impossible: a notice that is stale or does
not fit the phase, an accepted turn of which nothing is known, a peer that
somebody else than an auto-match client wants probed.

* `passage_firstStep`, `passage_react`: every step is one of these;
* `settled_of_look`, `settled_of_notice`: after it the rendezvous is over or on duty
  again.
-/
import TurnRendezvous.Proofs.Agent.Duty

namespace TurnRendezvous

/-- How a turn watch that saw no turn is reported. -/
def TurnResult.outcome? : TurnResult → Option Outcome
  | .myTurn _ => none
  | .timedOut => some .timeout
  | .removed => some .matchRemoved
  | .serviceClosed => some (.fatalError .serviceClosed)

/-- How the end of a match is reported. -/
def Departure.outcome : Departure → Outcome
  | .serviceClosed => .fatalError .serviceClosed
  | _ => .matchRemoved

namespace Rendezvous

/-! ## Turns -/

/-- What comes of playing the turn on a snapshot. -/
inductive Played (r : Rendezvous) (m : Match) (position : Nat) : Rendezvous → List Output → Prop
  | refused : Played r m position r.leave [.concluded .matchInvalid]
  | handed {d : Decision} :
      Role.Verdict m r.timing.defaultTurnWait r.role r.oldData d → d.signal ≠ some .matchInvalid →
      Played r m position
        ({ r with
            phase := .processingTurn
            role := d.role
            oldData := some (Payload.decode m.data) }.submit d m.opponent? position).1
        [.submitted d.data.encode m.opponent?]

/-- Whatever is said to be invalid was refused. -/
theorem eq_refuse_of_verdict {m : Match} {wait : Duration} {role : Role} {old : Option Payload}
    {d : Decision} (h : Role.Verdict m wait role old d) (hd : d.signal = some .matchInvalid) :
    ∃ data, d = role.refuse data := by
  cases h with
  | refused data => exact ⟨data, rfl⟩
  | offered => simp at hd
  | passed => simp at hd
  | found => simp at hd
  | suspected => simp at hd

/-- A decision that gives nothing up is due. -/
theorem due_of_verdict {m : Match} {wait : Duration} {role : Role} {old : Option Payload}
    {d : Decision} (h : Role.Verdict m wait role old d) (hd : d.signal ≠ some .matchInvalid) :
    Due d.role (some (Payload.decode m.data)) d.nextWait d.signal := by
  cases h with
  | refused data => exact absurd rfl hd
  | offered h hm =>
    rw [hm]
    exact .offered
  | passed hrole hm =>
    rw [hm]
    exact .passed hrole
  | found h hm =>
    rw [hm]
    exact .found h
  | suspected h hm =>
    rw [hm]
    exact .suspected h

theorem played_playTurn (r : Rendezvous) (m : Match) (position : Nat) :
    r.Played m position (r.playTurn m position).1 (r.playTurn m position).2 := by
  simp only [playTurn]
  split
  next hf =>
    have hv := Role.onTurn_verdict r.role r.timing.defaultTurnWait hf
    generalize r.role.onTurn m (Payload.decode m.data) r.oldData r.timing.defaultTurnWait = d at hv
    split
    next hd =>
      obtain ⟨data, rfl⟩ := eq_refuse_of_verdict hv hd
      exact .refused
    next hd => exact .handed hv hd
  next => exact .refused

/-! ## Steps -/

/-- What a rendezvous looks at in a step. -/
inductive Cause
  | look (m : Match) (position : Nat)
  | notice (n : Notice)

/-- The steps of a rendezvous that is on duty, or about to begin. -/
inductive Passage (s : Surroundings) (r : Rendezvous) :
    Cause → Rendezvous → List Output → Prop
  | tooLate {m : Match} {position : Nat} :
      m.status.isLive = false →
      Passage s r (.look m position) { r with progress := .underway }.leave
        [.concluded .matchRemoved]
  | firstTurn {m : Match} {position : Nat} {r' : Rendezvous} {out : List Output} :
      m.isMyTurn = true → { r with progress := .underway }.Played m position r' out →
      Passage s r (.look m position) r' out
  | firstWait {m : Match} {position : Nat} :
      m.status.isLive = true → m.isMyTurn = false →
      Passage s r (.look m position)
        ({ r with progress := .underway }.awaitTurn s.now position r.timing.firstTurnWait.limit?) []
  | detached : Passage s r (.notice .detach) r.leave []
  | laterTurn {m : Match} {r' : Rendezvous} {out : List Output} :
      r.phase = .waitingForTurn → r.Played m s.position r' out →
      Passage s r (.notice (.done r.generation (.turn (.myTurn m)))) r' (.subscribed :: out)
  | waitEnded {result : TurnResult} {o : Outcome} :
      r.phase = .waitingForTurn → result.outcome? = some o →
      Passage s r (.notice (.done r.generation (.turn result))) r.leave [.concluded o]
  | turnRefused {e : Failure} :
      r.phase = .processingTurn →
      Passage s r (.notice (.done r.generation (.submitted (.error e))))
        { r with submission := none }.leave [.concluded (.fatalError e)]
  | passedOn {p : Submission} {base : Duration} :
      r.phase = .processingTurn → r.pending = some p → p.nextWait = .after base →
      p.signal = none → r.role.isHost = false → r.oldData = some .uninitialized →
      Passage s r (.notice (.done r.generation (.submitted (.ok ()))))
        ({ r with submission := none, pending := none }.awaitTurn s.now p.position
          (some (Jitter.spread base r.timing.jitterMax s.words).1)) []
  | succeeded {p : Submission} {invite : Option String} :
      r.phase = .processingTurn → r.pending = some p → p.signal = some (.complete invite) →
      r.role.verifies = false → r.dismisses = true →
      Passage s r (.notice (.done r.generation (.submitted (.ok ()))))
        { r with submission := none, pending := none }.leave
        [.dismissed, .concluded (.complete invite)]
  | stayed {p : Submission} {invite : Option String} :
      r.phase = .processingTurn → r.pending = some p → p.signal = some (.complete invite) →
      r.role.verifies = false → r.dismisses = false →
      Passage s r (.notice (.done r.generation (.submitted (.ok ()))))
        ({ r with submission := none, pending := none }.awaitEnd p.position)
        [.reported (.complete invite)]
  | verifies {p : Submission} {localId text : String} :
      r.phase = .processingTurn → r.pending = some p → p.signal = some (.verifyPeer text) →
      r.role = .autoClient localId (some text) →
      Passage s r (.notice (.done r.generation (.submitted (.ok ()))))
        ({ r with submission := none, pending := none }.verify s.now text).1 []
  | reachable {answer : ProbeAnswer} {text : String} :
      r.phase = .verifying → answer.isReachable = true → r.probed = some text →
      Passage s r (.notice (.done r.generation (.probed answer))) r.leave
        ((if r.dismisses then [.dismissed] else []) ++ [.concluded (.complete (some text))])
  | unreachable {answer : ProbeAnswer} :
      r.phase = .verifying → answer.isReachable = false →
      Passage s r (.notice (.done r.generation (.probed answer))) r.leave
        [.concluded .matchInvalid]
  | tooSlow :
      r.phase = .verifying →
      Passage s r (.notice (.done r.generation .timeUp)) r.leave [.concluded .matchInvalid]
  | gone {how : Departure} :
      r.phase = .monitoring →
      Passage s r (.notice (.done r.generation (.ended how))) r.leave [.concluded how.outcome]

theorem passage_firstStep (s : Surroundings) (r : Rendezvous) (m : Match) (position : Nat) :
    r.Passage s (.look m position) (r.firstStep s m position).1 (r.firstStep s m position).2 := by
  simp only [firstStep]
  cases hl : m.status.isLive with
  | false => exact .tooLate hl
  | true =>
    cases ht : m.isMyTurn with
    | true => exact .firstTurn ht (played_playTurn _ m position)
    | false => exact .firstWait hl ht

/-- A notice is of the current generation and of a kind that the phase waits for;
but for a probe, whose timer is still there, nothing else goes on. -/
theorem onDuty_notice {r : Rendezvous} {g : Nat} {how : TaskEnd} {queue : List Notice}
    (h : r.OnDuty (.done g how :: queue)) :
    g = r.generation ∧ how.activity ∈ r.phase.activities ∧
      (r.phase ≠ .verifying → r.jobs.running = [] ∧ noticed queue = []) := by
  have hp := h.activities
  simp only [noticed, List.map_cons] at hp
  refine ⟨h.noticed_current (g, how) (by simp [noticed]),
    hp.subset (List.mem_append_right _ List.mem_cons_self), ?_⟩
  intro hv
  have hlen := hp.length_eq
  have hone : r.phase.activities.length ≤ 1 := by
    cases hr : r.phase <;> simp_all [Phase.activities]
  simp only [List.length_append, List.length_map, List.length_cons] at hlen
  exact ⟨List.eq_nil_of_length_eq_zero (by omega), List.eq_nil_of_length_eq_zero (by omega)⟩

/-- What can be due: a report of success, another turn, or the peer's verification. -/
theorem Due.cases {role : Role} {old : Option Payload} {wait : Patience} {signal : Option Signal}
    (h : Due role old wait signal) :
    (∃ invite, wait = .finished ∧ signal = some (.complete invite) ∧ role.verifies = false) ∨
      (∃ base, wait = .after base ∧ signal = none ∧ role.isHost = false ∧
        old = some .uninitialized) ∨
      ∃ localId text, signal = some (.verifyPeer text) ∧
        role = .autoClient localId (some text) := by
  cases h with
  | offered => exact .inl ⟨none, rfl, rfl, rfl⟩
  | passed hh => exact .inr (.inl ⟨_, rfl, rfl, hh, rfl⟩)
  | found => exact .inl ⟨_, rfl, rfl, rfl⟩
  | suspected => exact .inr (.inr ⟨_, _, rfl, rfl⟩)

/-- What waits for the service's answer to a turn goes on as was due. -/
theorem passage_turnAccepted {s : Surroundings} {r : Rendezvous} (hp : r.phase = .processingTurn)
    (hc : r.Course) :
    r.Passage s (.notice (.done r.generation (.submitted (.ok ()))))
      (r.turnAnswered s (.ok ())).1 (r.turnAnswered s (.ok ())).2 := by
  simp only [Course, hp] at hc
  obtain ⟨⟨wait, signal, position⟩, hpend, hd⟩ := hc
  simp only [turnAnswered, turnAccepted, hpend] at hd ⊢
  rcases hd.cases with ⟨invite, rfl, rfl, hv⟩ | ⟨base, rfl, rfl, hh, hold⟩ |
    ⟨localId, text, rfl, hrole⟩
  · by_cases hdis : r.dismisses = true
    · simp only [Patience.isFinished, Bool.true_and, if_pos hdis, succeed]
      exact .succeeded hp hpend rfl hv hdis
    · simp only [Patience.isFinished, Bool.true_and, if_neg hdis, goOn]
      exact .stayed hp hpend rfl hv (by simpa using hdis)
  · exact .passedOn hp hpend rfl rfl hh hold
  · have hout : ({ r with submission := none, pending := none }.verify s.now text).2 = [] := by
      simp only [verify, hrole]
    rw [hout]
    exact .verifies hp hpend rfl hrole

theorem passage_react {s : Surroundings} {r : Rendezvous} {n : Notice} {queue : List Notice}
    (h : r.OnDuty (n :: queue)) :
    r.Passage s (.notice n) (r.react s n).1 (r.react s n).2 := by
  cases n with
  | detach => exact .detached
  | done g how =>
    obtain ⟨rfl, ha, -⟩ := onDuty_notice h
    simp only [react, if_true]
    cases how with
    | turn result =>
      have hp : r.phase = .waitingForTurn := by
        cases hr : r.phase <;> simp_all [Phase.activities, TaskEnd.activity]
      cases result with
      | myTurn m => exact .laterTurn hp (played_playTurn r m s.position)
      | timedOut => exact .waitEnded hp rfl
      | removed => exact .waitEnded hp rfl
      | serviceClosed => exact .waitEnded hp rfl
    | submitted result =>
      have hp : r.phase = .processingTurn := by
        cases hr : r.phase <;> simp_all [Phase.activities, TaskEnd.activity]
      cases result with
      | error e => exact .turnRefused hp
      | ok u => exact passage_turnAccepted hp h.course
    | probed answer =>
      have hp : r.phase = .verifying := by
        cases hr : r.phase <;> simp_all [Phase.activities, TaskEnd.activity]
      have hc := h.course
      simp only [Course, hp] at hc
      obtain ⟨localId, text, -, hprobed⟩ := hc
      cases hans : answer.isReachable with
      | true =>
        simp only [taskDone, probeSettled, hans, if_true, succeed, hprobed]
        exact .reachable hp hans hprobed
      | false =>
        simp only [taskDone, probeSettled, hans]
        exact .unreachable hp hans
    | timeUp =>
      have hp : r.phase = .verifying := by
        cases hr : r.phase <;> simp_all [Phase.activities, TaskEnd.activity]
      exact .tooSlow hp
    | ended how =>
      have hp : r.phase = .monitoring := by
        cases hr : r.phase <;> simp_all [Phase.activities, TaskEnd.activity]
      cases how with
      | removed => exact .gone hp
      | ended status => exact .gone hp
      | serviceClosed => exact .gone hp

/-! ## What a step keeps -/

/-- What a rendezvous is for, which no step changes. -/
structure SameAim (r r' : Rendezvous) : Prop where
  matchId : r'.matchId = r.matchId
  timing : r'.timing = r.timing
  dismisses : r'.dismisses = r.dismisses
  blank : r'.role.blank = r.role.blank

theorem sameAim_of_played {r r' : Rendezvous} {m : Match} {position : Nat} {out : List Output}
    (h : r.Played m position r' out) : r.SameAim r' := by
  cases h with
  | refused => exact ⟨rfl, rfl, rfl, rfl⟩
  | handed hv => exact ⟨rfl, rfl, rfl, hv.blank_eq⟩

theorem sameAim_verify (r : Rendezvous) (now : Instant) (invite : String) :
    r.SameAim (r.verify now invite).1 := by
  unfold verify
  split <;> exact ⟨rfl, rfl, rfl, rfl⟩

theorem sameAim_of_passage {s : Surroundings} {r r' : Rendezvous} {cause : Cause}
    {out : List Output} (h : r.Passage s cause r' out) : r.SameAim r' := by
  cases h with
  | firstTurn _ hp =>
    obtain ⟨h₁, h₂, h₃, h₄⟩ := sameAim_of_played hp
    exact ⟨h₁, h₂, h₃, h₄⟩
  | laterTurn _ hp => exact sameAim_of_played hp
  | verifies =>
    obtain ⟨h₁, h₂, h₃, h₄⟩ := sameAim_verify
      { r with submission := none, pending := none } s.now _
    exact ⟨h₁, h₂, h₃, h₄⟩
  | _ => exact ⟨rfl, rfl, rfl, rfl⟩

/-! ## Where a step leads -/

/-- A rendezvous that was stepped is over or on duty. -/
def Settled (r : Rendezvous) (queue : List Notice) : Prop :=
  r.Over ∨ (r.progress = .underway ∧ r.OnDuty queue)

section Free
variable {r : Rendezvous} {queue : List Notice} (hr : r.jobs.running = [])
  (hq : noticed queue = [])
include hr hq

theorem settled_of_played {m : Match} {position : Nat} {r' : Rendezvous} {out : List Output}
    (hp : r.progress = .underway) (h : r.Played m position r' out) : r'.Settled queue := by
  cases h with
  | refused => exact .inl (over_leave (kept_of_silent hr))
  | @handed d hv hd =>
    exact .inr ⟨hp, onDuty_submit (r := { r with
        phase := .processingTurn, role := d.role, oldData := some (Payload.decode m.data) })
      hr hq rfl (due_of_verdict hv hd) _ _⟩

/-- The first step of a rendezvous that has nothing going on. -/
theorem settled_of_look {s : Surroundings} {m : Match} {position : Nat} {r' : Rendezvous}
    {out : List Output} (hold : r.oldData = none)
    (h : r.Passage s (.look m position) r' out) : r'.Settled queue := by
  cases h with
  | tooLate => exact .inl (over_leave (kept_of_silent hr))
  | firstTurn _ hp => exact settled_of_played (r := { r with progress := .underway }) hr hq rfl hp
  | firstWait =>
    exact .inr ⟨rfl, onDuty_awaitTurn (r := { r with progress := .underway }) hr hq
      _ _ _ (.inl hold)⟩

end Free

/-- Every later step. -/
theorem settled_of_notice {s : Surroundings} {r r' : Rendezvous} {n : Notice}
    {queue : List Notice} {out : List Output} (hu : r.progress = .underway)
    (hd : r.OnDuty (n :: queue)) (h : r.Passage s (.notice n) r' out) : r'.Settled queue := by
  have quits : ∀ {r : Rendezvous}, r.Kept → r.leave.Settled queue := fun hk => .inl (over_leave hk)
  cases h with
  | detached => exact quits hd.kept
  | laterTurn hp hplay =>
    obtain ⟨hr, hq⟩ := (onDuty_notice hd).2.2 (by simp [hp])
    exact settled_of_played hr hq hu hplay
  | waitEnded => exact quits hd.kept
  | turnRefused hp =>
    have hr := ((onDuty_notice hd).2.2 (by simp [hp])).1
    exact quits (kept_of_silent hr)
  | passedOn hp _ _ _ hh hold =>
    obtain ⟨hr, hq⟩ := (onDuty_notice hd).2.2 (by simp [hp])
    exact .inr ⟨hu, onDuty_awaitTurn (r := { r with submission := none, pending := none }) hr hq
      _ _ _ (.inr ⟨hold, hh⟩)⟩
  | succeeded hp =>
    have hr := ((onDuty_notice hd).2.2 (by simp [hp])).1
    exact quits (kept_of_silent hr)
  | stayed hp _ _ hv hdis =>
    obtain ⟨hr, hq⟩ := (onDuty_notice hd).2.2 (by simp [hp])
    exact .inr ⟨hu, onDuty_awaitEnd (r := { r with submission := none, pending := none }) hr hq
      _ hv hdis⟩
  | verifies hp _ _ hrole =>
    obtain ⟨hr, hq⟩ := (onDuty_notice hd).2.2 (by simp [hp])
    exact .inr ⟨by simpa only [verify, hrole, watch, enter] using hu,
      onDuty_verify (r := { r with submission := none, pending := none }) hr hq hrole s.now⟩
  | reachable => exact quits hd.kept
  | unreachable => exact quits hd.kept
  | tooSlow => exact quits hd.kept
  | gone => exact quits hd.kept

end Rendezvous

end TurnRendezvous
