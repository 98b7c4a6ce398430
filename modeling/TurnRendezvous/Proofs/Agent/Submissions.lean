/-
# `Agent.submissions` — what an agent hands to the service

Nowhere is it written how often an agent may take a turn.  It follows from
what it remembers: the payload that it found last, kept before the role's
decision is looked at, rules out every third turn (`Said`), and a turn is
played only while no other is on its way (`Rendezvous.inFlight`).

* `turn_of_passage`: what a step hands over;
* `handing_of_turned`: what a move adds to the turns of a run;
* `submissions_in_order`: what a whole run hands over.
-/
import Mathlib.Data.List.Chain
import TurnRendezvous.Proofs.Agent.Standing

namespace TurnRendezvous

/-- The bytes that an output hands over. -/
def Output.submitted? : Output → Option Bytes
  | .submitted data _ => some data
  | _ => none

/-- The bytes that a task hands over. -/
def Work.submitted? : Work → Option Bytes
  | .submit data _ _ => some data
  | _ => none

theorem Work.MayBecome.submitted?_eq {w w' : Work} (h : w.MayBecome w') :
    w'.submitted? = w.submitted? :=
  h.get_eq (fun _ _ => rfl) (fun _ _ => rfl) (fun _ _ => rfl) fun _ _ _ => rfl

/-! ## What a role says, turn by turn -/

/-- What a role has said in its turns, and the payload that it found last. -/
inductive Said : Role → Option Payload → List Payload → Prop
  | nothing {role : Role} : Said role none []
  | offered {invite : String} (h : invite ≠ "") :
      Said (.host invite) (some .uninitialized) [.invite invite h]
  | passed {role : Role} :
      role.isHost = false → Said role (some .uninitialized) [.uninitialized]
  | found {role : Role} {text : String} (h : text ≠ "") :
      role.isHost = false → Said role (some (.invite text h)) [.invite text h]
  | foundLater {role : Role} {text : String} (h : text ≠ "") :
      role.isHost = false →
      Said role (some (.invite text h)) [.uninitialized, .invite text h]

/-- A decision to play on says the next thing. -/
theorem said_of_verdict {m : Match} {wait : Duration} {role role' : Role} {old : Option Payload}
    {d : Decision} {ps : List Payload} (h : Role.Verdict m wait role' old d)
    (hd : d.signal ≠ some .matchInvalid) (hs : Said role old ps)
    (hrole : role'.blank = role.blank) :
    Said role (some (Payload.decode m.data)) (ps ++ [d.data]) := by
  have hhost : role'.isHost = role.isHost := by
    rw [← Role.isHost_blank, hrole, Role.isHost_blank]
  cases h with
  | refused => exact absurd rfl hd
  | offered h hm =>
    obtain rfl := Role.blank_eq_host_iff.1 hrole.symm
    cases hs with
    | nothing =>
      rw [hm]
      exact .offered h
  | passed hh hm =>
    cases hs with
    | nothing =>
      rw [hm]
      exact .passed (hhost ▸ hh)
  | found h hm hold =>
    rw [hm]
    cases hs with
    | nothing => exact .found h hhost.symm
    | offered => cases hhost
    | passed => exact .foundLater h hhost.symm
    | found => simp at hold
    | foundLater => simp at hold
  | suspected h hm hold =>
    rw [hm]
    cases hs with
    | nothing => exact .found h hhost.symm
    | offered => cases hhost
    | passed => exact .foundLater h hhost.symm
    | found => simp at hold
    | foundLater => simp at hold

namespace Rendezvous

/-! ## What a step hands over -/

/-- The snapshot on which a step plays a turn. -/
def Cause.toPlay? : Cause → Option Match
  | .look m _ => if m.isMyTurn then some m else none
  | .notice (.done _ (.turn (.myTurn m))) => some m
  | _ => none

/-- What a step does about turns: it plays none; or gives the match up over one;
or hands one over. -/
inductive TurnTaken (r r' : Rendezvous) : Option Match → List Output → Prop
  | none {out : List Output} :
      out.filterMap Output.submitted? = [] → (r'.progress = .ended ∨ r'.oldData = r.oldData) →
      TurnTaken r r' none out
  | refused {m : Match} {out : List Output} :
      out.filterMap Output.submitted? = [] → r'.progress = .ended → TurnTaken r r' (some m) out
  | handed {m : Match} {d : Decision} {out : List Output} :
      out.filterMap Output.submitted? = [d.data.encode] →
      Role.Verdict m r.timing.defaultTurnWait r.role r.oldData d →
      d.signal ≠ some .matchInvalid → r'.progress ≠ .ended →
      r'.oldData = some (Payload.decode m.data) → TurnTaken r r' (some m) out

theorem turn_of_played {r r' : Rendezvous} {m : Match} {position : Nat} {out : List Output}
    (h : r.Played m position r' out) (hu : r.progress = .underway) :
    TurnTaken r r' (some m) out := by
  cases h with
  | refused => exact .refused rfl rfl
  | handed hv hd => exact .handed rfl hv hd (by simp [submit, hu]) rfl

theorem turn_of_passage {s : Surroundings} {r r' : Rendezvous} {cause : Cause}
    {out : List Output} (h : r.Passage s cause r' out)
    (hu : ∀ n, cause = .notice n → r.progress = .underway) :
    TurnTaken r r' cause.toPlay? out := by
  have idle : ∀ {m : Match}, m.status.isLive = false → m.isMyTurn = false := fun h => by
    simp [Match.isMyTurn, h]
  cases h with
  | tooLate hl =>
    simp only [Cause.toPlay?, idle hl, Bool.false_eq_true, if_false]
    exact .none rfl (.inl rfl)
  | firstTurn hm hp =>
    simp only [Cause.toPlay?, hm, if_true]
    cases turn_of_played hp rfl with
    | refused h₁ h₂ => exact .refused h₁ h₂
    | handed h₁ h₂ h₃ h₄ h₅ => exact .handed h₁ h₂ h₃ h₄ h₅
  | firstWait _ hm =>
    simp only [Cause.toPlay?, hm, Bool.false_eq_true, if_false]
    exact .none rfl (.inr rfl)
  | laterTurn _ hp =>
    cases turn_of_played hp (hu _ rfl) with
    | refused h₁ h₂ => exact .refused h₁ h₂
    | handed h₁ h₂ h₃ h₄ h₅ => exact .handed h₁ h₂ h₃ h₄ h₅
  | @waitEnded result o _ ho =>
    cases result with
    | myTurn => simp [TurnResult.outcome?] at ho
    | _ => exact .none rfl (.inl rfl)
  | passedOn => exact .none rfl (.inr rfl)
  | stayed => exact .none rfl (.inr rfl)
  | verifies _ _ _ hrole => exact .none rfl (.inr (by simp [verify, hrole, watch, enter]))
  | reachable =>
    refine .none ?_ (.inl rfl)
    split <;> rfl
  | _ => exact .none rfl (.inl rfl)

/-! ## Turns on their way -/

/-- Whether a job hands a turn to the service and has no answer yet. -/
def isFlying (j : Job Task) : Bool := j.isWorking && j.work.work.activity == .submission

/-- How many turns are on their way. -/
def inFlight (r : Rendezvous) : Nat := r.jobs.jobs.countP isFlying

/-- What was handed over, oldest first. -/
def handed (r : Rendezvous) : List Bytes := r.jobs.jobs.filterMap (·.work.work.submitted?)

/-- Every job at work can deliver. -/
def AllOpen (r : Rendezvous) : Prop := ∀ j ∈ r.jobs.jobs, j.isWorking = true → j.mayDeliver = true

/-- What cancelling and abandoning jobs keeps is kept at the end. -/
theorem jobs_leave {P : Registry Task → Prop} {r : Rendezvous} (h : P r.jobs)
    (hc : ∀ g i, P g → P (Registry.cancel g i)) (ha : ∀ g i, P g → P (Registry.abandon g i)) :
    P r.leave.jobs := by
  have hall : ∀ (ids : List JobId) (g : Registry Task), P g → P (ids.foldl Registry.cancel g) := by
    intro ids
    induction ids with
    | nil => exact fun _ h => h
    | cons i ids ih => exact fun g h => ih _ (hc g i h)
  have hw : P (r.watches.cancelAll r.jobs).2 := hall _ _ h
  simp only [leave, letGo]
  split
  · exact ha _ _ hw
  · exact hw

/-- The tasks that were ever started are not forgotten. -/
theorem filterMap_leave {β : Type} (get : Task → Option β) (r : Rendezvous) :
    r.leave.jobs.jobs.filterMap (fun j => get j.work) =
      r.jobs.jobs.filterMap (fun j => get j.work) := by
  refine jobs_leave (P := fun g => g.jobs.filterMap (fun j => get j.work) =
    r.jobs.jobs.filterMap (fun j => get j.work)) rfl ?_ ?_
  · intro g i h
    exact (Registry.filterMap_modify g i fun j _ => by unfold Job.cancel; split <;> rfl).trans h
  · intro g i h
    exact (Registry.filterMap_modify (f := Job.abandon) g i fun j _ => rfl).trans h

theorem handed_leave (r : Rendezvous) : r.leave.handed = r.handed :=
  filterMap_leave (·.work.submitted?) r

theorem inFlight_leave (r : Rendezvous) : r.leave.inFlight ≤ r.inFlight := by
  refine jobs_leave (P := fun g => g.jobs.countP isFlying ≤ r.inFlight) (Nat.le_refl _)
    ?_ ?_
  · intro g i h
    refine (Registry.countP_modify_le g i ?_).trans h
    intro j _ hj
    revert hj
    unfold Job.cancel
    split
    · exact id
    · split <;> simp_all [isFlying, Job.isWorking]
  · intro g i h
    have hle := Registry.countP_modify_le (p := isFlying) (f := Job.abandon) g i fun j _ hj => hj
    exact hle.trans h

/-- What a step does to the jobs: it lets go of them, or starts some. -/
inductive Staffed (r r' : Rendezvous) (out : List Output) : Prop
  | left {q : Rendezvous} :
      q.jobs = r.jobs → r' = q.leave → out.filterMap Output.submitted? = [] → Staffed r r' out
  | started (ts : List Task) :
      r'.jobs.jobs = r.jobs.jobs ++ ts.map (fun t => { work := t }) →
      ts.filterMap (·.work.submitted?) = out.filterMap Output.submitted? → Staffed r r' out

theorem staffed_of_played {r r' : Rendezvous} {m : Match} {position : Nat} {out : List Output}
    (h : r.Played m position r' out) : Staffed r r' out := by
  cases h with
  | refused => exact .left rfl rfl rfl
  | @handed d =>
    exact .started [⟨r.generation + 1, .submit d.data.encode m.opponent? false⟩] rfl rfl

theorem staffed_of_passage {s : Surroundings} {r r' : Rendezvous} {cause : Cause}
    {out : List Output} (h : r.Passage s cause r' out) : Staffed r r' out := by
  cases h with
  | firstTurn _ hp =>
    cases staffed_of_played hp with
    | left h₁ h₂ h₃ => exact .left h₁ h₂ h₃
    | started ts h₁ h₂ => exact .started ts h₁ h₂
  | firstWait => exact .started [_] rfl rfl
  | laterTurn _ hp =>
    cases staffed_of_played hp with
    | left h₁ h₂ h₃ => exact .left h₁ h₂ h₃
    | started ts h₁ h₂ => exact .started ts h₁ h₂
  | passedOn => exact .started [_] rfl rfl
  | stayed => exact .started [_] rfl rfl
  | @verifies p localId text _ _ _ hrole =>
    refine .started [⟨r.generation + 1, .probe text localId none⟩,
      ⟨r.generation + 1, .timer (s.now + r.timing.probeTimeout.nanos)⟩] ?_ rfl
    simp [verify, hrole, watch, enter, Registry.spawn]
  | reachable =>
    refine .left (q := r) rfl rfl ?_
    split <;> rfl
  | turnRefused => exact .left (q := { r with submission := none }) rfl rfl rfl
  | succeeded => exact .left (q := { r with submission := none, pending := none }) rfl rfl rfl
  | tooLate => exact .left (q := { r with progress := .underway }) rfl rfl rfl
  | _ => exact .left (q := r) rfl rfl rfl

theorem Staffed.handed_eq {r r' : Rendezvous} {out : List Output} (h : Staffed r r' out) :
    r'.handed = r.handed ++ out.filterMap Output.submitted? := by
  cases h with
  | left hq hr ho => rw [hr, handed_leave, ho, List.append_nil, handed, hq, handed]
  | started ts hjobs ho =>
    simp only [handed, hjobs, List.filterMap_append, List.filterMap_map, ← ho]
    rfl

/-- A rendezvous that goes on has all its jobs open. -/
theorem Staffed.allOpen {r r' : Rendezvous} {out : List Output} (h : Staffed r r' out)
    (ha : r.AllOpen) : (r'.progress = .ended ∧ r'.inFlight ≤ r.inFlight) ∨ r'.AllOpen := by
  cases h with
  | @left q hq hr =>
    refine .inl ⟨hr ▸ rfl, ?_⟩
    rw [hr]
    exact (inFlight_leave q).trans (by rw [inFlight, hq, inFlight])
  | started ts hjobs =>
    refine .inr ?_
    intro j hj hw
    rw [hjobs] at hj
    rcases List.mem_append.1 hj with hj | hj
    · exact ha j hj hw
    · obtain ⟨t, -, rfl⟩ := List.mem_map.1 hj
      rfl

/-- While all jobs are open, the turns on their way are those that still run. -/
theorem inFlight_eq {r : Rendezvous} (ha : r.AllOpen) :
    r.inFlight = (r.jobs.running.map (·.work.activity)).count .submission := by
  simp only [inFlight, Registry.running, List.map_map, List.count, List.countP_map,
    List.countP_filter]
  refine List.countP_congr ?_
  intro j hj
  have hw := ha j hj
  simp only [isFlying, Function.comp_apply, Bool.and_eq_true]
  constructor
  · exact fun h => ⟨h.2, hw h.1⟩
  · exact fun h => ⟨(Bool.and_eq_true_iff.1 h.2).1, h.1⟩

/-- At most one turn is on its way, and none in the end. -/
theorem inFlight_le_one {r : Rendezvous} {queue : List Notice} (h : r.Settled queue)
    (ha : r.AllOpen) : r.inFlight ≤ 1 := by
  rw [inFlight_eq ha]
  rcases h with h | ⟨-, h⟩
  · simp [h.silent]
  · have hle : (r.jobs.running.map (·.work.activity)).count .submission ≤
        r.phase.activities.count .submission := by
      rw [← h.activities.count_eq, List.count_append]
      exact Nat.le_add_right _ _
    refine hle.trans ?_
    cases r.phase <;> decide

/-- What is the same of a task before and after it goes on is the same of all jobs. -/
theorem filterMap_progress {β : Type} {get : Work → Option β} {r : Rendezvous} {i : JobId}
    {j : Job Task} (hj : r.jobs.get? i = some j) {work : Work}
    (hw : get work = get j.work.work) :
    (r.jobs.modify i (·.progress ({ · with work }))).jobs.filterMap (fun j => get j.work.work) =
      r.jobs.jobs.filterMap (fun j => get j.work.work) := by
  refine Registry.filterMap_modify r.jobs i ?_
  intro j' hj'
  obtain rfl := Option.some.inj (hj.symm.trans hj')
  unfold Job.progress
  split
  · exact hw
  · rfl

/-- A task that goes on hands over what it did. -/
theorem handed_progress {r : Rendezvous} {i : JobId} {j : Job Task} (hj : r.jobs.get? i = some j)
    {work : Work} (hb : j.work.work.MayBecome work) :
    (r.withJobs (r.jobs.modify i (·.progress ({ · with work })))).handed = r.handed :=
  filterMap_progress hj hb.submitted?_eq

theorem inFlight_progress {r : Rendezvous} {i : JobId} {j : Job Task}
    (hj : r.jobs.get? i = some j) {work : Work} (hb : j.work.work.MayBecome work) :
    (r.withJobs (r.jobs.modify i (·.progress ({ · with work })))).inFlight ≤ r.inFlight := by
  refine Registry.countP_modify_le r.jobs i ?_
  intro j' hj' hp
  obtain rfl := Option.some.inj (hj.symm.trans hj')
  revert hp
  unfold Job.progress
  split
  · simp [isFlying, Job.isWorking, hb.activity_eq]
  · exact id

theorem handed_complete (r : Rendezvous) (i : JobId) :
    (r.withJobs (r.jobs.complete i).2).handed = r.handed :=
  Registry.filterMap_modify r.jobs i fun j _ => by simp

theorem inFlight_complete (r : Rendezvous) (i : JobId) :
    (r.withJobs (r.jobs.complete i).2).inFlight ≤ r.inFlight :=
  Registry.countP_modify_le r.jobs i fun j _ hp => by simp [isFlying] at hp

end Rendezvous

namespace Agent

/-! ## What a move adds -/

/-- What an agent that is not over remembers of its last turn. -/
def memory? (a : Agent) : Option (Option Payload) :=
  match a.rendezvous with
  | none => some none
  | some r => if r.progress = .ended then none else some r.oldData

theorem memory?_of_some {a : Agent} {r : Rendezvous} (h : a.rendezvous = some r) :
    a.memory? = if r.progress = .ended then none else some r.oldData := by
  simp only [memory?, h]

theorem SameWork.memory?_eq {a b : Agent} (h : a.SameWork b) : b.memory? = a.memory? := by
  simp only [memory?, h.rendezvous]

/-- What a move does about turns, and what it hands over. -/
inductive Turned (a b : Agent) : Option Play → List Bytes → Prop
  | none : (b.memory? = a.memory? ∨ b.memory? = none) → Turned a b none []
  | refused {m : Match} : b.memory? = none → Turned a b (some ⟨m, []⟩) []
  | handed {r : Rendezvous} {m : Match} {wait : Duration} {d : Decision} :
      a.rendezvous = some r → a.memory? = some r.oldData →
      b.memory? = some (some (Payload.decode m.data)) →
      Role.Verdict m wait r.role r.oldData d → d.signal ≠ some .matchInvalid →
      Turned a b (some ⟨m, [d.data.encode]⟩) [d.data.encode]

/-- What is read off the marks of a step is read off its outputs, as long as it has
nothing to do with the outcomes. -/
theorem filterMap_emitAll {β : Type} {get : Mark → Option β} {put : Output → Option β}
    (hsubscribed : get .subscribed = put .subscribed)
    (hsubmitted : ∀ data next, get (.submitted data next) = put (.submitted data next))
    (hdismissed : get .dismissed = put .dismissed) (hcalled : ∀ c, get (.called c) = none)
    (houtcome : ∀ o, put (.reported o) = none ∧ put (.concluded o) = none)
    (within : List OwnerCall) (id : MatchId) (out : List Output) :
    ∀ a : Agent, (a.emitAll within id out).2.filterMap get = out.filterMap put := by
  have one : ∀ (a : Agent) (o : Output),
      (a.emit within id o).2.filterMap get = [o].filterMap put := by
    intro a o
    cases o with
    | reported =>
      cases hc : a.gate.closed <;> simp [emit, output, hc, Mark.ofEffect, hcalled, houtcome]
    | concluded =>
      cases hc : a.gate.closed <;> simp [emit, output, hc, Mark.ofEffect, hcalled, houtcome]
    | subscribed => simp only [emit, output, List.map, List.filterMap, Mark.ofEffect, hsubscribed]
    | submitted => simp only [emit, output, List.map, List.filterMap, Mark.ofEffect, hsubmitted]
    | dismissed => simp only [emit, output, List.map, List.filterMap, Mark.ofEffect, hdismissed]
  induction out with
  | nil => exact fun _ => rfl
  | cons o out ih =>
    intro a
    rw [emitAll, List.filterMap_append, one, ih, ← List.filterMap_append, List.singleton_append]

theorem submitted_emitAll (within : List OwnerCall) (id : MatchId) (out : List Output) :
    ∀ a : Agent, (a.emitAll within id out).2.filterMap Mark.submitted? =
      out.filterMap Output.submitted? :=
  filterMap_emitAll rfl (fun _ _ => rfl) rfl (fun _ => rfl) (fun _ => ⟨rfl, rfl⟩) within id out

theorem toPlay?_of_look {a : Agent} {r : Rendezvous} {m : Match} {position : Nat}
    (hr : a.rendezvous = some r) (hp : r.progress = .fresh m position) :
    a.toPlay? = (Rendezvous.Cause.look m position).toPlay? := by
  simp only [toPlay?, hr, hp, Rendezvous.Cause.toPlay?]

theorem toPlay?_of_notice {a : Agent} {r : Rendezvous} {n : Notice} {queue : List Notice}
    (hr : a.rendezvous = some r) (hp : r.progress = .underway) (hq : a.queue = n :: queue)
    (hd : r.OnDuty (n :: queue)) : a.toPlay? = (Rendezvous.Cause.notice n).toPlay? := by
  cases n with
  | detach => simp only [toPlay?, hr, hp, hq, Rendezvous.Cause.toPlay?]
  | done g how =>
    obtain ⟨rfl, -⟩ := Rendezvous.onDuty_notice hd
    cases how with
    | turn result =>
      cases result with
      | myTurn m => simp only [toPlay?, hr, hp, hq, if_true, Rendezvous.Cause.toPlay?]
      | _ => simp only [toPlay?, hr, hp, hq, Rendezvous.Cause.toPlay?]
    | _ => simp only [toPlay?, hr, hp, hq, Rendezvous.Cause.toPlay?]

/-- What a step plays and hands over, seen from the agent. -/
theorem turn_of_stride {a a' : Agent} {s : Surroundings} {r' : Rendezvous} {out : List Output}
    (h : a.Stride s a' r' out) :
    ∃ r, a.rendezvous = some r ∧ a.memory? = some r.oldData ∧ r.TurnTaken r' a.toPlay? out ∧
      r.Staffed r' out := by
  cases h with
  | @first r _ m position _ hr _ hp _ _ _ hpass =>
    refine ⟨r, hr, by simp [memory?_of_some hr, hp], ?_, Rendezvous.staffed_of_passage hpass⟩
    rw [toPlay?_of_look hr hp]
    exact Rendezvous.turn_of_passage hpass fun _ h => by cases h
  | @later r _ n queue _ hr _ hp hq hd hpass =>
    refine ⟨r, hr, by simp [memory?_of_some hr, hp], ?_, Rendezvous.staffed_of_passage hpass⟩
    rw [toPlay?_of_notice hr hp hq hd]
    exact Rendezvous.turn_of_passage hpass fun _ _ => hp

theorem turned_of_stride {a a' : Agent} {s : Surroundings} {r' : Rendezvous} {out : List Output}
    (h : a.Stride s a' r' out) (within : List OwnerCall) :
    Turned a (a'.absorbWithin within (r', out)).1
      (a.toPlay?.map fun m =>
        ⟨m, (a'.absorbWithin within (r', out)).2.filterMap Mark.submitted?⟩)
      ((a'.absorbWithin within (r', out)).2.filterMap Mark.submitted?) := by
  obtain ⟨r, hr, hold, ht, -⟩ := turn_of_stride h
  have hm := (sameWork_absorbWithin within a' r' out).memory?_eq.trans (memory?_of_some rfl)
  have hs : (a'.absorbWithin within (r', out)).2.filterMap Mark.submitted? =
      out.filterMap Output.submitted? := submitted_emitAll within _ out _
  generalize (a'.absorbWithin within (r', out)).1 = b at hm ⊢
  rw [hs]
  generalize a.toPlay? = play at ht
  cases ht with
  | none ho hp =>
    rw [ho]
    refine .none ?_
    by_cases he : r'.progress = .ended
    · exact .inr (hm.trans (if_pos he))
    · exact .inl (by rw [hm, if_neg he, hold, hp.resolve_left he])
  | refused ho hp =>
    rw [ho]
    exact .refused (hm.trans (if_pos hp))
  | handed ho hv hd he hold' =>
    rw [ho]
    exact .handed hr hold (by rw [hm, if_neg he, hold']) hv hd

/-- What a move does about turns. -/
theorem turned_of_moves {a b : Agent} {mv : Move} {marks : List Mark} (h : a.Standing)
    (hm : a.Moves mv marks b) :
    Turned a b (Stage.play? ⟨a, mv, marks, b⟩) (marks.filterMap Mark.submitted?) := by
  cases hm with
  | start hs =>
    obtain ⟨hr, -, role, -, rfl⟩ := start_of_standing h hs
    exact .none (.inl (by simp [memory?, hr]))
  | owner c => exact .none (.inl (sameWork_call a c).memory?_eq)
  | step hs =>
    obtain ⟨a', r', out, hstride, hb⟩ := stride_of_stepWithin? h hs
    obtain ⟨rfl, rfl⟩ := Prod.ext_iff.1 hb
    exact turned_of_stride hstride _
  | goOn ht =>
    obtain ⟨r, j, hr, -, -, -⟩ := exists_of_task? ht
    exact .none (.inl (by simp [memory?, progress, hr]))
  | finish ht =>
    obtain ⟨r, j, hr, -, -, -⟩ := exists_of_task? ht
    exact .none (.inl (by simp [memory?, complete, hr, ht]))

/-! ## What a run hands over -/

/-- What holds of the turns so far. -/
structure Handing (role : Role) (t : List Stage) (a : Agent) : Prop where
  said : ∃ ps old, submissions t = ps.map Payload.encode ∧ Said role old ps ∧
    ∀ old', a.memory? = some old' → old' = old
  unplayed : a.memory? = some none → plays t = []
  plays : submissions t = (plays t).flatMap (·.submitted)
  /-- A host plays its only turn on the first snapshot, if that has no data. -/
  host : role.isHost = true → submissions t ≠ [] →
    ∃ m rest, Agent.plays t = ⟨m, submissions t⟩ :: rest ∧ m.data = none
  /-- A client says what it found. -/
  client : role.isHost = false → ∀ p ∈ Agent.plays t, ∀ bytes ∈ p.submitted,
    bytes = (Payload.decode p.snapshot.data).encode

/-- What a client that plays on says is what it found. -/
theorem data_of_verdict {m : Match} {wait : Duration} {role : Role} {old : Option Payload}
    {d : Decision} (h : Role.Verdict m wait role old d) (hd : d.signal ≠ some .matchInvalid)
    (hr : role.isHost = false) : d.data = Payload.decode m.data := by
  cases h with
  | refused => exact absurd rfl hd
  | offered => cases hr
  | passed _ hm => exact hm.symm
  | found _ hm => exact hm.symm
  | suspected _ hm => exact hm.symm

/-- A host that plays on has not played before, and finds no data. -/
theorem untouched_of_verdict {m : Match} {wait : Duration} {role : Role} {old : Option Payload}
    {d : Decision} (h : Role.Verdict m wait role old d) (hd : d.signal ≠ some .matchInvalid)
    (hr : role.isHost = true) : old = none ∧ m.data = none := by
  cases h with
  | refused => exact absurd rfl hd
  | offered _ hm => exact ⟨rfl, hm⟩
  | passed hh => simp [hh] at hr
  | found => cases hr
  | suspected => cases hr

theorem handing_of_turned {role : Role} {t : List Stage} {a b : Agent} {mv : Move}
    {marks : List Mark} (ht : Handing role t a)
    (hturn : Turned a b (Stage.play? ⟨a, mv, marks, b⟩) (marks.filterMap Mark.submitted?))
    (hrole : ∀ r, a.rendezvous = some r → r.role.blank = role.blank) :
    Handing role (t ++ [⟨a, mv, marks, b⟩]) b := by
  have hsub : submissions (t ++ [⟨a, mv, marks, b⟩]) =
      submissions t ++ marks.filterMap Mark.submitted? := submissions_snoc t _
  have hplays : Agent.plays (t ++ [⟨a, mv, marks, b⟩]) =
      Agent.plays t ++ (Stage.play? ⟨a, mv, marks, b⟩).toList := plays_snoc t _
  generalize Stage.play? ⟨a, mv, marks, b⟩ = play at hturn hplays
  generalize marks.filterMap Mark.submitted? = bytes at hturn hsub
  obtain ⟨ps, old, hps, hsaid, hold⟩ := ht.said
  cases hturn with
  | none hm =>
    simp only [Option.toList_none, List.append_nil] at hplays hsub
    refine ⟨⟨ps, old, hsub ▸ hps, hsaid, ?_⟩, ?_, ?_, ?_, ?_⟩
    · intro old' h
      rcases hm with hm | hm
      · exact hold old' (hm ▸ h)
      · simp [hm] at h
    · intro h
      rcases hm with hm | hm
      · exact hplays ▸ ht.unplayed (hm ▸ h)
      · simp [hm] at h
    · rw [hsub, hplays, ht.plays]
    · rw [hsub, hplays]
      exact ht.host
    · rw [hplays]
      exact ht.client
  | @refused m hm =>
    simp only [Option.toList_some, List.append_nil] at hplays hsub
    refine ⟨⟨ps, old, hsub ▸ hps, hsaid, by simp [hm]⟩, by simp [hm], ?_, ?_, ?_⟩
    · simp [hsub, hplays, ht.plays]
    · rw [hsub, hplays]
      intro hh hne
      obtain ⟨m₀, rest, hp, hd⟩ := ht.host hh hne
      exact ⟨m₀, rest ++ [⟨m, []⟩], by rw [hp, List.cons_append], hd⟩
    · rw [hplays]
      intro hh p hp
      rcases List.mem_append.1 hp with hp | hp
      · exact ht.client hh p hp
      · simp [List.mem_singleton.1 hp]
  | @handed r m wait d hr hmem hmem' hv hd =>
    obtain rfl := hold _ hmem
    simp only [Option.toList_some] at hplays
    refine ⟨⟨ps ++ [d.data], _, by simp [hsub, hps], said_of_verdict hv hd hsaid (hrole r hr), ?_⟩,
      ?_, ?_, ?_, ?_⟩
    · simp [hmem']
    · simp [hmem']
    · simp [hsub, hplays, ht.plays]
    · intro hh _
      have hh' : r.role.isHost = true := by
        rw [← Role.isHost_blank, hrole r hr, Role.isHost_blank, hh]
      obtain ⟨hnone, hm⟩ := untouched_of_verdict hv hd hh'
      have hp : Agent.plays t = [] := ht.unplayed (hnone ▸ hmem)
      have hs : submissions t = [] := by rw [ht.plays, hp]; rfl
      exact ⟨m, [], by rw [hplays, hsub, hp, hs]; rfl, hm⟩
    · rw [hplays]
      intro hh p hp
      have hh' : r.role.isHost = false := by
        rw [← Role.isHost_blank, hrole r hr, Role.isHost_blank, hh]
      rcases List.mem_append.1 hp with hp | hp
      · exact ht.client hh p hp
      · simp [List.mem_singleton.1 hp, data_of_verdict hv hd hh']

theorem Run.handing {role : Role} {timing : Timing} {t : List Stage} {b : Agent}
    (h : Run (ofRole role timing) t b) : Handing role t b := by
  induction h with
  | nil =>
    exact ⟨⟨[], none, rfl, .nothing, by simp [memory?, ofRole]⟩, fun _ => rfl, rfl,
      fun _ h => absurd rfl h, fun _ _ h => by cases h⟩
  | snoc hrun hm ih =>
    obtain ⟨hst, haim⟩ := hrun.aimed
    exact handing_of_turned ih (turned_of_moves hst hm) fun r hr => (haim.started r hr).2.2.2

/-! ## Turns on their way, through a run -/

/-- What holds of the jobs of an agent that has handed over `bytes`. -/
structure Loaded (a : Agent) (bytes : List Bytes) : Prop where
  unstarted : a.rendezvous = none → bytes = []
  handed : ∀ r, a.rendezvous = some r → r.handed = bytes
  inFlight : ∀ r, a.rendezvous = some r → r.inFlight ≤ 1
  allOpen : ∀ r, a.rendezvous = some r → r.progress ≠ .ended → r.AllOpen

theorem Loaded.congr {a b : Agent} {bytes : List Bytes} (h : a.Loaded bytes)
    (hs : a.SameWork b) : b.Loaded bytes := by
  obtain ⟨h₁, h₂, h₃, h₄⟩ := h
  rw [← hs.rendezvous] at h₁ h₂ h₃ h₄
  exact ⟨h₁, h₂, h₃, h₄⟩

theorem allOpen_modify {r : Rendezvous} (h : r.AllOpen) (i : JobId) {f : Job Task → Job Task}
    (hf : ∀ j : Job Task, (j.isWorking = true → j.mayDeliver = true) →
      (f j).isWorking = true → (f j).mayDeliver = true) :
    (r.withJobs (r.jobs.modify i f)).AllOpen := by
  refine Registry.forall_modify (P := fun j => j.isWorking = true → j.mayDeliver = true) h i ?_
  intro j _
  exact hf j

/-- An agent with a rendezvous. -/
theorem Loaded.of_some {a : Agent} {r : Rendezvous} {bytes : List Bytes}
    (hr : a.rendezvous = some r) (hh : r.handed = bytes) (hf : r.inFlight ≤ 1)
    (ho : r.progress ≠ .ended → r.AllOpen) : a.Loaded bytes := by
  refine ⟨fun h => by simp [hr] at h, ?_, ?_, ?_⟩
  · intro q hq
    rw [← Option.some.inj (hr.symm.trans hq), hh]
  · intro q hq
    rw [← Option.some.inj (hr.symm.trans hq)]
    exact hf
  · intro q hq hne
    obtain rfl := Option.some.inj (hr.symm.trans hq)
    exact ho hne

theorem loaded_of_stride {a a' : Agent} {s : Surroundings} {r' : Rendezvous} {out : List Output}
    {bytes : List Bytes} (h : a.Stride s a' r' out) (hl : a.Loaded bytes) :
    Loaded { a' with rendezvous := some r' } (bytes ++ out.filterMap Output.submitted?) := by
  obtain ⟨r, hr, hmem, -, hstaff⟩ := turn_of_stride h
  have hp : r.progress ≠ .ended := fun hp => by simp [memory?_of_some hr, hp] at hmem
  have hset : r'.Settled a'.queue := by
    cases h with
    | first _ _ _ _ _ _ _ h => exact h
    | later _ _ _ _ _ _ h => exact h
  have hopen := hstaff.allOpen (hl.allOpen r hr hp)
  refine .of_some rfl ?_ ?_ ?_
  · rw [hstaff.handed_eq, hl.handed r hr]
  · rcases hopen with ⟨-, hle⟩ | hopen
    · exact hle.trans (hl.inFlight r hr)
    · exact Rendezvous.inFlight_le_one hset hopen
  · intro hne
    exact hopen.resolve_left fun h => hne h.1

theorem loaded_of_moves {a b : Agent} {mv : Move} {marks : List Mark} {bytes : List Bytes}
    (h : a.Standing) (hl : a.Loaded bytes) (hm : a.Moves mv marks b) :
    b.Loaded (bytes ++ marks.filterMap Mark.submitted?) := by
  cases hm with
  | start hs =>
    obtain ⟨hr, -, role, -, rfl⟩ := start_of_standing h hs
    rw [hl.unstarted hr]
    refine .of_some rfl rfl (Nat.zero_le 1) ?_
    intro _
    exact List.forall_mem_nil _
  | owner c => exact (List.append_nil bytes).symm ▸ hl.congr (sameWork_call a c)
  | @step _ _ s within hs =>
    obtain ⟨a', r', out, hstride, hb⟩ := stride_of_stepWithin? h hs
    obtain ⟨rfl, rfl⟩ := Prod.ext_iff.1 hb
    have hmarks : (a'.absorbWithin within (r', out)).2.filterMap Mark.submitted? =
        out.filterMap Output.submitted? := submitted_emitAll within _ out _
    rw [hmarks]
    exact (loaded_of_stride hstride hl).congr (sameWork_absorbWithin within a' r' out)
  | @goOn i _ work ht hb =>
    obtain ⟨r, j, hr, hj, -, rfl⟩ := exists_of_task? ht
    refine .of_some (rendezvous_progress hr i work) ?_ ?_ ?_
    · rw [Rendezvous.handed_progress hj hb, hl.handed r hr]
      simp
    · exact (Rendezvous.inFlight_progress hj hb).trans (hl.inFlight r hr)
    · intro hne
      exact allOpen_modify (hl.allOpen r hr hne) i fun j hj => by simpa using hj
  | @finish i _ how ht he =>
    obtain ⟨r, j, hr, hj, -, rfl⟩ := exists_of_task? ht
    refine .of_some (rendezvous_complete hr ht how) ?_ ?_ ?_
    · rw [Rendezvous.handed_complete, hl.handed r hr]
      simp
    · exact (Rendezvous.inFlight_complete r i).trans (hl.inFlight r hr)
    · intro hne
      exact allOpen_modify (hl.allOpen r hr hne) i fun j _ hw => by simp at hw

theorem Run.loaded {role : Role} {timing : Timing} {t : List Stage} {b : Agent}
    (h : Run (ofRole role timing) t b) : b.Loaded (submissions t) := by
  induction h with
  | nil => refine ⟨fun _ => rfl, ?_, ?_, ?_⟩ <;> simp [ofRole]
  | snoc hrun hm ih =>
    rw [submissions_snoc]
    exact loaded_of_moves hrun.aimed.1 ih hm

/-! ## After a turn was refused -/

/-- Whether the service refuses a turn in a stage. -/
def Stage.isRefusal (st : Stage) : Bool :=
  match st.move with
  | .finish _ (.submitted (.error _)) => true
  | _ => false

/-- An agent that knows, or is about to hear, that a turn was refused. -/
inductive Barred (a : Agent) : Prop
  | ended {r : Rendezvous} : a.rendezvous = some r → r.progress = .ended → Barred a
  | told {g : Nat} {e : Failure} : (g, .submitted (.error e)) ∈ noticed a.queue → Barred a

/-- What hears that its turn was refused ends. -/
theorem ended_of_refusal {s : Surroundings} {r r' : Rendezvous} {n : Notice}
    {queue : List Notice} {out : List Output} {g : Nat} {e : Failure} (h : r.OnDuty (n :: queue))
    (hmem : (g, .submitted (.error e)) ∈ noticed (n :: queue))
    (hp : r.Passage s (.notice n) r' out) :
    r'.progress = .ended ∧ out.filterMap Output.submitted? = [] := by
  cases n with
  | detach =>
    cases hp with
    | detached => exact ⟨rfl, rfl⟩
  | done g' how =>
    have hphase : r.phase = .processingTurn := by
      have hact : Activity.submission ∈ r.phase.activities :=
        h.activities.subset (List.mem_append_right _ (List.mem_map.2 ⟨_, hmem, rfl⟩))
      cases hr : r.phase <;> simp [hr, Phase.activities] at hact ⊢
    have hq := ((Rendezvous.onDuty_notice h).2.2 (by simp [hphase])).2
    simp only [noticed, hq, List.mem_singleton, Prod.mk.injEq] at hmem
    obtain ⟨rfl, rfl⟩ := hmem
    cases hp with
    | turnRefused => exact ⟨rfl, rfl⟩

theorem barred_of_moves {a b : Agent} {mv : Move} {marks : List Mark} (h : a.Standing)
    (hb : a.Barred) (hm : a.Moves mv marks b) :
    b.Barred ∧ marks.filterMap Mark.submitted? = [] := by
  cases hm with
  | start hs =>
    obtain ⟨hr, hq, -⟩ := start_of_standing h hs
    cases hb with
    | ended hr' => simp [hr] at hr'
    | told hmem => simp [hq] at hmem
  | owner c =>
    have hs := sameWork_call a c
    cases hb with
    | ended hr hp => exact ⟨.ended (hs.rendezvous.trans hr) hp, rfl⟩
    | told hmem => exact ⟨.told (hs.noticed ▸ hmem), rfl⟩
  | @step _ _ s within hs =>
    obtain ⟨a', r', out, hstride, hstep⟩ := stride_of_stepWithin? h hs
    obtain ⟨rfl, rfl⟩ := Prod.ext_iff.1 hstep
    have hmarks : (a'.absorbWithin within (r', out)).2.filterMap Mark.submitted? =
        out.filterMap Output.submitted? := submitted_emitAll within _ out _
    have hr' := (sameWork_absorbWithin within a' r' out).rendezvous
    rw [hmarks]
    cases hstride with
    | first hr _ hp _ _ hjobs =>
      cases hb with
      | ended hr' hp' => simp [← Option.some.inj (hr.symm.trans hr'), hp] at hp'
      | told hmem => simp [h.noticed_eq_nil hr hp] at hmem
    | later hr _ hp hq hd hpass =>
      cases hb with
      | ended hr' hp' => simp [← Option.some.inj (hr.symm.trans hr'), hp] at hp'
      | told hmem =>
        obtain ⟨hend, hout⟩ := ended_of_refusal hd (hq ▸ hmem) hpass
        exact ⟨.ended hr' hend, hout⟩
  | goOn ht =>
    obtain ⟨r, j, hr, -, -, -⟩ := exists_of_task? ht
    cases hb with
    | ended hr' hp => exact ⟨.ended (congrArg (Option.map _) hr') hp, rfl⟩
    | told hmem => exact ⟨.told hmem, rfl⟩
  | @finish i _ how ht =>
    obtain ⟨r, j, hr, -, -, -⟩ := exists_of_task? ht
    refine ⟨?_, rfl⟩
    cases hb with
    | ended hr' hp =>
      obtain rfl := Option.some.inj (hr.symm.trans hr')
      exact .ended (rendezvous_complete hr ht how) hp
    | told hmem =>
      refine .told ((?_ : noticed a.queue ⊆ noticed (a.complete i how).queue) hmem)
      simp only [complete, hr, ht]
      split
      · rw [noticed_append]
        exact List.subset_append_left _ _
      · exact List.Subset.refl _

/-- A refusal bars an agent from then on. -/
theorem barred_of_refusal {a b : Agent} {mv : Move} {marks : List Mark} {bytes : List Bytes}
    (hl : a.Loaded bytes) (hm : a.Moves mv marks b)
    (href : Stage.isRefusal ⟨a, mv, marks, b⟩ = true) : b.Barred := by
  cases hm with
  | @finish i _ how ht =>
    obtain ⟨e, rfl⟩ : ∃ e, how = .submitted (.error e) := by
      simp only [Stage.isRefusal] at href
      split at href
      next heq => exact ⟨_, (Move.finish.inj heq).2⟩
      next => cases href
    obtain ⟨r, j, hr, hj, hw, rfl⟩ := exists_of_task? ht
    by_cases hp : r.progress = .ended
    · exact .ended (rendezvous_complete hr ht _) hp
    · have hd : (r.jobs.complete i).1 = true := by
        have hd := hl.allOpen r hr hp j (List.mem_of_getElem? hj) hw
        simp [Registry.complete, hj, Job.fst_complete, hd]
      refine .told (g := j.work.generation) (e := e) ?_
      simp [complete, hr, ht, hd, noticed_append, noticed]
  | _ => cases href

/-- After a refusal nothing is handed over any more. -/
theorem Run.silent_after_refusal {role : Role} {timing : Timing} {t : List Stage} {b : Agent}
    (h : Run (ofRole role timing) t b) :
    ∀ t₁ st t₂, t = t₁ ++ st :: t₂ → st.isRefusal = true → b.Barred ∧ submissions t₂ = [] := by
  induction h with
  | nil => simp
  | @snoc t b c mv marks hrun hm ih =>
    intro t₁ st t₂ ht href
    rcases List.eq_nil_or_concat t₂ with rfl | ⟨t₂, last, rfl⟩
    · obtain ⟨-, rfl⟩ := List.append_inj' ht rfl |>.imp_right fun h => List.singleton_inj.1 h
      exact ⟨barred_of_refusal hrun.loaded hm href, rfl⟩
    · rw [List.concat_eq_append, ← List.cons_append, ← List.append_assoc] at ht
      obtain ⟨rfl, hlast⟩ := List.append_inj' ht rfl
      obtain rfl := List.singleton_inj.1 hlast
      obtain ⟨hb, hs⟩ := ih t₁ st t₂ rfl href
      obtain ⟨hc, hmarks⟩ := barred_of_moves hrun.aimed.1 hb hm
      exact ⟨hc, by rw [List.concat_eq_append, submissions_snoc, hs, hmarks]; rfl⟩

/-! ## What an agent hands over in its whole life -/

/-- Whatever the service answers and whatever data the snapshots carry, the
payloads that an agent hands to the service are at most two.  A host hands over
its invite or nothing, and the invite only if it is not empty and the first
snapshot that it plays on has no data; a client hands over what it found, an
empty payload at most once before an invite.  So the tags grow by one, no invalid
payload is handed over, never are two turns on their way, and after one that was
refused there is none. -/
theorem submissions_in_order {role : Role} {timing : Timing} {t : List Stage} {b : Agent}
    (h : Run (ofRole role timing) t b) :
    ∃ ps : List Payload, submissions t = ps.map Payload.encode ∧
      (∀ invite, role = .host invite → ps = [] ∨
        (invite ≠ "" ∧ ps = [.withInvite invite] ∧
          ∃ m rest, plays t = ⟨m, submissions t⟩ :: rest ∧ m.data = none)) ∧
      (role.isHost = false →
        (∃ text h, ps <+: [.uninitialized, .invite text h] ∨ ps <+: [.invite text h]) ∧
        ∀ p ∈ plays t, ∀ bytes ∈ p.submitted,
          bytes = (Payload.decode p.snapshot.data).encode) ∧
      submissions t = (plays t).flatMap (·.submitted) ∧ ps.length ≤ 2 ∧
      ps.IsChain (fun p q => q.state.tag = p.state.tag + 1) ∧ (∀ p ∈ ps, p.state ≠ .invalid) ∧
      (∀ r, b.rendezvous = some r → r.handed = submissions t ∧ r.inFlight ≤ 1) ∧
      ∀ t₁ st t₂, t = t₁ ++ st :: t₂ → st.isRefusal = true → submissions t₂ = [] := by
  have hh := h.handing
  have hl := h.loaded
  obtain ⟨ps, old, hps, hsaid, -⟩ := hh.said
  refine ⟨ps, hps, ?_, fun hr => ⟨?_, hh.client hr⟩, hh.plays, ?_, ?_, ?_,
    fun r hr => ⟨hl.handed r hr, hl.inFlight r hr⟩,
    fun t₁ st t₂ ht href => (h.silent_after_refusal t₁ st t₂ ht href).2⟩
  · rintro invite rfl
    cases hsaid with
    | nothing => exact .inl rfl
    | offered hi =>
      exact .inr ⟨hi, by rw [Payload.withInvite_of_ne hi], hh.host rfl (by simp [hps])⟩
    | passed hr => cases hr
    | found _ hr => cases hr
    | foundLater _ hr => cases hr
  · cases hsaid with
    | nothing => exact ⟨"x", by decide, .inl List.nil_prefix⟩
    | offered => cases hr
    | passed => exact ⟨"x", by decide, .inl (List.prefix_append [_] [_])⟩
    | found hi => exact ⟨_, hi, .inr (List.prefix_refl _)⟩
    | foundLater hi => exact ⟨_, hi, .inl (List.prefix_refl _)⟩
  · cases hsaid <;> simp
  · cases hsaid with
    | foundLater => exact .cons_cons rfl (.singleton _)
    | nothing => exact .nil
    | _ => exact .singleton _
  · cases hsaid <;> simp

/-- A client that passes on an empty match and sees its turn refused. -/
theorem submissions_in_order_of_a_client :
    ∃ t b, Run (ofRole (.client none) {}) t b ∧
      submissions t = [Payload.uninitialized.encode] ∧
      (∀ r, b.rendezvous = some r → r.handed = submissions t ∧ r.inFlight ≤ 1) ∧
      ∃ t₁ st t₂, t = t₁ ++ st :: t₂ ∧ st.isRefusal = true ∧ t₂.length = 1 ∧
        submissions t₂ = [] := by
  let m : Match :=
    { id := ⟨"m"⟩, status := .active, turn := .mine, participants := [⟨"ann"⟩, ⟨"bob"⟩]
      creator := ⟨"bob"⟩, viewer := ⟨"ann"⟩, data := none, version := 0 }
  let s : Surroundings := { now := 0, position := 0 }
  have started := Run.nil.snoc (.start (a := ofRole (.client none) {}) (s := true)
    (m := m) (n := 0) rfl)
  have played := started.snoc (.step (s := s) (w := []) rfl)
  have issued := played.snoc (.goOn (i := 0) rfl rfl)
  have refused := issued.snoc (.finish (i := 0) (e := .submitted (.error .timeout)) rfl rfl)
  have run := refused.snoc (.step (s := s) (w := []) rfl)
  obtain ⟨ps, hps, -, -, -, -, -, -, hjobs, hsilent⟩ := submissions_in_order run
  exact ⟨_, _, run, rfl, hjobs, _, _, _, (List.append_assoc _ [_] [_]), rfl, rfl,
    hsilent _ _ _ (List.append_assoc _ [_] [_]) rfl⟩

end Agent

end TurnRendezvous
