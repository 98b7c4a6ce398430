/-
# `Agent.carried` — what becomes of a turn that was handed over

A rendezvous hands a turn to a job and goes on; the job calls the service, maybe
much later, when the rendezvous is over and its owner gone.  Of the ways in which
jobs are stopped only one cuts the work short, and it is for the watches of a phase,
among which a turn never is (`Rendezvous.Unhurt`).  So a turn is on its way until
the service was called with it, and it is called once.

`Agent.turns` are the turns that the steps of a run hand over, `Agent.carried` those
that the service is called with.

* `handsOver_of_passage`: what a step adds to the turns that are still to be carried
  out, and that it cuts none short;
* `ferried_of_moves`: a turn goes from the one row to the other when the service is
  called with it;
* `Run.ferried`: the turns of a run are those carried out and those that are not yet.
-/
import TurnRendezvous.Proofs.Agent.Submissions

namespace TurnRendezvous

/-- A turn as the service gets it: what is left in the match, and who is next. -/
abbrev Turnover := Bytes × Option PlayerId

/-- The turn that an output hands over. -/
def Output.turn? : Output → Option Turnover
  | .submitted data next => some (data, next)
  | _ => none

/-- The turn that a task has not called the service with yet. -/
def Work.owed? : Work → Option Turnover
  | .submit data next false => some (data, next)
  | _ => none

/-- The turn that a task calls the service with, or has. -/
def Work.turn? : Work → Option Turnover
  | .submit data next _ => some (data, next)
  | _ => none

theorem Work.activity_of_owed? {w : Work} {turn : Turnover} (h : w.owed? = some turn) :
    w.activity = .submission := by
  cases w with
  | submit => rfl
  | _ => cases h

theorem Work.owed?_of_ne {w : Work} (h : w.activity ≠ .submission) : w.owed? = none :=
  Option.eq_none_iff_forall_ne_some.2 fun _ ho => h (activity_of_owed? ho)

/-- What goes on owes no turn any more: if it owed one, it calls the service with it. -/
theorem Work.MayBecome.owed?_eq {w w' : Work} (h : w.MayBecome w') :
    w'.owed? = none ∧ w'.turn? = w.owed? := by
  unfold Work.MayBecome at h
  split at h
  next data next =>
    subst h
    exact ⟨rfl, rfl⟩
  next v =>
    obtain ⟨feed, rfl⟩ := h
    exact ⟨rfl, rfl⟩
  next v =>
    obtain ⟨feed, rfl⟩ := h
    exact ⟨rfl, rfl⟩
  next invite localId =>
    obtain ⟨reply, rfl⟩ := h
    exact ⟨rfl, rfl⟩
  next => exact h.elim

/-- What has come to its end owes no turn. -/
theorem Work.MayEnd.owed?_eq {w : Work} {how : TaskEnd} (h : w.MayEnd how) : w.owed? = none := by
  cases w with
  | submit data next issued =>
    cases how with
    | submitted =>
      obtain rfl : issued = true := h
      rfl
    | _ => exact h.elim
  | _ => rfl

namespace Rendezvous

/-! ## Turns are not cut short -/

/-- If the job hands a turn over, it is at work, or done and has called the service. -/
def Whole (j : Job Task) : Prop :=
  j.work.work.activity = .submission →
    j.isWorking = true ∨ (j.stage = .finished ∧ j.work.work.owed? = none)

theorem whole_of_ne {j : Job Task} (h : j.work.work.activity ≠ .submission) : Whole j :=
  fun hj => absurd hj h

/-- No turn was cut short, and none is among the watches. -/
structure Unhurt (r : Rendezvous) : Prop where
  whole : ∀ j ∈ r.jobs.jobs, Whole j
  apart : ∀ i ∈ r.watches.ids, ∃ j, r.jobs.get? i = some j ∧ j.work.work.activity ≠ .submission

/-- Cancelling what is no turn cuts no turn short. -/
theorem whole_cancelAll (ids : List JobId) :
    ∀ {g : Registry Task}, (∀ j ∈ g.jobs, Whole j) →
      (∀ i ∈ ids, ∃ j, g.get? i = some j ∧ j.work.work.activity ≠ .submission) →
      ∀ j ∈ (ids.foldl Registry.cancel g).jobs, Whole j := by
  induction ids with
  | nil => exact fun hw _ => hw
  | cons i ids ih =>
    intro g hw ha
    obtain ⟨⟨j, hj, hne⟩, ha⟩ := List.forall_mem_cons.1 ha
    refine ih (g := g.cancel i) (Registry.forall_modify hw i ?_) ?_
    · intro j' hj' _
      obtain rfl := Option.some.inj (hj.symm.trans hj')
      exact whole_of_ne (by simpa using hne)
    · intro k hk
      obtain ⟨j', hj', hne'⟩ := ha k hk
      rw [Registry.cancel, Registry.get?_modify, hj']
      split
      · exact ⟨j'.cancel, rfl, by simpa using hne'⟩
      · exact ⟨j', rfl, hne'⟩

/-- A turn that is on its way in the end is abandoned. -/
theorem unhurt_leave {r : Rendezvous} (h : r.Unhurt) : r.leave.Unhurt where
  whole := by
    have hw := whole_cancelAll r.watches.ids h.whole h.apart
    simp only [leave, letGo, JobSet.cancelAll]
    split
    · exact Registry.forall_modify hw _ fun j _ hj => hj
    · exact hw
  apart := List.forall_mem_nil _

theorem unhurt_watch {r : Rendezvous} (h : r.Unhurt) {work : Work}
    (hw : work.activity ≠ .submission) : (r.watch work).Unhurt where
  whole := List.forall_mem_append.2 ⟨h.whole, List.forall_mem_singleton.2 (whole_of_ne hw)⟩
  apart i hi := by
    rcases List.mem_append.1 hi with hi | hi
    · obtain ⟨j, hj, hne⟩ := h.apart i (List.mem_filter.1 hi).1
      exact ⟨j, Registry.get?_spawn_of_some hj _, hne⟩
    · rw [List.mem_singleton.1 hi]
      exact ⟨_, Registry.get?_fst_spawn r.jobs _, hw⟩

theorem unhurt_submit {r : Rendezvous} (h : r.Unhurt) (d : Decision) (next : Option PlayerId)
    (position : Nat) : (r.submit d next position).1.Unhurt where
  whole := List.forall_mem_append.2 ⟨h.whole, List.forall_mem_singleton.2 fun _ => .inl rfl⟩
  apart i hi := by
    obtain ⟨j, hj, hne⟩ := h.apart i hi
    exact ⟨j, Registry.get?_spawn_of_some hj _, hne⟩

/-! ## What a step hands over -/

/-- The turns that the service was not called with yet, oldest first. -/
def owed (r : Rendezvous) : List Turnover := r.jobs.jobs.filterMap (·.work.work.owed?)

/-- From `r` to `r'` no turn is cut short and none lost, and `turns` are handed over. -/
structure HandsOver (r r' : Rendezvous) (turns : List Turnover) : Prop where
  unhurt : r.Unhurt → r'.Unhurt
  owed : r'.owed = r.owed ++ turns

theorem handsOver_leave (r : Rendezvous) : r.HandsOver r.leave [] :=
  ⟨unhurt_leave, (filterMap_leave (·.work.owed?) r).trans (List.append_nil _).symm⟩

theorem handsOver_watch (r : Rendezvous) (work : Work) (hw : work.activity ≠ .submission) :
    r.HandsOver (r.watch work) [] := by
  refine ⟨fun h => unhurt_watch h hw, ?_⟩
  simp [Rendezvous.owed, watch, Registry.spawn, Work.owed?_of_ne hw]

theorem handsOver_submit (r : Rendezvous) (d : Decision) (next : Option PlayerId)
    (position : Nat) : r.HandsOver (r.submit d next position).1 [(d.data.encode, next)] := by
  refine ⟨fun h => unhurt_submit h d next position, ?_⟩
  simp [Rendezvous.owed, submit, Registry.spawn, Work.owed?]

/-- Only the jobs and the watches count. -/
theorem handsOver_same {r r' : Rendezvous} (hj : r'.jobs = r.jobs) (hw : r'.watches = r.watches) :
    r.HandsOver r' [] := by
  refine ⟨fun h => ⟨hj ▸ h.whole, hj ▸ hw ▸ h.apart⟩, ?_⟩
  rw [Rendezvous.owed, Rendezvous.owed, hj, List.append_nil]

theorem HandsOver.trans {r q r' : Rendezvous} {turns more : List Turnover}
    (h : r.HandsOver q turns) (h' : q.HandsOver r' more) : r.HandsOver r' (turns ++ more) :=
  ⟨fun hu => h'.unhurt (h.unhurt hu), by rw [h'.owed, h.owed, List.append_assoc]⟩

theorem HandsOver.of_same {q r r' : Rendezvous} {turns : List Turnover} (h : q.HandsOver r' turns)
    (hj : q.jobs = r.jobs) (hw : q.watches = r.watches) : r.HandsOver r' turns :=
  (handsOver_same hj hw).trans h

theorem handsOver_awaitTurn (r : Rendezvous) (now : Instant) (position : Nat)
    (timeout : Option Duration) : r.HandsOver (r.awaitTurn now position timeout) [] :=
  (handsOver_watch _ _ (by simp [Work.activity])).of_same rfl rfl

theorem handsOver_awaitEnd (r : Rendezvous) (position : Nat) :
    r.HandsOver (r.awaitEnd position) [] :=
  (handsOver_watch _ _ (by simp [Work.activity])).of_same rfl rfl

theorem handsOver_verify (r : Rendezvous) (now : Instant) {invite localId text : String}
    (hrole : r.role = .autoClient localId (some text)) :
    r.HandsOver (r.verify now invite).1 [] := by
  simp only [verify, hrole]
  have probes : r.HandsOver ((r.enter .verifying).watch (.probe invite localId none)) [] :=
    (handsOver_watch _ _ (by simp [Work.activity])).of_same rfl rfl
  have times := handsOver_watch ((r.enter .verifying).watch (.probe invite localId none))
    (.timer (now + r.timing.probeTimeout.nanos)) (by simp [Work.activity])
  exact (probes.trans times).trans (handsOver_same rfl rfl)

theorem handsOver_of_played {r r' : Rendezvous} {m : Match} {position : Nat} {out : List Output}
    (h : r.Played m position r' out) : r.HandsOver r' (out.filterMap Output.turn?) := by
  cases h with
  | refused => exact handsOver_leave r
  | handed => exact (handsOver_submit _ _ _ _).of_same rfl rfl

/-- No step cuts a turn short. -/
theorem handsOver_of_passage {s : Surroundings} {r r' : Rendezvous} {cause : Cause}
    {out : List Output} (h : r.Passage s cause r' out) :
    r.HandsOver r' (out.filterMap Output.turn?) := by
  cases h with
  | firstTurn _ hp => exact (handsOver_of_played hp).of_same rfl rfl
  | laterTurn _ hp =>
    rw [List.filterMap_cons_none rfl]
    exact handsOver_of_played hp
  | firstWait => exact (handsOver_awaitTurn _ _ _ _).of_same rfl rfl
  | passedOn => exact (handsOver_awaitTurn _ _ _ _).of_same rfl rfl
  | stayed => exact (handsOver_awaitEnd _ _).of_same rfl rfl
  | verifies _ _ _ hrole =>
    exact (handsOver_verify { r with submission := none, pending := none } s.now hrole).of_same
      rfl rfl
  | @reachable _ text =>
    have hout : ((if r.dismisses then [Output.dismissed] else []) ++
        [Output.concluded (.complete (some text))]).filterMap Output.turn? = [] := by
      split <;> rfl
    rw [hout]
    exact handsOver_leave r
  | tooLate => exact (handsOver_leave _).of_same rfl rfl
  | turnRefused => exact (handsOver_leave _).of_same rfl rfl
  | succeeded => exact (handsOver_leave _).of_same rfl rfl
  | _ => exact handsOver_leave r

/-! ## Tasks that go on or come to their end -/

theorem whole_progress {j : Job Task} (h : Whole j) (work : Work) :
    Whole (j.progress ({ · with work })) := by
  unfold Job.progress
  split
  next hw => exact fun _ => .inl (by simp [Job.isWorking, hw])
  next => exact h

theorem whole_complete {j : Job Task} (h : Whole j) {how : TaskEnd}
    (he : j.work.work.MayEnd how) : Whole j.complete.2 := by
  intro hj
  rw [Job.work_complete] at hj ⊢
  refine .inr ⟨?_, he.owed?_eq⟩
  rcases h hj with hw | ⟨hs, -⟩
  · have hw : j.stage = .working := by simpa [Job.isWorking] using hw
    unfold Job.complete Job.beginDelivery Job.endDelivery
    cases hc : j.gate.closed <;> simp [hw]
  · unfold Job.complete Job.beginDelivery Job.endDelivery
    simp [hs]

/-- A change of one job that keeps its kind of work. -/
theorem unhurt_modify {r : Rendezvous} (h : r.Unhurt) {i : JobId} {j : Job Task}
    (hj : r.jobs.get? i = some j) {f : Job Task → Job Task} (hw : Whole (f j))
    (ha : (f j).work.work.activity = j.work.work.activity) :
    (r.withJobs (r.jobs.modify i f)).Unhurt where
  whole := by
    refine Registry.forall_modify h.whole i ?_
    intro j' hj' _
    obtain rfl := Option.some.inj (hj.symm.trans hj')
    exact hw
  apart k hk := by
    obtain ⟨j', hj', hne⟩ := h.apart k hk
    simp only [withJobs, Registry.get?_modify, hj', Option.map_some]
    by_cases hik : i = k
    · subst hik
      obtain rfl := Option.some.inj (hj.symm.trans hj')
      exact ⟨f j, if_pos rfl, ha ▸ hne⟩
    · exact ⟨j', if_neg hik, hne⟩

/-- A turn that the service was not called with is on its way. -/
theorem length_owed_le {r : Rendezvous} (h : r.Unhurt) : r.owed.length ≤ r.inFlight := by
  rw [owed, List.length_filterMap_eq_countP]
  refine List.countP_mono_left ?_
  intro j hj ho
  obtain ⟨turn, ho⟩ := Option.isSome_iff_exists.1 ho
  have hact := Work.activity_of_owed? ho
  rcases h.whole j hj hact with hw | ⟨-, hnone⟩
  · simp [isFlying, hw, hact]
  · simp [hnone] at ho

/-- Where at most one turn is owed, it is the one that the service is called with. -/
theorem owed_progress {r : Rendezvous} {i : JobId} {j : Job Task} (hj : r.jobs.get? i = some j)
    (hw : j.isWorking = true) {work : Work} (hb : j.work.work.MayBecome work)
    (hone : r.owed.length ≤ 1) :
    r.owed = work.turn?.toList ++
      (r.withJobs (r.jobs.modify i (·.progress ({ · with work })))).owed := by
  obtain ⟨before, after, hjobs, hmod⟩ := Registry.exists_split hj
  have hstage : j.stage = .working := by simpa [Job.isWorking] using hw
  obtain ⟨hnone, hturn⟩ := hb.owed?_eq
  simp only [owed, withJobs, hjobs, hmod, Job.progress, hstage, if_true, List.filterMap_append,
    List.filterMap_cons, hnone, hturn] at hone ⊢
  cases ho : j.work.work.owed? with
  | none => rfl
  | some turn =>
    simp only [ho, List.length_append, List.length_cons] at hone
    rw [List.eq_nil_of_length_eq_zero (show (before.filterMap (·.work.work.owed?)).length = 0 by
      omega)]
    rfl

theorem owed_complete (r : Rendezvous) (i : JobId) :
    (r.withJobs (r.jobs.complete i).2).owed = r.owed :=
  Registry.filterMap_modify r.jobs i fun j _ => by simp

end Rendezvous

namespace Agent

/-! ## What becomes of the turns -/

/-- The turn that a mark says was handed over. -/
def Mark.turn? : Mark → Option Turnover
  | .submitted data next => some (data, next)
  | _ => none

/-- The turns that the rendezvous handed over in a run, oldest first. -/
def turns (t : List Stage) : List Turnover := t.flatMap (·.marks.filterMap Mark.turn?)

/-- The turn that the service is called with in a stage. -/
def Stage.carries? (st : Stage) : Option Turnover :=
  match st.move with
  | .goOn _ work => work.turn?
  | _ => none

/-- The turns that the service was called with in a run, oldest first. -/
def carried (t : List Stage) : List Turnover := t.filterMap Stage.carries?

@[simp] theorem turns_snoc (t : List Stage) (st : Stage) :
    turns (t ++ [st]) = turns t ++ st.marks.filterMap Mark.turn? := by
  simp [turns]

@[simp] theorem carried_snoc (t : List Stage) (st : Stage) :
    carried (t ++ [st]) = carried t ++ st.carries?.toList := by
  cases h : st.carries? <;> simp [carried, h]

/-- The turns of an agent that the service was not called with yet. -/
def owed (a : Agent) : List Turnover :=
  match a.rendezvous with
  | none => []
  | some r => r.owed

theorem owed_of_some {a : Agent} {r : Rendezvous} (h : a.rendezvous = some r) :
    a.owed = r.owed := by
  simp only [owed, h]

/-- After `t` no turn was cut short, and those that the service was not called with
are still owed. -/
structure Ferried (t : List Stage) (a : Agent) : Prop where
  unhurt : ∀ r, a.rendezvous = some r → r.Unhurt
  turns : Agent.turns t = carried t ++ a.owed

theorem Ferried.of_some {t : List Stage} {a : Agent} {r : Rendezvous}
    (hr : a.rendezvous = some r) (hu : r.Unhurt) (ht : Agent.turns t = carried t ++ r.owed) :
    Ferried t a := by
  refine ⟨?_, owed_of_some hr ▸ ht⟩
  intro q hq
  exact Option.some.inj (hr.symm.trans hq) ▸ hu

theorem handsOver_of_stride {a a' : Agent} {s : Surroundings} {r' : Rendezvous}
    {out : List Output} (h : a.Stride s a' r' out) :
    ∃ r, a.rendezvous = some r ∧ r.HandsOver r' (out.filterMap Output.turn?) := by
  cases h with
  | first hr _ _ _ _ _ hp => exact ⟨_, hr, Rendezvous.handsOver_of_passage hp⟩
  | later hr _ _ _ _ hp => exact ⟨_, hr, Rendezvous.handsOver_of_passage hp⟩

theorem turns_emitAll (within : List OwnerCall) (id : MatchId) (out : List Output) :
    ∀ a : Agent, (a.emitAll within id out).2.filterMap Mark.turn? = out.filterMap Output.turn? :=
  filterMap_emitAll rfl (fun _ _ => rfl) rfl (fun _ => rfl) (fun _ => ⟨rfl, rfl⟩) within id out

/-- A step hands turns over, a task that goes on carries one out, and nothing else
has to do with them. -/
theorem ferried_of_moves {t : List Stage} {a b : Agent} {mv : Move} {marks : List Mark}
    {bytes : List Bytes} (h : a.Standing) (hl : a.Loaded bytes) (hf : Ferried t a)
    (hm : a.Moves mv marks b) : Ferried (t ++ [⟨a, mv, marks, b⟩]) b := by
  have idle : ∀ {mv : Move} {b : Agent}, (Stage.carries? ⟨a, mv, [], b⟩) = none →
      Agent.turns (t ++ [⟨a, mv, [], b⟩]) = carried (t ++ [⟨a, mv, [], b⟩]) ++ a.owed := by
    intro mv b hc
    rw [turns_snoc, carried_snoc, hc]
    simpa using hf.turns
  cases hm with
  | start hs =>
    obtain ⟨hr, -, role, -, rfl⟩ := start_of_standing h hs
    refine .of_some rfl ⟨List.forall_mem_nil _, List.forall_mem_nil _⟩ ((idle rfl).trans ?_)
    rw [owed, hr]
    rfl
  | owner c =>
    have hr := (sameWork_call a c).rendezvous
    refine ⟨fun r hr' => hf.unhurt r (hr.symm.trans hr'), (idle rfl).trans ?_⟩
    rw [owed, owed, hr]
  | @step _ _ s within hs =>
    obtain ⟨a', r', out, hstride, hb⟩ := stride_of_stepWithin? h hs
    obtain ⟨rfl, rfl⟩ := Prod.ext_iff.1 hb
    obtain ⟨r, hr, hover⟩ := handsOver_of_stride hstride
    have hmarks : (a'.absorbWithin within (r', out)).2.filterMap Mark.turn? =
        out.filterMap Output.turn? := turns_emitAll within _ out _
    refine .of_some (sameWork_absorbWithin within a' r' out).rendezvous
      (hover.unhurt (hf.unhurt r hr)) ?_
    rw [turns_snoc, carried_snoc, hmarks, hf.turns, owed_of_some hr, hover.owed]
    simp [Stage.carries?]
  | @goOn i task work ht hb =>
    obtain ⟨r, j, hr, hj, hw, rfl⟩ := exists_of_task? ht
    have hu := hf.unhurt r hr
    have hone : r.owed.length ≤ 1 := (Rendezvous.length_owed_le hu).trans (hl.inFlight r hr)
    refine .of_some (rendezvous_progress hr i work) ?_ ?_
    · refine Rendezvous.unhurt_modify hu hj
        (Rendezvous.whole_progress (hu.whole j (List.mem_of_getElem? hj)) work) ?_
      unfold Job.progress
      split
      · exact hb.activity_eq
      · rfl
    · rw [turns_snoc, carried_snoc, hf.turns, owed_of_some hr,
        Rendezvous.owed_progress hj hw hb hone]
      simp [Stage.carries?]
  | @finish i task how ht he =>
    obtain ⟨r, j, hr, hj, -, rfl⟩ := exists_of_task? ht
    have hu := hf.unhurt r hr
    refine .of_some (rendezvous_complete hr ht how) ?_ ((idle rfl).trans ?_)
    · exact Rendezvous.unhurt_modify (f := (·.complete.2)) hu hj
        (Rendezvous.whole_complete (hu.whole j (List.mem_of_getElem? hj)) he) (by simp)
    · rw [owed_of_some hr, Rendezvous.owed_complete]

theorem Run.ferried {role : Role} {timing : Timing} {t : List Stage} {b : Agent}
    (h : Run (ofRole role timing) t b) : Ferried t b := by
  induction h with
  | nil => exact ⟨fun _ hr => (by cases hr), by simp [turns, carried, owed, ofRole]⟩
  | snoc hrun hm ih => exact ferried_of_moves hrun.aimed.1 hrun.loaded ih hm

/-- A turn that the service was not called with has a task that is about to. -/
theorem exists_task_of_owed {a : Agent} {r : Rendezvous} (hr : a.rendezvous = some r)
    (hu : r.Unhurt) {data : Bytes} {next : Option PlayerId} (h : (data, next) ∈ r.owed) :
    ∃ i task, a.task? i = some task ∧ task.work = .submit data next false := by
  obtain ⟨j, hj, ho⟩ := List.mem_filterMap.1 h
  obtain ⟨i, hi⟩ := List.mem_iff_getElem?.1 hj
  have hi : r.jobs.get? i = some j := hi
  have hw : j.isWorking = true := by
    rcases hu.whole j hj (Work.activity_of_owed? ho) with hw | ⟨-, hnone⟩
    · exact hw
    · simp [hnone] at ho
  refine ⟨i, j.work, by simp [task?, hr, hi, hw], ?_⟩
  generalize j.work.work = w at ho
  cases w with
  | submit data' next' issued =>
    cases issued with
    | false =>
      obtain ⟨rfl, rfl⟩ := Prod.mk.inj (Option.some.inj ho)
      rfl
    | true => cases ho
  | _ => cases ho

/-- Every turn was carried out, each once, or all but the last, whose task is still
to call the service with it. -/
theorem Run.turns_carried {role : Role} {timing : Timing} {t : List Stage} {b : Agent}
    (h : Run (ofRole role timing) t b) :
    turns t = carried t ∨ ∃ data next, turns t = carried t ++ [(data, next)] ∧
      ∃ i task, b.task? i = some task ∧ task.work = .submit data next false := by
  have hf := h.ferried
  cases hr : b.rendezvous with
  | none =>
    refine .inl (hf.turns.trans ?_)
    rw [owed, hr, List.append_nil]
  | some r =>
    have hu := hf.unhurt r hr
    have hone := (Rendezvous.length_owed_le hu).trans (h.loaded.inFlight r hr)
    have ht := hf.turns
    rw [owed_of_some hr] at ht
    cases ho : r.owed with
    | nil => exact .inl (by rw [ht, ho, List.append_nil])
    | cons turn rest =>
      obtain rfl : rest = [] := by simpa [ho] using hone
      obtain ⟨data, next⟩ := turn
      exact .inr ⟨data, next, ho ▸ ht, exists_task_of_owed hr hu (by simp [ho])⟩

end Agent

end TurnRendezvous
