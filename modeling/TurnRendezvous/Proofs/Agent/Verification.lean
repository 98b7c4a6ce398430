/-
# `Agent.findings` — what an auto-match client learns of its peer

An auto-match client does not believe in an invite until the peer behind it was
probed.  The probe and its timer run side by side, the owner may let go meanwhile, and
the end of each of the three may already be in the queue when another is handled.  The
first one that is handled decides: it ends the rendezvous, and what comes later is never
looked at (`over_of_moves`).

`Rendezvous.probes` are the probes that were ever started, `Stage.finding?` is what a
stage learns of the peer.

* `peerProbed_of_passage`: a step has the peer probed just when a turn was accepted that
  carried an invite, and with that invite;
* `learned_of_moves`: what is learned of the peer ends the agent and is reported;
* `complete_iff_found_reachable`: what this says about runs.
-/
import TurnRendezvous.Proofs.Agent.Callbacks
import TurnRendezvous.Proofs.Agent.Submissions

namespace TurnRendezvous

/-- The invite that a task probes, and the name under which it asks. -/
def Work.probed? : Work → Option (String × String)
  | .probe invite localId _ => some (invite, localId)
  | _ => none

theorem Work.MayBecome.probed?_eq {w w' : Work} (h : w.MayBecome w') : w'.probed? = w.probed? :=
  h.get_eq (fun _ _ => rfl) (fun _ _ => rfl) (fun _ _ => rfl) fun _ _ _ => rfl

/-- What can be learned of a peer. -/
inductive Finding
  | answered (answer : ProbeAnswer)
  /-- The probe took too long. -/
  | timeUp
deriving DecidableEq

namespace Finding

/-- What a notice says of a peer. -/
def ofNotice? : Notice → Option Finding
  | .done _ (.probed answer) => some (.answered answer)
  | .done _ .timeUp => some .timeUp
  | _ => none

/-- How a finding about the peer behind an invite is reported. -/
def outcome (invite : String) : Finding → Outcome
  | .answered .reachable => .complete (some invite)
  | _ => .matchInvalid

end Finding

namespace Rendezvous

/-! ## What a step does about the peer -/

/-- The probes that were ever started, oldest first. -/
def probes (r : Rendezvous) : List (String × String) :=
  r.jobs.jobs.filterMap (·.work.work.probed?)

theorem probes_leave (r : Rendezvous) : r.leave.probes = r.probes :=
  filterMap_leave (·.work.probed?) r

/-- A task that goes on probes what it did. -/
theorem probes_progress {r : Rendezvous} {i : JobId} {j : Job Task} (hj : r.jobs.get? i = some j)
    {work : Work} (hb : j.work.work.MayBecome work) :
    (r.withJobs (r.jobs.modify i (·.progress ({ · with work })))).probes = r.probes :=
  filterMap_progress hj hb.probed?_eq

theorem probes_complete (r : Rendezvous) (i : JobId) :
    (r.withJobs (r.jobs.complete i).2).probes = r.probes :=
  Registry.filterMap_modify r.jobs i fun j _ => by simp

/-- A step leaves the peer alone, or has it probed for the invite in an accepted turn. -/
inductive PeerProbed (r r' : Rendezvous) : Cause → Prop
  | none {cause : Cause} : r'.probes = r.probes → r'.phase ≠ .verifying → PeerProbed r r' cause
  | begun {p : Submission} {localId text : String} :
      r.phase = .processingTurn → r.pending = some p → p.signal = some (.verifyPeer text) →
      r.role = .autoClient localId (some text) → r'.probes = r.probes ++ [(text, localId)] →
      r'.phase = .verifying → r'.probed = some text →
      PeerProbed r r' (.notice (.done r.generation (.submitted (.ok ()))))

theorem peerProbed_of_played {r r' : Rendezvous} {m : Match} {position : Nat} {out : List Output}
    (h : r.Played m position r' out) : r'.probes = r.probes ∧ r'.phase ≠ .verifying := by
  cases h with
  | refused => exact ⟨probes_leave r, by simp [leave, letGo]⟩
  | handed =>
    refine ⟨?_, by simp [submit]⟩
    simp [probes, submit, Registry.spawn, Work.probed?]

theorem peerProbed_of_passage {s : Surroundings} {r r' : Rendezvous} {cause : Cause}
    {out : List Output} (h : r.Passage s cause r' out) : PeerProbed r r' cause := by
  have left : ∀ {q : Rendezvous} {c : Cause}, q.jobs = r.jobs → PeerProbed r q.leave c := by
    intro q c hq
    exact .none ((probes_leave q).trans (by simp only [probes, hq])) (by simp [leave, letGo])
  cases h with
  | firstTurn _ hp =>
    obtain ⟨hprobes, hphase⟩ := peerProbed_of_played hp
    exact .none hprobes hphase
  | laterTurn _ hp =>
    obtain ⟨hprobes, hphase⟩ := peerProbed_of_played hp
    exact .none hprobes hphase
  | firstWait =>
    refine .none ?_ (by simp [awaitTurn, watch, enter])
    simp [probes, awaitTurn, watch, enter, Registry.spawn, Work.probed?]
  | passedOn =>
    refine .none ?_ (by simp [awaitTurn, watch, enter])
    simp [probes, awaitTurn, watch, enter, Registry.spawn, Work.probed?]
  | stayed =>
    refine .none ?_ (by simp [awaitEnd, watch, enter])
    simp [probes, awaitEnd, watch, enter, Registry.spawn, Work.probed?]
  | verifies hphase hpend hsignal hrole =>
    refine .begun hphase hpend hsignal hrole ?_ (by simp [verify, hrole, watch, enter])
      (by simp [verify, hrole])
    simp [probes, verify, hrole, watch, enter, Registry.spawn, Work.probed?]
  | _ => exact left rfl

/-- A turn after which the peer is to be verified carried the invite that was found. -/
theorem oldData_of_verifyPeer {r : Rendezvous} (hc : r.Course) (hp : r.phase = .processingTurn)
    {p : Submission} (hpend : r.pending = some p) {text : String}
    (hs : p.signal = some (.verifyPeer text)) : ∃ h, r.oldData = some (.invite text h) := by
  simp only [Course, hp] at hc
  obtain ⟨q, hq, hdue⟩ := hc
  obtain rfl := Option.some.inj (hpend.symm.trans hq)
  rw [hs] at hdue
  generalize r.role = role at hdue
  generalize r.oldData = old at hdue ⊢
  generalize p.nextWait = wait at hdue
  cases hdue with
  | suspected h => exact ⟨h, rfl⟩

/-- What a step says that learns something of the peer. -/
theorem ends_of_finding {s : Surroundings} {r r' : Rendezvous} {n : Notice} {out : List Output}
    {f : Finding} (h : r.Passage s (.notice n) r' out) (hf : Finding.ofNotice? n = some f) :
    r.phase = .verifying ∧ r'.progress = .ended ∧
      ∃ quiet o, (∀ o ∈ quiet, Output.outcome? o = none) ∧ out = quiet ++ [.concluded o] ∧
        ∀ text, r.probed = some text → o = f.outcome text := by
  cases h with
  | @reachable answer text hphase hans hprobed =>
    obtain rfl := Option.some.inj hf
    refine ⟨hphase, rfl, _, _, ?_, rfl, ?_⟩
    · split <;> simp [Output.outcome?]
    · intro text' htext
      obtain rfl := Option.some.inj (hprobed.symm.trans htext)
      cases answer <;> simp_all [ProbeAnswer.isReachable, Finding.outcome]
  | @unreachable answer hphase hans =>
    obtain rfl := Option.some.inj hf
    refine ⟨hphase, rfl, [], _, by simp, rfl, ?_⟩
    intro text _
    cases answer <;> simp_all [ProbeAnswer.isReachable, Finding.outcome]
  | tooSlow hphase =>
    obtain rfl := Option.some.inj hf
    exact ⟨hphase, rfl, [], _, by simp, rfl, fun _ _ => rfl⟩
  | _ => cases hf

/-- Whatever is handled while the peer is verified ends the rendezvous. -/
theorem ended_of_verifying {s : Surroundings} {r r' : Rendezvous} {n : Notice}
    {out : List Output} (h : r.Passage s (.notice n) r' out) (hp : r.phase = .verifying) :
    r'.progress = .ended := by
  cases h with
  | detached => rfl
  | reachable => rfl
  | unreachable => rfl
  | tooSlow => rfl
  | _ => simp_all

/-- How the probes of a rendezvous that was made with `localId` fit its phase. -/
inductive Checks (localId : String) (r : Rendezvous) : Prop
  | unprobed : r.phase ≠ .verifying → r.probes = [] → Checks localId r
  | probing {invite : String} :
      r.phase = .verifying → r.probed = some invite → r.probes = [(invite, localId)] →
      Checks localId r
  | decided {invite : String} :
      r.progress = .ended → r.phase ≠ .verifying → r.probes = [(invite, localId)] →
      Checks localId r

theorem Checks.withJobs {localId : String} {r : Rendezvous} (h : r.Checks localId)
    {jobs : Registry Task} (hj : (r.withJobs jobs).probes = r.probes) :
    (r.withJobs jobs).Checks localId := by
  cases h with
  | unprobed hphase hold => exact .unprobed hphase (hj.trans hold)
  | probing hphase hprobed hold => exact .probing hphase hprobed (hj.trans hold)
  | decided hend hphase hold => exact .decided hend hphase (hj.trans hold)

theorem checks_of_passage {s : Surroundings} {r r' : Rendezvous} {cause : Cause}
    {out : List Output} {localId : String} (h : r.Passage s cause r' out)
    (hc : r.Checks localId) (hp : r.progress ≠ .ended)
    (hl : ∀ m position, cause = .look m position → r.phase = .idle)
    (hrole : r.role.blank = .autoClient localId none) : r'.Checks localId := by
  cases peerProbed_of_passage h with
  | none hprobes hphase =>
    cases hc with
    | unprobed _ hold => exact .unprobed hphase (hprobes.trans hold)
    | probing hver _ hold =>
      cases cause with
      | look m position => simp [hl m position rfl] at hver
      | notice n => exact .decided (ended_of_verifying h hver) hphase (hprobes.trans hold)
    | decided hend => exact absurd hend hp
  | begun hturn _ _ hauto hprobes hphase hprobed =>
    cases hc with
    | unprobed _ hold =>
      rw [hauto] at hrole
      obtain rfl := (Role.autoClient.inj hrole).1
      exact .probing hphase hprobed (by rw [hprobes, hold]; rfl)
    | probing hver => simp [hturn] at hver
    | decided hend => exact absurd hend hp

/-- Whoever has its peer verified says that it was successful only when the peer was
found reachable. -/
theorem finding_of_complete {s : Surroundings} {r r' : Rendezvous} {cause : Cause}
    {out : List Output} (h : r.Passage s cause r' out) (hv : r.role.verifies = true) {o : Output}
    (ho : o ∈ out) {invite : Option String} (hc : o.outcome? = some (.complete invite)) :
    ∃ n, cause = .notice n ∧ Finding.ofNotice? n = some (.answered .reachable) := by
  cases h with
  | firstTurn _ hp => cases outcome_of_played hp ho hc
  | laterTurn _ hp =>
    rcases List.mem_cons.1 ho with rfl | ho
    · cases hc
    · cases outcome_of_played hp ho hc
  | @waitEnded result _ _ hres =>
    obtain rfl := List.mem_singleton.1 ho
    cases result <;> simp_all [TurnResult.outcome?, Output.outcome?]
  | succeeded _ _ _ hrole => simp [hv] at hrole
  | stayed _ _ _ hrole => simp [hv] at hrole
  | @reachable answer =>
    refine ⟨_, rfl, ?_⟩
    cases answer <;> simp_all [ProbeAnswer.isReachable, Finding.ofNotice?]
  | @gone how =>
    obtain rfl := List.mem_singleton.1 ho
    cases how <;> cases hc
  | _ => simp_all [Output.outcome?]

end Rendezvous

namespace Agent

/-! ## What a run learns of the peer -/

/-- The probes that an agent ever started, oldest first. -/
def probes (a : Agent) : List (String × String) :=
  match a.rendezvous with
  | none => []
  | some r => r.probes

theorem probes_of_some {a : Agent} {r : Rendezvous} (h : a.rendezvous = some r) :
    a.probes = r.probes := by
  simp only [probes, h]

theorem SameWork.probes_eq {a b : Agent} (h : a.SameWork b) : b.probes = a.probes := by
  simp only [probes, h.rendezvous]

/-- What a stage learns of the peer. -/
def Stage.finding? (st : Stage) : Option Finding := st.handles?.bind Finding.ofNotice?

/-- What a run learns of the peer, oldest first. -/
def findings (t : List Stage) : List Finding := t.filterMap Stage.finding?

@[simp] theorem findings_snoc (t : List Stage) (st : Stage) :
    findings (t ++ [st]) = findings t ++ st.finding?.toList := by
  cases h : st.finding? <;> simp [findings, h]

/-! ### Agents that are over -/

/-- The rendezvous is over, and the owner hears nothing any more. -/
def IsOver (a : Agent) : Prop :=
  a.gate.closed = true ∧ ∃ r, a.rendezvous = some r ∧ r.Over

theorem IsOver.silenced {a : Agent} (h : a.IsOver) : a.Silenced := by
  obtain ⟨hg, r, hr, ho⟩ := h
  exact silenced_of_over hr ho hg

theorem closed_call (a : Agent) (c : OwnerCall) : (a.call c).gate.closed = true := by
  cases c <;> rfl

theorem closed_calls {a : Agent} (h : a.gate.closed = true) (cs : List OwnerCall) :
    (cs.foldl call a).gate.closed = true := by
  induction cs generalizing a with
  | nil => exact h
  | cons c cs ih => exact ih (closed_call a c)

/-- What is over stays over: nothing is done, and no notice is looked at. -/
theorem over_of_moves {a b : Agent} {mv : Move} {marks : List Mark} (h : a.Standing)
    (ho : a.IsOver) (hm : a.Moves mv marks b) :
    b.IsOver ∧ marks = [] ∧ Stage.finding? ⟨a, mv, marks, b⟩ = none := by
  obtain ⟨hg, r, hr, hover⟩ := ho
  cases hm with
  | start hs => simp [(start_of_standing h hs).1] at hr
  | owner c =>
    exact ⟨⟨closed_call a c, r, (sameWork_call a c).rendezvous.trans hr, hover⟩, rfl, rfl⟩
  | step hs => simp [stepWithin?, next?, hr, hover.progress] at hs
  | @goOn i _ work ht =>
    exact ⟨⟨hg, _, rendezvous_progress hr i work, Rendezvous.over_modify hover i (by simp)⟩,
      rfl, rfl⟩
  | @finish i _ how ht =>
    refine ⟨⟨?_, _, rendezvous_complete hr ht how, Rendezvous.over_modify hover i (by simp)⟩,
      rfl, rfl⟩
    rw [complete_eq hr ht how]
    exact hg

/-- From the moment on in which an agent is over. -/
theorem Run.over {a b : Agent} {t : List Stage} (h : Run a t b) (hst : a.Standing)
    (ho : a.IsOver) : b.IsOver ∧ (∀ st ∈ t, st.marks = []) ∧ findings t = [] := by
  induction h with
  | nil => exact ⟨ho, List.forall_mem_nil _, rfl⟩
  | snoc hrun hm ih =>
    obtain ⟨hover, hmarks, hfind⟩ := ih
    obtain ⟨hover', hm', hf'⟩ := over_of_moves (hrun.standing hst) hover hm
    refine ⟨hover', ?_, by rw [findings_snoc, hfind, hf']; rfl⟩
    exact List.forall_mem_append.2 ⟨hmarks, by simpa using hm'⟩

/-! ### Closed gates -/

theorem closed_emit {within : List OwnerCall} {id : MatchId} {a : Agent} {o : Output}
    (h : a.gate.closed = true) : (a.emit within id o).1.gate.closed = true := by
  have ho : (output id a.gate o).2.closed = true := by cases o <;> simp [output, h]
  simp only [emit]
  split
  · exact closed_calls ho within
  · exact ho

theorem closed_emitAll {within : List OwnerCall} {id : MatchId} {out : List Output} :
    ∀ {a : Agent}, a.gate.closed = true → (a.emitAll within id out).1.gate.closed = true := by
  induction out with
  | nil => exact fun h => h
  | cons o out ih => exact fun h => ih (closed_emit h)

/-- An owner that makes any call in a callback closes the gate. -/
theorem closed_of_called {within : List OwnerCall} (hw : within ≠ []) {id : MatchId}
    {out : List Output} :
    ∀ {a : Agent}, (a.emitAll within id out).2.any (·.callback?.isSome) = true →
      (a.emitAll within id out).1.gate.closed = true := by
  obtain ⟨c, cs, rfl⟩ := List.exists_cons_of_ne_nil hw
  induction out with
  | nil => intro a h; simp [emitAll] at h
  | cons o out ih =>
    intro a h
    simp only [emitAll, List.any_append, Bool.or_eq_true] at h ⊢
    rcases h with h | h
    · refine closed_emitAll ?_
      by_cases hc : a.gate.closed = true
      · exact closed_emit hc
      · cases o with
        | reported =>
          simp only [emit, output, if_neg hc]
          exact closed_calls (closed_call _ c) cs
        | concluded =>
          simp only [emit, output, if_neg hc]
          exact closed_calls (closed_call _ c) cs
        | _ => simp [emit, output, Mark.ofEffect, Mark.callback?] at h
    · exact ih h

/-- A gate does not open again, and an owner who lets go closes it. -/
theorem closed_of_moves {a b : Agent} {mv : Move} {marks : List Mark} (h : a.Standing)
    (hm : a.Moves mv marks b)
    (hg : a.gate.closed = true ∨ Stage.letsGo ⟨a, mv, marks, b⟩ = true) :
    b.gate.closed = true := by
  cases hm with
  | start hs =>
    obtain ⟨-, -, role, -, rfl⟩ := start_of_standing h hs
    exact hg.resolve_right (by simp [Stage.letsGo])
  | owner c => exact closed_call a c
  | @step _ _ s within hs =>
    obtain ⟨a', r', out, hstride, hb⟩ := stride_of_stepWithin? h hs
    obtain ⟨rfl, rfl⟩ := Prod.ext_iff.1 hb
    have hgate : a'.gate = a.gate := by cases hstride <;> rfl
    have hemit : (emitAll within r'.matchId { a' with rendezvous := some r' } out).1.gate.closed =
        true := by
      rcases hg with hg | hg
      · exact closed_emitAll (hgate ▸ hg)
      · simp only [Stage.letsGo, Bool.and_eq_true, Bool.not_eq_true',
          List.isEmpty_eq_false_iff] at hg
        exact closed_of_called hg.1 hg.2
    simp only [absorbWithin]
    split
    · rfl
    · exact hemit
  | goOn => exact hg.resolve_right (by simp [Stage.letsGo])
  | finish ht =>
    obtain ⟨r, j, hr, -, -, -⟩ := exists_of_task? ht
    rw [complete_eq hr ht]
    exact hg.resolve_right (by simp [Stage.letsGo])

/-- Once the owner has let go the gate is closed. -/
theorem Run.closed {role : Role} {timing : Timing} {t : List Stage} {b : Agent}
    (h : Run (ofRole role timing) t b) (hl : ∃ st ∈ t, st.letsGo = true) :
    b.gate.closed = true := by
  induction h with
  | nil => simp at hl
  | snoc hrun hm ih =>
    refine closed_of_moves hrun.aimed.1 hm ?_
    obtain ⟨st, hst, hl⟩ := hl
    rcases List.mem_append.1 hst with hst | hst
    · exact .inl (ih ⟨st, hst, hl⟩)
    · exact .inr (List.mem_singleton.1 hst ▸ hl)

/-! ### Probes -/

/-- A move starts no probe, or it handles the news that a turn was accepted. -/
theorem probes_of_moves {a b : Agent} {mv : Move} {marks : List Mark} (h : a.Standing)
    (hm : a.Moves mv marks b) :
    b.probes = a.probes ∨
      ∃ r p localId text, a.rendezvous = some r ∧ r.progress = .underway ∧ r.OnDuty a.queue ∧
        r.phase = .processingTurn ∧ r.pending = some p ∧ p.signal = some (.verifyPeer text) ∧
        r.role = .autoClient localId (some text) ∧ b.probes = a.probes ++ [(text, localId)] ∧
        Stage.handles? ⟨a, mv, marks, b⟩ = some (.done r.generation (.submitted (.ok ()))) := by
  cases hm with
  | start hs =>
    obtain ⟨hr, -, role, -, rfl⟩ := start_of_standing h hs
    exact .inl (by simp [probes, hr, Rendezvous.probes])
  | owner c => exact .inl (sameWork_call a c).probes_eq
  | @step _ _ s within hs =>
    obtain ⟨a', r', out, hstride, hb⟩ := stride_of_stepWithin? h hs
    obtain ⟨rfl, -⟩ := Prod.ext_iff.1 hb
    have hb' : (a'.absorbWithin within (r', out)).1.probes = r'.probes :=
      (sameWork_absorbWithin within a' r' out).probes_eq.trans (probes_of_some rfl)
    rw [hb']
    cases hstride with
    | first hr _ _ _ _ _ hpass =>
      cases Rendezvous.peerProbed_of_passage hpass with
      | none hprobes => exact .inl (hprobes.trans (probes_of_some hr).symm)
    | @later r _ n queue _ hr _ hp hq hd hpass =>
      cases Rendezvous.peerProbed_of_passage hpass with
      | none hprobes => exact .inl (hprobes.trans (probes_of_some hr).symm)
      | begun hphase hpend hsignal hrole hprobes =>
        refine .inr ⟨r, _, _, _, hr, hp, hq ▸ hd, hphase, hpend, hsignal, hrole, ?_, ?_⟩
        · rw [hprobes, probes_of_some hr]
        · simp [Stage.handles?, hr, hp, hq]
  | @goOn i _ work ht hb =>
    obtain ⟨r, j, hr, hj, -, rfl⟩ := exists_of_task? ht
    refine .inl ?_
    rw [probes_of_some (rendezvous_progress hr i work), probes_of_some hr]
    exact Rendezvous.probes_progress hj hb
  | @finish i _ how ht =>
    obtain ⟨r, j, hr, -, -, -⟩ := exists_of_task? ht
    refine .inl ?_
    rw [probes_of_some (rendezvous_complete hr ht how), probes_of_some hr]
    exact Rendezvous.probes_complete r i

theorem Run.probes_grow {a b : Agent} {t : List Stage} (h : Run a t b) (hst : a.Standing) :
    a.probes <+: b.probes := by
  induction h with
  | nil => exact List.prefix_refl _
  | snoc hrun hm ih =>
    refine ih.trans ?_
    rcases probes_of_moves (hrun.standing hst) hm with
      hp | ⟨r, p, localId, text, -, -, -, -, -, -, -, hp, -⟩
    · exact hp ▸ List.prefix_refl _
    · exact hp ▸ List.prefix_append _ _

/-- What a stage handles was in the queue. -/
theorem mem_queue_of_handles? {st : Stage} {n : Notice} (h : st.handles? = some n) :
    n ∈ st.before.queue := by
  unfold Stage.handles? at h
  split at h
  · split at h
    · exact List.mem_of_head? h
    · cases h
  · cases h

theorem mem_noticed_of_handles? {st : Stage} {g : Nat} {how : TaskEnd}
    (h : st.handles? = some (.done g how)) : (g, how) ∈ noticed st.before.queue :=
  mem_noticed_iff.2 (mem_queue_of_handles? h)

/-- Every end of a task that is in the queue has happened. -/
theorem Run.exists_finish {role : Role} {timing : Timing} {t : List Stage} {b : Agent}
    (h : Run (ofRole role timing) t b) :
    ∀ n ∈ noticed b.queue, ∃ st ∈ t, ∃ i, st.move = .finish i n.2 := by
  induction h with
  | nil => simp [ofRole, noticed]
  | @snoc t a b mv marks hrun hm ih =>
    have old : ∀ n ∈ noticed a.queue, ∃ st ∈ t ++ [⟨a, mv, marks, b⟩], ∃ i,
        st.move = .finish i n.2 := by
      intro n hn
      obtain ⟨st, hst, i, hi⟩ := ih n hn
      exact ⟨st, List.mem_append_left _ hst, i, hi⟩
    have hst := hrun.aimed.1
    cases hm with
    | start hs =>
      obtain ⟨-, -, role, -, rfl⟩ := start_of_standing hst hs
      exact old
    | owner c => exact (sameWork_call a c).noticed ▸ old
    | step hs =>
      obtain ⟨a', r', out, hstride, hb⟩ := stride_of_stepWithin? hst hs
      obtain ⟨rfl, -⟩ := Prod.ext_iff.1 hb
      rw [(sameWork_absorbWithin _ a' r' out).noticed]
      cases hstride with
      | first => exact old
      | @later _ _ n queue _ _ _ _ hq =>
        intro n' hn'
        refine old n' ?_
        rw [hq]
        cases n with
        | detach => exact hn'
        | done g how => exact List.mem_cons_of_mem _ hn'
    | goOn => exact old
    | @finish i task how ht =>
      obtain ⟨r, j, hr, -, -, -⟩ := exists_of_task? ht
      intro n hn
      have hnew : n ∈ noticed a.queue ∨ n.2 = how := by
        rw [complete_eq hr ht how] at hn
        split at hn
        · rw [noticed_append, List.mem_append] at hn
          exact hn.imp_right fun hn => by rw [List.mem_singleton.1 hn]
        · exact .inl hn
      rcases hnew with hn | rfl
      · exact old n hn
      · exact ⟨_, List.mem_append_right _ (List.mem_singleton_self _), i, rfl⟩

/-! ### What is learned of the peer -/

/-- A stage that learns something of the peer ends the agent, and tells the owner what
was found. -/
theorem learned_of_moves {a b : Agent} {mv : Move} {marks : List Mark} {f : Finding}
    (h : a.Standing) (hm : a.Moves mv marks b)
    (hf : Stage.finding? ⟨a, mv, marks, b⟩ = some f) :
    ∃ r, a.rendezvous = some r ∧ r.progress = .underway ∧ r.phase = .verifying ∧ b.IsOver ∧
      ∀ invite, r.probed = some invite →
        (marks.filterMap Mark.callback?).map (·.report.outcome) =
          if a.gate.closed then [] else [f.outcome invite] := by
  cases hm with
  | @step _ _ s within hs =>
    obtain ⟨a', r', out, hstride, hb⟩ := stride_of_stepWithin? h hs
    obtain ⟨rfl, rfl⟩ := Prod.ext_iff.1 hb
    cases hstride with
    | first hr _ hp => simp [Stage.finding?, Stage.handles?, hr, hp] at hf
    | @later r _ n queue _ hr _ hp hq _ hpass hset =>
      have hn : Finding.ofNotice? n = some f := by
        simpa [Stage.finding?, Stage.handles?, hr, hp, hq] using hf
      obtain ⟨hphase, hend, quiet, o, hquiet, rfl, ho⟩ := Rendezvous.ends_of_finding hpass hn
      have hover := Rendezvous.Over.of_settled hset hend
      refine ⟨r, hr, hp, hphase, ⟨?_, r', ?_, hover⟩, ?_⟩
      · simp only [absorbWithin, hend, if_true]
        rfl
      · exact (sameWork_absorbWithin within _ r' _).rendezvous
      · intro invite hinvite
        simp only [absorbWithin, emitAll_append, List.filterMap_append, (emitAll_quiet hquiet).1,
          (emitAll_quiet hquiet).2, emitAll, List.append_nil, List.nil_append,
          callbacks_emit_concluded, hears, ho invite hinvite]
        split <;> rfl
  | _ => cases hf

/-- A client that has its peer verified tells of a success only when it learns that
the peer is reachable. -/
theorem finding_of_moves {a b : Agent} {mv : Move} {marks : List Mark} (h : a.Standing)
    (hv : ∀ r, a.rendezvous = some r → r.role.verifies = true) (hm : a.Moves mv marks b)
    {c : Callback} (hc : c ∈ marks.filterMap Mark.callback?) {invite : Option String}
    (hout : c.report.outcome = .complete invite) :
    Stage.finding? ⟨a, mv, marks, b⟩ = some (.answered .reachable) := by
  cases hm with
  | @step _ _ s within hs =>
    obtain ⟨a', r', out, hstride, hb⟩ := stride_of_stepWithin? h hs
    obtain ⟨-, rfl⟩ := Prod.ext_iff.1 hb
    obtain ⟨o, ho, hoc⟩ := outcome_of_callback hc
    rw [hout] at hoc
    cases hstride with
    | first hr _ _ _ _ _ hpass =>
      obtain ⟨n, hn, -⟩ := Rendezvous.finding_of_complete hpass (hv _ hr) ho hoc
      cases hn
    | later hr _ hp hq _ hpass =>
      obtain ⟨n, hn, hfind⟩ := Rendezvous.finding_of_complete hpass (hv _ hr) ho hoc
      obtain rfl := Rendezvous.Cause.notice.inj hn
      simp [Stage.finding?, Stage.handles?, hr, hp, hq, hfind]
  | _ => simp at hc

section Run
variable {localId : String} {known : Option String} {timing : Timing} {t : List Stage} {b : Agent}
  (h : Run (ofRole (.autoClient localId known) timing) t b)
include h

/-- The probes of an auto-match client fit its phase. -/
theorem Run.checks : ∀ r, b.rendezvous = some r → r.Checks localId := by
  induction h with
  | nil => exact fun r hr => by cases hr
  | @snoc t a b mv marks hrun hm ih =>
    obtain ⟨hst, haim⟩ := hrun.aimed
    intro r' hb
    cases hm with
    | start hs =>
      obtain ⟨-, -, role, -, rfl⟩ := start_of_standing hst hs
      obtain rfl := Option.some.inj hb
      exact .unprobed (by simp) rfl
    | owner c => exact ih r' ((sameWork_call a c).rendezvous ▸ hb)
    | step hs =>
      obtain ⟨a', r'', out, hstride, heq⟩ := stride_of_stepWithin? hst hs
      obtain ⟨rfl, -⟩ := Prod.ext_iff.1 heq
      rw [(sameWork_absorbWithin _ a' r'' out).rendezvous] at hb
      obtain rfl := Option.some.inj hb
      cases hstride with
      | first hr _ hp hphase _ _ hpass =>
        exact Rendezvous.checks_of_passage hpass (ih _ hr) (by simp [hp]) (fun _ _ _ => hphase)
          (haim.started _ hr).2.2.2
      | later hr _ hp _ _ hpass =>
        exact Rendezvous.checks_of_passage hpass (ih _ hr) (by simp [hp]) (by simp)
          (haim.started _ hr).2.2.2
    | @goOn i _ work ht hbec =>
      obtain ⟨r, j, hr, hj, -, rfl⟩ := exists_of_task? ht
      obtain rfl := Option.some.inj ((rendezvous_progress hr i work).symm.trans hb)
      exact (ih r hr).withJobs (Rendezvous.probes_progress hj hbec)
    | @finish i _ how ht =>
      obtain ⟨r, j, hr, -, -, -⟩ := exists_of_task? ht
      obtain rfl := Option.some.inj ((rendezvous_complete hr ht how).symm.trans hb)
      exact (ih r hr).withJobs (Rendezvous.probes_complete r i)

/-- Before it is over, an auto-match client tells its owner nothing. -/
theorem Run.unheard (hb : b.mode ≠ .ended) : callbacks t = [] := by
  cases hmode : b.mode with
  | before => exact h.telling.before hmode
  | watching =>
    obtain ⟨hst, haim⟩ := h.aimed
    cases (stays_of_watching hst haim hmode).2
  | ended => exact absurd hmode hb

/-- An auto-match client has its peer verified, whatever it has found. -/
theorem Run.verifies : ∀ r, b.rendezvous = some r → r.role.verifies = true := by
  intro r hr
  rw [← Role.verifies_blank, (h.aimed.2.started r hr).2.2.2]
  rfl

/-- Something is learned of the peer once at most, and then the agent is over. -/
theorem Run.finding_once :
    (findings t).length ≤ 1 ∧ (findings t ≠ [] → b.IsOver) := by
  induction h with
  | nil => exact ⟨Nat.zero_le 1, fun h => absurd rfl h⟩
  | @snoc t a b mv marks hrun hm ih =>
    have hst := hrun.aimed.1
    rw [findings_snoc]
    by_cases hold : findings t = []
    · cases hf : Stage.finding? ⟨a, mv, marks, b⟩ with
      | none => simp [hold]
      | some f =>
        obtain ⟨r, -, -, -, hover, -⟩ := learned_of_moves hst hm hf
        exact ⟨by simp [hold], fun _ => hover⟩
    · obtain ⟨hover, -, hnone⟩ := over_of_moves hst (ih.2 hold) hm
      exact ⟨by simpa [hnone] using ih.1, fun _ => hover⟩

theorem Run.length_probes_le_one : b.probes.length ≤ 1 := by
  cases hr : b.rendezvous with
  | none => simp [probes, hr]
  | some r =>
    rw [probes_of_some hr]
    cases h.checks r hr with
    | unprobed _ hp => simp [hp]
    | probing _ _ hp => simp [hp]
    | decided _ _ hp => simp [hp]

/-- A probe is started by an accepted turn, and for the invite in that turn. -/
theorem Run.probe_of_accepted {mv : Move} {marks : List Mark} {c : Agent}
    (hm : b.Moves mv marks c) :
    c.probes = b.probes ∨
      ∃ invite hi g, b.probes = [] ∧ c.probes = [(invite, localId)] ∧
        Stage.handles? ⟨b, mv, marks, c⟩ = some (.done g (.submitted (.ok ()))) ∧
        (∃ st ∈ t, ∃ i, st.move = .finish i (.submitted (.ok ()))) ∧
        (submissions t).getLast? = some (Payload.invite invite hi).encode := by
  obtain ⟨hst, haim⟩ := h.aimed
  rcases probes_of_moves hst hm with
    hsame | ⟨r, p, lid, text, hr, hp, hd, hphase, hpend, hsignal, hrole, hprobes, hn⟩
  · exact .inl hsame
  have hblank := (haim.started r hr).2.2.2
  rw [hrole] at hblank
  obtain rfl : lid = localId := (Role.autoClient.inj hblank).1
  have hnone : b.probes = [] := by
    have hone := (h.snoc hm).length_probes_le_one
    rw [hprobes, List.length_append, List.length_singleton] at hone
    exact List.eq_nil_of_length_eq_zero (by omega)
  obtain ⟨hi, hold⟩ := Rendezvous.oldData_of_verifyPeer hd.course hphase hpend hsignal
  obtain ⟨ps, old, hps, hsaid, hmem⟩ := h.handing.said
  obtain rfl := hmem (some (.invite text hi)) (by simp [memory?_of_some hr, hp, hold])
  have hlast : ps.getLast? = some (.invite text hi) := by cases hsaid <;> rfl
  refine .inr ⟨text, hi, r.generation, hnone, by rw [hprobes, hnone]; rfl, hn, ?_, ?_⟩
  · exact h.exists_finish _ (mem_noticed_of_handles? hn)
  · rw [hps, List.getLast?_map, hlast]
    rfl

/-- Nothing was learned of the peer before. -/
theorem Run.findings_before {t₁ t₂ : List Stage} {st : Stage} {f : Finding}
    (ht : t = t₁ ++ st :: t₂) (hf : st.finding? = some f) : findings t₁ = [] := by
  subst ht
  have hone := h.finding_once.1
  unfold findings at hone ⊢
  simp only [List.filterMap_append, List.filterMap_cons, hf, List.length_append,
    List.length_cons] at hone
  exact List.eq_nil_of_length_eq_zero (by omega)

/-- All that the owner hears is what is learned of the peer. -/
theorem Run.callbacks_of_finding {t₁ t₂ : List Stage} {st : Stage} {f : Finding}
    (ht : t = t₁ ++ st :: t₂) (hf : st.finding? = some f) :
    ∃ invite, b.probes = [(invite, localId)] ∧
      (callbacks t).map (·.report.outcome) =
        (if t₁.any Stage.letsGo then [] else [f.outcome invite]) ∧
      st.after.Silenced ∧ ∀ st' ∈ t₂, st'.marks = [] := by
  subst ht
  obtain ⟨hbefore, hm, hafter⟩ := h.split
  have hst := hbefore.aimed.1
  obtain ⟨r, hr, hp, hphase, hover, hheard⟩ := learned_of_moves hst hm hf
  have hmode : st.before.mode ≠ .ended := by
    rw [ne_eq, mode_eq_over_iff]
    rintro ⟨r', hr', hp'⟩
    obtain rfl := Option.some.inj (hr.symm.trans hr')
    simp [hp] at hp'
  obtain ⟨-, hmarks, -⟩ := hafter.over (standing_of_moves hst hm) hover
  obtain ⟨invite, hprobed, hprobes⟩ : ∃ invite, r.probed = some invite ∧
      r.probes = [(invite, localId)] := by
    cases hbefore.checks r hr with
    | unprobed hne => exact absurd hphase hne
    | probing _ hprobed hprobes => exact ⟨_, hprobed, hprobes⟩
    | decided _ hne => exact absurd hphase hne
  refine ⟨invite, ?_, ?_, hover.silenced, hmarks⟩
  · have hpre := ((Run.nil.snoc hm).probes_grow hst).trans
      (hafter.probes_grow (standing_of_moves hst hm))
    rw [probes_of_some hr, hprobes] at hpre
    exact (hpre.eq_of_length_le h.length_probes_le_one).symm
  · have hlate : callbacks t₂ = [] := List.flatMap_eq_nil_iff.2 fun st' hst' => by
      simp [hmarks st' hst']
    have hall : callbacks (t₁ ++ st :: t₂) = st.marks.filterMap Mark.callback? := by
      have hearly := hbefore.unheard hmode
      unfold callbacks at hearly hlate ⊢
      simp [hearly, hlate]
    rw [hall, hheard invite hprobed]
    cases hl : t₁.any Stage.letsGo with
    | true => simp [hbefore.closed (List.any_eq_true.1 hl)]
    | false =>
      have hopen := (hbefore.attended (by simpa using hl)).gate hmode
      simp [hopen]

/-- A success is heard where the peer is found, before the owner lets go. -/
theorem Run.finding_of_success {c : Callback} (hc : c ∈ callbacks t) {invite : Option String}
    (hout : c.report.outcome = .complete invite) :
    ∃ t₁ st t₂, t = t₁ ++ st :: t₂ ∧ st.finding? = some (.answered .reachable) ∧
      ∀ st' ∈ t₁, st'.letsGo = false := by
  obtain ⟨st, hst, hc'⟩ := List.mem_flatMap.1 hc
  obtain ⟨t₁, t₂, ht⟩ := List.append_of_mem hst
  have hf : st.finding? = some (.answered .reachable) := by
    obtain ⟨hbefore, hm, -⟩ := (ht ▸ h).split
    exact finding_of_moves hbefore.aimed.1 hbefore.verifies hm hc' hout
  refine ⟨t₁, st, t₂, ht, hf, ?_⟩
  obtain ⟨_, -, hall, -⟩ := h.callbacks_of_finding ht hf
  intro st' hst'
  cases hl : st'.letsGo with
  | false => rfl
  | true =>
    rw [if_pos (List.any_eq_true.2 ⟨st', hst', hl⟩), List.map_eq_nil_iff] at hall
    rw [hall] at hc
    cases hc

/-- And it is heard there. -/
theorem Run.success_of_finding {t₁ t₂ : List Stage} {st : Stage} (ht : t = t₁ ++ st :: t₂)
    (hf : st.finding? = some (.answered .reachable)) (hl : ∀ st' ∈ t₁, st'.letsGo = false) :
    ∃ c ∈ callbacks t, ∃ invite, c.report.outcome = .complete invite := by
  obtain ⟨invite, -, hall, -⟩ := h.callbacks_of_finding ht hf
  have hany : t₁.any Stage.letsGo = false := by simpa using hl
  rw [hany, if_neg Bool.false_ne_true] at hall
  obtain ⟨c, hc, hout⟩ : ∃ c ∈ callbacks t,
      c.report.outcome = Finding.outcome invite (.answered .reachable) := by
    have hmem : Finding.outcome invite (.answered .reachable) ∈
        (callbacks t).map (·.report.outcome) := by
      rw [hall]
      exact List.mem_singleton_self _
    simpa using List.mem_map.1 hmem
  exact ⟨c, hc, some invite, hout⟩

end Run

/-- Whatever the service and the probe answer, and in whichever order that, the timer
and the owner come, an auto-match client starts one probe at most: when it handles that
its turn was accepted, for the invite in the turn that it handed over last, and under
the role's own name.  It learns of the peer at most once, from the probe or from its timer;
that ends it, nothing that comes later has any effect, and the owner hears just what was
learned, or nothing after having let go.  So the agent tells of a success just when it
handles that the peer is reachable, before the timer and before the owner lets go. -/
theorem complete_iff_found_reachable {localId : String} {known : Option String}
    {timing : Timing} {t : List Stage} {b : Agent}
    (h : Run (ofRole (.autoClient localId known) timing) t b) :
    b.probes.length ≤ 1 ∧
      (∀ t₁ st t₂, t = t₁ ++ st :: t₂ → st.after.probes = st.before.probes ∨
        ∃ invite hi g, st.before.probes = [] ∧ st.after.probes = [(invite, localId)] ∧
          st.handles? = some (.done g (.submitted (.ok ()))) ∧
          (∃ st' ∈ t₁, ∃ i, st'.move = .finish i (.submitted (.ok ()))) ∧
          (submissions t₁).getLast? = some (Payload.invite invite hi).encode) ∧
      (findings t).length ≤ 1 ∧
      (∀ t₁ st t₂ f, t = t₁ ++ st :: t₂ → st.finding? = some f →
        ∃ invite, b.probes = [(invite, localId)] ∧
          (callbacks t).map (·.report.outcome) =
            (if t₁.any Stage.letsGo then [] else [f.outcome invite]) ∧
          st.after.Silenced ∧ ∀ st' ∈ t₂, st'.marks = []) ∧
      ((∃ c ∈ callbacks t, ∃ invite, c.report.outcome = .complete invite) ↔
        ∃ t₁ st t₂, t = t₁ ++ st :: t₂ ∧ st.finding? = some (.answered .reachable) ∧
          findings t₁ = [] ∧ ∀ st' ∈ t₁, st'.letsGo = false) := by
  refine ⟨h.length_probes_le_one, ?_, h.finding_once.1, ?_, ?_, ?_⟩
  · rintro t₁ st t₂ rfl
    obtain ⟨hbefore, hm, -⟩ := h.split
    exact hbefore.probe_of_accepted hm
  · exact fun _ _ _ _ ht hf => h.callbacks_of_finding ht hf
  · rintro ⟨c, hc, invite, hout⟩
    obtain ⟨t₁, st, t₂, ht, hf, hl⟩ := h.finding_of_success hc hout
    exact ⟨t₁, st, t₂, ht, hf, h.findings_before ht hf, hl⟩
  · rintro ⟨t₁, st, t₂, ht, hf, -, hl⟩
    exact h.success_of_finding ht hf hl

/-- The peer answers, and the timer runs out before that was looked at. -/
theorem complete_iff_found_reachable_before_the_timer :
    ∃ t b, Run (ofRole (.autoClient "me" none) {}) t b ∧ b.probes = [("x", "me")] ∧
      b.queue.length = 1 ∧ (findings t).length ≤ 1 ∧
      ∃ c ∈ callbacks t, ∃ invite, c.report.outcome = .complete invite := by
  let m : Match :=
    { id := ⟨"m"⟩, status := .active, turn := .mine, participants := [⟨"ann"⟩, ⟨"bob"⟩]
      creator := ⟨"bob"⟩, viewer := ⟨"ann"⟩, version := 1
      data := some (Payload.withInvite "x").encode }
  let s : Surroundings := { now := 0, position := 0 }
  have started := Run.nil.snoc (.start (a := ofRole (.autoClient "me" none) {}) (s := true)
    (m := m) (n := 0) rfl)
  have played := started.snoc (.step (s := s) (w := []) rfl)
  have issued := played.snoc (.goOn (i := 0) rfl rfl)
  have accepted := issued.snoc (.finish (i := 0) (e := .submitted (.ok ())) rfl rfl)
  have probing := accepted.snoc (.step (s := s) (w := []) rfl)
  have answered := probing.snoc (.finish (i := 1) (e := .probed .reachable) rfl trivial)
  have late := answered.snoc (.finish (i := 2) (e := .timeUp) rfl trivial)
  have run := late.snoc (.step (s := s) (w := []) rfl)
  obtain ⟨-, -, hone, -, hiff⟩ := complete_iff_found_reachable run
  exact ⟨_, _, run, rfl, rfl, hone, hiff.2 ⟨_, _, [], rfl, rfl, rfl, by decide⟩⟩

end Agent

end TurnRendezvous
