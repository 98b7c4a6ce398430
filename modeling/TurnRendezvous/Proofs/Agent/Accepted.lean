/-
# `Agent.accepted` — the turns that the service took

A rendezvous succeeds for one of two reasons (`Rendezvous.Earned`): the service took the turn
after which the role wants a success reported, or it took the turn after which the peer was
probed, and the peer was found.  In either case that turn left an invite in the match.

The notice of an accepted turn does not carry the turn.  Which turn it was is known all the
same, because nothing goes on beside it: a step after which the rendezvous goes on has found
no other work running and no other end of a task in the queue (`free_of_stride`).  So what is
accepted is what was handed over last (`Credited`).

* `said_of_due`: a role that wants something reported has left an invite;
* `Run.credited`: what is accepted was handed over last;
* `Run.invite_accepted`: a success rests on an accepted invite.
-/
import TurnRendezvous.Proofs.Agent.Verification

namespace TurnRendezvous

namespace Rendezvous

/-! ## Reasons to succeed -/

/-- What makes a rendezvous successful when it takes a notice. -/
inductive Earned (r : Rendezvous) : Notice → Option String → Prop
  /-- The turn was accepted after which the role is done. -/
  | accepted {p : Submission} {invite : Option String} :
      r.phase = .processingTurn → r.pending = some p → p.signal = some (.complete invite) →
      r.role.verifies = false →
      Earned r (.done r.generation (.submitted (.ok ()))) invite
  /-- The peer was found. -/
  | found {text : String} :
      r.phase = .verifying → r.probed = some text →
      Earned r (.done r.generation (.probed .reachable)) (some text)

theorem Earned.phase_ne {r : Rendezvous} {n : Notice} {invite : Option String}
    (h : r.Earned n invite) : r.phase ≠ .monitoring := by
  cases h with
  | accepted hp => simp [hp]
  | found hp => simp [hp]

/-- A role that wants something reported has left an invite in the match. -/
theorem said_of_due {role role' : Role} {old : Option Payload} {wait : Patience}
    {signal : Signal} {ps : List Payload} (hd : Due role' old wait (some signal))
    (hs : Said role old ps) (hrole : role'.isHost = role.isHost) :
    ∃ text h, ps.getLast? = some (.invite text h) := by
  cases hd with
  | offered =>
    cases hs with
    | offered h => exact ⟨_, h, rfl⟩
    | passed hh => exact absurd (hrole.trans hh) (by simp [Role.isHost])
  | found h => cases hs <;> exact ⟨_, h, rfl⟩
  | suspected h => cases hs <;> exact ⟨_, h, rfl⟩

/-- New jobs run after those that ran before. -/
theorem running_of_started {r r' : Rendezvous} {ts : List Task}
    (h : r'.jobs.jobs = r.jobs.jobs ++ ts.map (fun t => { work := t })) :
    r'.jobs.running = r.jobs.running ++ ts := by
  have new : (ts.map fun t => ({ work := t } : Job Task)).filter Job.mayDeliver =
      ts.map fun t => { work := t } :=
    List.filter_eq_self.2 fun j hj => by
      obtain ⟨t, -, rfl⟩ := List.mem_map.1 hj
      rfl
  simp only [Registry.running, h, List.filter_append, new, List.map_append, List.map_map]
  congr 1
  exact List.map_id ts

end Rendezvous

namespace Agent

/-! ## Turns that were accepted -/

/-- The turn that the service accepts in a stage. -/
def Stage.accepts? (st : Stage) : Option Bytes :=
  match st.move with
  | .finish i (.submitted (.ok ())) => (st.before.task? i).bind (·.work.submitted?)
  | _ => none

/-- The turns that the service accepted in a run, oldest first. -/
def accepted (t : List Stage) : List Bytes := t.filterMap Stage.accepts?

@[simp] theorem accepted_snoc (t : List Stage) (st : Stage) :
    accepted (t ++ [st]) = accepted t ++ st.accepts?.toList := by
  cases h : st.accepts? <;> simp [accepted, h]

theorem mem_accepted_snoc {t : List Stage} {st : Stage} {bytes : Bytes} (h : bytes ∈ accepted t) :
    bytes ∈ accepted (t ++ [st]) := by
  rw [accepted_snoc]
  exact List.mem_append_left _ h

/-- A rendezvous that goes on after a step had nothing else going on. -/
theorem free_of_stride {a a' : Agent} {s : Surroundings} {r' : Rendezvous} {out : List Output}
    (hst : a.Standing) (h : a.Stride s a' r' out) :
    r'.progress = .ended ∨
      ∃ r, a.rendezvous = some r ∧ r.jobs.running = [] ∧ noticed a'.queue = [] := by
  cases h with
  | @first r _ m position _ hr _ hp _ _ hjobs =>
    exact .inr ⟨r, hr, by simp [hjobs, Registry.running], hst.noticed_eq_nil hr hp⟩
  | @later r _ n queue _ hr _ _ _ hd hpass =>
    cases n with
    | detach =>
      cases hpass
      exact .inl rfl
    | done g how =>
      by_cases hv : r.phase = .verifying
      · exact .inl (Rendezvous.ended_of_verifying hpass hv)
      · obtain ⟨hrun, hq⟩ := (Rendezvous.onDuty_notice hd).2.2 hv
        exact .inr ⟨r, hr, hrun, hq⟩

/-- What is on its way to be accepted, or was accepted, is what was handed over last. -/
structure Credited (t : List Stage) (a : Agent) : Prop where
  latest : ∀ r, a.rendezvous = some r → ∀ task ∈ r.jobs.running, ∀ bytes,
    task.work.submitted? = some bytes → (submissions t).getLast? = some bytes
  accepted : ∀ g, (g, .submitted (.ok ())) ∈ noticed a.queue →
    ∃ bytes ∈ accepted t, (submissions t).getLast? = some bytes
  verifying : ∀ r, a.rendezvous = some r → r.phase = .verifying →
    ∃ text h, (Payload.invite text h).encode ∈ Agent.accepted t

/-- A step hands over one turn at most, and none when it ends the rendezvous. -/
theorem submitted_of_stride {a a' : Agent} {s : Surroundings} {r' : Rendezvous}
    {out : List Output} (h : a.Stride s a' r' out) :
    out.filterMap Output.submitted? = [] ∨
      (r'.progress ≠ .ended ∧ ∃ bytes, out.filterMap Output.submitted? = [bytes]) := by
  obtain ⟨r, -, -, hturn, -⟩ := turn_of_stride h
  generalize a.toPlay? = play at hturn
  cases hturn with
  | none ho => exact .inl ho
  | refused ho => exact .inl ho
  | handed ho _ _ hp => exact .inr ⟨hp, _, ho⟩

/-- After a step that goes on, what runs are the jobs that it started. -/
theorem latest_of_stride {a a' : Agent} {s : Surroundings} {r' : Rendezvous} {out : List Output}
    (hst : a.Standing) (h : a.Stride s a' r' out) {task : Task} (ht : task ∈ r'.jobs.running)
    {bytes : Bytes} (hb : task.work.submitted? = some bytes) :
    out.filterMap Output.submitted? = [bytes] := by
  obtain ⟨r, hr, -, -, hstaff⟩ := turn_of_stride h
  have hset : r'.Settled a'.queue := by
    cases h with
    | first _ _ _ _ _ _ _ h => exact h
    | later _ _ _ _ _ _ h => exact h
  have hlive : r'.progress ≠ .ended := by
    intro he
    simp [(Rendezvous.Over.of_settled hset he).silent] at ht
  obtain ⟨q, hq, hrun, -⟩ := (free_of_stride hst h).resolve_left hlive
  obtain rfl := Option.some.inj (hr.symm.trans hq)
  cases hstaff with
  | left _ hr' => simp [hr', Rendezvous.leave] at hlive
  | started ts hjobs ho =>
    rw [Rendezvous.running_of_started hjobs, hrun, List.nil_append] at ht
    have hmem : bytes ∈ out.filterMap Output.submitted? :=
      ho ▸ List.mem_filterMap.2 ⟨task, ht, hb⟩
    rcases submitted_of_stride h with hnone | ⟨-, bytes', hone⟩
    · simp [hnone] at hmem
    · rw [hone, List.mem_singleton] at hmem
      rw [hone, hmem]

/-- What the queue of an agent holds after a step it held before. -/
theorem noticed_of_stride {a a' : Agent} {s : Surroundings} {r' : Rendezvous} {out : List Output}
    (h : a.Stride s a' r' out) {n : Nat × TaskEnd} (hn : n ∈ noticed a'.queue) :
    n ∈ noticed a.queue := by
  cases h with
  | first => exact hn
  | @later _ _ m queue _ _ _ _ hq =>
    rw [hq]
    cases m with
    | detach => exact hn
    | done g how => exact List.mem_cons_of_mem _ hn

/-- The turn that was played last left an invite, if something is to be reported after it. -/
theorem Run.invite_submitted {role : Role} {timing : Timing} {t : List Stage} {a : Agent}
    (h : Run (ofRole role timing) t a) {r : Rendezvous} (hr : a.rendezvous = some r)
    (hp : r.progress ≠ .ended) (hphase : r.phase = .processingTurn) (hc : r.Course)
    {p : Submission} (hpend : r.pending = some p) {signal : Signal}
    (hs : p.signal = some signal) :
    ∃ text hi, (submissions t).getLast? = some (Payload.invite text hi).encode := by
  simp only [Rendezvous.Course, hphase] at hc
  obtain ⟨q, hq, hdue⟩ := hc
  obtain rfl := Option.some.inj (hpend.symm.trans hq)
  rw [hs] at hdue
  obtain ⟨ps, old, hps, hsaid, hmem⟩ := h.handing.said
  obtain rfl : r.oldData = old := hmem _ (by simp [memory?_of_some hr, hp])
  have hrole : r.role.isHost = role.isHost := by
    rw [← Role.isHost_blank, (h.aimed.2.started r hr).2.2.2, Role.isHost_blank]
  obtain ⟨text, hi, hlast⟩ := Rendezvous.said_of_due hdue hsaid hrole
  refine ⟨text, hi, ?_⟩
  rw [hps, List.getLast?_map, hlast]
  rfl

section Run
variable {role : Role} {timing : Timing} {t : List Stage} {a : Agent}
  (h : Run (ofRole role timing) t a)
include h

/-- A step that takes the news of an accepted turn, after which something is to be reported. -/
theorem Run.invite_accepted_of_notice (hcred : Credited t a) {r : Rendezvous}
    (hr : a.rendezvous = some r) (hp : r.progress ≠ .ended) (hc : r.Course) {g : Nat}
    (hn : (g, .submitted (.ok ())) ∈ noticed a.queue) (hphase : r.phase = .processingTurn)
    {p : Submission} (hpend : r.pending = some p) {signal : Signal}
    (hs : p.signal = some signal) :
    ∃ text hi, (Payload.invite text hi).encode ∈ accepted t := by
  obtain ⟨text, hi, hlast⟩ := h.invite_submitted hr hp hphase hc hpend hs
  obtain ⟨bytes, hmem, hlast'⟩ := hcred.accepted g hn
  obtain rfl := Option.some.inj (hlast.symm.trans hlast')
  exact ⟨text, hi, hmem⟩

theorem credited_of_stride (hcred : Credited t a) {a' : Agent} {s : Surroundings}
    {r' : Rendezvous} {out : List Output} (hstride : a.Stride s a' r' out)
    (within : List OwnerCall) :
    Credited
      (t ++ [⟨a, .step s within, (a'.absorbWithin within (r', out)).2,
        (a'.absorbWithin within (r', out)).1⟩])
      (a'.absorbWithin within (r', out)).1 := by
  have hst := h.aimed.1
  obtain ⟨hrb, -, -, hqb⟩ := sameWork_absorbWithin within a' r' out
  have hsub : (a'.absorbWithin within (r', out)).2.filterMap Mark.submitted? =
      out.filterMap Output.submitted? := submitted_emitAll within _ out _
  constructor
  · intro r hr task ht bytes hb
    obtain rfl := Option.some.inj (hrb.symm.trans hr)
    rw [submissions_snoc, hsub, latest_of_stride hst hstride ht hb]
    simp
  · intro g hg
    rw [hqb] at hg
    -- a notice is left over only by a step that ends the rendezvous, and hands nothing over
    have hquiet : out.filterMap Output.submitted? = [] := by
      rcases submitted_of_stride hstride with hnone | ⟨hlive, -⟩
      · exact hnone
      · obtain ⟨-, -, -, hq⟩ := (free_of_stride hst hstride).resolve_left hlive
        simp [hq] at hg
    obtain ⟨bytes, hmem, hlast⟩ := hcred.accepted g (noticed_of_stride hstride hg)
    refine ⟨bytes, mem_accepted_snoc hmem, ?_⟩
    rw [submissions_snoc, hsub, hquiet, List.append_nil, hlast]
  · intro r hr hphase
    obtain rfl := Option.some.inj (hrb.symm.trans hr)
    have begun : ∃ text hi, (Payload.invite text hi).encode ∈ accepted t := by
      cases hstride with
      | first _ _ _ _ _ _ hpass =>
        cases Rendezvous.peerProbed_of_passage hpass with
        | none _ hne => exact absurd hphase hne
      | later hra _ hp hq hd hpass =>
        cases Rendezvous.peerProbed_of_passage hpass with
        | none _ hne => exact absurd hphase hne
        | begun hturn hpend hsignal =>
          have hn := mem_noticed_iff.2 (hq ▸ List.mem_cons_self)
          exact h.invite_accepted_of_notice hcred hra (by simp [hp]) hd.course hn hturn hpend
            hsignal
    obtain ⟨text, hi, hmem⟩ := begun
    exact ⟨text, hi, mem_accepted_snoc hmem⟩

omit h in
/-- A task ends; if it is the turn on its way, that was handed over last. -/
theorem credited_finish (hcred : Credited t a) {i : JobId} {task : Task} {how : TaskEnd}
    (ht : a.task? i = some task) (he : task.work.MayEnd how) :
    Credited (t ++ [⟨a, .finish i how, [], a.complete i how⟩]) (a.complete i how) := by
  have hacc : how = .submitted (.ok ()) → Stage.accepts? ⟨a, .finish i how, [], a.complete i how⟩ =
      task.work.submitted? := by
    rintro rfl
    simp [Stage.accepts?, ht]
  obtain ⟨r, j, hr, hj, -, rfl⟩ := exists_of_task? ht
  have hb := rendezvous_complete hr ht how
  constructor
  · intro r' hr' task' htask' bytes hbytes
    obtain rfl := Option.some.inj (hb.symm.trans hr')
    have hold : task' ∈ r.jobs.running :=
      Registry.running_modify_subset r.jobs i (by simp) (by simp) htask'
    simpa using hcred.latest r hr task' hold bytes hbytes
  · intro g hg
    have hcases : (g, .submitted (.ok ())) ∈ noticed a.queue ∨
        (j.mayDeliver = true ∧ how = .submitted (.ok ())) := by
      have hfst : (r.jobs.complete i).1 = j.mayDeliver := by
        simp [Registry.complete, hj, Job.fst_complete]
      rw [complete_eq hr ht how, hfst] at hg
      split at hg
      next hd =>
        rw [noticed_append, List.mem_append] at hg
        refine hg.imp_right fun hg => ⟨hd, ?_⟩
        exact (Prod.ext_iff.1 (List.mem_singleton.1 hg)).2.symm
      next => exact .inl hg
    rcases hcases with hold | ⟨hd, rfl⟩
    · obtain ⟨bytes, hmem, hlast⟩ := hcred.accepted g hold
      exact ⟨bytes, mem_accepted_snoc hmem, by simpa using hlast⟩
    · obtain ⟨data, hdata⟩ : ∃ data, j.work.work.submitted? = some data := by
        cases hw : j.work.work <;> simp [hw, Work.MayEnd, Work.submitted?] at he ⊢
      refine ⟨data, ?_, ?_⟩
      · simp [hacc rfl, hdata]
      · simpa using hcred.latest r hr j.work (Registry.mem_running.2 ⟨i, j, hj, hd, rfl⟩) data
          hdata
  · intro r' hr' hv
    obtain rfl := Option.some.inj (hb.symm.trans hr')
    obtain ⟨text, hi, hmem⟩ := hcred.verifying r hr hv
    exact ⟨text, hi, mem_accepted_snoc hmem⟩

/-- What is accepted was handed over last. -/
theorem credited_snoc (hcred : Credited t a) {b : Agent} {mv : Move} {marks : List Mark}
    (hm : a.Moves mv marks b) : Credited (t ++ [⟨a, mv, marks, b⟩]) b := by
  have hst := h.aimed.1
  -- a move without turns, after which no more runs and the same was noticed
  have same : ∀ {mv : Move} {b : Agent}, Stage.accepts? ⟨a, mv, [], b⟩ = none →
      (∀ r, b.rendezvous = some r → ∀ task ∈ r.jobs.running, ∀ bytes,
        task.work.submitted? = some bytes → (submissions t).getLast? = some bytes) →
      noticed b.queue = noticed a.queue →
      (∀ r, b.rendezvous = some r → r.phase = .verifying →
        ∃ r₀, a.rendezvous = some r₀ ∧ r₀.phase = .verifying) →
      Credited (t ++ [⟨a, mv, [], b⟩]) b := by
    intro mv b hacc hlatest hq hphase
    refine ⟨by simpa using hlatest, ?_, ?_⟩
    · simpa [hq, hacc] using hcred.accepted
    · intro r hr hv
      obtain ⟨r₀, hr₀, hv₀⟩ := hphase r hr hv
      simpa [hacc] using hcred.verifying r₀ hr₀ hv₀
  cases hm with
  | start hs =>
    obtain ⟨-, -, role, -, rfl⟩ := start_of_standing hst hs
    refine same rfl ?_ rfl ?_
    · intro r hr
      obtain rfl := Option.some.inj hr
      exact List.forall_mem_nil _
    · intro r hr hv
      obtain rfl := Option.some.inj hr
      cases hv
  | owner c =>
    obtain ⟨hr, -, -, hq⟩ := sameWork_call a c
    refine same rfl ?_ hq ?_
    · rw [hr]
      exact hcred.latest
    · intro r hb hv
      exact ⟨r, hr ▸ hb, hv⟩
  | step hs =>
    obtain ⟨a', r', out, hstride, hb⟩ := stride_of_stepWithin? hst hs
    obtain ⟨rfl, rfl⟩ := Prod.ext_iff.1 hb
    exact credited_of_stride h hcred hstride _
  | @goOn i _ work ht hbec =>
    obtain ⟨r, j, hr, hj, -, rfl⟩ := exists_of_task? ht
    refine same rfl ?_ rfl ?_
    · intro r' hr' task htask bytes hbytes
      obtain rfl := Option.some.inj ((rendezvous_progress hr i work).symm.trans hr')
      rcases Registry.mem_running_of_progress htask with hold | ⟨j', hj', hold, rfl⟩
      · exact hcred.latest r hr task hold bytes hbytes
      · obtain rfl := Option.some.inj (hj.symm.trans hj')
        exact hcred.latest r hr j.work hold bytes (hbec.submitted?_eq ▸ hbytes)
    · intro r' hr' hv
      obtain rfl := Option.some.inj ((rendezvous_progress hr i work).symm.trans hr')
      exact ⟨r, hr, hv⟩
  | finish ht he => exact credited_finish hcred ht he

theorem Run.credited : Credited t a := by
  induction h with
  | nil => exact ⟨by simp [ofRole], by simp [ofRole, noticed], by simp [ofRole]⟩
  | snoc hrun hm ih => exact credited_snoc hrun ih hm

/-- A success rests on an accepted invite. -/
theorem Run.invite_accepted {r : Rendezvous} (hr : a.rendezvous = some r)
    (hp : r.progress ≠ .ended) (hc : r.Course) {n : Notice} (hn : n ∈ a.queue)
    {invite : Option String} (he : r.Earned n invite) :
    ∃ text hi, (Payload.invite text hi).encode ∈ accepted t := by
  cases he with
  | accepted hphase hpend hsignal =>
    exact h.invite_accepted_of_notice h.credited hr hp hc (mem_noticed_iff.2 hn) hphase hpend
      hsignal
  | found hphase => exact h.credited.verifying r hr hphase

end Run

end Agent

end TurnRendezvous
