/-
# `Agent.agenda` — how an agent comes to its end when its owner has let go

To let go of an agent is to close its gate and to put a notice at the end of its
queue.  Behind that notice nothing counts any more; what stands before it is the
agenda, and all that the rendezvous still looks at.  Each of its steps takes a notice
off it, but for the first, which looks at the snapshot that the agent was started
on.  So the end comes soon, and it is for good; a turn that is on its way then gets
to the service all the same.

All this is about an agent that was started.  One that its owner lets go of before
has no rendezvous to tell, and can be started afterwards: its gate stays closed,
but the rendezvous never hears of it and goes on for nobody
(`driven_on_after_early_farewell`).

* `silent_of_moves`: a closed gate lets no callback through;
* `agenda_of_moves`: what a move takes off the agenda;
* `silent_and_brief_after_letting_go`: from the moment on in which the owner lets go.
-/
import TurnRendezvous.Proofs.Agent.Activity
import TurnRendezvous.Proofs.Agent.Detached
import TurnRendezvous.Proofs.Agent.Handover
import TurnRendezvous.Proofs.Agent.Verification

namespace TurnRendezvous

/-- The notices up to the first of the owner. -/
def upToDetach : List Notice → List Notice
  | [] => []
  | .detach :: _ => [.detach]
  | .done g how :: rest => .done g how :: upToDetach rest

/-- What comes behind the owner's notice is of no account. -/
theorem upToDetach_append {queue : List Notice} (h : .detach ∈ queue) (more : List Notice) :
    upToDetach (queue ++ more) = upToDetach queue := by
  induction queue with
  | nil => simp at h
  | cons n queue ih =>
    cases n with
    | detach => rfl
    | done g how =>
      have h : .detach ∈ queue := by simpa using h
      simp only [List.cons_append, upToDetach, ih h]

theorem exists_upToDetach {queue : List Notice} (h : .detach ∈ queue) :
    ∃ before rest, queue = before ++ .detach :: rest ∧ .detach ∉ before ∧
      upToDetach queue = before ++ [.detach] := by
  induction queue with
  | nil => simp at h
  | cons n queue ih =>
    cases n with
    | detach => exact ⟨[], queue, rfl, List.not_mem_nil, rfl⟩
    | done g how =>
      obtain ⟨before, rest, hq, hnot, hupto⟩ := ih (by simpa using h)
      refine ⟨.done g how :: before, rest, by rw [hq]; rfl, by simpa using hnot, ?_⟩
      rw [upToDetach, hupto]
      rfl

namespace Agent

/-! ## Closed gates -/

/-- A closed gate lets no callback through. -/
theorem silent_of_moves {a b : Agent} {mv : Move} {marks : List Mark} (h : a.Standing)
    (hg : a.gate.closed = true) (hm : a.Moves mv marks b) :
    marks.filterMap Mark.callback? = [] := by
  have hh := heard_of_moves h hm
  generalize marks.filterMap Mark.callback? = cs at hh
  cases hh with
  | nothing => rfl
  | left => rfl
  | success => exact if_pos hg
  | last => exact if_pos hg

theorem Run.silent {a b : Agent} {t : List Stage} (h : Run a t b) (hst : a.Standing)
    (hg : a.gate.closed = true) : b.gate.closed = true ∧ callbacks t = [] := by
  induction h with
  | nil => exact ⟨hg, rfl⟩
  | snoc hrun hm ih =>
    obtain ⟨hgb, hcs⟩ := ih
    have hb := hrun.standing hst
    refine ⟨closed_of_moves hb hm (.inl hgb), ?_⟩
    rw [callbacks_snoc, hcs, silent_of_moves hb hgb hm]
    rfl

/-! ## The end -/

theorem isFinished_iff {a : Agent} (h : a.Standing) : a.isFinished = true ↔ a.mode = .ended := by
  rw [isFinished, beq_iff_eq, finished_iff h]

theorem Standing.over {a : Agent} (h : a.Standing) {r : Rendezvous} (hr : a.rendezvous = some r)
    (hp : r.progress = .ended) : r.Over := by
  cases h with
  | unstarted hr' => simp [hr] at hr'
  | fresh hr' _ hp' => simp [← Option.some.inj (hr.symm.trans hr'), hp] at hp'
  | driving hr' _ hp' => simp [← Option.some.inj (hr.symm.trans hr'), hp] at hp'
  | ended hr' _ ho => exact Option.some.inj (hr.symm.trans hr') ▸ ho

/-- A finished agent whose gate is closed is over. -/
theorem isOver_of_finished {a : Agent} (h : a.Standing) (hg : a.gate.closed = true)
    (hf : a.isFinished = true) : a.IsOver := by
  obtain ⟨r, hr, hp⟩ := mode_eq_over_iff.1 ((isFinished_iff h).1 hf)
  exact ⟨hg, r, hr, h.over hr hp⟩

theorem IsOver.isFinished {a : Agent} (h : a.IsOver) : a.isFinished = true := by
  simp [Agent.isFinished, h.silenced.phase]

/-- What is over handles no notice. -/
theorem IsOver.handles?_eq {st : Stage} (h : st.before.IsOver) : st.handles? = none := by
  obtain ⟨-, r, hr, ho⟩ := h
  unfold Stage.handles?
  split
  next hr' =>
    obtain rfl := Option.some.inj (hr.symm.trans hr')
    simp [ho.progress]
  next => rfl

/-- A released agent is over, or makes a step. -/
theorem silenced_or_steps {a : Agent} (h : a.Standing) (hrel : a.Released)
    (hg : a.gate.closed = true) : a.Silenced ∨ ∀ s, (a.next? s).isSome = true := by
  obtain ⟨r, hr, hd⟩ := hrel
  cases hp : r.progress with
  | fresh m position => exact .inr fun s => by simp [next?, hr, hp]
  | underway =>
    have hd : .detach ∈ a.queue := hd.resolve_left (by simp [hp])
    exact .inr (next?_isSome hr hp (List.ne_nil_of_mem hd))
  | ended => exact .inl (silenced_of_over hr (h.over hr hp) hg)

/-! ## What is still to be looked at -/

/-- The notices that the rendezvous still takes: all up to the owner's, none once it
is over. -/
def agenda (a : Agent) : List Notice :=
  match a.rendezvous.map Rendezvous.progress with
  | none => []
  | some .ended => []
  | some _ => upToDetach a.queue

/-- How many steps the rendezvous makes at most. -/
def pace (a : Agent) : Nat :=
  match a.rendezvous.map Rendezvous.progress with
  | some (.fresh ..) => a.agenda.length + 1
  | _ => a.agenda.length

/-- Whether a move is a step of the rendezvous. -/
def Move.isStep : Move → Bool
  | .step .. => true
  | _ => false

/-- How many steps the rendezvous makes in a run. -/
def steps (t : List Stage) : Nat := t.countP (·.move.isStep)

/-- The notices that the rendezvous takes in a run, oldest first. -/
def handled (t : List Stage) : List Notice := t.filterMap Stage.handles?

@[simp] theorem steps_snoc (t : List Stage) (st : Stage) :
    steps (t ++ [st]) = steps t + if st.move.isStep then 1 else 0 := by
  simp [steps, List.countP_append, List.countP_cons]

@[simp] theorem handled_snoc (t : List Stage) (st : Stage) :
    handled (t ++ [st]) = handled t ++ st.handles?.toList := by
  cases h : st.handles? <;> simp [handled, h]

theorem agenda_onward {a b : Agent} (h : a.Released) (ho : a.Onward b) : b.agenda = a.agenda := by
  obtain ⟨r, hr, hd⟩ := h
  simp only [agenda, ho.progress]
  rw [hr, Option.map_some]
  obtain ⟨more, hq⟩ := ho.queue
  cases hp : r.progress with
  | ended => rfl
  | fresh => exact hq ▸ upToDetach_append (hd.resolve_left (by simp [hp])) more
  | underway => exact hq ▸ upToDetach_append (hd.resolve_left (by simp [hp])) more

theorem pace_onward {a b : Agent} (h : a.Released) (ho : a.Onward b) : b.pace = a.pace := by
  simp only [pace, ho.progress, agenda_onward h ho]

/-- Once the rendezvous has made a step. -/
theorem agenda_of_settled {a : Agent} {r : Rendezvous} (hr : a.rendezvous = some r)
    (h : r.Settled a.queue) : a.agenda <+: upToDetach a.queue ∧ a.pace = a.agenda.length := by
  rcases h with ho | ⟨hp, -⟩
  · simp [agenda, pace, hr, ho.progress]
  · simp [agenda, pace, hr, hp]

/-- A step takes a notice off the agenda, or is the first. -/
theorem agenda_of_stride {a a' : Agent} {s : Surroundings} {r' : Rendezvous} {out : List Output}
    {within : List OwnerCall} {marks : List Mark} {b : Agent} (h : a.Stride s a' r' out) :
    (Stage.handles? ⟨a, .step s within, marks, b⟩).toList ++
        agenda { a' with rendezvous := some r' } <+: a.agenda ∧
      1 + pace { a' with rendezvous := some r' } ≤ a.pace := by
  cases h with
  | @first r _ m position _ hr _ hp _ _ _ _ hset =>
    obtain ⟨hle, hpace⟩ := agenda_of_settled (a := { a with rendezvous := some r' }) rfl hset
    have hagenda : a.agenda = upToDetach a.queue := by simp [agenda, hr, hp]
    have hpace' : a.pace = a.agenda.length + 1 := by simp [pace, hr, hp]
    constructor
    · simpa [Stage.handles?, hr, hp, hagenda] using hle
    · rw [hpace, hpace', hagenda, Nat.add_comm]
      exact Nat.succ_le_succ hle.length_le
  | @later r _ n queue _ hr _ hp hq _ hpass hset =>
    obtain ⟨hle, hpace⟩ :=
      agenda_of_settled (a := { a with queue, rendezvous := some r' }) rfl hset
    have hagenda : a.agenda = upToDetach (n :: queue) := by simp [agenda, hr, hp, hq]
    have hpace' : a.pace = a.agenda.length := by simp [pace, hr, hp]
    have hhandles : Stage.handles? ⟨a, .step s within, marks, b⟩ = some n := by
      simp [Stage.handles?, hr, hp, hq]
    have hprefix : n :: agenda { a with queue, rendezvous := some r' } <+: a.agenda := by
      rw [hagenda]
      cases n with
      | detach =>
        have hnil : agenda { a with queue, rendezvous := some r' } = [] := by
          simp [agenda, (Rendezvous.ended_of_detach hpass).1]
        rw [hnil]
        exact List.prefix_refl _
      | done g how => exact (List.prefix_cons_inj _).2 hle
    refine ⟨by rwa [hhandles], ?_⟩
    rw [hpace, hpace', Nat.add_comm]
    exact hprefix.length_le

/-- What a move takes off the agenda of a released agent. -/
theorem agenda_of_moves {a b : Agent} {mv : Move} {marks : List Mark} (h : a.Standing)
    (ha : a.Released) (hm : a.Moves mv marks b) :
    (Stage.handles? ⟨a, mv, marks, b⟩).toList ++ b.agenda <+: a.agenda ∧
      (if mv.isStep then 1 else 0) + b.pace ≤ a.pace := by
  have onward : ∀ {b : Agent}, a.Onward b → b.agenda <+: a.agenda ∧ 0 + b.pace ≤ a.pace := by
    intro b ho
    rw [agenda_onward ha ho, pace_onward ha ho, Nat.zero_add]
    exact ⟨List.prefix_refl _, Nat.le_refl _⟩
  cases hm with
  | start hs =>
    obtain ⟨r, hr, -⟩ := ha
    simp [(start_of_standing h hs).1] at hr
  | owner c => exact onward (onward_call a c)
  | @step _ _ s within hs =>
    obtain ⟨a', r', out, hstride, hb⟩ := stride_of_stepWithin? h hs
    obtain ⟨rfl, -⟩ := Prod.ext_iff.1 hb
    have ho := onward_absorbWithin within a' r' out
    have hrel := released_of_stride hstride ha
    rw [agenda_onward hrel ho, pace_onward hrel ho]
    exact agenda_of_stride hstride
  | @goOn i t work => exact onward (onward_progress a i work)
  | @finish i t how ht => exact onward (onward_complete ht how)

/-- From the moment on in which an agent is released. -/
theorem Run.brief {a b : Agent} {t : List Stage} (h : Run a t b) (hst : a.Standing)
    (ha : a.Released) : handled t ++ b.agenda <+: a.agenda ∧ steps t + b.pace ≤ a.pace := by
  induction h with
  | nil => exact ⟨List.prefix_refl _, Nat.le_of_eq (Nat.zero_add _)⟩
  | @snoc t b c mv marks hrun hm ih =>
    obtain ⟨-, hrel, -⟩ := hrun.released hst ha
    obtain ⟨hagenda, hpace⟩ := agenda_of_moves (hrun.standing hst) hrel hm
    rw [handled_snoc, steps_snoc, List.append_assoc]
    refine ⟨((List.prefix_append_right_inj _).2 hagenda).trans ih.1, ?_⟩
    rw [Nat.add_assoc]
    exact (Nat.add_le_add_left hpace _).trans ih.2

/-- What the agenda holds, and how far it reaches. -/
theorem agenda_of_released {a : Agent} (ha : a.Released) :
    (a.mode = .ended ∧ a.pace = 0) ∨
      ∃ before rest, a.queue = before ++ .detach :: rest ∧ .detach ∉ before ∧
        a.agenda = before ++ [.detach] ∧ a.pace ≤ before.length + 2 := by
  obtain ⟨r, hr, hd⟩ := ha
  rcases hd with hp | hd
  · exact .inl ⟨mode_eq_over_iff.2 ⟨r, hr, hp⟩, by simp [pace, agenda, hr, hp]⟩
  obtain ⟨before, rest, hq, hnot, hupto⟩ := exists_upToDetach hd
  cases hp : r.progress with
  | ended => exact .inl ⟨mode_eq_over_iff.2 ⟨r, hr, hp⟩, by simp [pace, agenda, hr, hp]⟩
  | fresh => exact .inr ⟨before, rest, hq, hnot, by simp [pace, agenda, hr, hp, hupto]⟩
  | underway => exact .inr ⟨before, rest, hq, hnot, by simp [pace, agenda, hr, hp, hupto]⟩

/-! ## Letting go -/

/-- Whenever the owner lets go of an agent, be it in a callback, it hears nothing
any more, not even in the step in whose callback it does.  Every turn of the agent
gets to the service, each once; at most the last is still on its way there, and no
job that hands one over is cut short.  If the agent was started, its rendezvous takes
at most the notices that were in the queue before the owner's, and the owner's, and
makes a step whenever it is asked until it is finished; then none of its tasks can
send a notice, and whatever happens later it does nothing any more. -/
theorem silent_and_brief_after_letting_go {role : Role} {timing : Timing}
    {t t₁ t₂ : List Stage} {st : Stage} {b : Agent} (h : Run (ofRole role timing) t b)
    (ht : t = t₁ ++ st :: t₂) (hl : st.letsGo = true) :
    callbacks t₂ = [] ∧ (∀ pre c post, st.marks = pre ++ .called c :: post → post = []) ∧
      (turns t = carried t ∨ ∃ data next, turns t = carried t ++ [(data, next)] ∧
        ∃ i task, b.task? i = some task ∧ task.work = .submit data next false) ∧
      (∀ r, b.rendezvous = some r → ∀ j ∈ r.jobs.jobs, j.work.work.activity = .submission →
        j.isWorking = true ∨ j.isFinished = true) ∧
      (st.before.rendezvous ≠ none →
        ((st.after.isFinished = true ∧ steps t₂ = 0) ∨
          ∃ before rest, st.after.queue = before ++ .detach :: rest ∧ .detach ∉ before ∧
            handled t₂ <+: before ++ [.detach] ∧ steps t₂ ≤ before.length + 2) ∧
        (b.Silenced ∨ ∀ s, (b.next? s).isSome = true) ∧
        ∀ st' ∈ t₂, st'.before.isFinished = true →
          st'.before.Silenced ∧ st'.marks = [] ∧ st'.handles? = none ∧
            st'.after.isFinished = true) := by
  obtain ⟨hbefore, hm, hafter⟩ := (ht ▸ h).split
  have hst := hbefore.aimed.1
  have hst' := standing_of_moves hst hm
  have hgate : st.after.gate.closed = true := closed_of_moves hst hm (.inr hl)
  obtain ⟨hgateb, hsilent⟩ := hafter.silent hst' hgate
  refine ⟨hsilent, fun _ _ _ => callback_last_of_moves hst hm, h.turns_carried, ?_, ?_⟩
  · intro r hr j hj hact
    exact ((h.ferried.unhurt r hr).whole j hj hact).imp_right fun h => by
      simp [Job.isFinished, h.1]
  intro hr
  have hrel := released_of_letsGo hst hbefore.tethered hr hm hl
  obtain ⟨-, hrelb, -⟩ := hafter.released hst' hrel
  obtain ⟨hagenda, hpace⟩ := hafter.brief hst' hrel
  refine ⟨?_, silenced_or_steps (hafter.standing hst') hrelb hgateb, ?_⟩
  · rcases agenda_of_released hrel with ⟨hend, hnil⟩ | ⟨before, rest, hq, hnot, hup, hle⟩
    · exact .inl ⟨(isFinished_iff hst').2 hend, by omega⟩
    · refine .inr ⟨before, rest, hq, hnot, ?_, by omega⟩
      exact hup ▸ (List.prefix_append _ _).trans hagenda
  · intro st' hmem hf
    obtain ⟨pre, post, hsplit⟩ := List.append_of_mem hmem
    obtain ⟨hpre, hm', -⟩ := (hsplit ▸ hafter).split
    have hs := hpre.standing hst'
    have hover := isOver_of_finished hs (hpre.silent hst' hgate).1 hf
    obtain ⟨hover', hmarks, -⟩ := over_of_moves hs hover hm'
    exact ⟨hover.silenced, hmarks, hover.handles?_eq, hover'.isFinished⟩

/-- A client whose owner lets go of it while its turn is on its way: the turn gets
to the service and is answered, and the answer reaches nobody. -/
theorem silent_and_brief_after_letting_go_of_a_client :
    ∃ t t₁ st t₂ b, Run (ofRole (.client none) {}) t b ∧ t = t₁ ++ st :: t₂ ∧
      st.letsGo = true ∧ st.before.rendezvous ≠ none ∧ callbacks t₂ = [] ∧
      turns t = [(Payload.uninitialized.encode, some ⟨"bob"⟩)] ∧ carried t₁ = [] ∧
      carried t₂ = turns t ∧ handled t₂ = [.detach] ∧ steps t₂ = 1 ∧
      (b.Silenced ∨ ∀ s, (b.next? s).isSome = true) ∧ b.isFinished = true := by
  let m : Match :=
    { id := ⟨"m"⟩, status := .active, turn := .mine, participants := [⟨"ann"⟩, ⟨"bob"⟩]
      creator := ⟨"bob"⟩, viewer := ⟨"ann"⟩, data := none, version := 0 }
  let s : Surroundings := { now := 0, position := 0 }
  have started := Run.nil.snoc (.start (a := ofRole (.client none) {}) (s := true)
    (m := m) (n := 0) rfl)
  have played := started.snoc (.step (s := s) (w := []) rfl)
  have detached := played.snoc (.owner .detach)
  have left := detached.snoc (.step (s := s) (w := []) rfl)
  have issued := left.snoc (.goOn (i := 0) rfl rfl)
  have run := issued.snoc (.finish (i := 0) (e := .submitted (.ok ())) rfl rfl)
  obtain ⟨hsilent, -, -, -, hstarted⟩ :=
    silent_and_brief_after_letting_go run
      (List.append_assoc [_, _] [_] [_, _, _]) rfl
  obtain ⟨-, hend, -⟩ := hstarted nofun
  exact ⟨_, _, _, _, _, run, List.append_assoc [_, _] [_] [_, _, _], rfl, nofun, hsilent,
    rfl, rfl, rfl, rfl, rfl, hend, rfl⟩

/-- An agent that its owner lets go of before it is started is driven on all the same:
no notice of the owner is on its way, a turn update is still handled and the turn
handed over, and then the rendezvous waits for the next. -/
theorem driven_on_after_early_farewell :
    ∃ t t₁ st t₂ b m, Run (ofRole (.client none) {}) t b ∧ t = t₁ ++ st :: t₂ ∧
      st.move = .owner .detach ∧ .detach ∉ st.after.queue ∧
      handled t₂ = [.done 1 (.turn (.myTurn m)), .done 2 (.submitted (.ok ()))] ∧
      turns t₂ = [(Payload.uninitialized.encode, some ⟨"bob"⟩)] ∧
      b.isFinished = false ∧ b.phase = .waitingForTurn ∧ b.queue = [] := by
  let theirs : Match :=
    { id := ⟨"m"⟩, status := .active, turn := .theirs, participants := [⟨"ann"⟩, ⟨"bob"⟩]
      creator := ⟨"bob"⟩, viewer := ⟨"ann"⟩, data := none, version := 0 }
  let mine : Match := { theirs with turn := .mine }
  let news : Feed MatchNews := { capacity := 64, sent := [.received mine] }
  let s : Surroundings := { now := 0, position := 0 }
  have detached := (Run.nil (a := ofRole (.client none) {})).snoc (.owner .detach)
  have started := detached.snoc (.start (s := true) (m := theirs) (n := 0) rfl)
  have waiting := started.snoc (.step (s := s) (w := []) rfl)
  have told := waiting.snoc
    (.finish (i := 0) (e := .turn (.myTurn mine)) rfl ⟨news, 0, rfl⟩)
  have played := told.snoc (.step (s := s) (w := []) rfl)
  have issued := played.snoc (.goOn (i := 1) rfl rfl)
  have accepted := issued.snoc (.finish (i := 1) (e := .submitted (.ok ())) rfl rfl)
  have run := accepted.snoc (.step (s := s) (w := []) rfl)
  exact ⟨_, [], _, _, _, mine, run, rfl, rfl, nofun, rfl, rfl, rfl, rfl, rfl⟩

end Agent

end TurnRendezvous
