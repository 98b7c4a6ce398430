/-
# `Agent.Released` — what an agent still does when its owner has let go

To detach an agent is to close its gate and to put a notice at the end of its
queue.  So the owner hears nothing any more, but the rendezvous first takes
what was on its way before, and over it may call the service once more: it plays
the turn that it was started on or that came while nobody looked, or dismisses
the match for a success.  That is more than an owner would expect who wants to
be rid of the match (`turn_played_after_detach`); what can be said is how much.

* `arrears`: how many requests may still come before the owner's notice is taken;
* `arrears_of_stride`: a step pays for each of its requests;
* `at_most_one_request_after_letting_go`: one request at most, none if nothing
  was on its way, and none in the step in whose callback the owner lets go.
-/
import TurnRendezvous.Proofs.Agent.Callbacks
import TurnRendezvous.Proofs.Agent.Submissions

namespace TurnRendezvous

/-- Whether an output calls the service to change the match. -/
def Output.isRequest : Output → Bool
  | .submitted .. => true
  | .dismissed => true
  | _ => false

namespace Rendezvous

/-- A step makes one request at most. -/
theorem requests_le_one_of_played {r r' : Rendezvous} {m : Match} {position : Nat}
    {out : List Output} (h : r.Played m position r' out) : out.countP Output.isRequest ≤ 1 := by
  cases h with
  | refused => exact Nat.zero_le 1
  | handed => exact Nat.le_refl 1

theorem requests_le_one {s : Surroundings} {r r' : Rendezvous} {cause : Cause} {out : List Output}
    (h : r.Passage s cause r' out) : out.countP Output.isRequest ≤ 1 := by
  cases h with
  | firstTurn _ hp => exact requests_le_one_of_played hp
  | laterTurn _ hp =>
    have hone := requests_le_one_of_played hp
    simpa [Output.isRequest] using hone
  | succeeded => exact Nat.le_refl 1
  | reachable =>
    split
    · exact Nat.le_refl 1
    · exact Nat.zero_le 1
  | _ => exact Nat.zero_le 1

/-- Only on a turn does the first step make one. -/
theorem requests_of_look {s : Surroundings} {r r' : Rendezvous} {m : Match} {position : Nat}
    {out : List Output} (h : r.Passage s (.look m position) r' out) :
    out.countP Output.isRequest ≤ if m.isMyTurn then 1 else 0 := by
  have hone := requests_le_one h
  cases h with
  | tooLate => exact Nat.zero_le _
  | firstTurn hm => rwa [if_pos hm]
  | firstWait => exact Nat.zero_le _

/-- The notice of the owner ends everything. -/
theorem ended_of_detach {s : Surroundings} {r r' : Rendezvous} {out : List Output}
    (h : r.Passage s (.notice .detach) r' out) : r'.progress = .ended ∧ out = [] := by
  cases h with
  | detached => exact ⟨rfl, rfl⟩

/-- Once a rendezvous has taken the end of a task it is over, or no other end is on
its way. -/
theorem ended_or_noticed_nil {s : Surroundings} {r r' : Rendezvous} {g : Nat} {how : TaskEnd}
    {queue : List Notice} {out : List Output} (hd : r.OnDuty (.done g how :: queue))
    (h : r.Passage s (.notice (.done g how)) r' out) :
    r'.progress = .ended ∨ noticed queue = [] := by
  by_cases hv : r.phase = .verifying
  · -- a probe and its timer may both have ended, but each of them ends the rendezvous
    left
    cases h with
    | laterTurn hp => simp [hv] at hp
    | passedOn hp => simp [hv] at hp
    | stayed hp => simp [hv] at hp
    | verifies hp => simp [hv] at hp
    | _ => rfl
  · exact .inr ((onDuty_notice hd).2.2 hv).2

end Rendezvous

namespace Agent

/-- Whether a mark is that of a request. -/
def Mark.isRequest : Mark → Bool
  | .submitted .. => true
  | .dismissed => true
  | _ => false

/-- What a run asks of the service, oldest first. -/
def requests (t : List Stage) : List Mark := t.flatMap (·.marks.filter Mark.isRequest)

@[simp] theorem requests_snoc (t : List Stage) (st : Stage) :
    requests (t ++ [st]) = requests t ++ st.marks.filter Mark.isRequest := by
  simp [requests]

theorem requests_emitAll (within : List OwnerCall) (id : MatchId) (out : List Output) :
    ∀ a : Agent, ((a.emitAll within id out).2.filter Mark.isRequest).length =
      out.countP Output.isRequest := by
  induction out with
  | nil => exact fun _ => rfl
  | cons o out ih =>
    intro a
    have ho : ((a.emit within id o).2.filter Mark.isRequest).length =
        [o].countP Output.isRequest := by
      cases o with
      | reported => cases hc : a.gate.closed <;> simp [emit, output, hc, Mark.ofEffect,
          Mark.isRequest, Output.isRequest]
      | concluded => cases hc : a.gate.closed <;> simp [emit, output, hc, Mark.ofEffect,
          Mark.isRequest, Output.isRequest]
      | _ => rfl
    rw [emitAll, List.filter_append, List.length_append, ho, ih, ← List.countP_append]
    rfl

/-! ## Letting go -/

/-- Whatever happens to an agent apart from the steps of its rendezvous: its queue
grows, and once the owner has let go there is a notice of it. -/
structure Onward (a b : Agent) : Prop where
  progress : b.rendezvous.map (·.progress) = a.rendezvous.map (·.progress)
  queue : a.queue <+: b.queue
  attached : b.attached = a.attached ∨ (b.attached = false ∧ .detach ∈ b.queue)

theorem Onward.refl (a : Agent) : a.Onward a := ⟨rfl, List.prefix_refl _, .inl rfl⟩

theorem Onward.trans {a b c : Agent} (h : a.Onward b) (h' : b.Onward c) : a.Onward c := by
  refine ⟨h'.progress.trans h.progress, h.queue.trans h'.queue, ?_⟩
  rcases h'.attached with hc | hc
  · rcases h.attached with hb | ⟨hb, hd⟩
    · exact .inl (hc.trans hb)
    · exact .inr ⟨hc.trans hb, h'.queue.subset hd⟩
  · exact .inr hc

theorem onward_detach (a : Agent) : a.Onward a.detach := by
  cases ha : a.attached with
  | true => exact ⟨rfl, by simp [detach, ha], .inr (by simp [detach, ha])⟩
  | false => exact ⟨rfl, by simp [detach, ha], .inl (by simp [detach, ha])⟩

theorem onward_call (a : Agent) (c : OwnerCall) : a.Onward (a.call c) := by
  cases c with
  | detach => exact onward_detach a
  | giveUp => exact (onward_detach a).trans ⟨rfl, List.prefix_refl _, .inl rfl⟩

theorem onward_calls (cs : List OwnerCall) : ∀ a : Agent, a.Onward (cs.foldl call a) := by
  induction cs with
  | nil => exact Onward.refl
  | cons c cs ih => exact fun a => (onward_call a c).trans (ih _)

theorem onward_emit (within : List OwnerCall) (id : MatchId) (a : Agent) (o : Output) :
    a.Onward (a.emit within id o).1 := by
  simp only [emit]
  split
  · exact Onward.trans (b := { a with gate := (output id a.gate o).2 })
      ⟨rfl, List.prefix_refl _, .inl rfl⟩ (onward_calls within _)
  · exact ⟨rfl, List.prefix_refl _, .inl rfl⟩

theorem onward_emitAll (within : List OwnerCall) (id : MatchId) (out : List Output) :
    ∀ a : Agent, a.Onward (a.emitAll within id out).1 := by
  induction out with
  | nil => exact Onward.refl
  | cons o out ih => exact fun a => (onward_emit within id a o).trans (ih _)

theorem onward_absorbWithin (within : List OwnerCall) (a : Agent) (r : Rendezvous)
    (out : List Output) :
    Onward { a with rendezvous := some r } (a.absorbWithin within (r, out)).1 :=
  (onward_emitAll within r.matchId out _).trans ⟨rfl, List.prefix_refl _, .inl rfl⟩

theorem onward_progress (a : Agent) (i : JobId) (work : Work) : a.Onward (a.progress i work) := by
  refine ⟨?_, List.prefix_refl _, .inl rfl⟩
  cases hr : a.rendezvous <;> simp [Agent.progress, hr]

theorem onward_complete {a : Agent} {i : JobId} {t : Task} (ht : a.task? i = some t)
    (how : TaskEnd) : a.Onward (a.complete i how) := by
  obtain ⟨r, -, hr, -⟩ := exists_of_task? ht
  rw [complete_eq hr ht how]
  refine ⟨by rw [hr]; rfl, ?_, .inl rfl⟩
  split
  · exact List.prefix_append _ _
  · exact List.prefix_refl _

/-- An owner that makes any call in a callback has let go. -/
theorem attached_calls {cs : List OwnerCall} (hcs : cs ≠ []) (a : Agent) :
    (cs.foldl call a).attached = false := by
  cases cs with
  | nil => exact absurd rfl hcs
  | cons c cs =>
    have hc : (a.call c).attached = false := by cases c <;> rfl
    rcases (onward_calls cs (a.call c)).attached with h | ⟨h, -⟩
    · exact h.trans hc
    · exact h

theorem attached_emitAll {within : List OwnerCall} (hw : within ≠ []) {id : MatchId}
    {out : List Output} :
    ∀ {a : Agent}, (a.emitAll within id out).2.any (·.callback?.isSome) = true →
      (a.emitAll within id out).1.attached = false := by
  induction out with
  | nil => intro a h; simp [emitAll] at h
  | cons o out ih =>
    intro a h
    simp only [emitAll, List.any_append, Bool.or_eq_true] at h ⊢
    rcases h with h | h
    · have he : (a.emit within id o).1.attached = false := by
        cases o with
        | reported => cases hc : a.gate.closed <;>
            simp_all [emit, output, Mark.ofEffect, Mark.callback?, Effect.isCallback, attached_calls]
        | concluded => cases hc : a.gate.closed <;>
            simp_all [emit, output, Mark.ofEffect, Mark.callback?, Effect.isCallback, attached_calls]
        | _ => simp [emit, output, Mark.ofEffect, Mark.callback?] at h
      rcases (onward_emitAll within id out (a.emit within id o).1).attached with h' | ⟨h', -⟩
      · exact h'.trans he
      · exact h'
    · exact ih h

/-- An agent that was started and then let go of, and is over or will hear of it. -/
def Released (a : Agent) : Prop :=
  ∃ r, a.rendezvous = some r ∧ (r.progress = .ended ∨ .detach ∈ a.queue)

/-- An agent that was started is attached or released. -/
def Tethered (a : Agent) : Prop := a.rendezvous ≠ none → a.attached = true ∨ a.Released

theorem Released.onward {a b : Agent} (h : a.Released) (ho : a.Onward b) : b.Released := by
  obtain ⟨r, hr, h⟩ := h
  have hp := ho.progress
  rw [hr, Option.map_some, Option.map_eq_some_iff] at hp
  obtain ⟨q, hq, hp⟩ := hp
  exact ⟨q, hq, h.imp (fun h => hp.trans h) fun h => ho.queue.subset h⟩

theorem Tethered.onward {a b : Agent} (h : a.Tethered) (ho : a.Onward b) : b.Tethered := by
  intro hb
  obtain ⟨q, hq⟩ := Option.ne_none_iff_exists'.1 hb
  have ha : a.rendezvous ≠ none := by
    intro ha
    have hp := ho.progress
    simp [ha, hq] at hp
  rcases h ha with h | h
  · rcases ho.attached with hb | ⟨-, hd⟩
    · exact .inl (hb.trans h)
    · exact .inr ⟨q, hq, .inr hd⟩
  · exact .inr (h.onward ho)

/-! ## What is still to come -/

/-- How many requests may come of what was on its way before the owner's notice. -/
def arrears (a : Agent) : Nat :=
  match a.rendezvous with
  | none => 0
  | some r =>
    match r.progress, a.queue.head? with
    | .fresh m _, _ => if m.isMyTurn then 1 else 0
    | .underway, some (.done ..) => 1
    | _, _ => 0

theorem arrears_le_one (a : Agent) : a.arrears ≤ 1 := by
  unfold arrears
  split
  · exact Nat.zero_le 1
  · split
    · split
      · exact Nat.le_refl 1
      · exact Nat.zero_le 1
    · exact Nat.le_refl 1
    · exact Nat.zero_le 1

theorem arrears_of_ended {a : Agent} {r : Rendezvous} (hr : a.rendezvous = some r)
    (hp : r.progress = .ended) : a.arrears = 0 := by
  simp [arrears, hr, hp]

/-- A rendezvous under way to which no task's end is on its way. -/
theorem arrears_of_unnoticed {a : Agent} {r : Rendezvous} (hr : a.rendezvous = some r)
    (hp : r.progress = .underway) (hq : TurnRendezvous.noticed a.queue = []) : a.arrears = 0 := by
  cases h : a.queue with
  | nil => simp [arrears, hr, hp, h]
  | cons n queue =>
    cases n with
    | done => simp [h, TurnRendezvous.noticed] at hq
    | detach => simp [arrears, hr, hp, h]

/-- Behind the owner's notice nothing counts any more. -/
theorem arrears_onward {a b : Agent} (h : a.Released) (ho : a.Onward b) : b.arrears = a.arrears := by
  obtain ⟨r, hr, h⟩ := h
  have hp := ho.progress
  rw [hr, Option.map_some, Option.map_eq_some_iff] at hp
  obtain ⟨q, hq, hp⟩ := hp
  rcases h with h | h
  · rw [arrears_of_ended hr h, arrears_of_ended hq (hp.trans h)]
  · have hhead : b.queue.head? = a.queue.head? := by
      obtain ⟨rest, hrest⟩ := ho.queue
      cases hqueue : a.queue with
      | nil => simp [hqueue] at h
      | cons n queue => simp [← hrest, hqueue]
    simp only [arrears, hr, hq, hp, hhead]

/-- A step pays for its requests. -/
theorem arrears_of_stride {a a' : Agent} {s : Surroundings} {r' : Rendezvous} {out : List Output}
    (hst : a.Standing) (h : a.Stride s a' r' out) :
    out.countP Output.isRequest + arrears { a' with rendezvous := some r' } ≤ a.arrears := by
  cases h with
  | @first r _ m position _ hr _ hp _ _ _ hpass hset =>
    have hrest : arrears { a with rendezvous := some r' } = 0 := by
      rcases hset with hover | ⟨hu, -⟩
      · exact arrears_of_ended rfl hover.progress
      · exact arrears_of_unnoticed rfl hu (hst.noticed_eq_nil hr hp)
    have ha : a.arrears = if m.isMyTurn then 1 else 0 := by simp [arrears, hr, hp]
    rw [hrest, ha]
    exact Rendezvous.requests_of_look hpass
  | @later r _ n queue _ hr _ hp hq hd hpass hset =>
    cases n with
    | detach =>
      obtain ⟨hend, rfl⟩ := Rendezvous.ended_of_detach hpass
      rw [arrears_of_ended rfl hend]
      exact Nat.zero_le _
    | done g how =>
      have hrest : arrears { a with queue, rendezvous := some r' } = 0 := by
        rcases hset with hover | ⟨hu, -⟩
        · exact arrears_of_ended rfl hover.progress
        · rcases Rendezvous.ended_or_noticed_nil hd hpass with hend | hnil
          · exact arrears_of_ended rfl hend
          · exact arrears_of_unnoticed rfl hu hnil
      have ha : a.arrears = 1 := by simp [arrears, hr, hp, hq]
      rw [hrest, ha]
      exact Rendezvous.requests_le_one hpass

theorem released_of_stride {a a' : Agent} {s : Surroundings} {r' : Rendezvous} {out : List Output}
    (h : a.Stride s a' r' out) (ha : a.Released) :
    Released { a' with rendezvous := some r' } := by
  obtain ⟨q, hq, hrel⟩ := ha
  cases h with
  | first hr _ hp =>
    obtain rfl := Option.some.inj (hr.symm.trans hq)
    exact ⟨r', rfl, .inr (hrel.resolve_left (by simp [hp]))⟩
  | @later r _ n queue _ hr _ hp hqueue _ hpass =>
    obtain rfl := Option.some.inj (hr.symm.trans hq)
    have hmem := hrel.resolve_left (by simp [hp])
    rw [hqueue] at hmem
    rcases List.mem_cons.1 hmem with rfl | hmem
    · exact ⟨r', rfl, .inl (Rendezvous.ended_of_detach hpass).1⟩
    · exact ⟨r', rfl, .inr hmem⟩

theorem tethered_of_stride {a a' : Agent} {s : Surroundings} {r' : Rendezvous} {out : List Output}
    (h : a.Stride s a' r' out) (ha : a.Tethered) :
    Tethered { a' with rendezvous := some r' } := by
  intro _
  have hrel : a.Released → Released { a' with rendezvous := some r' } := released_of_stride h
  have hatt : a'.attached = a.attached ∧ a.rendezvous ≠ none := by
    cases h with
    | first hr => exact ⟨rfl, by simp [hr]⟩
    | later hr => exact ⟨rfl, by simp [hr]⟩
  exact (ha hatt.2).imp (fun h => hatt.1.trans h) hrel

theorem tethered_of_moves {a b : Agent} {mv : Move} {marks : List Mark} (h : a.Standing)
    (ha : a.Tethered) (hm : a.Moves mv marks b) : b.Tethered := by
  cases hm with
  | start hs =>
    obtain ⟨-, -, role, -, rfl⟩ := start_of_standing h hs
    exact fun _ => .inl rfl
  | owner c => exact ha.onward (onward_call a c)
  | step hs =>
    obtain ⟨a', r', out, hstride, hb⟩ := stride_of_stepWithin? h hs
    obtain ⟨rfl, -⟩ := Prod.ext_iff.1 hb
    exact (tethered_of_stride hstride ha).onward (onward_absorbWithin _ a' r' out)
  | @goOn i t work => exact ha.onward (onward_progress a i work)
  | @finish i t how ht => exact ha.onward (onward_complete ht how)

/-- A released agent stays so, and pays for its requests. -/
theorem arrears_of_moves {a b : Agent} {mv : Move} {marks : List Mark} (h : a.Standing)
    (ha : a.Released) (hm : a.Moves mv marks b) :
    b.Released ∧ (marks.filter Mark.isRequest).length + b.arrears ≤ a.arrears := by
  have onward : ∀ {b : Agent}, a.Onward b →
      b.Released ∧ (([] : List Mark).filter Mark.isRequest).length + b.arrears ≤ a.arrears := by
    intro b ho
    refine ⟨ha.onward ho, ?_⟩
    rw [arrears_onward ha ho]
    exact Nat.le_of_eq (Nat.zero_add _)
  cases hm with
  | start hs =>
    obtain ⟨hr, -⟩ := start_of_standing h hs
    obtain ⟨r, hr', -⟩ := ha
    simp [hr] at hr'
  | owner c => exact onward (onward_call a c)
  | @step _ _ s within hs =>
    obtain ⟨a', r', out, hstride, hb⟩ := stride_of_stepWithin? h hs
    obtain ⟨rfl, rfl⟩ := Prod.ext_iff.1 hb
    have ho := onward_absorbWithin within a' r' out
    have hrel := released_of_stride hstride ha
    have hmarks : ((a'.absorbWithin within (r', out)).2.filter Mark.isRequest).length =
        out.countP Output.isRequest := requests_emitAll within _ out _
    refine ⟨hrel.onward ho, ?_⟩
    rw [hmarks, arrears_onward hrel ho]
    exact arrears_of_stride h hstride
  | @goOn i t work => exact onward (onward_progress a i work)
  | @finish i t how ht => exact onward (onward_complete ht how)

/-- Letting go of an agent that was started releases it. -/
theorem released_of_letsGo {a b : Agent} {mv : Move} {marks : List Mark} (h : a.Standing)
    (ha : a.Tethered) (hr : a.rendezvous ≠ none) (hm : a.Moves mv marks b)
    (hl : Stage.letsGo ⟨a, mv, marks, b⟩ = true) : b.Released := by
  have hb := tethered_of_moves h ha hm
  have loose : b.attached = false ∧ b.rendezvous ≠ none := by
    cases hm with
    | owner c => exact ⟨by cases c <;> rfl, (sameWork_call a c).rendezvous ▸ hr⟩
    | @step _ _ s within hs =>
      obtain ⟨a', r', out, hstride, hb⟩ := stride_of_stepWithin? h hs
      obtain ⟨rfl, rfl⟩ := Prod.ext_iff.1 hb
      simp only [Stage.letsGo, Bool.and_eq_true, Bool.not_eq_true', List.isEmpty_eq_false_iff] at hl
      refine ⟨attached_emitAll hl.1 hl.2, ?_⟩
      simp [(sameWork_absorbWithin within a' r' out).rendezvous]
    | _ => cases hl
  exact (hb loose.2).resolve_left (by simp [loose.1])

/-! ## Runs -/

/-- In a step nothing comes after a callback. -/
theorem callback_last {p q pre post : List Mark} {c : Callback}
    (hp : p.filterMap Mark.callback? = []) (hq : q.length ≤ 1)
    (h : p ++ q = pre ++ .called c :: post) : post = [] := by
  rcases List.append_eq_append_iff.1 h with ⟨l, -, hl⟩ | ⟨l, hl, hl'⟩
  · rw [hl] at hq
    simp only [List.length_append, List.length_cons] at hq
    exact List.eq_nil_of_length_eq_zero (by omega)
  · cases l with
    | nil =>
      rw [← (show Mark.called c :: post = q from hl')] at hq
      exact List.eq_nil_of_length_eq_zero (by simpa using hq)
    | cons m l =>
      obtain ⟨rfl, -⟩ := List.cons.inj hl'
      have hm := List.filterMap_eq_nil_iff.1 hp (.called c) (by simp [hl])
      cases hm

theorem length_emit (within : List OwnerCall) (id : MatchId) (a : Agent) (o : Output) :
    (a.emit within id o).2.length ≤ 1 := by
  cases o with
  | reported => cases hc : a.gate.closed <;> simp [emit, output, hc]
  | concluded => cases hc : a.gate.closed <;> simp [emit, output, hc]
  | _ => simp [emit, output]

theorem callback_last_of_moves {a b : Agent} {mv : Move} {marks : List Mark} (h : a.Standing)
    (hm : a.Moves mv marks b) {pre post : List Mark} {c : Callback}
    (hmarks : marks = pre ++ .called c :: post) : post = [] := by
  cases hm with
  | @step _ _ s within hs =>
    obtain ⟨a', r', out, hstride, hb⟩ := stride_of_stepWithin? h hs
    obtain ⟨-, rfl⟩ := Prod.ext_iff.1 hb
    obtain ⟨r, cause, -, hv, -⟩ := voice_of_stride hstride
    simp only [absorbWithin] at hmarks
    cases hv with
    | quiet hq => exact callback_last (q := []) (emitAll_quiet hq).2 (Nat.zero_le 1) (by simpa)
    | left => simp [emitAll] at hmarks
    | stays =>
      simp only [emitAll, List.append_nil] at hmarks
      refine callback_last (p := []) rfl ?_ ((List.nil_append _).trans hmarks)
      exact length_emit _ _ _ _
    | ends out hq =>
      simp only [emitAll_append, emitAll, List.append_nil] at hmarks
      exact callback_last (emitAll_quiet hq).2 (length_emit _ _ _ _) hmarks
  | _ => simp at hmarks

theorem Run.tethered {role : Role} {timing : Timing} {t : List Stage} {b : Agent}
    (h : Run (ofRole role timing) t b) : b.Tethered := by
  induction h with
  | nil => exact fun h => absurd rfl h
  | snoc hrun hm ih => exact tethered_of_moves hrun.aimed.1 ih hm

/-- From the moment on in which an agent is released. -/
theorem Run.released {a b : Agent} {t : List Stage} (h : Run a t b) (hst : a.Standing)
    (ha : a.Released) :
    b.Standing ∧ b.Released ∧ (requests t).length + b.arrears ≤ a.arrears := by
  induction h with
  | nil => exact ⟨hst, ha, Nat.le_of_eq (Nat.zero_add _)⟩
  | @snoc t b c mv marks _ hm ih =>
    obtain ⟨hb, hrel, hle⟩ := ih
    obtain ⟨hrel', hle'⟩ := arrears_of_moves hb hrel hm
    refine ⟨standing_of_moves hb hm, hrel', ?_⟩
    rw [requests_snoc, List.length_append]
    show (requests t).length + (marks.filter Mark.isRequest).length + c.arrears ≤ a.arrears
    omega

/-- Once the owner has let go of an agent that was started, be it in a callback, the
agent asks at most one thing more of the service: what comes of the snapshot that
it was started on and has not looked at, or of a notice that was in the queue
already.  If there is none it asks nothing, and in the step in whose callback
the owner lets go nothing comes after that callback. -/
theorem at_most_one_request_after_letting_go {role : Role} {timing : Timing}
    {t t₁ t₂ : List Stage} {st : Stage} {b : Agent} (h : Run (ofRole role timing) t b)
    (ht : t = t₁ ++ st :: t₂) (hl : st.letsGo = true) (hr : st.before.rendezvous ≠ none) :
    (requests t₂).length ≤ st.after.arrears ∧ st.after.arrears ≤ 1 ∧
      ∀ pre c post, st.marks = pre ++ .called c :: post → post = [] := by
  obtain ⟨hbefore, hm, hafter⟩ := (ht ▸ h).split
  have hst := hbefore.aimed.1
  obtain ⟨-, -, hle⟩ := hafter.released (standing_of_moves hst hm)
    (released_of_letsGo hst hbefore.tethered hr hm hl)
  refine ⟨(Nat.le_add_right _ _).trans hle, arrears_le_one _, ?_⟩
  intro pre c post
  exact callback_last_of_moves hst hm

/-- An auto-match client whose peer has answered when its owner lets go: it still
dismisses the match, and nothing after that. -/
theorem at_most_one_request_after_letting_go_of_a_verifier :
    ∃ t t₁ st t₂ b, Run (ofRole (.autoClient "me" none) {}) t b ∧ t = t₁ ++ st :: t₂ ∧
      st.letsGo = true ∧ st.before.rendezvous ≠ none ∧ requests t₂ = [.dismissed] ∧
      (requests t₂).length ≤ st.after.arrears ∧ st.after.arrears ≤ 1 := by
  let m : Match :=
    { id := ⟨"m"⟩, status := .active, turn := .mine, participants := [⟨"ann"⟩, ⟨"bob"⟩]
      creator := ⟨"bob"⟩, viewer := ⟨"ann"⟩, version := 1
      data := some (Payload.withInvite "x").encode }
  let s : Surroundings := { now := 0, position := 0 }
  have started := Run.nil.snoc (.start (a := ofRole (.autoClient "me" none) {}) (s := true)
    (m := m) (n := 0) rfl)
  have played := started.snoc (.step (s := s) (w := []) rfl)
  have issued := played.snoc (.goOn (i := 0) rfl rfl)
  have accepted := issued.snoc (.finish (i := 0) (e := .submitted (.ok ())) rfl rfl)
  have probing := accepted.snoc (.step (s := s) (w := []) rfl)
  have answered := probing.snoc (.finish (i := 1) (e := .probed .reachable) rfl trivial)
  have detached := answered.snoc (.owner .detach)
  have run := detached.snoc (.step (s := s) (w := []) rfl)
  obtain ⟨hle, hone, -⟩ :=
    at_most_one_request_after_letting_go run (List.append_assoc _ [_] [_]) rfl nofun
  exact ⟨_, _, _, _, _, run, List.append_assoc _ [_] [_], rfl, nofun, rfl, hle, hone⟩

/-- Letting go does not keep an agent from taking a turn: it still plays on the
snapshot that it was started on. -/
theorem turn_played_after_detach :
    ∃ t t₁ st t₂ b, Run (ofRole (.client none) {}) t b ∧ t = t₁ ++ st :: t₂ ∧
      st.move = .owner .detach ∧ st.before.rendezvous ≠ none ∧
      requests t₂ = [.submitted Payload.uninitialized.encode (some ⟨"bob"⟩)] := by
  let m : Match :=
    { id := ⟨"m"⟩, status := .active, turn := .mine, participants := [⟨"ann"⟩, ⟨"bob"⟩]
      creator := ⟨"bob"⟩, viewer := ⟨"ann"⟩, data := none, version := 0 }
  let s : Surroundings := { now := 0, position := 0 }
  have started := Run.nil.snoc (.start (a := ofRole (.client none) {}) (s := true)
    (m := m) (n := 0) rfl)
  have detached := started.snoc (.owner .detach)
  have run := detached.snoc (.step (s := s) (w := []) rfl)
  exact ⟨_, _, _, _, _, run, List.append_assoc _ [_] [_], rfl, nofun, rfl⟩

end Agent

end TurnRendezvous
