/-
# `Ensemble.Accounts` — what a set of jobs may forget

A set is used in any order and its jobs go on in between.  What it holds and what it has let
go is told by the row of moves alone, one move at a time: the set holds what was pushed since
the last cancel of all and is not known to have finished (`Accounts.recent`,
`Accounts.unfinished`), and what it has let go is hushed (`Accounts.gone`).  A job is let go in
two ways.

* A push forgets it.  Then it is known to have finished, and this comes to be known only after
  its delivery.
* It is cancelled with all others.  Then its gate is closed before the cancel goes on to the
  next one; only a delivery from inside which the cancel was called may still be under way.
-/
import TurnRendezvous.Proofs.Job.Ensemble

namespace TurnRendezvous.Ensemble

variable {α : Type}

/-! ## What has happened so far -/

section History
variable {ms : List (Move α)}

@[simp] theorem pushedIn_append (ms ms' : List (Move α)) :
    pushedIn (ms ++ ms') = pushedIn ms ++ pushedIn ms' :=
  List.filterMap_append

theorem pushedSince_snoc (ms : List (Move α)) (m : Move α) :
    pushedSince (ms ++ [m]) = m.collect (pushedSince ms) := by
  rw [pushedSince, List.foldl_append]
  rfl

end History

/-- What an ensemble has to do with the moves that have led to it. -/
structure Accounts (ms : List (Move α)) (e : Ensemble α) : Prop where
  known : ∀ i ∈ e.known, e.Finished i
  started : ∀ i ∈ pushedIn ms, i < e.scenes.length
  joining : ∀ i kept rest, e.use = .pushing i kept rest → i < e.scenes.length
  called : ∀ inside rest, e.use = .clearing inside rest → .cancelAll inside ∈ ms
  /-- The set holds nothing that was pushed before all were cancelled. -/
  recent : e.ids.Sublist (pushedSince ms)
  /-- The set has not let go what is not known to have finished. -/
  unfinished : ((pushedSince ms).filter fun i => !e.isKnown i).Sublist e.ids
  /-- What the set has let go. -/
  gone : ∀ i ∈ pushedIn ms, i ∉ e.ids → i ∉ e.due →
    e.Hushed i ∧ (e.isDelivering i = true → .cancelAll (some i) ∈ ms)

namespace Accounts

variable {ms : List (Move α)} {m : Move α} {e e' : Ensemble α}

theorem empty : Accounts [] ({} : Ensemble α) where
  known := by simp
  started := by simp [pushedIn]
  joining := nofun
  called := nofun
  recent := .slnil
  unfinished := .slnil
  gone := by simp [pushedIn]

theorem known_snoc (h : Accounts ms e) (hm : Steps e m e') : ∀ i ∈ e'.known, e'.Finished i := by
  have hold : ∀ i ∈ e.known, e'.Finished i := fun i hi => hm.finished (h.known i hi)
  cases hm with
  | announce hs hf =>
    intro i hi
    rcases List.mem_cons.1 hi with rfl | hi
    · exact ⟨_, hs, hf⟩
    · exact hold i hi
  | _ => exact hold

theorem started_snoc (h : Accounts ms e) (hm : Steps e m e') :
    ∀ i ∈ pushedIn (ms ++ [m]), i < e'.scenes.length := by
  intro i hi
  refine Nat.lt_of_lt_of_le ?_ hm.length_le
  rw [pushedIn_append] at hi
  rcases List.mem_append.1 hi with hi | hi
  · exact h.started i hi
  · cases hm with
    | pushed hu =>
      obtain rfl := List.mem_singleton.1 hi
      exact h.joining i _ _ hu
    | _ => cases hi

theorem joining_snoc (h : Accounts ms e) (hm : Steps e m e') :
    ∀ i kept rest, e'.use = .pushing i kept rest → i < e'.scenes.length := by
  intro i kept rest hu'
  refine Nat.lt_of_lt_of_le ?_ hm.length_le
  cases hm with
  | push hu hi => cases hu'; exact hi
  | forget hu | keep hu => cases hu'; exact h.joining i _ _ hu
  | spawn | job | announce => exact h.joining i kept rest hu'
  | pushed | cancelAll | cancelNext | cleared => cases hu'

theorem called_snoc (h : Accounts ms e) (hm : Steps e m e') :
    ∀ inside rest, e'.use = .clearing inside rest → .cancelAll inside ∈ ms ++ [m] := by
  intro inside rest hu'
  cases hm with
  | cancelAll hu => cases hu'; simp
  | cancelNext late hu => cases hu'; exact List.mem_append_left _ (h.called inside _ hu)
  | spawn | job | announce => exact List.mem_append_left _ (h.called inside rest hu')
  | push | forget | keep | pushed | cleared => cases hu'

theorem recent_snoc (h : Accounts ms e) (hm : Steps e m e') :
    e'.ids.Sublist (pushedSince (ms ++ [m])) := by
  have hids := h.recent
  rw [pushedSince_snoc]
  cases hm with
  | spawn | job | announce => exact hids
  | push hu => simpa [ids, hu, Move.collect] using hids
  | forget hu =>
    simp only [ids, hu] at hids
    exact ((List.sublist_cons_self _ _).append_left _).trans hids
  | keep hu => simpa [ids, hu, Move.collect] using hids
  | pushed hu =>
    simp only [ids, hu, List.append_nil] at hids
    exact hids.append_right _
  | cancelAll hu => exact .slnil
  | cancelNext late hu => exact List.nil_sublist _
  | cleared hu => exact List.nil_sublist _

theorem unfinished_snoc (h : Accounts ms e) (hm : Steps e m e') :
    ((pushedSince (ms ++ [m])).filter fun i => !e'.isKnown i).Sublist e'.ids := by
  have hall := h.unfinished
  rw [pushedSince_snoc]
  cases hm with
  | spawn | job => exact hall
  | @announce i s hs hf =>
    have hfewer : ((pushedSince ms).filter fun k => !(k == i || e.isKnown k)).Sublist
        ((pushedSince ms).filter fun k => !e.isKnown k) := by
      simp only [Bool.not_or, ← List.filter_filter]
      exact List.filter_sublist
    simp only [isKnown_cons]
    exact hfewer.trans hall
  | push hu => simpa [ids, hu, Move.collect] using hall
  | @forget i k kept rest hu hk =>
    -- of those that are not known to have finished none is forgotten
    have hkept : (e.ids.filter fun i => !e.isKnown i).Sublist (kept ++ rest) := by
      simp only [ids, hu, List.filter_append, List.filter_cons, hk]
      exact List.filter_sublist.append List.filter_sublist
    have hagain := hall.filter fun i => !e.isKnown i
    simp only [List.filter_filter, Bool.and_self] at hagain
    exact hagain.trans hkept
  | keep hu => simpa [ids, hu, Move.collect] using hall
  | @pushed i kept hu =>
    simp only [ids, hu, List.append_nil] at hall
    simp only [isKnown_use, Move.collect, List.filter_append]
    exact hall.append List.filter_sublist
  | cancelAll hu => exact .slnil
  | cancelNext late hu => simpa [ids, hu, Move.collect] using hall
  | cleared hu => simpa [ids, hu, Move.collect] using hall

theorem gone_snoc (h : Accounts ms e) (hm : Steps e m e') :
    ∀ i ∈ pushedIn (ms ++ [m]), i ∉ e'.ids → i ∉ e'.due →
      e'.Hushed i ∧ (e'.isDelivering i = true → .cancelAll (some i) ∈ ms ++ [m]) := by
  intro i hi hids hdue
  have stays : i ∈ pushedIn ms → i ∉ e.ids → i ∉ e.due →
      e'.Hushed i ∧ (e'.isDelivering i = true → .cancelAll (some i) ∈ ms ++ [m]) := by
    intro hi hids hdue
    obtain ⟨hhushed, hinside⟩ := h.gone i hi hids hdue
    obtain ⟨hhushed', -, hbefore⟩ := hm.hushed hhushed
    exact ⟨hhushed', fun hd => List.mem_append_left _ (hinside (hbefore hd))⟩
  rw [pushedIn_append, List.mem_append] at hi
  cases hm with
  | spawn | job | announce => exact stays (hi.resolve_right nofun) hids hdue
  | push hu =>
    refine stays (hi.resolve_right nofun) ?_ ?_
    · simpa [ids, hu] using hids
    · simp [due, hu]
  | @forget j k kept rest hu hk =>
    by_cases hik : i = k
    · subst hik
      have hfinished : e.Finished i := h.known i (by simpa [isKnown] using hk)
      obtain ⟨hhushed, hidle⟩ := hfinished.hushed
      exact ⟨hhushed, fun hd => absurd (hidle.symm.trans hd) Bool.false_ne_true⟩
    · refine stays (hi.resolve_right nofun) ?_ ?_
      · simpa [ids, hu, hik] using hids
      · simp [due, hu]
  | keep hu =>
    refine stays (hi.resolve_right nofun) ?_ ?_
    · simpa [ids, hu, or_assoc] using hids
    · simp [due, hu]
  | @pushed j kept hu =>
    have hnew : i ≠ j := by
      rintro rfl
      exact hids (List.mem_append_right _ (List.mem_singleton_self _))
    refine stays (hi.resolve_right fun hj => hnew (List.mem_singleton.1 hj)) ?_ ?_
    · simpa [ids, hu] using fun hkept => hids (List.mem_append_left _ hkept)
    · simp [due, hu]
  | cancelAll hu =>
    refine stays (hi.resolve_right nofun) ?_ ?_
    · simpa [ids, due, hu] using hdue
    · simp [due, hu]
  | @cancelNext inside k rest late hu hfree =>
    have hi : i ∈ pushedIn ms := hi.resolve_right nofun
    by_cases hik : k = i
    · subst hik
      obtain ⟨s, hs⟩ : ∃ s, e.scene? k = some s :=
        ⟨_, List.getElem?_eq_getElem (h.started k hi)⟩
      obtain ⟨hhushed, hbefore⟩ := hushed_cancel hs late
      refine ⟨hhushed, fun hd => ?_⟩
      obtain rfl := hfree (hbefore hd)
      exact List.mem_append_left _ (h.called (some k) _ hu)
    · refine stays hi ?_ ?_
      · simp [ids, hu]
      · simpa [due, hu, Ne.symm hik] using hdue
  | cleared hu =>
    refine stays (hi.resolve_right nofun) ?_ ?_
    · simp [ids, hu]
    · simp [due, hu]

theorem snoc (h : Accounts ms e) (hm : Steps e m e') : Accounts (ms ++ [m]) e' where
  known := h.known_snoc hm
  started := h.started_snoc hm
  joining := h.joining_snoc hm
  called := h.called_snoc hm
  recent := h.recent_snoc hm
  unfinished := h.unfinished_snoc hm
  gone := h.gone_snoc hm

/-- What is known of an ensemble after a row of moves. -/
theorem of_run? : ∀ {e : Ensemble α}, run? {} ms = some e → Accounts ms e := by
  induction ms using List.reverseRecOn with
  | nil =>
    intro e h
    obtain rfl := Option.some.inj h
    exact empty
  | append_singleton ms m ih =>
    -- the last move is the one that `snoc` accounts for
    intro e h
    rw [run?_append] at h
    obtain ⟨e₁, hrun, hstep⟩ := Option.bind_eq_some_iff.1 h
    rw [run?_singleton] at hstep
    exact (ih hrun).snoc (steps_of_step? hstep)

end Accounts

/-! ## Main statement -/

/-- A set forgets only what can no longer deliver.  A row of moves is given, in which jobs are
started, pushed and cancelled all at once, and go on, deliver, are cancelled and abandoned by
themselves in between.

When a cancel of all returns, the set is empty, and nothing that was pushed before delivers any
more, what the set had forgotten included; the delivery of a job that is still under way is
one from inside which such a cancel was called.  At any time, what was pushed and is neither
in the set nor about to be cancelled delivers no more.  And at any time the set holds, in the
order in which they were pushed, all jobs that were pushed since the last cancel of all and are
not known to have finished, and none but jobs pushed since. -/
theorem forgets_only_what_cannot_deliver {α : Type} {ms : List (Move α)} {e : Ensemble α}
    (h : run? {} ms = some e) :
    (∀ before later, ms = before ++ .cleared :: later →
      ∃ e₁, run? {} (before ++ [.cleared]) = some e₁ ∧ e₁.use = .still {} ∧
        ∀ i ∈ pushedIn before, e.deliveries i = e₁.deliveries i ∧
          (e₁.isDelivering i = true → .cancelAll (some i) ∈ before)) ∧
      (∀ before later, ms = before ++ later →
        ∃ e₁, run? {} before = some e₁ ∧
          ∀ i ∈ pushedIn before, i ∉ e₁.ids → i ∉ e₁.due → e.deliveries i = e₁.deliveries i) ∧
      ((pushedSince ms).filter fun i => !e.isKnown i).Sublist e.ids ∧
      e.ids.Sublist (pushedSince ms) := by
  have hnow : Accounts ms e := .of_run? h
  -- from any moment on, what is let go by then delivers no more
  have hlater : ∀ before later, ms = before ++ later →
      ∃ e₁, run? {} before = some e₁ ∧ Accounts before e₁ ∧
        ∀ i ∈ pushedIn before, i ∉ e₁.ids → i ∉ e₁.due → e.deliveries i = e₁.deliveries i := by
    rintro before later rfl
    rw [run?_append] at h
    obtain ⟨e₁, hbefore, hrun⟩ := Option.bind_eq_some_iff.1 h
    have hthen : Accounts before e₁ := .of_run? hbefore
    refine ⟨e₁, hbefore, hthen, fun i hi hids hdue => ?_⟩
    exact ((hthen.gone i hi hids hdue).1.of_run? hrun).2
  refine ⟨?_, ?_, hnow.unfinished, hnow.recent⟩
  · intro before later hms
    obtain ⟨e₁, hrun, hthen, hsilent⟩ := hlater (before ++ [.cleared]) later (by simp [hms])
    have huse : e₁.use = .still {} := use_of_cleared hrun
    have hpushed : pushedIn (before ++ [.cleared]) = pushedIn before := by
      rw [pushedIn_append]
      exact List.append_nil _
    have hids : e₁.ids = [] := by rw [ids, huse]
    have hdue : e₁.due = [] := by rw [due, huse]
    refine ⟨e₁, hrun, huse, fun i hi => ?_⟩
    rw [← hpushed] at hi
    refine ⟨hsilent i hi (by simp [hids]) (by simp [hdue]), fun hd => ?_⟩
    simpa using (hthen.gone i hi (by simp [hids]) (by simp [hdue])).2 hd
  · intro before later hms
    obtain ⟨e₁, hrun, -, hsilent⟩ := hlater before later hms
    exact ⟨e₁, hrun, hsilent⟩

/-- The first job is forgotten after it has delivered, the second has come to its output and
has not offered it when all are cancelled, and the cancel comes from inside the delivery of
the third. -/
theorem forgets_only_what_cannot_deliver_inside_a_delivery :
    let before : List (Move Nat) :=
      [.spawn 0 10, .spawn 0 20, .spawn 0 30, .push 0, .pushed 0, .job 0 .work, .job 0 .offer,
        .job 0 .finish, .announce 0, .push 1, .look, .pushed 1, .push 2, .look, .pushed 2,
        .job 1 .work, .job 2 .work, .job 2 .offer, .cancelAll (some 2), .cancelNext false,
        .job 1 .offer, .cancelNext false]
    ∃ e e₁ : Ensemble Nat, run? {} (before ++ [.cleared]) = some e₁ ∧
      run? {} (before ++ [.cleared, .job 2 .finish]) = some e ∧
      e₁.use = .still {} ∧ e₁.isDelivering 2 = true ∧ pushedIn before = [0, 1, 2] ∧
      ∀ i ∈ [0, 1, 2], e.deliveries i = e₁.deliveries i := by
  intro before
  have hrun : run? {} (before ++ [.cleared, .job 2 .finish]) =
      some ⟨[⟨⟨.done 10, ⟨false⟩, .finished⟩, false, [10]⟩,
        ⟨⟨.done 20, ⟨true⟩, .finished⟩, true, []⟩, ⟨⟨.done 30, ⟨true⟩, .finished⟩, false, [30]⟩],
        [0], .still {}⟩ := rfl
  have hthen : run? {} (before ++ [.cleared]) =
      some ⟨[⟨⟨.done 10, ⟨false⟩, .finished⟩, false, [10]⟩,
        ⟨⟨.done 20, ⟨true⟩, .finished⟩, true, []⟩,
        ⟨⟨.done 30, ⟨true⟩, .delivering⟩, false, [30]⟩], [0], .still {}⟩ := rfl
  obtain ⟨hcleared, -⟩ := forgets_only_what_cannot_deliver hrun
  obtain ⟨e₁, hthen', huse, hsilent⟩ := hcleared before [.job 2 .finish] rfl
  obtain rfl := Option.some.inj (hthen'.symm.trans hthen)
  exact ⟨_, _, hthen, hrun, huse, rfl, rfl, fun i hi => (hsilent i hi).1⟩

end TurnRendezvous.Ensemble
