/-
# `Registry.running` — the work that can still deliver

A job can deliver as long as it works and its gate is open.  The work of
these jobs, in the order in which they were started, is what a registry
still has running; everything that can happen to a job is said in terms of
it: a new job comes last, work that goes on stays where it is, a job that is
done goes, and cancelling or abandoning a job takes it out.
-/
import TurnRendezvous.Job.Registry

namespace TurnRendezvous

namespace Job

variable {ω : Type}

/-- Whether a job works and its result would get through. -/
def mayDeliver (j : Job ω) : Bool := j.isWorking && !j.gate.closed

theorem fst_complete (j : Job ω) : j.complete.1 = j.mayDeliver := by
  unfold complete beginDelivery mayDeliver isWorking
  by_cases hw : j.stage = .working
  · cases hc : j.gate.closed <;> simp [hw]
  · simp [hw]

@[simp] theorem mayDeliver_complete (j : Job ω) : j.complete.2.mayDeliver = false := by
  unfold complete beginDelivery endDelivery mayDeliver isWorking
  by_cases hw : j.stage = .working
  · cases hc : j.gate.closed <;> simp [hw, hc]
  · by_cases hd : j.stage = .delivering <;> simp [hw, hd]

@[simp] theorem mayDeliver_cancel (j : Job ω) : j.cancel.mayDeliver = false := by
  have hc : j.cancel.gate.closed = true := isCancelled_cancel j
  simp [mayDeliver, hc]

@[simp] theorem work_cancel (j : Job ω) : j.cancel.work = j.work := by
  unfold cancel
  split <;> rfl

@[simp] theorem mayDeliver_abandon (j : Job ω) : j.abandon.mayDeliver = false := by
  have hc : j.abandon.gate.closed = true := isCancelled_abandon j
  simp [mayDeliver, hc]

@[simp] theorem mayDeliver_progress (j : Job ω) (f : ω → ω) :
    (j.progress f).mayDeliver = j.mayDeliver := by
  unfold progress
  split <;> rfl

@[simp] theorem isWorking_progress (j : Job ω) (f : ω → ω) :
    (j.progress f).isWorking = j.isWorking := by
  unfold progress
  split <;> rfl

@[simp] theorem isWorking_complete (j : Job ω) : j.complete.2.isWorking = false := by
  unfold complete beginDelivery endDelivery isWorking
  by_cases hw : j.stage = .working
  · cases hc : j.gate.closed <;> simp [hw]
  · by_cases hd : j.stage = .delivering <;> simp [hw, hd]

@[simp] theorem work_complete (j : Job ω) : j.complete.2.work = j.work := by
  unfold complete beginDelivery endDelivery
  by_cases hw : j.stage = .working
  · cases hc : j.gate.closed <;> simp [hw]
  · by_cases hd : j.stage = .delivering <;> simp [hw, hd]

end Job

namespace Registry

variable {ω : Type}

/-- The work of the jobs that can still deliver, in the order of their start. -/
def running (g : Registry ω) : List ω := (g.jobs.filter Job.mayDeliver).map Job.work

theorem mem_running {g : Registry ω} {a : ω} :
    a ∈ g.running ↔ ∃ i j, g.get? i = some j ∧ j.mayDeliver = true ∧ j.work = a := by
  constructor
  · intro ha
    obtain ⟨j, hj, rfl⟩ := List.mem_map.1 ha
    obtain ⟨hj, hd⟩ := List.mem_filter.1 hj
    obtain ⟨i, hi⟩ := List.mem_iff_getElem?.1 hj
    exact ⟨i, j, hi, hd, rfl⟩
  · rintro ⟨i, j, hi, hd, rfl⟩
    exact List.mem_map_of_mem (List.mem_filter.2 ⟨List.mem_of_getElem? hi, hd⟩)

theorem running_eq_nil_iff {g : Registry ω} :
    g.running = [] ↔ ∀ i j, g.get? i = some j → j.mayDeliver = false := by
  rw [List.eq_nil_iff_forall_not_mem]
  constructor
  · intro h i j hj
    cases hd : j.mayDeliver with
    | false => rfl
    | true => exact absurd (mem_running.2 ⟨i, j, hj, hd, rfl⟩) (h j.work)
  · intro h a ha
    obtain ⟨i, j, hj, hd, -⟩ := mem_running.1 ha
    exact absurd hd (by simp [h i j hj])

/-- Nothing runs just when no end of a job gets through. -/
theorem running_eq_nil_iff_complete {g : Registry ω} :
    g.running = [] ↔ ∀ i, (g.complete i).1 = false := by
  rw [running_eq_nil_iff]
  refine forall_congr' ?_
  intro i
  cases hj : g.get? i with
  | none => simp [complete, hj]
  | some j => simp [complete, hj, Job.fst_complete]

theorem get?_modify (g : Registry ω) (i k : JobId) (f : Job ω → Job ω) :
    (g.modify i f).get? k = if i = k then (g.get? k).map f else g.get? k := by
  simp only [get?, modify, List.getElem?_modify]
  by_cases h : i = k <;> cases g.jobs[k]? <;> simp [h]

/-! ## New jobs -/

@[simp] theorem running_spawn (g : Registry ω) (a : ω) :
    (g.spawn a).2.running = g.running ++ [a] := by
  simp [running, spawn, Job.mayDeliver, Job.isWorking]

theorem get?_spawn {g : Registry ω} {a : ω} {i : JobId} {j : Job ω}
    (h : (g.spawn a).2.get? i = some j) : g.get? i = some j ∨ i = (g.spawn a).1 := by
  have hi : i < g.jobs.length + 1 := by
    simpa [get?, spawn] using (List.getElem?_eq_some_iff.1 h).1
  rcases Nat.lt_or_eq_of_le (Nat.le_of_lt_succ hi) with hi | hi
  · exact .inl ((List.getElem?_append_left hi).symm.trans h)
  · exact .inr hi

/-- A job that was there stays where it is. -/
theorem get?_spawn_of_some {g : Registry ω} {i : JobId} {j : Job ω} (h : g.get? i = some j)
    (a : ω) : (g.spawn a).2.get? i = some j :=
  (List.getElem?_append_left (List.getElem?_eq_some_iff.1 h).1).trans h

theorem get?_fst_spawn (g : Registry ω) (a : ω) :
    (g.spawn a).2.get? (g.spawn a).1 = some { work := a } := by
  simp [get?, spawn]

/-! ## One job changes -/

/-- Where a job stands among all. -/
theorem exists_split {g : Registry ω} {i : JobId} {j : Job ω} (h : g.get? i = some j) :
    ∃ before after, g.jobs = before ++ j :: after ∧
      ∀ f, (g.modify i f).jobs = before ++ f j :: after := by
  obtain ⟨hi, hj⟩ := List.getElem?_eq_some_iff.1 h
  refine ⟨g.jobs.take i, g.jobs.drop (i + 1), ?_, ?_⟩
  · rw [← hj, List.getElem_cons_drop, List.take_append_drop]
  · intro f
    rw [← hj]
    exact List.modify_eq_take_cons_drop hi

theorem modify_of_none {g : Registry ω} {i : JobId} (h : g.get? i = none) (f : Job ω → Job ω) :
    g.modify i f = g := by
  rw [modify, List.modify_eq_self (List.getElem?_eq_none_iff.1 h)]

/-- What a change of one job leaves alone is left alone in all of them. -/
theorem filterMap_modify {β : Type} {get : Job ω → Option β} {f : Job ω → Job ω} (g : Registry ω)
    (i : JobId) (hf : ∀ j, g.get? i = some j → get (f j) = get j) :
    (g.modify i f).jobs.filterMap get = g.jobs.filterMap get := by
  cases hj : g.get? i with
  | none => rw [modify_of_none hj]
  | some j =>
    obtain ⟨before, after, hg, hm⟩ := exists_split hj
    simp only [hm, hg, List.filterMap_append, List.filterMap_cons, hf j hj]

theorem countP_modify_le {p : Job ω → Bool} {f : Job ω → Job ω} (g : Registry ω) (i : JobId)
    (hf : ∀ j, g.get? i = some j → p (f j) = true → p j = true) :
    (g.modify i f).jobs.countP p ≤ g.jobs.countP p := by
  cases hj : g.get? i with
  | none => exact (modify_of_none hj f).symm ▸ Nat.le_refl _
  | some j =>
    obtain ⟨before, after, hg, hm⟩ := exists_split hj
    simp only [hm, hg, List.countP_append, List.countP_cons]
    have := hf j hj
    split <;> split <;> simp_all

theorem forall_modify {P : Job ω → Prop} {g : Registry ω} (h : ∀ j ∈ g.jobs, P j) (i : JobId)
    {f : Job ω → Job ω} (hf : ∀ j, g.get? i = some j → P j → P (f j)) :
    ∀ j ∈ (g.modify i f).jobs, P j := by
  cases hj : g.get? i with
  | none => rwa [modify_of_none hj]
  | some j =>
    obtain ⟨before, after, hg, hm⟩ := exists_split hj
    rw [hg, List.forall_mem_append, List.forall_mem_cons] at h
    rw [hm, List.forall_mem_append, List.forall_mem_cons]
    exact ⟨h.1, hf j hj h.2.1, h.2.2⟩

/-- Work that goes on stays where it is. -/
theorem running_progress {g : Registry ω} {i : JobId} {j : Job ω} (h : g.get? i = some j)
    (hd : j.mayDeliver = true) (f : ω → ω) :
    ∃ before after, g.running = before ++ j.work :: after ∧
      (g.modify i (·.progress f)).running = before ++ f j.work :: after := by
  obtain ⟨before, after, hg, hm⟩ := exists_split h
  have hw : j.stage = .working := by simpa [Job.isWorking] using (Bool.and_eq_true_iff.1 hd).1
  have hf : (j.progress f).work = f j.work := by simp [Job.progress, hw]
  refine ⟨(before.filter Job.mayDeliver).map Job.work, (after.filter Job.mayDeliver).map Job.work,
    ?_, ?_⟩
  · simp [running, hg, hd]
  · simp [running, hm, hd, hf]

/-- A change of a job that can deliver neither before nor after it is not seen. -/
theorem running_modify_silent {g : Registry ω} {i : JobId} {j : Job ω} {f : Job ω → Job ω}
    (h : g.get? i = some j) (hd : j.mayDeliver = false) (hf : (f j).mayDeliver = false) :
    (g.modify i f).running = g.running := by
  obtain ⟨before, after, hg, hm⟩ := exists_split h
  simp [running, hg, hm, hd, hf]

/-- A job that falls silent goes. -/
theorem running_modify_perm {g : Registry ω} {i : JobId} {j : Job ω} {f : Job ω → Job ω}
    (h : g.get? i = some j) (hd : j.mayDeliver = true) (hf : (f j).mayDeliver = false) :
    g.running.Perm (j.work :: (g.modify i f).running) := by
  obtain ⟨before, after, hg, hm⟩ := exists_split h
  simp only [running, hg, hm, List.filter_append, List.filter_cons, hd, hf, if_true,
    List.map_append, List.map_cons, Bool.false_eq_true, if_false]
  exact List.perm_middle

/-- What runs after a task went on ran before, or is what it goes on with. -/
theorem mem_running_of_progress {g : Registry ω} {i : JobId} {f : ω → ω} {a : ω}
    (h : a ∈ (g.modify i (·.progress f)).running) :
    a ∈ g.running ∨ ∃ j, g.get? i = some j ∧ j.work ∈ g.running ∧ a = f j.work := by
  obtain ⟨k, j, hj, hd, rfl⟩ := mem_running.1 h
  rw [get?_modify] at hj
  by_cases hk : i = k
  · subst hk
    obtain ⟨j', hj', rfl⟩ := Option.map_eq_some_iff.1 (by simpa using hj)
    rw [Job.mayDeliver_progress] at hd
    have hw : j'.stage = .working := by simpa [Job.isWorking] using (Bool.and_eq_true_iff.1 hd).1
    exact .inr ⟨j', hj', mem_running.2 ⟨i, j', hj', hd, rfl⟩, by simp [Job.progress, hw]⟩
  · rw [if_neg hk] at hj
    exact .inl (mem_running.2 ⟨k, j, hj, hd, rfl⟩)

/-- What runs after a change that lets no job begin and leaves the work alone ran before. -/
theorem running_modify_subset (g : Registry ω) (i : JobId) {f : Job ω → Job ω}
    (hf : ∀ j, (f j).mayDeliver = true → j.mayDeliver = true) (hw : ∀ j, (f j).work = j.work) :
    (g.modify i f).running ⊆ g.running := by
  intro a ha
  obtain ⟨k, j, hj, hd, rfl⟩ := mem_running.1 ha
  rw [get?_modify] at hj
  by_cases hk : i = k
  · obtain ⟨j', hj', rfl⟩ := Option.map_eq_some_iff.1 (by simpa [hk] using hj)
    exact mem_running.2 ⟨k, j', hj', hf j' hd, (hw j').symm⟩
  · rw [if_neg hk] at hj
    exact mem_running.2 ⟨k, j, hj, hd, rfl⟩

/-- Where nothing runs, nothing does after a change that lets no job begin. -/
theorem running_modify_nil {g : Registry ω} (h : g.running = []) (i : JobId) {f : Job ω → Job ω}
    (hf : ∀ j, (f j).mayDeliver = true → j.mayDeliver = true) : (g.modify i f).running = [] := by
  rw [running_eq_nil_iff] at h ⊢
  intro k j hj
  rw [get?_modify] at hj
  by_cases hk : i = k
  · obtain ⟨j', hj', rfl⟩ := Option.map_eq_some_iff.1 (by simpa [hk] using hj)
    cases hd : (f j').mayDeliver with
    | false => rfl
    | true => exact absurd (hf j' hd) (by simp [h k j' hj'])
  · rw [if_neg hk] at hj
    exact h k j hj

end Registry

namespace JobSet

variable {ω : Type}

/-- Whatever can still deliver after all jobs of a set were cancelled was not one
of them, and could deliver before. -/
theorem get?_cancelAll {s : JobSet} {g : Registry ω} {i : JobId} {j : Job ω}
    (h : (s.cancelAll g).2.get? i = some j) (hd : j.mayDeliver = true) :
    i ∉ s.ids ∧ g.get? i = some j := by
  simp only [cancelAll] at h
  generalize s.ids = ids at h ⊢
  induction ids generalizing g with
  | nil => exact ⟨List.not_mem_nil, h⟩
  | cons k ids ih =>
    obtain ⟨hi, hg⟩ := ih h
    rw [Registry.cancel, Registry.get?_modify] at hg
    by_cases hk : k = i
    · obtain ⟨j', -, rfl⟩ := Option.map_eq_some_iff.1 (by simpa [hk] using hg)
      simp at hd
    · rw [if_neg hk] at hg
      exact ⟨by simp [Ne.symm hk, hi], hg⟩

/-- A set keeps what can still deliver, and the job that joins it. -/
theorem mem_push {s : JobSet} {g : Registry ω} {i k : JobId} {j : Job ω}
    (h : k = i ∨ (k ∈ s.ids ∧ g.get? k = some j ∧ j.mayDeliver = true)) :
    k ∈ (s.push g i).ids := by
  rcases h with rfl | ⟨hk, hj, hd⟩
  · exact List.mem_append_right _ (List.mem_singleton_self _)
  · refine List.mem_append_left _ (List.mem_filter.2 ⟨hk, ?_⟩)
    have hw : j.stage = .working := by simpa [Job.isWorking] using (Bool.and_eq_true_iff.1 hd).1
    simp [Registry.isFinished, hj, Job.isFinished, hw]

end JobSet

end TurnRendezvous
