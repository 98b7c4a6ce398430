/-
# `Ensemble` — a set of jobs while its jobs go on

A push looks at one job of the set after the other, to forget those that have finished, and
to cancel all is to cancel one job after the other.  Between any two of these steps any job
may go on, deliver, be cancelled or be abandoned, those of the set and others.  Here each of
them is a move of its own, and the jobs are scenes (`Job.Scene`).

Two things decide what a set may forget.

* That a job has finished comes to be known some time after its delivery is over
  (`Move.announce`), and this is all that a push sees.
* A cancel waits for a delivery that is under way, unless it is called from inside that
  delivery (`Move.cancelAll`).

`run?_push` and `run?_cancelAll` say that with nothing in between these are `JobSet.push` and
`JobSet.cancelAll`.

`Steps` says what a move does.  To one job it is at most one of the job's own moves
(`Steps.scene`), so a job that is hushed stays so, whatever happens (`Hushed.of_run?`).
-/
import TurnRendezvous.Proofs.Job.Delivery

namespace TurnRendezvous

open Job (Scene)

/-- A job none of whose outputs gets through any more begins no delivery. -/
theorem Job.Steps.not_mayDeliver {α : Type} {s s' : Scene α} {m : Job.Move}
    (hs : Job.Steps s m s') (hd : s.job.mayDeliver = false) :
    s'.job.mayDeliver = false ∧ s'.delivered = s.delivered ∧
      (s'.job.stage = .delivering → s.job.stage = .delivering) := by
  cases hs with
  | call c =>
    obtain ⟨-, hdelivered, hclosed, -⟩ := Job.call_effect s c
    have hg : (s.call c).job.gate.closed = true := hclosed
    refine ⟨by simp [Job.mayDeliver, hg], hdelivered, fun hstage => ?_⟩
    rcases Job.stage_call s c with hsame | ⟨-, ha⟩
    · exact hsame ▸ hstage
    · simp [ha] at hstage
  | work => exact ⟨hd, rfl, id⟩
  | halt => exact ⟨by simp [Job.mayDeliver, Job.isWorking], rfl, by simp⟩
  | deliver hw _ hopen =>
    have hg : s.job.gate.closed = false := hopen
    simp [Job.mayDeliver, Job.isWorking, hw, hg] at hd
  | drop => exact ⟨by simp [Job.mayDeliver, Job.isWorking], rfl, by simp⟩
  | finish => exact ⟨by simp [Job.mayDeliver, Job.isWorking], rfl, by simp⟩

theorem Job.Steps.stage_finished {α : Type} {s s' : Scene α} {m : Job.Move}
    (hs : Job.Steps s m s') (hf : s.job.stage = .finished) : s'.job.stage = .finished := by
  cases hs with
  | call c =>
    rcases Job.stage_call s c with hsame | ⟨hw, -⟩
    · exact hsame.trans hf
    · simp [hw] at hf
  | drop | finish => rfl
  | work hw | halt hw | deliver hw => simp [hw] at hf

/-! ## Moves -/

namespace Ensemble

/-- What is being done to a set. -/
inductive Use
  | still (set : JobSet)
  /-- `i` is about to join; of the others `kept` stay, and `rest` are still to be looked at. -/
  | pushing (i : JobId) (kept rest : List JobId)
  /-- All are being cancelled, from inside the delivery of a job or from elsewhere; `rest` are
  still to come. -/
  | clearing (inside : Option JobId) (rest : List JobId)

/-- One thing that happens to a set or to a job. -/
inductive Move (α : Type)
  /-- A job is started. -/
  | spawn (n : Nat) (v : α)
  | job (i : JobId) (m : Job.Move)
  /-- It comes to be known that a job has finished. -/
  | announce (i : JobId)
  /-- The push of a job is called. -/
  | push (i : JobId)
  /-- The next job is looked at, and forgotten if it is known to have finished. -/
  | look
  /-- The push of a job returns. -/
  | pushed (i : JobId)
  /-- The cancel of all jobs is called. -/
  | cancelAll (inside : Option JobId)
  /-- The next job is cancelled. -/
  | cancelNext (late : Bool)
  /-- The cancel of all jobs returns. -/
  | cleared

variable {α : Type}

def Move.pushed? : Move α → Option JobId
  | .pushed i => some i
  | _ => none

/-- All jobs that were ever pushed. -/
def pushedIn (ms : List (Move α)) : List JobId := ms.filterMap Move.pushed?

/-- The jobs to account for after one more move. -/
def Move.collect (ids : List JobId) : Move α → List JobId
  | .pushed i => ids ++ [i]
  | .cancelAll _ => []
  | _ => ids

/-- The jobs that were pushed since all were cancelled for the last time, in the order in
which they were. -/
def pushedSince (ms : List (Move α)) : List JobId := ms.foldl Move.collect []

end Ensemble

open Ensemble in
/-- Some jobs and one set. -/
structure Ensemble (α : Type) where
  scenes : List (Scene α) := []
  /-- The jobs that are known to have finished. -/
  known : List JobId := []
  use : Use := .still {}

namespace Ensemble

variable {α : Type}

/-- The jobs in the set.  As soon as all are being cancelled it holds none. -/
def ids (e : Ensemble α) : List JobId :=
  match e.use with
  | .still set => set.ids
  | .pushing _ kept rest => kept ++ rest
  | .clearing _ _ => []

/-- The jobs that are about to be cancelled. -/
def due (e : Ensemble α) : List JobId :=
  match e.use with
  | .clearing _ rest => rest
  | _ => []

def isKnown (e : Ensemble α) (i : JobId) : Bool := e.known.contains i

@[simp] theorem isKnown_use (e : Ensemble α) (u : Use) :
    ({ e with use := u } : Ensemble α).isKnown = e.isKnown := rfl

theorem isKnown_cons (e : Ensemble α) (i k : JobId) :
    ({ e with known := i :: e.known } : Ensemble α).isKnown k = (k == i || e.isKnown k) :=
  List.contains_cons

def scene? (e : Ensemble α) (i : JobId) : Option (Scene α) := e.scenes[i]?

/-- Whether a delivery of a job is under way. -/
def isDelivering (e : Ensemble α) (i : JobId) : Bool :=
  (e.scene? i).any fun s => s.job.stage == .delivering

/-- What a job has delivered. -/
def deliveries (e : Ensemble α) (i : JobId) : List α := ((e.scene? i).map Scene.delivered).getD []

def registry (e : Ensemble α) : Registry (Effort α) := { jobs := e.scenes.map Scene.job }

def onScene (e : Ensemble α) (i : JobId) (f : Scene α → Scene α) : Ensemble α :=
  { e with scenes := e.scenes.modify i f }

@[simp] theorem isKnown_onScene (e : Ensemble α) (i : JobId) (f : Scene α → Scene α) :
    (e.onScene i f).isKnown = e.isKnown := rfl

theorem scene?_onScene (e : Ensemble α) (i k : JobId) (f : Scene α → Scene α) :
    (e.onScene i f).scene? k = if i = k then (e.scene? k).map f else e.scene? k := by
  simp only [scene?, onScene, List.getElem?_modify]
  by_cases h : i = k <;> cases e.scenes[k]? <;> simp [h]

theorem get?_registry (e : Ensemble α) (i : JobId) :
    e.registry.get? i = (e.scene? i).map Scene.job :=
  List.getElem?_map

/-- The ensemble after a move, if the move can be made. -/
def step? (e : Ensemble α) : Move α → Option (Ensemble α)
  | .spawn n v => some { e with scenes := e.scenes ++ [Scene.spawn n v] }
  | .job i m =>
    ((e.scene? i).bind fun s => s.step? m).map fun s => e.onScene i fun _ => s
  | .announce i =>
    if (e.scene? i).any fun s => s.job.isFinished then some { e with known := i :: e.known }
    else none
  | .push i =>
    match e.use with
    | .still set =>
      if i < e.scenes.length then some { e with use := .pushing i [] set.ids } else none
    | _ => none
  | .look =>
    match e.use with
    | .pushing i kept (k :: rest) =>
      some { e with use := .pushing i (if e.isKnown k then kept else kept ++ [k]) rest }
    | _ => none
  | .pushed j =>
    match e.use with
    | .pushing i kept [] => if i = j then some { e with use := .still ⟨kept ++ [i]⟩ } else none
    | _ => none
  | .cancelAll inside =>
    match e.use with
    | .still set =>
      if inside.all e.isDelivering then some { e with use := .clearing inside set.ids } else none
    | _ => none
  | .cancelNext late =>
    match e.use with
    | .clearing inside (k :: rest) =>
      -- the gate is held while a delivery is under way, and only its own thread gets past it
      if e.isDelivering k && inside != some k then none
      else some { e.onScene k (·.call (.cancel late)) with use := .clearing inside rest }
    | _ => none
  | .cleared =>
    match e.use with
    | .clearing _ [] => some { e with use := .still {} }
    | _ => none

/-- The ensemble after a row of moves. -/
def run? (e : Ensemble α) (ms : List (Move α)) : Option (Ensemble α) := ms.foldlM step? e

theorem run?_append (e : Ensemble α) (ms ms' : List (Move α)) :
    e.run? (ms ++ ms') = (e.run? ms).bind fun e' => e'.run? ms' :=
  List.foldlM_append

theorem run?_cons (e : Ensemble α) (m : Move α) (ms : List (Move α)) :
    e.run? (m :: ms) = (e.step? m).bind fun e' => e'.run? ms :=
  List.foldlM_cons

theorem run?_singleton (e : Ensemble α) (m : Move α) : e.run? [m] = e.step? m := by
  simp [run?]

/-! ## Nothing in between -/

section Alone
variable {e : Ensemble α} {set : JobSet}

theorem run?_look {i : JobId} {kept rest : List JobId} (hu : e.use = .pushing i kept rest) :
    e.run? (rest.map fun _ => .look) =
      some { e with use := .pushing i (kept ++ rest.filter fun k => !e.isKnown k) [] } := by
  induction rest generalizing e kept with
  | nil =>
    obtain ⟨scenes, known, use⟩ := e
    obtain rfl : use = .pushing i kept [] := hu
    simp [run?]
  | cons k rest ih =>
    have hlook : e.step? .look =
        some { e with use := .pushing i (if e.isKnown k then kept else kept ++ [k]) rest } := by
      simp [step?, hu]
    rw [List.map_cons, run?_cons, hlook, Option.bind_some, ih rfl]
    cases hk : e.isKnown k <;> simp [hk]

/-- A push in the midst of which nothing happens, at a moment when it is known of all jobs of
the set whether they have finished. -/
theorem run?_push (hu : e.use = .still set) {i : JobId} (hi : i < e.scenes.length)
    (hknown : ∀ k ∈ set.ids, e.isKnown k = e.registry.isFinished k) :
    e.run? (.push i :: (set.ids.map fun _ => .look) ++ [.pushed i]) =
      some { e with use := .still (set.push e.registry i) } := by
  have hpush : e.step? (.push i) = some { e with use := .pushing i [] set.ids } := by
    simp [step?, hu, hi]
  have hkept : (set.ids.filter fun k => !e.isKnown k) =
      set.ids.filter fun k => !e.registry.isFinished k :=
    List.filter_congr fun k hk => by rw [hknown k hk]
  rw [List.cons_append, run?_cons, hpush, Option.bind_some, run?_append, run?_look rfl,
    Option.bind_some, run?_singleton]
  simp only [step?, if_true, List.nil_append]
  exact congrArg (fun ids => some { e with use := .still ⟨ids ++ [i]⟩ }) hkept

/-- Whether no delivery is under way or about to begin. -/
def IsCalm (e : Ensemble α) : Prop :=
  ∀ i s, e.scene? i = some s → s.job.stage ≠ .delivering ∧ s.isReady = false

theorem IsCalm.onScene (hc : e.IsCalm) (k : JobId) (c : Job.Call) :
    (e.onScene k (·.call c)).IsCalm := by
  intro i s hs
  rw [scene?_onScene] at hs
  by_cases hk : k = i
  · rw [if_pos hk] at hs
    obtain ⟨s₀, hs₀, rfl⟩ := Option.map_eq_some_iff.1 hs
    obtain ⟨hidle, hready⟩ := hc i s₀ hs₀
    obtain ⟨hwork, -⟩ := Job.call_effect s₀ c
    rcases Job.stage_call s₀ c with hsame | ⟨-, ha⟩
    · exact ⟨hsame ▸ hidle, by simpa [Scene.isReady, Job.isWorking, hsame, hwork] using hready⟩
    · exact ⟨by simp [ha], by simp [Scene.isReady, Job.isWorking, ha]⟩
  · rw [if_neg hk] at hs
    exact hc i s hs

theorem registry_onScene {k : JobId} {f : Scene α → Scene α} {g : Job (Effort α) → Job (Effort α)}
    (hf : ∀ s, e.scene? k = some s → (f s).job = g s.job) :
    (e.onScene k f).registry = e.registry.modify k g := by
  refine congrArg Registry.mk (List.ext_getElem? fun i => ?_)
  have hget : (e.onScene k f).registry.get? i = (e.registry.modify k g).get? i := by
    rw [get?_registry, Registry.get?_modify, get?_registry, scene?_onScene]
    split
    next hk =>
      subst hk
      cases hs : e.scene? k with
      | none => rfl
      | some s => simp [hf s hs]
    next => rfl
  exact hget

theorem run?_cancelNext {rest : List JobId} (hu : e.use = .clearing none rest) (hc : e.IsCalm) :
    ∃ e', e.run? (rest.map fun _ => .cancelNext false) = some e' ∧
      e'.use = .clearing none [] ∧ e'.registry = rest.foldl Registry.cancel e.registry := by
  induction rest generalizing e with
  | nil => exact ⟨e, rfl, hu, rfl⟩
  | cons k rest ih =>
    let e₁ : Ensemble α := e.onScene k (·.call (.cancel false))
    have hidle : e.isDelivering k = false := by
      cases hs : e.scene? k with
      | none => simp [isDelivering, hs]
      | some s => simpa [isDelivering, hs] using (hc k s hs).1
    have hnext : e.step? (.cancelNext false) = some { e₁ with use := .clearing none rest } := by
      simp [step?, hu, hidle, e₁]
    have hregistry : e₁.registry = e.registry.cancel k := by
      refine registry_onScene fun s hs => ?_
      have hcall : s.call (.cancel false) = { s with job := s.job.cancel } :=
        if_neg (by simp [(hc k s hs).2])
      rw [hcall]
    obtain ⟨e', hrun, huse, hall⟩ :=
      ih (e := { e₁ with use := .clearing none rest }) rfl (hc.onScene k _)
    refine ⟨e', ?_, huse, ?_⟩
    · rw [List.map_cons, run?_cons, hnext, Option.bind_some, hrun]
    · rw [hall, List.foldl_cons, ← hregistry]
      rfl

/-- A cancel of all jobs in the midst of which nothing happens, at a moment when no delivery
is under way or about to begin. -/
theorem run?_cancelAll (hu : e.use = .still set) (hc : e.IsCalm) :
    ∃ e', e.run? (.cancelAll none :: (set.ids.map fun _ => .cancelNext false) ++ [.cleared]) =
        some e' ∧
      e'.use = .still (set.cancelAll e.registry).1 ∧
      e'.registry = (set.cancelAll e.registry).2 := by
  have hcall : e.step? (.cancelAll none) = some { e with use := .clearing none set.ids } := by
    simp [step?, hu]
  obtain ⟨e', hrun, huse, hall⟩ :=
    run?_cancelNext (e := { e with use := .clearing none set.ids }) rfl hc
  refine ⟨{ e' with use := .still {} }, ?_, rfl, hall⟩
  rw [List.cons_append, run?_cons, hcall, Option.bind_some, run?_append, hrun, Option.bind_some,
    run?_singleton]
  simp [step?, huse]

end Alone

/-! ## What a move does -/

section Steps
variable {e e' : Ensemble α} {m : Move α} {i : JobId}

/-- The moves that can be made, and what they lead to. -/
inductive Steps (e : Ensemble α) : Move α → Ensemble α → Prop
  | spawn (n : Nat) (v : α) : Steps e (.spawn n v) { e with scenes := e.scenes ++ [.spawn n v] }
  | job {i : JobId} {m : Job.Move} {s s' : Scene α} : e.scene? i = some s → s.step? m = some s' →
      Steps e (.job i m) (e.onScene i fun _ => s')
  | announce {i : JobId} {s : Scene α} : e.scene? i = some s → s.job.stage = .finished →
      Steps e (.announce i) { e with known := i :: e.known }
  | push {i : JobId} {set : JobSet} : e.use = .still set → i < e.scenes.length →
      Steps e (.push i) { e with use := .pushing i [] set.ids }
  | forget {i k : JobId} {kept rest : List JobId} : e.use = .pushing i kept (k :: rest) →
      e.isKnown k = true → Steps e .look { e with use := .pushing i kept rest }
  | keep {i k : JobId} {kept rest : List JobId} : e.use = .pushing i kept (k :: rest) →
      e.isKnown k = false → Steps e .look { e with use := .pushing i (kept ++ [k]) rest }
  | pushed {i : JobId} {kept : List JobId} : e.use = .pushing i kept [] →
      Steps e (.pushed i) { e with use := .still ⟨kept ++ [i]⟩ }
  | cancelAll {inside : Option JobId} {set : JobSet} : e.use = .still set →
      inside.all e.isDelivering = true →
      Steps e (.cancelAll inside) { e with use := .clearing inside set.ids }
  | cancelNext {inside : Option JobId} {k : JobId} {rest : List JobId} (late : Bool) :
      e.use = .clearing inside (k :: rest) → (e.isDelivering k = true → inside = some k) →
      Steps e (.cancelNext late)
        { e.onScene k (·.call (.cancel late)) with use := .clearing inside rest }
  | cleared {inside : Option JobId} : e.use = .clearing inside [] →
      Steps e .cleared { e with use := .still {} }

theorem steps_of_step? (h : e.step? m = some e') : Steps e m e' := by
  cases m with
  | spawn n v =>
    obtain rfl := Option.some.inj h
    exact .spawn n v
  | job i m =>
    obtain ⟨s', hs', rfl⟩ := Option.map_eq_some_iff.1 h
    obtain ⟨s, hs, hm⟩ := Option.bind_eq_some_iff.1 hs'
    exact .job hs hm
  | announce i =>
    obtain ⟨hf, he⟩ := Option.ite_none_right_eq_some.1 h
    obtain ⟨s, hs, hf⟩ := (Option.any_eq_true _ _).1 hf
    obtain rfl := Option.some.inj he
    exact .announce hs (by simpa [Job.isFinished] using hf)
  | push i =>
    cases hu : e.use with
    | still set =>
      obtain ⟨hi, rfl⟩ : i < e.scenes.length ∧ _ = e' := by simpa [step?, hu] using h
      exact .push hu hi
    | pushing | clearing => simp [step?, hu] at h
  | look =>
    cases hu : e.use with
    | still | clearing => simp [step?, hu] at h
    | pushing i kept rest =>
      cases rest with
      | nil => simp [step?, hu] at h
      | cons k rest =>
        obtain rfl : _ = e' := by simpa [step?, hu] using h
        cases hk : e.isKnown k with
        | true => simpa [hk] using Steps.forget hu hk
        | false => simpa [hk] using Steps.keep hu hk
  | pushed j =>
    cases hu : e.use with
    | still | clearing => simp [step?, hu] at h
    | pushing i kept rest =>
      cases rest with
      | cons => simp [step?, hu] at h
      | nil =>
        obtain ⟨rfl, rfl⟩ : i = j ∧ _ = e' := by simpa [step?, hu] using h
        exact .pushed hu
  | cancelAll inside =>
    cases hu : e.use with
    | pushing | clearing => simp [step?, hu] at h
    | still set =>
      obtain ⟨hin, rfl⟩ : inside.all e.isDelivering = true ∧ _ = e' := by
        simpa [step?, hu] using h
      exact .cancelAll hu hin
  | cancelNext late =>
    cases hu : e.use with
    | still | pushing => simp [step?, hu] at h
    | clearing inside rest =>
      cases rest with
      | nil => simp [step?, hu] at h
      | cons k rest =>
        obtain ⟨hfree, rfl⟩ : (e.isDelivering k = true → inside = some k) ∧ _ = e' := by
          simpa [step?, hu] using h
        exact .cancelNext late hu hfree
  | cleared =>
    cases hu : e.use with
    | still | pushing => simp [step?, hu] at h
    | clearing inside rest =>
      cases rest with
      | cons => simp [step?, hu] at h
      | nil =>
        obtain rfl : _ = e' := by simpa [step?, hu] using h
        exact .cleared hu

/-- To one job a move is at most one of the job's own. -/
theorem Steps.scene (hm : Steps e m e') {s : Scene α} (hs : e.scene? i = some s) :
    ∃ s', e'.scene? i = some s' ∧ (s' = s ∨ ∃ jm, s.step? jm = some s') := by
  cases hm with
  | spawn n v =>
    have hi := (List.getElem?_eq_some_iff.1 hs).1
    exact ⟨s, (List.getElem?_append_left hi).trans hs, .inl rfl⟩
  | @job k jm s₀ s' hs₀ hstep =>
    by_cases hk : k = i
    · subst hk
      obtain rfl := Option.some.inj (hs.symm.trans hs₀)
      exact ⟨s', by rw [scene?_onScene, if_pos rfl, hs, Option.map_some], .inr ⟨jm, hstep⟩⟩
    · exact ⟨s, by rw [scene?_onScene, if_neg hk, hs], .inl rfl⟩
  | @cancelNext inside k rest late hu hfree =>
    have hscene := e.scene?_onScene k i (·.call (.cancel late))
    by_cases hk : k = i
    · rw [if_pos hk, hs, Option.map_some] at hscene
      exact ⟨_, hscene, .inr ⟨.call (.cancel late), rfl⟩⟩
    · rw [if_neg hk, hs] at hscene
      exact ⟨s, hscene, .inl rfl⟩
  | _ => exact ⟨s, hs, .inl rfl⟩

theorem use_of_cleared {ms : List (Move α)} (h : e.run? (ms ++ [.cleared]) = some e') :
    e'.use = .still {} := by
  rw [run?_append] at h
  obtain ⟨e₁, -, hlast⟩ := Option.bind_eq_some_iff.1 h
  rw [run?_singleton] at hlast
  cases steps_of_step? hlast
  rfl

theorem Steps.length_le (hm : Steps e m e') : e.scenes.length ≤ e'.scenes.length := by
  cases hm <;> simp [onScene]

end Steps

/-! ## Jobs that deliver no more -/

/-- No output of a job gets through any more; one that is being delivered has got through. -/
def Hushed (e : Ensemble α) (i : JobId) : Prop :=
  ∃ s, e.scene? i = some s ∧ s.job.mayDeliver = false

section Hushed
variable {e e' : Ensemble α} {m : Move α} {i : JobId}

theorem Steps.hushed (hm : Steps e m e') (hi : e.Hushed i) :
    e'.Hushed i ∧ e'.deliveries i = e.deliveries i ∧
      (e'.isDelivering i = true → e.isDelivering i = true) := by
  obtain ⟨s, hs, hd⟩ := hi
  obtain ⟨s', hs', rfl | ⟨jm, hstep⟩⟩ := hm.scene hs
  · exact ⟨⟨s', hs', hd⟩, by simp [deliveries, hs, hs'], by simp [isDelivering, hs, hs']⟩
  · obtain ⟨hd', hdelivered, hstage⟩ := (Job.steps_of_step? hstep).not_mayDeliver hd
    refine ⟨⟨s', hs', hd'⟩, by simp [deliveries, hs, hs', hdelivered], ?_⟩
    simpa [isDelivering, hs, hs'] using hstage

/-- Whatever happens, a job that is hushed stays so. -/
theorem Hushed.of_run? {ms : List (Move α)} (hi : e.Hushed i) (h : e.run? ms = some e') :
    e'.Hushed i ∧ e'.deliveries i = e.deliveries i := by
  induction ms generalizing e with
  | nil =>
    obtain rfl := Option.some.inj h
    exact ⟨hi, rfl⟩
  | cons m ms ih =>
    rw [run?_cons] at h
    obtain ⟨e₁, hstep, hrun⟩ := Option.bind_eq_some_iff.1 h
    obtain ⟨hi₁, hsame, -⟩ := (steps_of_step? hstep).hushed hi
    obtain ⟨hi', hlater⟩ := ih hi₁ hrun
    exact ⟨hi', hlater.trans hsame⟩

/-- A job has finished, which need not be known yet. -/
def Finished (e : Ensemble α) (i : JobId) : Prop :=
  ∃ s, e.scene? i = some s ∧ s.job.stage = .finished

theorem Finished.hushed (h : e.Finished i) : e.Hushed i ∧ e.isDelivering i = false := by
  obtain ⟨s, hs, hf⟩ := h
  exact ⟨⟨s, hs, by simp [Job.mayDeliver, Job.isWorking, hf]⟩, by simp [isDelivering, hs, hf]⟩

theorem Steps.finished (hm : Steps e m e') (h : e.Finished i) : e'.Finished i := by
  obtain ⟨s, hs, hf⟩ := h
  obtain ⟨s', hs', rfl | ⟨jm, hstep⟩⟩ := hm.scene hs
  · exact ⟨s', hs', hf⟩
  · exact ⟨s', hs', (Job.steps_of_step? hstep).stage_finished hf⟩

/-- A job that is cancelled is hushed; the cancel has not begun a delivery of it. -/
theorem hushed_cancel {s : Scene α} (hs : e.scene? i = some s) (late : Bool) :
    (e.onScene i (·.call (.cancel late))).Hushed i ∧
      ((e.onScene i (·.call (.cancel late))).isDelivering i = true → e.isDelivering i = true) := by
  have hscene : (e.onScene i (·.call (.cancel late))).scene? i = some (s.call (.cancel late)) := by
    rw [scene?_onScene, if_pos rfl, hs, Option.map_some]
  obtain ⟨-, -, hclosed, -⟩ := Job.call_effect s (.cancel late)
  have hg : (s.call (.cancel late)).job.gate.closed = true := hclosed
  refine ⟨⟨_, hscene, by simp [Job.mayDeliver, hg]⟩, fun hd => ?_⟩
  rcases Job.stage_call s (.cancel late) with hsame | ⟨-, ha⟩
  · simpa [isDelivering, hscene, hs, hsame] using hd
  · simp [isDelivering, hscene, ha] at hd

end Hushed

end Ensemble

end TurnRendezvous
