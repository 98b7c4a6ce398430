/-
# `Outbox.PassesOn` — which reports reach a reader

A full outbox drops what is new.  Whenever the reader looks, what it has received and what still
waits for it is what was told while there was room, in that order.

An agent tells its owner two things at most, success and later that the match went away.  An
outbox with two places of its own is therefore never full when the agent tells something, even
if nobody reads in between.

* `received_append_waiting`: what a row of uses passes on;
* `accepted_of_room`: nothing is dropped as long as there is room for all of it;
* `two_places_lose_nothing`: outboxes in general, and those that hear one agent.
-/
import TurnRendezvous.Proofs.Agent.Callbacks

namespace TurnRendezvous

namespace Outbox

/-! ## Rows of uses -/

/-- The outbox after a use. -/
def act (o : Outbox) : Action → Outbox
  | .push r => r.dispatch o
  | .pop => o.pop.2
  | .detach => o.detach

/-- The outbox after a row of uses. -/
def after (o : Outbox) (as : List Action) : Outbox := as.foldl act o

/-- The reports that the reader received in a row of uses. -/
def received (o : Outbox) (as : List Action) : List Report := (o.answers as).filterMap Option.join

/-- The report that is told by a use. -/
def Action.told? : Action → Option Report
  | .push r => some r
  | _ => none

/-- The reports that were told in a row of uses. -/
def told (as : List Action) : List Report := as.filterMap Action.told?

/-- Those among them that were told while fewer than `n` reports were waiting. -/
def accepted (n : Nat) : Outbox → List Action → List Report
  | _, [] => []
  | o, a :: rest =>
    (if o.waiting.length < n then a.told?.toList else []) ++ accepted n (o.act a) rest

theorem answers_append (as bs : List Action) :
    ∀ o : Outbox, o.answers (as ++ bs) = o.answers as ++ (o.after as).answers bs := by
  induction as with
  | nil => exact fun _ => rfl
  | cons a as ih =>
    intro o
    cases a with
    | push r => exact congrArg (_ :: ·) (ih (r.dispatch o))
    | pop => exact congrArg (_ :: ·) (ih o.pop.2)
    | detach => exact congrArg (_ :: ·) (ih o.detach)

theorem received_append (o : Outbox) (as bs : List Action) :
    o.received (as ++ bs) = o.received as ++ (o.after as).received bs := by
  rw [received, answers_append, List.filterMap_append, received, received]

theorem after_append (o : Outbox) (as bs : List Action) :
    o.after (as ++ bs) = (o.after as).after bs := List.foldl_append

theorem accepted_append (n : Nat) (as bs : List Action) :
    ∀ o : Outbox, o.accepted n (as ++ bs) = o.accepted n as ++ (o.after as).accepted n bs := by
  induction as with
  | nil => exact fun _ => rfl
  | cons a as ih =>
    intro o
    rw [List.cons_append, accepted, accepted, ih, List.append_assoc]
    rfl

/-! ## What one use does, and then a row of them -/

/-- The reader is there, and `n` reports may wait for it. -/
structure Serves (n : Nat) (o : Outbox) : Prop where
  attached : o.attached = true
  capacity : o.capacity = some n

theorem Serves.isFull {n : Nat} {o : Outbox} (h : o.Serves n) :
    o.isFull = decide (n ≤ o.waiting.length) := by
  rw [Outbox.isFull, h.capacity]

/-- A use hands out what waits longest, or adds what is told if there is room. -/
theorem serves_act {n : Nat} {o : Outbox} (h : o.Serves n) {a : Action} (ha : a ≠ .detach) :
    (o.act a).Serves n ∧
      o.received [a] ++ (o.act a).waiting = o.waiting ++ o.accepted n [a] := by
  cases a with
  | push r =>
    rw [act, dispatch_eq]
    by_cases hroom : o.waiting.length < n
    · have hfull : o.isFull = false := by rw [h.isFull]; exact decide_eq_false (by omega)
      have hserves : (o.push r).Serves n := by
        refine ⟨?_, ?_⟩
        · simp [push, h.attached, hfull]
        · simp [push, h.attached, hfull, h.capacity]
      refine ⟨hserves, ?_⟩
      rw [waiting_push h.attached hfull]
      simp [received, answers, accepted, Action.told?, hroom]
    · have hfull : o.isFull = true := by rw [h.isFull]; exact decide_eq_true (by omega)
      rw [push_of_isFull hfull]
      exact ⟨h, by simp [received, answers, accepted, hroom]⟩
  | pop =>
    cases hw : o.waiting with
    | nil => simp [act, pop, hw, h, received, answers, accepted, Action.told?]
    | cons r rest =>
      have hserves : ({ o with waiting := rest } : Outbox).Serves n := ⟨h.attached, h.capacity⟩
      simp [act, pop, hw, hserves, received, answers, accepted, Action.told?]
  | detach => exact absurd rfl ha

/-- What was received and what still waits is what waited at first and what was accepted. -/
theorem received_append_waiting {n : Nat} {as : List Action} (hstays : .detach ∉ as) :
    ∀ {o : Outbox}, o.Serves n →
      o.received as ++ (o.after as).waiting = o.waiting ++ o.accepted n as := by
  induction as with
  | nil => exact fun _ => (List.append_nil _).symm
  | cons a as ih =>
    intro o h
    obtain ⟨ha, hrest⟩ := not_or.1 (mt List.mem_cons.2 hstays)
    obtain ⟨hserves, hone⟩ := serves_act h (Ne.symm ha)
    have hreceived : o.received (a :: as) = o.received [a] ++ (o.act a).received as :=
      received_append o [a] as
    have haccepted : o.accepted n (a :: as) = o.accepted n [a] ++ (o.act a).accepted n as :=
      accepted_append n [a] as o
    calc o.received (a :: as) ++ (o.after (a :: as)).waiting
        = o.received [a] ++ ((o.act a).received as ++ ((o.act a).after as).waiting) := by
          rw [hreceived, List.append_assoc]
          rfl
      _ = o.received [a] ++ (o.act a).waiting ++ (o.act a).accepted n as := by
          rw [ih hrest hserves, List.append_assoc]
      _ = o.waiting ++ o.accepted n (a :: as) := by rw [hone, haccepted, List.append_assoc]

theorem told_cons (a : Action) (as : List Action) : told (a :: as) = a.told?.toList ++ told as := by
  cases a <;> rfl

/-- A use makes no more reports wait than it tells. -/
theorem length_waiting_act (o : Outbox) (a : Action) :
    (o.act a).waiting.length ≤ o.waiting.length + a.told?.toList.length := by
  cases a with
  | push r =>
    rw [act, dispatch_eq, push]
    split <;> simp [Action.told?]
  | pop =>
    have htail : (o.act .pop).waiting = o.waiting.tail := by
      cases hw : o.waiting <;> simp [act, pop, hw]
    simp [htail, Action.told?]
  | detach => exact Nat.zero_le _

/-- As long as there is room for all that is told, nothing is dropped. -/
theorem accepted_of_room {n : Nat} (as : List Action) :
    ∀ {o : Outbox}, o.waiting.length + (told as).length ≤ n → o.accepted n as = told as := by
  induction as with
  | nil => exact fun _ => rfl
  | cons a as ih =>
    intro o hroom
    have hwaits := length_waiting_act o a
    rw [told_cons, List.length_append] at hroom
    rw [accepted, told_cons, ih (by omega)]
    by_cases hlt : o.waiting.length < n
    · rw [if_pos hlt]
    · have hnone : a.told?.toList = [] := List.length_eq_zero_iff.1 (by omega)
      rw [if_neg hlt, hnone]

/-! ## A reader who reads on -/

/-- To read is to take away what waits longest. -/
theorem waiting_after_pops (k : Nat) :
    ∀ o : Outbox, (o.after (List.replicate k .pop)).waiting = o.waiting.drop k := by
  induction k with
  | zero => exact fun _ => rfl
  | succ k ih =>
    intro o
    have hstep : o.after (List.replicate (k + 1) .pop) = o.pop.2.after (List.replicate k .pop) :=
      rfl
    rw [hstep, ih, pop]
    cases hw : o.waiting with
    | nil => simp [hw]
    | cons => rfl

theorem accepted_pops (n k : Nat) : ∀ o : Outbox, o.accepted n (List.replicate k .pop) = [] := by
  induction k with
  | zero => exact fun _ => rfl
  | succ k ih =>
    intro o
    rw [List.replicate_succ, accepted, ih]
    simp [Action.told?]

/-- The reports of a row of uses that get through. -/
structure PassesOn (o : Outbox) (as : List Action) (rs : List Report) : Prop where
  /-- What was received comes first, and the rest waits. -/
  soFar : o.received as ++ (o.after as).waiting = rs
  /-- Whoever reads on receives them all. -/
  inTheEnd : ∀ k, (o.after as).waiting.length ≤ k → o.received (as ++ List.replicate k .pop) = rs

theorem passesOn_accepted {n : Nat} {o : Outbox} (h : o.Serves n) (hempty : o.waiting = [])
    {as : List Action} (hstays : .detach ∉ as) : o.PassesOn as (o.accepted n as) := by
  have passed : ∀ {bs : List Action}, .detach ∉ bs →
      o.received bs ++ (o.after bs).waiting = o.accepted n bs := by
    intro bs hbs
    rw [received_append_waiting hbs h, hempty, List.nil_append]
  refine ⟨passed hstays, ?_⟩
  intro k hk
  have hpops : .detach ∉ as ++ List.replicate k .pop := by
    simp [hstays, List.mem_replicate]
  have hnone : (o.after (as ++ List.replicate k .pop)).waiting = [] := by
    rw [after_append, waiting_after_pops, List.drop_eq_nil_iff.2 hk]
  have hall := passed hpops
  rwa [hnone, List.append_nil, accepted_append, accepted_pops, List.append_nil] at hall

end Outbox

/-! ## Outboxes that hear one agent -/

namespace Agent

/-- An agent tells its owner two things at most. -/
theorem Trace.length_le {role : Role} {timing : Timing} {cs : List Callback}
    (h : Trace role timing cs) : cs.length ≤ 2 := by
  cases h with
  | silent => simp
  | told => simp
  | success => simp
  | gone => simp

end Agent

/-- Whatever a new outbox with `n` places is told and whenever it is read, what was told while
fewer than `n` reports were waiting gets through, in order and as it was told, and nothing else
does.  If there are two places and it is told what one agent tells its owner in a run, all of
that gets through. -/
theorem Outbox.two_places_lose_nothing {n : Nat} {as : List Outbox.Action}
    (hstays : .detach ∉ as) :
    PassesOn { capacity := some n } as (accepted n { capacity := some n } as) ∧
      ∀ {role : Role} {timing : Timing} {t : List Agent.Stage} {b : Agent},
        Agent.Run (.ofRole role timing) t b → 2 ≤ n →
        told as = (Agent.callbacks t).map (·.report) →
        PassesOn { capacity := some n } as ((Agent.callbacks t).map (·.report)) := by
  have hserves : Serves n { capacity := some n } := ⟨rfl, rfl⟩
  have hpasses := passesOn_accepted hserves rfl hstays
  refine ⟨hpasses, ?_⟩
  intro role timing t b h htwo htold
  have hfew : (told as).length ≤ 2 := by
    rw [htold, List.length_map]
    exact h.telling.trace.length_le
  have hroom : accepted n { capacity := some n } as = told as :=
    accepted_of_room as (by simpa using Nat.le_trans hfew htwo)
  rwa [hroom, htold] at hpasses

/-- A host that nobody listens to yet tells of its success, and later that the match is gone;
with two places both get through, with one place the second does not. -/
theorem Outbox.two_places_lose_nothing_of_a_host :
    (∃ t b, Agent.Run (.ofRole (.host "here") {}) t b ∧
      (Agent.callbacks t).map (·.report) =
        [⟨⟨"m"⟩, .complete none⟩, ⟨⟨"m"⟩, .matchRemoved⟩]) ∧
      PassesOn { capacity := some 2 }
        [.push ⟨⟨"m"⟩, .complete none⟩, .push ⟨⟨"m"⟩, .matchRemoved⟩]
        [⟨⟨"m"⟩, .complete none⟩, ⟨⟨"m"⟩, .matchRemoved⟩] ∧
      PassesOn { capacity := some 1 }
        [.push ⟨⟨"m"⟩, .complete none⟩, .push ⟨⟨"m"⟩, .matchRemoved⟩]
        [⟨⟨"m"⟩, .complete none⟩] := by
  let s : Surroundings := { now := 0, position := 0 }
  let m : Match :=
    { id := ⟨"m"⟩, status := .active, turn := .mine, participants := [⟨"ann"⟩, ⟨"bob"⟩]
      creator := ⟨"ann"⟩, viewer := ⟨"ann"⟩, data := none, version := 0 }
  let news : Feed MatchNews := { capacity := 64, sent := [.removed ⟨"m"⟩] }
  have started := Agent.Run.nil.snoc (.start (a := .ofRole (.host "here") {}) (s := true)
    (m := m) (n := 0) rfl)
  have played := started.snoc (.step (s := s) (w := []) rfl)
  have issued := played.snoc (.goOn (i := 0) rfl rfl)
  have answered := issued.snoc (.finish (i := 0) (e := .submitted (.ok ())) rfl rfl)
  have reported := answered.snoc (.step (s := s) (w := []) rfl)
  have seen := reported.snoc (.finish (i := 1) (e := .ended .removed) rfl ⟨news, rfl⟩)
  obtain ⟨t, b, run, heard⟩ : ∃ t b, Agent.Run (.ofRole (.host "here") {}) t b ∧
      (Agent.callbacks t).map (·.report) =
        [⟨⟨"m"⟩, .complete none⟩, ⟨⟨"m"⟩, .matchRemoved⟩] :=
    ⟨_, _, seen.snoc (.step (s := s) (w := []) rfl), by decide +kernel⟩
  refine ⟨⟨t, b, run, heard⟩, ?_, (two_places_lose_nothing (by simp)).1⟩
  rw [← heard]
  exact (two_places_lose_nothing (by simp)).2 run (Nat.le_refl 2) heard.symm

end TurnRendezvous
