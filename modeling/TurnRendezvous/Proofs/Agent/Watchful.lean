/-
# `Agent.Watchful` — an agent that cannot miss the end of its room

Whatever an agent listens for, it listens from a place in the feed at which its room was
not lost yet, so word of the loss comes after that place (`Hub.Warned`).  At first that
is the place that was taken with a snapshot of a live room.  Later it is one that was
taken before a turn was handed over: that the hub has accepted the turn proves that the
room was still alive then, which is after the place was taken (`not_lost_of_takeTurn`).

* `watchful_perform`: calls of others leave an agent watchful;
* `watchful_toils`, `watchful_step`: so do its tasks, if it keeps up, and its steps;
* `Watchful.hears`: while it waits or watches, there is something left to tell it.
-/
import TurnRendezvous.Proofs.Agent.Activity
import TurnRendezvous.Proofs.Agent.Labour
import TurnRendezvous.Proofs.Hub.Lost

namespace TurnRendezvous

namespace Hub

/-- The hub accepts a turn only on a room that is not lost to the player. -/
theorem not_lost_of_takeTurn {h : Hub} {p : PlayerId} {id : MatchId} {data : Bytes}
    {next : Option PlayerId} {m : Match} (hm : (h.takeTurn p id data next).2 = .ok m) :
    ¬(h.takeTurn p id data next).1.Lost p id := by
  rcases takeTurn_cases h p id data next with ⟨e, heq⟩ | ⟨r, hv, hc, heq⟩
  · rw [heq] at hm
    cases hm
  · obtain ⟨hmem, hid, hseen⟩ := mem_of_visible? hv
    rw [heq]
    intro hl
    have hmem' : r.withTurn data next ∈
        ((h.put (r.withTurn data next)).announce (r.withTurn data next)).rooms := by
      rw [rooms_announce]
      exact mem_rooms_of_put hmem rfl
    exact (Room.isSeenBy_iff.1 hseen).2
      (hl (r.withTurn data next) hmem' hid (Room.checkTurn_eq_ok_iff.1 hc).1)

theorem length_sent_perform {h : Hub} (hs : h.Sound) (a : Action) (p : PlayerId) :
    (h.feed p).sent.length ≤ ((h.perform a).feed p).sent.length := by
  obtain ⟨new, hsent, -⟩ := adds_perform (tidy_eq hs) a p
  rw [hsent, List.length_append]
  exact Nat.le_add_right _ _

end Hub

/-! ## Work -/

/-- The place in the feed from which work reads. -/
def Work.place? : Work → Option Nat
  | .awaitTurn v => some v.position
  | .awaitEnd v => some v.position
  | _ => none

/-- What such work reads it for. -/
def Work.watched? : Work → Option MatchId
  | .awaitTurn v => some v.matchId
  | .awaitEnd v => some v.matchId
  | _ => none

/-- Whether news ends such work. -/
def Work.isEndedBy (n : MatchNews) : Work → Bool
  | .awaitTurn v => (TurnWatch.verdict v.matchId n).isSome
  | .awaitEnd v => (EndWatch.verdict v.matchId n).isSome
  | _ => false

theorem Work.isEndedBy_of_endsMatch {w : Work} {id : MatchId} {n : MatchNews}
    (hw : w.watched? = some id) (hn : n.endsMatch id = true) : w.isEndedBy n = true := by
  cases w with
  | awaitTurn v =>
    obtain rfl := Option.some.inj hw
    simp [isEndedBy, TurnWatch.verdict_of_endsMatch hn]
  | awaitEnd v =>
    obtain rfl := Option.some.inj hw
    exact EndWatch.isSome_verdict.trans hn
  | _ => cases hw

/-- Work that reads the feed reads it for the match `id`, and is warned. -/
structure Work.Watchful (p : PlayerId) (id : MatchId) (h : Hub) (w : Work) : Prop where
  watched : ∀ i, w.watched? = some i → i = id
  warned : ∀ n, w.place? = some n → h.Warned p id n

section Work
variable {p : PlayerId} {id : MatchId} {h : Hub} {w w' : Work} {now : Instant}

theorem Work.Watchful.of_blind (hw : w.place? = none) : w.Watchful p id h := by
  cases w with
  | awaitTurn => cases hw
  | awaitEnd => cases hw
  | submit => exact ⟨by simp [watched?], by simp [place?]⟩
  | probe => exact ⟨by simp [watched?], by simp [place?]⟩
  | timer => exact ⟨by simp [watched?], by simp [place?]⟩

/-- What a wait for a turn has passed was no word of the end. -/
theorem TurnWatch.endsMatch_of_result? {v : TurnWatch} {feed : Feed MatchNews}
    (hr : v.result? feed now = none) :
    ∀ n ∈ feed.unread v.position, n.endsMatch v.matchId = false := by
  have hnone : (feed.unread v.position).findSome? (TurnWatch.verdict v.matchId) = none := by
    unfold TurnWatch.result? at hr
    split at hr
    · cases hr
    next h => exact h
  intro n hn
  cases he : n.endsMatch v.matchId with
  | false => rfl
  | true =>
    have hv := List.findSome?_eq_none_iff.1 hnone n hn
    rw [TurnWatch.verdict_of_endsMatch he] at hv
    cases hv

/-- And so for a watch for the end. -/
theorem EndWatch.endsMatch_of_result? {v : EndWatch} {feed : Feed MatchNews}
    (hr : v.result? feed = none) :
    ∀ n ∈ feed.unread v.position, n.endsMatch v.matchId = false := by
  have hnone : (feed.unread v.position).findSome? (EndWatch.verdict v.matchId) = none := by
    unfold EndWatch.result? at hr
    split at hr
    · cases hr
    next h => exact h
  intro n hn
  have hv := List.findSome?_eq_none_iff.1 hnone n hn
  rw [← EndWatch.isSome_verdict, hv]
  rfl

/-- Work that goes on has passed nothing by which it was warned. -/
theorem Work.Watchful.goesOn (hw : w.Watchful p id h)
    (hc : (h.feed p).capacity = Hub.feedCapacity)
    (hup : ∀ n, w.place? = some n → (h.feed p).sent.length ≤ n + Hub.feedCapacity)
    (hg : w.GoesOn (h.feed p) now w') : w'.Watchful p id h := by
  cases w with
  | awaitTurn v =>
    obtain ⟨hr, rfl⟩ := hg
    obtain rfl := hw.watched v.matchId rfl
    refine ⟨hw.watched, ?_⟩
    rintro n ⟨⟩
    exact Hub.warned_caughtUp (hw.warned _ rfl) hc (hup _ rfl) (v.endsMatch_of_result? hr)
  | awaitEnd v =>
    obtain ⟨hr, rfl⟩ := hg
    obtain rfl := hw.watched v.matchId rfl
    refine ⟨hw.watched, ?_⟩
    rintro n ⟨⟩
    exact Hub.warned_caughtUp (hw.warned _ rfl) hc (hup _ rfl) (v.endsMatch_of_result? hr)
  | submit data next issued =>
    cases issued with
    | false =>
      obtain rfl := hg
      exact .of_blind rfl
    | true => exact hg.elim
  | probe invite localId reply =>
    cases reply with
    | none =>
      obtain ⟨reply, rfl⟩ := hg
      exact .of_blind rfl
    | some => exact hg.elim
  | timer => exact hg.elim

end Work

namespace Rendezvous

/-! ## A rendezvous -/

/-- A rendezvous that cannot miss the end of its room. -/
structure Watchful (p : PlayerId) (id : MatchId) (h : Hub) (r : Rendezvous)
    (queue : List Notice) : Prop where
  matchId : r.matchId = id
  fresh : ∀ m n, r.progress = .fresh m n →
    r.pending = none ∧ (m.status.isLive = true → h.Warned p id n)
  works : ∀ t ∈ r.jobs.running, t.work.Watchful p id h
  pending : ∀ s, r.pending = some s → s.position ≤ (h.feed p).sent.length
  /-- When a turn is known to be accepted, the place from which it was handed over has
  shown to be a good one. -/
  accepted : ∀ g u, (g, .submitted (.ok u)) ∈ noticed queue → ∀ s, r.pending = some s →
    h.Warned p id s.position

variable {p : PlayerId} {id : MatchId} {h : Hub} {r r' : Rendezvous} {queue : List Notice}

/-- What others do leaves a rendezvous watchful. -/
theorem Watchful.perform (hw : r.Watchful p id h queue) (hs : h.Sound) {a : Hub.Action}
    (hf : a.Fresh h) (hl : h.Listens p) (he : h.Enrols p id) :
    r.Watchful p id (h.perform a) queue where
  matchId := hw.matchId
  fresh m n hp :=
    (hw.fresh m n hp).imp_right fun hfresh hlive => Hub.warned_perform hs hf hl he (hfresh hlive)
  works t ht :=
    ⟨(hw.works t ht).watched,
      fun n hn => Hub.warned_perform hs hf hl he ((hw.works t ht).warned n hn)⟩
  pending s hp := (hw.pending s hp).trans (Hub.length_sent_perform hs a p)
  accepted g u hn s hp := Hub.warned_perform hs hf hl he (hw.accepted g u hn s hp)

theorem Watchful.congr {queue' : List Notice} (hw : r.Watchful p id h queue)
    (hq : noticed queue' = noticed queue) : r.Watchful p id h queue' :=
  { hw with accepted := hq ▸ hw.accepted }

theorem Watchful.withJobs (hw : r.Watchful p id h queue) {jobs : Registry Task}
    (hj : ∀ t ∈ jobs.running, t.work.Watchful p id h) :
    (r.withJobs jobs).Watchful p id h queue :=
  ⟨hw.matchId, hw.fresh, hj, hw.pending, hw.accepted⟩

/-! ## Steps -/

/-- A rendezvous that has begun to listen from a good place, and waits for nothing else. -/
theorem watchful_watch {phase : Phase} {work : Work} (hid : r.matchId = id)
    (hp : r.progress = .underway) (hr : r.jobs.running = []) (hpend : r.pending = none)
    (hw : work.Watchful p id h) : ((r.enter phase).watch work).Watchful p id h queue where
  matchId := hid
  fresh m n hf := by simp [watch, enter, hp] at hf
  works := by simpa [watch, enter, hr] using hw
  pending s hs := by simp [watch, enter, hpend] at hs
  accepted g u _ s hs := by simp [watch, enter, hpend] at hs

/-- A watch from a good place. -/
theorem watchful_awaitTurn {now : Instant} {n : Nat} {timeout : Option Duration}
    (hid : r.matchId = id) (hp : r.progress = .underway) (hr : r.jobs.running = [])
    (hpend : r.pending = none) (hn : h.Warned p id n) :
    (r.awaitTurn now n timeout).Watchful p id h queue := by
  refine watchful_watch hid hp hr hpend ⟨?_, ?_⟩
  · rintro i ⟨⟩
    exact hid
  · rintro k ⟨⟩
    exact hn

theorem watchful_awaitEnd {n : Nat} (hid : r.matchId = id) (hp : r.progress = .underway)
    (hr : r.jobs.running = []) (hpend : r.pending = none) (hn : h.Warned p id n) :
    (r.awaitEnd n).Watchful p id h queue := by
  refine watchful_watch hid hp hr hpend ⟨?_, ?_⟩
  · rintro i ⟨⟩
    exact hid
  · rintro k ⟨⟩
    exact hn

/-- Playing a turn leaves a rendezvous watchful, from wherever it listens. -/
theorem watchful_of_played {m : Match} {n : Nat} {out : List Output} (hid : r.matchId = id)
    (hp : r.progress = .underway) (hr : r.jobs.running = []) (hq : noticed queue = [])
    (hn : n ≤ (h.feed p).sent.length) (hplay : r.Played m n r' out) :
    r'.progress = .ended ∨ r'.Watchful p id h queue := by
  cases hplay with
  | refused => exact .inl rfl
  | @handed d =>
    refine .inr ⟨hid, ?_, ?_, ?_, by simp [hq]⟩
    · intro m' n' hf
      simp [submit, hp] at hf
    · simpa [submit, hr] using
        Work.Watchful.of_blind (w := .submit d.data.encode m.opponent? false) rfl
    · rintro s ⟨⟩
      exact hn

theorem watchful_of_look {s : Surroundings} {m : Match} {n : Nat} {out : List Output}
    (hw : r.Watchful p id h queue) (hp : r.progress = .fresh m n) (hr : r.jobs.running = [])
    (hq : noticed queue = []) (hpass : r.Passage s (.look m n) r' out) :
    r'.progress = .ended ∨ r'.Watchful p id h queue := by
  obtain ⟨hpend, hfresh⟩ := hw.fresh m n hp
  cases hpass with
  | tooLate => exact .inl rfl
  | firstTurn hm hplay =>
    have hlive : m.status.isLive = true := (Bool.and_eq_true_iff.1 hm).1
    exact watchful_of_played (r := { r with progress := .underway }) hw.matchId rfl hr hq
      (hfresh hlive).inFeed hplay
  | firstWait hlive =>
    exact .inr (watchful_awaitTurn (r := { r with progress := .underway }) hw.matchId rfl hr hpend
      (hfresh hlive))

theorem watchful_of_notice {s : Surroundings} {n : Notice} {out : List Output}
    (hw : r.Watchful p id h (n :: queue)) (hu : r.progress = .underway)
    (hd : r.OnDuty (n :: queue)) (hs : s.position = (h.feed p).position)
    (hpass : r.Passage s (.notice n) r' out) :
    r'.progress = .ended ∨ r'.Watchful p id h queue := by
  -- once a turn is accepted nothing is pending any more
  have answered : ∀ {q : Submission}, r.pending = some q →
      n = .done r.generation (.submitted (.ok ())) → h.Warned p id q.position := by
    rintro q hq rfl
    exact hw.accepted _ () List.mem_cons_self q hq
  cases hpass with
  | laterTurn hp hplay =>
    obtain ⟨hr, hq⟩ := (onDuty_notice hd).2.2 (by simp [hp])
    exact watchful_of_played hw.matchId hu hr hq (by rw [hs]; exact Nat.le_refl _) hplay
  | @passedOn q base hp hpend =>
    obtain ⟨hr, hq⟩ := (onDuty_notice hd).2.2 (by simp [hp])
    exact .inr (watchful_awaitTurn (r := { r with submission := none, pending := none })
      hw.matchId hu hr rfl (answered hpend rfl))
  | @stayed q invite hp hpend =>
    obtain ⟨hr, hq⟩ := (onDuty_notice hd).2.2 (by simp [hp])
    exact .inr (watchful_awaitEnd (r := { r with submission := none, pending := none })
      hw.matchId hu hr rfl (answered hpend rfl))
  | @verifies q localId text hp _ _ hrole =>
    obtain ⟨hr, hq⟩ := (onDuty_notice hd).2.2 (by simp [hp])
    refine .inr ⟨?_, ?_, ?_, ?_, ?_⟩
    · simpa [verify, hrole, watch, enter] using hw.matchId
    · intro m n hf
      simp [verify, hrole, watch, enter, hu] at hf
    · intro t ht
      have ht : t = ⟨r.generation + 1, .probe text localId none⟩ ∨
          t = ⟨r.generation + 1, .timer (s.now + r.timing.probeTimeout.nanos)⟩ := by
        simpa [verify, hrole, watch, enter, hr] using ht
      rcases ht with rfl | rfl
      · exact .of_blind rfl
      · exact .of_blind rfl
    · intro s hs
      simp [verify, hrole, watch, enter] at hs
    · intro g u _ s hs
      simp [verify, hrole, watch, enter] at hs
  | _ => exact .inl rfl

end Rendezvous

namespace Agent

/-! ## An agent -/

/-- An agent that was not started, cannot miss the end of its room, or is over. -/
inductive Watchful (p : PlayerId) (id : MatchId) (h : Hub) (a : Agent) : Prop
  | unstarted : a.rendezvous = none → Watchful p id h a
  | playing {r : Rendezvous} : a.rendezvous = some r → r.Watchful p id h a.queue → Watchful p id h a
  | ended {r : Rendezvous} : a.rendezvous = some r → r.progress = .ended → Watchful p id h a

/-- An agent that has a rendezvous keeps up with the feed of its player: no watch that can
still tell it something has more news before it than a feed keeps. -/
def KeepsUp (p : PlayerId) (h : Hub) (a : Agent) : Prop :=
  ∀ r, a.rendezvous = some r → ∀ t ∈ r.jobs.running, ∀ n, t.work.place? = some n →
    (h.feed p).sent.length ≤ n + Hub.feedCapacity

variable {p : PlayerId} {id : MatchId} {h h' : Hub} {a b : Agent} {now : Instant}

theorem Watchful.congr (hw : a.Watchful p id h) (hs : a.SameWork b) : b.Watchful p id h := by
  cases hw with
  | unstarted hr => exact .unstarted (hs.rendezvous.trans hr)
  | playing hr hw => exact .playing (hs.rendezvous.trans hr) (hw.congr hs.noticed)
  | ended hr hp => exact .ended (hs.rendezvous.trans hr) hp

/-- Of an agent that was started, either it is over or its rendezvous is watchful. -/
theorem Watchful.rendezvous (hw : a.Watchful p id h) {r : Rendezvous}
    (hr : a.rendezvous = some r) : r.progress = .ended ∨ r.Watchful p id h a.queue := by
  cases hw with
  | unstarted hr₀ => simp [hr] at hr₀
  | playing hr₀ hw =>
    obtain rfl := Option.some.inj (hr.symm.trans hr₀)
    exact .inr hw
  | ended hr₀ hp =>
    obtain rfl := Option.some.inj (hr.symm.trans hr₀)
    exact .inl hp

theorem watchful_perform (hw : a.Watchful p id h) (hs : h.Sound) {act : Hub.Action}
    (hf : act.Fresh h) (hl : h.Listens p) (he : h.Enrols p id) :
    a.Watchful p id (h.perform act) := by
  cases hw with
  | unstarted hr => exact .unstarted hr
  | playing hr hw => exact .playing hr (hw.perform hs hf hl he)
  | ended hr hp => exact .ended hr hp

theorem watchful_onward (hw : a.Watchful p id h) (hr : h.Reachable) (hl : h.Listens p)
    (he : h.Enrols p id) (hrun : Hub.Onward h h') : a.Watchful p id h' := by
  induction hrun with
  | refl => exact hw
  | call hrun hf ih =>
    exact watchful_perform ih (Hub.reachable_sound (Hub.reachable_of_onward hr hrun)) hf
      (Hub.listens_of_onward hr hl hrun) (Hub.enrols_of_onward hr he hrun)

/-- An agent is started on what its player sees now. -/
theorem watchful_start (hst : a.Standing) {m : Match} (hm : h.snapshot? id p = some m)
    {signedIn : Bool} (hb : a.start? signedIn m (h.feed p).position = some b) :
    b.Watchful p id h := by
  obtain ⟨-, hq, role, -, rfl⟩ := start_of_standing hst hb
  have hid : m.id = id := by
    obtain ⟨r, hv, rfl⟩ := Option.map_eq_some_iff.1 hm
    exact (Hub.mem_of_visible? hv).2.1
  refine .playing rfl ⟨hid, ?_, List.forall_mem_nil _, by simp, by simp [hq]⟩
  intro m' n hp
  obtain ⟨rfl, rfl⟩ := Progress.fresh.inj hp
  refine ⟨rfl, fun hlive => Hub.warned_position ?_⟩
  intro hl
  exact absurd ((Hub.isLive_of_lost hl hm).symm.trans hlive) Bool.false_ne_true

/-! ## Tasks -/

section Task
variable {j : JobId} {t : Task} (ht : a.task? j = some t) (hw : a.Watchful p id h)
include ht hw

theorem watchful_progress (hc : (h.feed p).capacity = Hub.feedCapacity) (hup : a.KeepsUp p h)
    {work : Work} (hg : t.work.GoesOn (h.feed p) now work) :
    (a.progress j work).Watchful p id h := by
  obtain ⟨r, job, hr, hj, -, rfl⟩ := exists_of_task? ht
  have hr' := rendezvous_progress hr j work
  rcases hw.rendezvous hr with hp | hw
  · exact .ended hr' hp
  refine .playing hr' (hw.withJobs ?_)
  intro t ht
  rcases Registry.mem_running_of_progress ht with ht | ⟨job', hj', hrun, rfl⟩
  · exact hw.works t ht
  · obtain rfl := Option.some.inj (hj.symm.trans hj')
    exact (hw.works job.work hrun).goesOn hc (hup r hr job.work hrun) hg

/-- A task ends; if it ends with a turn that was accepted, the room was not lost then. -/
theorem watchful_complete {how : TaskEnd}
    (haccepted : ∀ u, how = .submitted (.ok u) → ¬h.Lost p id) :
    (a.complete j how).Watchful p id h := by
  obtain ⟨r, job, hr, hj, -, rfl⟩ := exists_of_task? ht
  rcases hw.rendezvous hr with hp | hw
  · exact .ended (rendezvous_complete hr ht how) hp
  have hjobs : (r.withJobs (r.jobs.complete j).2).Watchful p id h a.queue := by
    refine hw.withJobs ?_
    intro t ht
    exact hw.works t (Registry.running_modify_subset r.jobs j (by simp) (by simp) ht)
  rw [complete_eq hr ht how]
  refine .playing rfl ?_
  split
  · refine { hjobs with accepted := ?_ }
    intro g u hn s hs
    rw [noticed_append] at hn
    rcases List.mem_append.1 hn with hn | hn
    · exact hjobs.accepted g u hn s hs
    · obtain ⟨-, rfl⟩ := Prod.ext_iff.1 (List.mem_singleton.1 hn)
      exact Hub.warned_of_not_lost (hjobs.pending s hs) (haccepted u rfl)
  · exact hjobs

end Task

/-- What a task does that reads the feed leaves the agent watchful. -/
theorem watchful_labours (hw : a.Watchful p id h) (hs : h.Sound) (hl : h.Listens p)
    (he : h.Enrols p id) (hc : (h.feed p).capacity = Hub.feedCapacity) (hup : a.KeepsUp p h)
    (hstep : Labours p now h a h' b) : b.Watchful p id h' := by
  cases hstep with
  | goOn ht hg => exact watchful_progress ht hw hc hup hg
  | finish ht hend =>
    refine watchful_complete ht hw ?_
    rintro u rfl
    unfold Work.Ends at hend
    split at hend <;> simp_all
  | @land j t r data next room ht hwork hr hok =>
    rcases hw.rendezvous hr with hp | hwr
    · exact .ended (rendezvous_complete hr ht _) hp
    · obtain rfl := hwr.matchId
      have moved : a.Watchful p _ (h.perform (.takeTurn p r.matchId data next)) :=
        watchful_perform hw hs trivial hl he
      exact watchful_complete ht moved fun _ _ => Hub.not_lost_of_takeTurn hok

/-- Handing a turn over leaves the watches where they are. -/
theorem keepsUp_issued (hup : a.KeepsUp p h) {j : JobId} {t : Task} (ht : a.task? j = some t)
    (data : Bytes) (next : Option PlayerId) :
    (a.progress j (.submit data next true)).KeepsUp p h := by
  obtain ⟨r, -, hr, -, -, -⟩ := exists_of_task? ht
  intro r' hr' t' ht' n hn
  obtain rfl := Option.some.inj ((rendezvous_progress hr _ _).symm.trans hr')
  rcases Registry.mem_running_of_progress ht' with ht' | ⟨job, -, -, rfl⟩
  · exact hup r hr t' ht' n hn
  · cases hn

theorem watchful_toils (hw : a.Watchful p id h) (hs : h.Sound) (hl : h.Listens p)
    (he : h.Enrols p id) (hc : (h.feed p).capacity = Hub.feedCapacity) (hup : a.KeepsUp p h)
    (hstep : Toils p now h a h' b) : b.Watchful p id h' := by
  cases hstep with
  | once hl' => exact watchful_labours hw hs hl he hc hup hl'
  | @atOnce j t data next _ _ ht hwork hl' =>
    have goesOn : t.work.GoesOn (h.feed p) now (.submit data next true) := by
      rw [hwork]
      rfl
    have issued := watchful_progress ht hw hc hup goesOn
    exact watchful_labours issued hs hl he hc (keepsUp_issued hup ht data next) hl'

/-! ## Steps -/

theorem watchful_step (hst : a.Standing) (hw : a.Watchful p id h) {s : Surroundings}
    (hs : s.position = (h.feed p).position)
    {within : List OwnerCall} {marks : List Mark}
    (hb : a.stepWithin? s within = some (b, marks)) : b.Watchful p id h := by
  obtain ⟨a', r', out, hstride, hstep⟩ := stride_of_stepWithin? hst hb
  obtain ⟨rfl, -⟩ := Prod.ext_iff.1 hstep
  refine Watchful.congr (a := { a' with rendezvous := some r' }) ?_
    (sameWork_absorbWithin within a' r' out)
  have settles : r'.progress = .ended ∨ r'.Watchful p id h a'.queue →
      Watchful p id h { a' with rendezvous := some r' } := by
    rintro (hend | hw')
    · exact .ended rfl hend
    · exact .playing rfl hw'
  cases hstride with
  | @first r _ m position _ hr _ hp _ _ hjobs hpass =>
    have hwr := (hw.rendezvous hr).resolve_left (by simp [hp])
    exact settles (Rendezvous.watchful_of_look hwr hp (by simp [hjobs, Registry.running])
      (hst.noticed_eq_nil hr hp) hpass)
  | @later r _ n queue _ hr _ hp hq hd hpass =>
    have hwr := (hw.rendezvous hr).resolve_left (by simp [hp])
    rw [hq] at hwr
    exact settles (Rendezvous.watchful_of_notice hwr hp hd hs hpass)

/-! ## What is left to hear -/

/-- Something is left to tell an agent that its room `id` is lost. -/
inductive Hears (p : PlayerId) (id : MatchId) (h : Hub) (a : Agent) (r : Rendezvous) : Prop
  /-- Word that ends it is before a watch that the phase stands for. -/
  | unread {j : JobId} {t : Task} {n : Nat} {news : MatchNews} :
      a.task? j = some t → t.generation = r.generation → t.work.activity ∈ r.phase.activities →
      t.work.place? = some n → news ∈ (h.feed p).unread n → t.work.isEndedBy news = true →
      news.endsMatch id = true → Hears p id h a r
  /-- The end of such a watch is on its way. -/
  | noticed {how : TaskEnd} :
      .done r.generation how ∈ a.queue → how.activity ∈ r.phase.activities → Hears p id h a r

/-- An agent that waits for its turn or watches its room is on duty. -/
theorem onDuty_of_watching (hst : a.Standing) {r : Rendezvous} (hr : a.rendezvous = some r)
    (hphase : r.phase = .waitingForTurn ∨ r.phase = .monitoring) :
    r.progress = .underway ∧ r.OnDuty a.queue := by
  cases hst with
  | unstarted hr₀ => simp [hr] at hr₀
  | fresh hr₀ _ _ hidle =>
    obtain rfl := Option.some.inj (hr.symm.trans hr₀)
    simp [hidle] at hphase
  | driving hr₀ _ hp hd =>
    obtain rfl := Option.some.inj (hr.symm.trans hr₀)
    exact ⟨hp, hd⟩
  | ended hr₀ _ ho =>
    obtain rfl := Option.some.inj (hr.symm.trans hr₀)
    simp [ho.phase] at hphase

/-- As long as an agent waits for its turn or watches its room, something is left to tell
it that the room is lost. -/
theorem Watchful.hears (hw : a.Watchful p id h) (hst : a.Standing)
    (hc : (h.feed p).capacity = Hub.feedCapacity) (hup : a.KeepsUp p h) {r : Rendezvous}
    (hr : a.rendezvous = some r) (hphase : r.phase = .waitingForTurn ∨ r.phase = .monitoring)
    (hl : h.Lost p id) : a.Hears p id h r := by
  obtain ⟨hu, hd⟩ := onDuty_of_watching hst hr hphase
  have hwr := (hw.rendezvous hr).resolve_left (by simp [hu])
  -- in both phases one watch is all that goes on; it runs or its end is in the queue
  obtain ⟨act, hact, hwatch⟩ : ∃ act, r.phase.activities = [act] ∧
      ∀ w : Work, w.activity = act → ∃ i n, w.watched? = some i ∧ w.place? = some n := by
    rcases hphase with hphase | hphase
    · refine ⟨.turnWait, by rw [hphase]; rfl, ?_⟩
      intro w ha
      cases w with
      | awaitTurn v => exact ⟨_, _, rfl, rfl⟩
      | _ => cases ha
    · refine ⟨.endWatch, by rw [hphase]; rfl, ?_⟩
      intro w ha
      cases w with
      | awaitEnd v => exact ⟨_, _, rfl, rfl⟩
      | _ => cases ha
  have hmem := hd.activities.symm.subset (hact ▸ List.mem_singleton_self act)
  rcases List.mem_append.1 hmem with hmem | hmem
  · obtain ⟨t, ht, ha⟩ := List.mem_map.1 hmem
    obtain ⟨j, hj⟩ := exists_task?_of_running hr ht
    obtain ⟨i, n, hi, hn⟩ := hwatch t.work ha
    obtain rfl := (hwr.works t ht).watched i hi
    obtain ⟨news, hnews, hend⟩ := ((hwr.works t ht).warned n hn).unread hc (hup r hr t ht n hn) hl
    exact .unread hj (hd.running_current t ht) (by rw [hact, ha]; exact List.mem_singleton_self _)
      hn hnews (Work.isEndedBy_of_endsMatch hi hend) hend
  · obtain ⟨⟨g, how⟩, hn, ha⟩ := List.mem_map.1 hmem
    obtain rfl : g = r.generation := hd.noticed_current _ hn
    exact .noticed (mem_noticed_iff.1 hn) (by rw [hact, ← ha]; exact List.mem_singleton_self _)

end Agent

end TurnRendezvous
