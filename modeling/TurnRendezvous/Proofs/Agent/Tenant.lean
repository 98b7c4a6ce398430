/-
# `Agent.Tenant` — an agent on its way from one turn to the next

An agent listens from the place at which it stood when it played its last turn, and
in between only from places further on.  So what it can still hear is what its
`Tenure` leaves open, and what is on its way to the service is the turn that the
tenure says is decided (`Rendezvous.Fits`).

Of the past only the turns that were played and the versions at which they were
accepted count (`TurnEvent`).

* `tenant_since`: what others do leaves an agent a tenant;
* `tenant_land`, `tenant_step`: so do a turn that lands and a step of the rendezvous;
* `newer_of_step`: and what such a step plays a turn on is newer than what was
  accepted, but for one case.
-/
import TurnRendezvous.Proofs.Agent.Faithful
import TurnRendezvous.Proofs.Hub.Tenure

namespace TurnRendezvous

/-- What happens to the turns of an agent. -/
inductive TurnEvent
  /-- A turn is played on a snapshot. -/
  | played (m : Match)
  /-- The service accepts a turn, which leads to a version. -/
  | accepted (version : Nat)
deriving DecidableEq

/-- A snapshot comes after every turn that was accepted; or it is what was told when
somebody took the open slot before the last of these turns, which went to a player
who was there already. -/
def Newer (e : List TurnEvent) (m : Match) : Prop :=
  ∀ v, .accepted v ∈ e → v < m.version ∨
    ∃ m₀, .played m₀ ∈ e ∧ m₀.Joined m ∧ v = m.version + 1 ∧ m₀.opponent? ≠ none

namespace Tenure

/-- What holds of the versions so far. -/
def Recalls (e : List TurnEvent) : Tenure → Prop
  | .awaiting => ∀ v, .accepted v ∉ e
  | .deciding m => ∀ v, .accepted v ∈ e → v < m.version
  | .taken m v => v = m.version + 1 ∧ ∀ v', .accepted v' ∈ e → v' = v ∨ v' < m.version

/-- The snapshot of the last turn. -/
def turn? : Tenure → Option Match
  | .awaiting => none
  | .deciding m => some m
  | .taken m _ => some m

variable {p : PlayerId} {id : MatchId} {h : Hub} {e : List TurnEvent} {τ : Tenure} {m : Match}

theorem Recalls.played (hr : τ.Recalls e) (m : Match) : τ.Recalls (e ++ [.played m]) := by
  have old : ∀ v, TurnEvent.accepted v ∈ e ++ [.played m] → .accepted v ∈ e := by
    intro v hv
    simpa using hv
  cases τ with
  | awaiting => exact fun v hv => hr v (old v hv)
  | deciding m₀ => exact fun v hv => hr v (old v hv)
  | taken m₀ v => exact ⟨hr.1, fun v' hv => hr.2 v' (old v' hv)⟩

/-- A turn is accepted that was decided on a newer snapshot than all before. -/
theorem Recalls.accepted (hr : (deciding m).Recalls e) :
    (taken m (m.version + 1)).Recalls (e ++ [.accepted (m.version + 1)]) := by
  refine ⟨rfl, ?_⟩
  intro v hv
  rcases List.mem_append.1 hv with hv | hv
  · exact .inr (hr v hv)
  · exact .inl (TurnEvent.accepted.inj (List.mem_singleton.1 hv))

/-- Whatever still calls for a turn is newer, if the last one was played. -/
theorem newer_of_apt (hr : τ.Recalls e) (hτ : ∀ m, τ ≠ .deciding m)
    (hplayed : ∀ m, τ.turn? = some m → .played m ∈ e) (hm : τ.Apt p id h m) : Newer e m := by
  intro v hv
  cases τ with
  | awaiting => exact absurd hv (hr v)
  | deciding m₀ => exact absurd rfl (hτ m₀)
  | taken m₀ v₀ =>
    obtain ⟨hv₀, hold⟩ := hr
    rcases hm with ⟨-, hlt⟩ | ⟨hj, hlast, hnext⟩
    · left
      rcases hold v hv with rfl | hv
      · exact hlt
      · omega
    · rcases hold v hv with rfl | hv
      · exact .inr ⟨m₀, hplayed m₀ rfl, hj, hlast, hnext⟩
      · exact .inl (hj.version.symm ▸ hv)

end Tenure

section Fits
variable (p : PlayerId) (id : MatchId) (h : Hub) (τ : Tenure)

/-- Work that fits a tenure: it hears only what is apt, and hands over the turn that is
decided. -/
def Work.Fits : Work → Prop
  | .awaitTurn v => v.matchId = id ∧ τ.Expects p id h v.position
  | .submit _ next _ => ∃ m, τ = .deciding m ∧ next = m.opponent?
  | _ => True

/-- What has become of such work. -/
def TaskEnd.Fits : TaskEnd → Prop
  | .turn (.myTurn m) => m.id = id ∧ m.isMyTurn = true ∧ τ.Apt p id h m
  | .submitted (.ok _) => ∃ m v, τ = .taken m v
  | _ => True

/-- Work that listens has read the feed when it goes on. -/
theorem Work.Fits.goOn {p : PlayerId} {id : MatchId} {h : Hub} {τ : Tenure} {w w' : Work}
    (hw : w.Fits p id h τ) (hb : w.MayBecome w')
    (hread : ∀ v, w = .awaitTurn v → w' = .awaitTurn (v.caughtUp (h.feed p))) :
    w'.Fits p id h τ := by
  cases w with
  | awaitTurn v =>
    obtain rfl := hread v rfl
    exact ⟨hw.1, Tenure.expects_position p id h τ⟩
  | submit data next issued =>
    cases issued with
    | false =>
      obtain rfl := hb
      exact hw
    | true => exact hb.elim
  | awaitEnd =>
    obtain ⟨feed, rfl⟩ := hb
    trivial
  | probe _ _ reply =>
    cases reply with
    | none =>
      obtain ⟨reply, rfl⟩ := hb
      trivial
    | some => exact hb.elim
  | timer => exact hb.elim

/-- Work that listens ends with what it has read. -/
theorem Work.Fits.finish {p : PlayerId} {id : MatchId} {h : Hub} {τ : Tenure} {w : Work}
    {how : TaskEnd} (hw : w.Fits p id h τ) (he : w.MayEnd how)
    (hread : ∀ v result, w = .awaitTurn v → how = .turn result →
      ∃ now, v.result? (h.feed p) now = some result)
    (hrefused : ∀ u, how ≠ .submitted (.ok u)) : how.Fits p id h τ := by
  cases how with
  | turn result =>
    cases result with
    | myTurn m =>
      cases w with
      | awaitTurn v =>
        obtain ⟨now, hres⟩ := hread v _ rfl rfl
        obtain ⟨hm, hid, hmine⟩ := TurnWatch.received_of_result? hres
        have hid := hid.trans hw.1
        exact ⟨hid, hmine, hw.2 m hm hid hmine⟩
      | _ => exact he.elim
    | _ => trivial
  | submitted answer =>
    cases answer with
    | ok u => exact absurd rfl (hrefused u)
    | error => trivial
  | _ => trivial

end Fits

namespace Rendezvous

/-- A rendezvous that plays for `p` on the hub `h` and has come as far as `τ` says. -/
structure Fits (p : PlayerId) (id : MatchId) (h : Hub) (e : List TurnEvent) (τ : Tenure)
    (r : Rendezvous) (queue : List Notice) : Prop where
  matchId : r.matchId = id
  agrees : τ.Agrees p id h
  recalls : τ.Recalls e
  /-- The first snapshot is the current one, if it calls for a turn. -/
  fresh : ∀ m position, r.progress = .fresh m position →
    m.id = id ∧ τ = (if m.isMyTurn then .deciding m else .awaiting) ∧ τ.Expects p id h position
  remembers : r.progress = .underway → ∀ m, τ.turn? = some m →
    .played m ∈ e ∧ r.oldData = some (Payload.decode m.data)
  waits : r.phase = .waitingForTurn → ∀ m, τ ≠ .deciding m
  works : ∀ t ∈ r.jobs.running, t.work.Fits p id h τ
  notices : ∀ n ∈ noticed queue, n.2.Fits p id h τ
  pending : ∀ s, r.pending = some s → τ.Expects p id h s.position

variable {p : PlayerId} {id : MatchId} {h : Hub} {e : List TurnEvent} {τ : Tenure}
  {r r' : Rendezvous} {queue : List Notice}

theorem Fits.congr {queue' : List Notice} (hf : r.Fits p id h e τ queue)
    (hq : noticed queue' = noticed queue) : r.Fits p id h e τ queue' :=
  { hf with notices := hq ▸ hf.notices }

theorem Fits.withJobs (hf : r.Fits p id h e τ queue) {jobs : Registry Task}
    (hw : ∀ t ∈ jobs.running, t.work.Fits p id h τ) :
    (r.withJobs jobs).Fits p id h e τ queue :=
  ⟨hf.matchId, hf.agrees, hf.recalls, hf.fresh, hf.remembers, hf.waits, hw, hf.notices, hf.pending⟩

/-- What others do leaves a rendezvous where it is. -/
theorem Fits.since {h' : Hub} (hs : h.Sound) (hrun : Hub.Since p id h h')
    (hf : r.Fits p id h e τ queue) : r.Fits p id h' e τ queue := by
  obtain ⟨hagrees, hexpects, hapt⟩ := Tenure.follows_since hs hrun hf.agrees
  refine
    { hf with
      agrees := hagrees, fresh := ?_, works := ?_, notices := ?_
      pending := fun s hp => hexpects _ (hf.pending s hp) }
  · intro m position hp
    obtain ⟨hid, hτ, he⟩ := hf.fresh m position hp
    exact ⟨hid, hτ, hexpects _ he⟩
  · intro t ht
    have hw := hf.works t ht
    cases hwork : t.work with
    | awaitTurn v =>
      rw [hwork] at hw
      exact ⟨hw.1, hexpects _ hw.2⟩
    | submit =>
      rw [hwork] at hw
      exact hw
    | _ => trivial
  · intro n hn
    have hw := hf.notices n hn
    obtain ⟨g, how⟩ := n
    cases how with
    | turn result =>
      cases result with
      | myTurn m => exact ⟨hw.1, hw.2.1, hapt m hw.1 hw.2.2⟩
      | _ => trivial
    | submitted answer =>
      cases answer with
      | ok => exact hw
      | error => trivial
    | _ => trivial

/-! ## Steps -/

/-- A turn is handed over. -/
theorem fits_of_handed {m : Match} {position : Nat} {d : Decision} (hid : r.matchId = id)
    (hp : r.progress = .underway) (hr : r.jobs.running = []) (hq : noticed queue = [])
    (hagrees : (Tenure.deciding m).Agrees p id h) (hrecalls : (Tenure.deciding m).Recalls e)
    (hexpects : (Tenure.deciding m).Expects p id h position) :
    ({ r with
        phase := .processingTurn
        role := d.role
        oldData := some (Payload.decode m.data) }.submit d m.opponent? position).1.Fits
      p id h (e ++ [TurnEvent.played m]) (.deciding m) queue where
  matchId := hid
  agrees := hagrees
  recalls := hrecalls.played m
  fresh m' position' hf := by simp [submit, hp] at hf
  remembers := by
    rintro - m' ⟨⟩
    exact ⟨List.mem_append_right _ (List.mem_singleton_self _), rfl⟩
  waits := by
    intro hw
    simp [submit] at hw
  works := by
    simp [submit, hr, Work.Fits]
  notices := by simp [hq]
  pending := by
    rintro s ⟨⟩
    exact hexpects

/-- A watch for the next turn is set up where the rendezvous already listened. -/
theorem fits_of_waiting {now : Instant} {position : Nat} {timeout : Option Duration}
    (hf : r.Fits p id h e τ queue) (hp : r.progress = .underway) (hr : r.jobs.running = [])
    (hτ : ∀ m, τ ≠ .deciding m) (hexpects : τ.Expects p id h position) :
    (r.awaitTurn now position timeout).Fits p id h e τ queue where
  matchId := hf.matchId
  agrees := hf.agrees
  recalls := hf.recalls
  fresh m position' hfresh := by simp [awaitTurn, watch, enter, hp] at hfresh
  remembers := hf.remembers
  waits _ := hτ
  works := by
    have hw : (Work.awaitTurn (.arm now r.matchId position timeout)).Fits p id h τ :=
      ⟨hf.matchId, hexpects⟩
    simpa [awaitTurn, watch, enter, hr] using hw
  notices := hf.notices
  pending := hf.pending

/-- The rendezvous when its turn was accepted. -/
theorem Fits.answered (hf : r.Fits p id h e τ queue) :
    { r with submission := none, pending := none }.Fits p id h e τ queue :=
  ⟨hf.matchId, hf.agrees, hf.recalls, hf.fresh, hf.remembers, hf.waits, hf.works, hf.notices,
    by simp⟩

/-- The rendezvous without the notice that it takes. -/
theorem Fits.tail {n : Notice} (hf : r.Fits p id h e τ (n :: queue)) : r.Fits p id h e τ queue := by
  refine { hf with notices := ?_ }
  intro n' hn
  refine hf.notices n' ?_
  cases n with
  | done g how => exact List.mem_cons_of_mem _ hn
  | detach => exact hn

/-- The rendezvous goes on to something else than a turn. -/
theorem Fits.elsewhere (hf : r.Fits p id h e τ queue) (hid : r'.matchId = r.matchId)
    (hp : r'.progress = .underway ∧ r.progress = .underway) (hold : r'.oldData = r.oldData)
    (hphase : r'.phase ≠ .waitingForTurn) (hpend : r'.pending = r.pending)
    (hw : ∀ t ∈ r'.jobs.running, t.work.Fits p id h τ) : r'.Fits p id h e τ queue where
  matchId := hid.trans hf.matchId
  agrees := hf.agrees
  recalls := hf.recalls
  fresh m position h := by simp [hp.1] at h
  remembers _ m hm := by
    rw [hold]
    exact hf.remembers hp.2 m hm
  waits h := absurd h hphase
  works := hw
  notices := hf.notices
  pending := hpend ▸ hf.pending

/-- What is played in a step. -/
def Cause.events (c : Cause) : List TurnEvent := (c.toPlay?.map TurnEvent.played).toList

theorem Cause.append_events {c : Cause} (hc : c.toPlay? = none) (e : List TurnEvent) :
    e ++ c.events = e := by
  simp [events, hc]

theorem fits_of_look {s : Surroundings} {m : Match} {position : Nat} {out : List Output}
    (hf : r.Fits p id h e τ queue) (hp : r.progress = .fresh m position)
    (hr : r.jobs.running = []) (hq : noticed queue = [])
    (hpass : r.Passage s (.look m position) r' out) :
    r'.progress = .ended ∨
      ∃ τ', r'.Fits p id h (e ++ (Cause.look m position).events) τ' queue := by
  obtain ⟨hid, hτ, he⟩ := hf.fresh m position hp
  cases hpass with
  | tooLate => exact .inl rfl
  | firstTurn hm hplay =>
    obtain rfl : τ = .deciding m := by rw [hτ, if_pos hm]
    cases hplay with
    | refused => exact .inl rfl
    | handed =>
      refine .inr ⟨.deciding m, ?_⟩
      simp only [Cause.events, Cause.toPlay?, hm, if_true, Option.map_some, Option.toList_some]
      exact fits_of_handed (r := { r with progress := .underway })
        hf.matchId rfl hr hq hf.agrees hf.recalls he
  | firstWait _ hm =>
    have hτ : τ = .awaiting := by rw [hτ, if_neg (by simp [hm])]
    subst hτ
    refine .inr ⟨.awaiting, ?_⟩
    have begun : { r with progress := .underway }.Fits p id h e .awaiting queue :=
      ⟨hf.matchId, hf.agrees, hf.recalls, (fun _ _ h => by simp at h), (fun _ _ h => by cases h),
        hf.waits, hf.works, hf.notices, hf.pending⟩
    rw [Cause.append_events (by simp [Cause.toPlay?, hm])]
    exact fits_of_waiting begun rfl hr (fun m h => by cases h) he

/-- Nobody plays on when a snapshot comes with the data that was found before. -/
theorem eq_refused_of_verdict {m : Match} {wait : Duration} {role : Role} {d : Decision}
    (hv : Role.Verdict m wait role (some .uninitialized) d)
    (hm : Payload.decode m.data = .uninitialized) : d.signal = some .matchInvalid := by
  cases hv with
  | refused => rfl
  | found _ hd => simp [hm] at hd
  | suspected _ hd => simp [hm] at hd

/-- A later turn that is played on was called for after the last one. -/
theorem current_of_handed {m : Match} {d : Decision} (hf : r.Fits p id h e τ queue)
    (hu : r.progress = .underway) (hp : r.phase = .waitingForTurn) (hc : r.Course)
    (hm : τ.Apt p id h m) (hv : Role.Verdict m r.timing.defaultTurnWait r.role r.oldData d)
    (hd : d.signal ≠ some .matchInvalid) :
    h.Current p m ∧ (Tenure.deciding m).Recalls e := by
  cases τ with
  | awaiting => exact ⟨hm, fun v hv => absurd hv (hf.recalls v)⟩
  | deciding m₀ => exact absurd rfl (hf.waits hp m₀)
  | taken m₀ v₀ =>
    obtain ⟨hv₀, hold⟩ := hf.recalls
    rcases hm with ⟨hcur, hlt⟩ | ⟨hj, -, -⟩
    · refine ⟨hcur, ?_⟩
      intro v hv
      rcases hold v hv with rfl | hv
      · exact hlt
      · omega
    · -- the snapshot was told before the turn, so it carries the data of the turn before
      have hdata := (hf.remembers hu m₀ rfl).2
      simp only [Course, hp] at hc
      rcases hc with hc | ⟨hc, -⟩
      · simp [hc] at hdata
      · have hun : Payload.decode m₀.data = .uninitialized :=
          (Option.some.inj (hc.symm.trans hdata)).symm
        rw [hc] at hv
        exact absurd (eq_refused_of_verdict hv (hj.data ▸ hun)) hd

theorem fits_of_notice {s : Surroundings} {n : Notice} {out : List Output}
    (hf : r.Fits p id h e τ (n :: queue)) (hu : r.progress = .underway)
    (hd : r.OnDuty (n :: queue)) (hs : s.position = (h.feed p).position)
    (hpass : r.Passage s (.notice n) r' out) :
    r'.progress = .ended ∨ ∃ τ', r'.Fits p id h (e ++ (Cause.notice n).events) τ' queue := by
  cases hpass with
  | @laterTurn m _ _ hp hplay =>
    obtain ⟨hr, hq⟩ := (onDuty_notice hd).2.2 (by simp [hp])
    have hm : (TaskEnd.turn (.myTurn m)).Fits p id h τ := hf.notices _ List.mem_cons_self
    cases hplay with
    | refused => exact .inl rfl
    | handed hv hsig =>
      obtain ⟨hcur, hrecalls⟩ := current_of_handed hf hu hp hd.course hm.2.2 hv hsig
      refine .inr ⟨.deciding m, fits_of_handed hf.matchId hu hr hq ⟨hm.1, hcur⟩ hrecalls ?_⟩
      rw [hs]
      exact Tenure.expects_position p id h _
  | @passedOn w base hp hpend =>
    obtain ⟨hr, hq⟩ := (onDuty_notice hd).2.2 (by simp [hp])
    obtain ⟨m, v, rfl⟩ : (TaskEnd.submitted (.ok ())).Fits p id h τ :=
      hf.notices _ List.mem_cons_self
    refine .inr ⟨.taken m v, ?_⟩
    rw [Cause.append_events rfl]
    exact fits_of_waiting hf.tail.answered hu hr (fun m h => by cases h) (hf.pending w hpend)
  | stayed hp =>
    obtain ⟨hr, hq⟩ := (onDuty_notice hd).2.2 (by simp [hp])
    refine .inr ⟨τ, ?_⟩
    rw [Cause.append_events rfl]
    refine hf.tail.answered.elsewhere rfl ⟨hu, hu⟩ rfl ?_ rfl ?_
    · simp [awaitEnd, watch, enter]
    · simp [awaitEnd, watch, enter, hr, Work.Fits]
  | verifies hp _ _ hrole =>
    obtain ⟨hr, hq⟩ := (onDuty_notice hd).2.2 (by simp [hp])
    refine .inr ⟨τ, ?_⟩
    rw [Cause.append_events rfl]
    simp only [verify, hrole]
    refine hf.tail.answered.elsewhere rfl ⟨hu, hu⟩ rfl ?_ rfl ?_
    · simp [watch, enter]
    · simp [watch, enter, hr, Work.Fits]
  | _ => exact .inl rfl

/-- What a step plays a turn on is newer than what was accepted, but for one case. -/
theorem newer_of_cause {s : Surroundings} {c : Cause} {m : Match} {out : List Output}
    (hf : r.Fits p id h e τ queue) (hpass : r.Passage s c r' out) (hplay : c.toPlay? = some m)
    (hlook : ∀ m position, c = .look m position → r.progress = .fresh m position)
    (hnotice : ∀ n, c = .notice n →
      r.progress = .underway ∧ ∀ g how, n = .done g how → how.Fits p id h τ) : Newer e m := by
  cases c with
  | look m' position =>
    simp only [Cause.toPlay?, Option.ite_none_right_eq_some] at hplay
    obtain ⟨hm, hplay⟩ := hplay
    obtain rfl := Option.some.inj hplay
    obtain ⟨-, hτ, -⟩ := hf.fresh m' position (hlook m' position rfl)
    obtain rfl : τ = .deciding m' := by rw [hτ, if_pos hm]
    intro v hv
    exact .inl (hf.recalls v hv)
  | notice n =>
    obtain ⟨hu, hfits⟩ := hnotice n rfl
    cases hpass with
    | @laterTurn m' _ _ hp =>
      obtain rfl : m' = m := Option.some.inj hplay
      have hm : (TaskEnd.turn (.myTurn m')).Fits p id h τ := hfits _ _ rfl
      exact Tenure.newer_of_apt hf.recalls (hf.waits hp) (fun m hm => (hf.remembers hu m hm).1)
        hm.2.2
    | @waitEnded result o _ ho =>
      cases result with
      | myTurn => simp [TurnResult.outcome?] at ho
      | _ => cases hplay
    | _ => cases hplay

end Rendezvous

namespace Agent

/-- An agent of `p` that plays on the hub `h`, or has not begun to, or is over. -/
inductive Tenant (p : PlayerId) (id : MatchId) (h : Hub) (e : List TurnEvent) (a : Agent) : Prop
  | unstarted : a.rendezvous = none → e = [] → Tenant p id h e a
  | playing {r : Rendezvous} {τ : Tenure} :
      a.rendezvous = some r → r.Fits p id h e τ a.queue → Tenant p id h e a
  | ended {r : Rendezvous} :
      a.rendezvous = some r → r.matchId = id → r.progress = .ended → Tenant p id h e a

variable {p : PlayerId} {id : MatchId} {h : Hub} {e : List TurnEvent} {a b : Agent}

theorem Tenant.congr (ht : a.Tenant p id h e) (hs : a.SameWork b) : b.Tenant p id h e := by
  cases ht with
  | unstarted hr he => exact .unstarted (hs.rendezvous.trans hr) he
  | playing hr hf => exact .playing (hs.rendezvous.trans hr) (hf.congr hs.noticed)
  | ended hr hid hp => exact .ended (hs.rendezvous.trans hr) hid hp

/-- A tenant that was started is over, or its rendezvous fits. -/
theorem Tenant.fits (ht : a.Tenant p id h e) {r : Rendezvous} (hr : a.rendezvous = some r) :
    r.matchId = id ∧ (r.progress = .ended ∨ ∃ τ, r.Fits p id h e τ a.queue) := by
  cases ht with
  | unstarted hr₀ => simp [hr] at hr₀
  | playing hr₀ hf =>
    obtain rfl := Option.some.inj (hr.symm.trans hr₀)
    exact ⟨hf.matchId, .inr ⟨_, hf⟩⟩
  | ended hr₀ hid hp =>
    obtain rfl := Option.some.inj (hr.symm.trans hr₀)
    exact ⟨hid, .inl hp⟩

theorem tenant_since {h' : Hub} (hs : h.Sound) (hrun : Hub.Since p id h h')
    (ht : a.Tenant p id h e) : a.Tenant p id h' e := by
  cases ht with
  | unstarted hr he => exact .unstarted hr he
  | playing hr hf => exact .playing hr (hf.since hs hrun)
  | ended hr hid hp => exact .ended hr hid hp

/-! ## Moves -/

/-- An agent is started on what its player sees now, and listens from now on. -/
theorem tenant_start (hs : h.Sound) (hst : a.Standing) (ht : a.Tenant p id h e) {m : Match}
    (hm : h.snapshot? id p = some m) {signedIn : Bool}
    (hb : a.start? signedIn m (h.feed p).position = some b) : b.Tenant p id h e := by
  obtain ⟨hr, hq, role, -, rfl⟩ := start_of_standing hst hb
  obtain rfl : e = [] := by
    cases ht with
    | unstarted _ he => exact he
    | playing hr' => simp [hr] at hr'
    | ended hr' => simp [hr] at hr'
  obtain ⟨r, hv, rfl⟩ := Option.map_eq_some_iff.1 hm
  obtain ⟨hmem, hid, -⟩ := Hub.mem_of_visible? hv
  refine .playing (τ := if (r.snapshot p).isMyTurn then .deciding (r.snapshot p) else .awaiting)
    rfl ?_
  refine
    { matchId := hid, agrees := ?_, recalls := ?_, fresh := ?_, remembers := ?_, waits := ?_
      works := List.forall_mem_nil _, notices := by simp [hq], pending := by simp }
  · split
    next hmine => exact ⟨hid, Hub.current_of_mem hs hmem hmine⟩
    next => exact hid ▸ hs.created r hmem
  · split <;> simp [Tenure.Recalls]
  · intro m position hp
    obtain ⟨rfl, rfl⟩ := Progress.fresh.inj hp
    exact ⟨hid, rfl, Tenure.expects_position p id h _⟩
  · intro hp
    simp at hp
  · intro hp
    simp at hp

/-- While a turn is on its way nothing else goes on. -/
theorem alone_of_submission (hst : a.Standing) {r : Rendezvous} (hr : a.rendezvous = some r)
    (hp : r.progress ≠ .ended) {i : JobId} {j : Job Task} (hj : r.jobs.get? i = some j)
    (hd : j.mayDeliver = true) (hact : j.work.work.activity = .submission) :
    r.progress = .underway ∧ (r.jobs.complete i).2.running = [] ∧ noticed a.queue = [] := by
  have hperm : r.jobs.running.Perm (j.work :: (r.jobs.complete i).2.running) :=
    Registry.running_modify_perm hj hd (by simp)
  cases hst with
  | unstarted hr₀ => simp [hr] at hr₀
  | fresh hr₀ _ _ _ _ hjobs =>
    obtain rfl := Option.some.inj (hr.symm.trans hr₀)
    simp [hjobs, Registry.get?] at hj
  | ended hr₀ _ ho =>
    obtain rfl := Option.some.inj (hr.symm.trans hr₀)
    exact absurd ho.progress hp
  | driving hr₀ _ hu hduty =>
    obtain rfl := Option.some.inj (hr.symm.trans hr₀)
    have hmem : Activity.submission ∈ r.phase.activities := by
      refine hduty.activities.subset (List.mem_append_left _ (List.mem_map.2 ⟨j.work, ?_, hact⟩))
      exact hperm.symm.subset List.mem_cons_self
    have hone : r.phase.activities.length = 1 := by
      cases hphase : r.phase <;> simp_all [Phase.activities]
    have hlen := hduty.activities.length_eq
    have hlen' := hperm.length_eq
    simp only [List.length_append, List.length_map, hone, List.length_cons] at hlen hlen'
    exact ⟨hu, List.eq_nil_of_length_eq_zero (by omega), List.eq_nil_of_length_eq_zero (by omega)⟩

section Task
variable {i : JobId} {t : Task} (htask : a.task? i = some t) (ht : a.Tenant p id h e)
include htask ht

/-- A task goes on; one that listens has read the feed. -/
theorem tenant_goOn {work : Work} (hb : t.work.MayBecome work)
    (hread : ∀ v, t.work = .awaitTurn v → work = .awaitTurn (v.caughtUp (h.feed p))) :
    (a.progress i work).Tenant p id h e := by
  obtain ⟨r, j, hr, hj, -, rfl⟩ := exists_of_task? htask
  have hr' := rendezvous_progress hr i work
  obtain ⟨hid, hp | ⟨τ, hf⟩⟩ := ht.fits hr
  · exact .ended hr' hid hp
  refine .playing hr' (hf.withJobs ?_)
  intro t ht
  rcases Registry.mem_running_of_progress ht with ht | ⟨j', hj', hrun, rfl⟩
  · exact hf.works t ht
  · obtain rfl := Option.some.inj (hj.symm.trans hj')
    exact (hf.works j.work hrun).goOn hb hread

/-- A task ends, but not with a turn that was accepted. -/
theorem tenant_end {how : TaskEnd} (he : t.work.MayEnd how)
    (hread : ∀ v result, t.work = .awaitTurn v → how = .turn result →
      ∃ now, v.result? (h.feed p) now = some result)
    (hrefused : ∀ u, how ≠ .submitted (.ok u)) : (a.complete i how).Tenant p id h e := by
  obtain ⟨r, j, hr, hj, hw, rfl⟩ := exists_of_task? htask
  obtain ⟨hid, hp | ⟨τ, hf⟩⟩ := ht.fits hr
  · exact .ended (rendezvous_complete hr htask how) hid hp
  have hjobs : (r.withJobs (r.jobs.complete i).2).Fits p id h e τ a.queue := by
    refine hf.withJobs ?_
    intro t ht
    exact hf.works t (Registry.running_modify_subset r.jobs i (by simp) (by simp) ht)
  rw [complete_eq hr htask how]
  refine .playing (τ := τ) rfl ?_
  split
  next hd =>
    have hd : j.mayDeliver = true := by
      simpa [Registry.complete, hj, Job.fst_complete] using hd
    have hwork := hf.works j.work (Registry.mem_running.2 ⟨i, j, hj, hd, rfl⟩)
    refine { hjobs with notices := ?_ }
    intro n hn
    rw [noticed_append] at hn
    rcases List.mem_append.1 hn with hn | hn
    · exact hf.notices n hn
    · obtain rfl := List.mem_singleton.1 hn
      exact hwork.finish he hread hrefused
  next => exact hjobs

/-- The service accepts a turn that was on its way. -/
theorem tenant_land (hs : h.Sound) (hst : a.Standing)
    (hopen : ∀ r, a.rendezvous = some r → r.progress ≠ .ended → r.AllOpen) {data : Bytes}
    {next : Option PlayerId} {issued : Bool} (hwork : t.work = .submit data next issued)
    {m : Match} (hm : (h.takeTurn p id data next).2 = .ok m) :
    (a.complete i (.submitted (.ok ()))).Tenant p id (h.takeTurn p id data next).1
      (e ++ [.accepted m.version]) := by
  obtain ⟨r, j, hr, hj, hw, rfl⟩ := exists_of_task? htask
  obtain ⟨hid, hfits⟩ := ht.fits hr
  by_cases hp : r.progress = .ended
  · exact .ended (rendezvous_complete hr htask _) hid hp
  have hd := hopen r hr hp j (List.mem_of_getElem? hj) hw
  obtain ⟨τ, hf⟩ := hfits.resolve_left hp
  have hfits := hf.works j.work (Registry.mem_running.2 ⟨i, j, hj, hd, rfl⟩)
  rw [hwork] at hfits
  obtain ⟨m₀, rfl, rfl⟩ := hfits
  obtain ⟨hversion, hagrees, hexpects⟩ := Tenure.taken_of_takeTurn hs hf.agrees hm
  obtain ⟨hu, hsilent, hquiet⟩ := alone_of_submission hst hr hp hj hd (by rw [hwork]; rfl)
  rw [complete_eq hr htask]
  refine .playing (τ := .taken m₀ m.version) rfl ?_
  refine
    { matchId := hf.matchId, agrees := hagrees, recalls := ?_, fresh := ?_, remembers := ?_
      waits := ?_, works := ?_, notices := ?_
      pending := fun s hs => hexpects _ (hf.pending s hs) }
  · rw [hversion]
    exact hf.recalls.accepted
  · intro m position hfresh
    cases hu.symm.trans hfresh
  · rintro - m' ⟨⟩
    obtain ⟨hplayed, hold⟩ := hf.remembers hu m₀ rfl
    exact ⟨List.mem_append_left _ hplayed, hold⟩
  · rintro - m' ⟨⟩
  · intro t ht
    rw [show (r.withJobs (r.jobs.complete i).2).jobs.running = [] from hsilent] at ht
    cases ht
  · intro n hn
    split at hn
    · rw [noticed_append, hquiet] at hn
      obtain rfl := List.mem_singleton.1 hn
      exact ⟨m₀, m.version, rfl⟩
    · rw [hquiet] at hn
      cases hn

end Task

/-! ## Steps -/

section Step
variable {s : Surroundings} {within : List OwnerCall} {marks : List Mark} (hst : a.Standing)
  (ht : a.Tenant p id h e) (hb : a.stepWithin? s within = some (b, marks))
include hst ht hb

theorem tenant_step (hs : s.position = (h.feed p).position) :
    b.Tenant p id h (e ++ (a.toPlay?.map TurnEvent.played).toList) := by
  obtain ⟨a', r', out, hstride, hstep⟩ := stride_of_stepWithin? hst hb
  obtain ⟨rfl, -⟩ := Prod.ext_iff.1 hstep
  refine Tenant.congr (a := { a' with rendezvous := some r' }) ?_
    (sameWork_absorbWithin within a' r' out)
  cases hstride with
  | @first r _ m position _ hr _ hp _ _ hjobs hpass =>
    have hq := hst.noticed_eq_nil hr hp
    have haim := Rendezvous.sameAim_of_passage hpass
    rw [toPlay?_of_look hr hp]
    obtain ⟨τ, hf⟩ := (ht.fits hr).2.resolve_left (by simp [hp])
    rcases Rendezvous.fits_of_look hf hp (by simp [hjobs, Registry.running]) hq hpass with
      hend | ⟨τ', hf'⟩
    · exact .ended rfl (haim.matchId.trans hf.matchId) hend
    · exact .playing rfl hf'
  | @later r _ n queue _ hr _ hp hq hd hpass =>
    have haim := Rendezvous.sameAim_of_passage hpass
    rw [toPlay?_of_notice hr hp hq hd]
    obtain ⟨τ, hf⟩ := (ht.fits hr).2.resolve_left (by simp [hp])
    rw [hq] at hf
    rcases Rendezvous.fits_of_notice hf hp hd hs hpass with hend | ⟨τ', hf'⟩
    · exact .ended rfl (haim.matchId.trans hf.matchId) hend
    · exact .playing rfl hf'

theorem newer_of_step {m : Match} (hm : a.toPlay? = some m) : Newer e m := by
  obtain ⟨a', r', out, hstride, -⟩ := stride_of_stepWithin? hst hb
  cases hstride with
  | @first r _ m' position _ hr _ hp _ _ _ hpass =>
    rw [toPlay?_of_look hr hp] at hm
    obtain ⟨τ, hf⟩ := (ht.fits hr).2.resolve_left (by simp [hp])
    refine Rendezvous.newer_of_cause hf hpass hm ?_ (fun n h => by cases h)
    rintro _ _ ⟨⟩
    exact hp
  | @later r _ n queue _ hr _ hp hq hd hpass =>
    rw [toPlay?_of_notice hr hp hq hd] at hm
    obtain ⟨τ, hf⟩ := (ht.fits hr).2.resolve_left (by simp [hp])
    refine Rendezvous.newer_of_cause hf hpass hm (fun _ _ h => by cases h) ?_
    rintro _ ⟨⟩
    refine ⟨hp, ?_⟩
    rintro g how rfl
    exact hf.notices (g, how) (by rw [hq]; exact List.mem_cons_self)

end Step

end Agent

end TurnRendezvous
