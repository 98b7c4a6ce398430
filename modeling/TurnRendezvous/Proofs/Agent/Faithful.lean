/-
# `Agent.Faithful` — where an agent's words come from

Let `S` say which snapshots a player has been shown.  A faithful agent only
looks at such snapshots of its own match.  So whatever it hands over is what a
turn of its own allowed (`Justified`), and an invite that it reports was found in
one of them (`Found`), however late the report comes.

* `faithful_of_moves`: every move keeps an agent faithful, if a start and the end
  of a turn watch bring snapshots that were shown;
* `found_of_moves`: an invite that it tells its owner was found.
-/
import TurnRendezvous.Proofs.Agent.Submissions

namespace TurnRendezvous

/-- An invite that was found in a snapshot of a match. -/
def Found (S : Match → Prop) (id : MatchId) (text : String) : Prop :=
  ∃ m h, S m ∧ m.id = id ∧ Payload.decode m.data = .invite text h

/-- Bytes that a role may hand over on a match. -/
inductive Justified (S : Match → Prop) (id : MatchId) (role : Role) : Bytes → Prop
  /-- A host's invite, into a match without data. -/
  | offered {m : Match} {invite : String} (h : invite ≠ "") :
      role = .host invite → S m → m.id = id → m.isMyTurn = true → m.data = none →
      Justified S id role (Payload.invite invite h).encode
  /-- What somebody else than a host has found. -/
  | passedOn {m : Match} :
      role.isHost = false → S m → m.id = id → m.isMyTurn = true →
      Justified S id role (Payload.decode m.data).encode

/-- Work for a match that was justified when it began. -/
def Work.Sincere (S : Match → Prop) (id : MatchId) (role : Role) : Work → Prop
  | .submit data _ _ => Justified S id role data
  | .awaitTurn v => v.matchId = id
  | _ => True

section Mono
variable {S S' : Match → Prop} (hS : ∀ m, S m → S' m)
include hS

theorem Found.mono {id : MatchId} {text : String} (h : Found S id text) : Found S' id text := by
  obtain ⟨m, ht, hm, hid, hd⟩ := h
  exact ⟨m, ht, hS m hm, hid, hd⟩

theorem Justified.mono {id : MatchId} {role : Role} {data : Bytes} (h : Justified S id role data) :
    Justified S' id role data := by
  cases h with
  | offered h hr hm hid ht hd => exact .offered h hr (hS _ hm) hid ht hd
  | passedOn hr hm hid ht => exact .passedOn hr (hS _ hm) hid ht

theorem Work.Sincere.mono {id : MatchId} {role : Role} {w : Work} (h : w.Sincere S id role) :
    w.Sincere S' id role := by
  cases w with
  | submit => exact Justified.mono hS h
  | awaitTurn => exact h
  | _ => trivial

end Mono

/-- Only what a role is, not what it has found, justifies its bytes. -/
theorem Justified.congr {S : Match → Prop} {id : MatchId} {role role' : Role} {data : Bytes}
    (h : Justified S id role data) (hr : role'.blank = role.blank) :
    Justified S id role' data := by
  cases h with
  | offered h hrole hm hid ht hd =>
    refine .offered h ?_ hm hid ht hd
    rw [← Role.blank_eq_host_iff, hr, hrole]
    rfl
  | passedOn hrole hm hid ht =>
    refine .passedOn ?_ hm hid ht
    rw [← Role.isHost_blank, hr, Role.isHost_blank, hrole]

theorem Work.Sincere.congr {S : Match → Prop} {id : MatchId} {role role' : Role} {w : Work}
    (h : w.Sincere S id role) (hr : role'.blank = role.blank) : w.Sincere S id role' := by
  cases w with
  | submit => exact Justified.congr h hr
  | awaitTurn => exact h
  | _ => trivial

theorem Work.MayBecome.sincere {S : Match → Prop} {id : MatchId} {role : Role} {w w' : Work}
    (hb : w.MayBecome w') (h : w.Sincere S id role) : w'.Sincere S id role := by
  unfold Work.MayBecome at hb
  split at hb
  next => exact hb ▸ h
  next =>
    obtain ⟨feed, rfl⟩ := hb
    exact h
  next =>
    obtain ⟨feed, rfl⟩ := hb
    trivial
  next =>
    obtain ⟨reply, rfl⟩ := hb
    trivial
  next => exact hb.elim

namespace Rendezvous

/-- A rendezvous that only speaks of what was shown. -/
structure Faithful (S : Match → Prop) (r : Rendezvous) : Prop where
  fresh : ∀ m position, r.progress = .fresh m position → S m ∧ m.id = r.matchId
  pending : ∀ p text, r.pending = some p →
    p.signal = some (.complete (some text)) ∨ p.signal = some (.verifyPeer text) →
    Found S r.matchId text
  probed : ∀ text, r.probed = some text → Found S r.matchId text
  works : ∀ j ∈ r.jobs.jobs, j.work.work.Sincere S r.matchId r.role

theorem Faithful.mono {S S' : Match → Prop} {r : Rendezvous} (h : r.Faithful S)
    (hS : ∀ m, S m → S' m) : r.Faithful S' where
  fresh m position hp := (h.fresh m position hp).imp (hS m) id
  pending p text hp hs := (h.pending p text hp hs).mono hS
  probed text hp := (h.probed text hp).mono hS
  works j hj := (h.works j hj).mono hS

/-- A snapshot that a step may look at. -/
def Cause.Shown (S : Match → Prop) (id : MatchId) : Cause → Prop
  | .look m _ => S m ∧ m.id = id
  | .notice (.done _ (.turn (.myTurn m))) => S m ∧ m.id = id ∧ m.isMyTurn = true
  | _ => True

theorem work_leave {Q : Task → Prop} {r : Rendezvous} (h : ∀ j ∈ r.jobs.jobs, Q j.work) :
    ∀ j ∈ r.leave.jobs.jobs, Q j.work := by
  refine jobs_leave (P := fun g => ∀ j ∈ g.jobs, Q j.work) h
    (fun g i hg => Registry.forall_modify hg i ?_)
    (fun g i hg => Registry.forall_modify hg i fun j _ hj => hj)
  intro j _ hj
  unfold Job.cancel
  split <;> exact hj

theorem faithful_leave {S : Match → Prop} {r : Rendezvous}
    (h : ∀ j ∈ r.jobs.jobs, j.work.work.Sincere S r.matchId r.role) : r.leave.Faithful S where
  fresh m position hp := by simp [leave] at hp
  pending p text hp := by simp [leave, letGo] at hp
  probed text hp := by simp [leave, letGo] at hp
  works := work_leave (Q := fun t => t.work.Sincere S r.matchId r.role) h

/-- A decision that signals an invite has found it. -/
theorem found_of_verdict {S : Match → Prop} {m : Match} {wait : Duration} {role : Role}
    {old : Option Payload} {d : Decision} {text : String} (h : Role.Verdict m wait role old d)
    (hm : S m) (hs : d.signal = some (.complete (some text)) ∨ d.signal = some (.verifyPeer text)) :
    Found S m.id text := by
  cases h with
  | refused => simp [Role.refuse] at hs
  | offered => simp at hs
  | passed => simp at hs
  | found ht hd =>
    obtain rfl : _ = text := by simpa using hs
    exact ⟨m, ht, hm, rfl, hd⟩
  | suspected ht hd =>
    obtain rfl : _ = text := by simpa using hs
    exact ⟨m, ht, hm, rfl, hd⟩

/-- A decision to play on leaves justified bytes. -/
theorem justified_of_verdict {S : Match → Prop} {m : Match} {wait : Duration} {role : Role}
    {old : Option Payload} {d : Decision} (h : Role.Verdict m wait role old d)
    (hd : d.signal ≠ some .matchInvalid) (hm : S m) (ht : m.isMyTurn = true) :
    Justified S m.id role d.data.encode := by
  cases hr : role.isHost with
  | false =>
    rw [Agent.data_of_verdict h hd hr]
    exact .passedOn hr hm rfl ht
  | true =>
    cases h with
    | refused => exact absurd rfl hd
    | offered hi hdata => exact .offered hi rfl hm rfl ht hdata
    | passed hh => simp [hh] at hr
    | found => cases hr
    | suspected => cases hr

theorem faithful_of_played {S : Match → Prop} {r r' : Rendezvous} {m : Match} {position : Nat}
    {out : List Output} (hf : r.Faithful S) (h : r.Played m position r' out)
    (hu : r.progress = .underway) (hm : S m) (hid : m.id = r.matchId)
    (ht : m.isMyTurn = true) : r'.Faithful S := by
  cases h with
  | refused => exact faithful_leave hf.works
  | @handed d hv hd =>
    have hold : ∀ j ∈ r.jobs.jobs, j.work.work.Sincere S r.matchId d.role :=
      fun j hj => (hf.works j hj).congr hv.blank_eq
    have hnew : Justified S r.matchId d.role d.data.encode :=
      hid ▸ (justified_of_verdict hv hd hm ht).congr hv.blank_eq
    refine ⟨fun m' position' hp => by simp [submit, hu] at hp, ?_,
      hf.probed, ?_⟩
    · intro p text hp hs
      obtain rfl := Option.some.inj hp
      exact hid ▸ found_of_verdict hv hm hs
    · exact List.forall_mem_append.2 ⟨hold, List.forall_mem_singleton.2 hnew⟩

/-- A rendezvous that waits for what it is told next. -/
theorem faithful_watch {S : Match → Prop} {r : Rendezvous} (h : r.Faithful S) {w : Work}
    (hw : w.Sincere S r.matchId r.role) : (r.watch w).Faithful S :=
  ⟨h.fresh, h.pending, h.probed,
    List.forall_mem_append.2 ⟨h.works, List.forall_mem_singleton.2 hw⟩⟩

theorem faithful_enter {S : Match → Prop} {r : Rendezvous} (h : r.Faithful S) (phase : Phase) :
    (r.enter phase).Faithful S :=
  ⟨h.fresh, h.pending, h.probed, h.works⟩

/-- A rendezvous whose turn was accepted. -/
theorem faithful_answered {S : Match → Prop} {r : Rendezvous} (h : r.Faithful S) :
    { r with submission := none, pending := none }.Faithful S :=
  ⟨h.fresh, fun p text hp => by simp at hp, h.probed, h.works⟩

theorem faithful_of_passage {S : Match → Prop} {s : Surroundings} {r r' : Rendezvous}
    {cause : Cause} {out : List Output} (hf : r.Faithful S) (h : r.Passage s cause r' out)
    (hu : ∀ n, cause = .notice n → r.progress = .underway) (hc : cause.Shown S r.matchId) :
    r'.Faithful S := by
  have begun : { r with progress := .underway }.Faithful S :=
    ⟨fun m position hp => by simp at hp, hf.pending, hf.probed, hf.works⟩
  have left : r.leave.Faithful S := faithful_leave hf.works
  cases h with
  | tooLate => exact faithful_leave hf.works
  | firstTurn ht hp => exact faithful_of_played begun hp rfl hc.1 hc.2 ht
  | firstWait => exact faithful_watch (faithful_enter begun _) rfl
  | laterTurn _ hp => exact faithful_of_played hf hp (hu _ rfl) hc.1 hc.2.1 hc.2.2
  | turnRefused => exact faithful_leave hf.works
  | passedOn => exact faithful_watch (faithful_enter (faithful_answered hf) _) rfl
  | succeeded => exact faithful_leave hf.works
  | @stayed p =>
    exact faithful_watch (w := .awaitEnd ⟨r.matchId, p.position⟩)
      (faithful_enter (faithful_answered hf) _) trivial
  | @verifies p localId text _ hp hs hrole =>
    have hprobe := faithful_watch (w := .probe text localId none)
      (faithful_enter (faithful_answered hf) .verifying) trivial
    have hw := faithful_watch (w := .timer (s.now + r.timing.probeTimeout.nanos)) hprobe trivial
    simp only [verify, hrole]
    refine ⟨hw.fresh, hw.pending, ?_, ?_⟩
    · intro text' ht
      obtain rfl := Option.some.inj ht
      exact hf.pending p text hp (.inr hs)
    · simpa only [watch, enter, hrole] using hw.works
  | _ => exact left

/-- An invite in an output was found. -/
theorem found_of_passage {S : Match → Prop} {s : Surroundings} {r r' : Rendezvous}
    {cause : Cause} {out : List Output} {o : Output} {text : String} (hf : r.Faithful S)
    (h : r.Passage s cause r' out) (ho : o ∈ out)
    (ht : o = .reported (.complete (some text)) ∨ o = .concluded (.complete (some text))) :
    Found S r.matchId text := by
  have played : ∀ {r r' : Rendezvous} {m : Match} {position : Nat} {out : List Output},
      r.Played m position r' out → o ∉ out := by
    intro r r' m position out hp ho
    cases hp with
    | refused =>
      rw [List.mem_singleton.1 ho] at ht
      simp at ht
    | handed =>
      rw [List.mem_singleton.1 ho] at ht
      simp at ht
  cases h with
  | firstTurn _ hp => exact absurd ho (played hp)
  | laterTurn _ hp =>
    rcases List.mem_cons.1 ho with rfl | ho
    · simp at ht
    · exact absurd ho (played hp)
  | @waitEnded result o' _ hr =>
    rw [List.mem_singleton.1 ho] at ht
    cases result <;> simp [TurnResult.outcome?] at hr <;> simp [← hr] at ht
  | @succeeded p invite _ hp hs =>
    obtain rfl : invite = some text := by
      rcases List.mem_cons.1 ho with rfl | ho
      · simp at ht
      · rw [List.mem_singleton.1 ho] at ht
        simpa using ht
    exact hf.pending p text hp (.inl hs)
  | @stayed p invite _ hp hs =>
    obtain rfl : invite = some text := by
      rw [List.mem_singleton.1 ho] at ht
      simpa using ht
    exact hf.pending p text hp (.inl hs)
  | @reachable answer invite _ _ hp =>
    obtain rfl : invite = text := by
      rcases List.mem_append.1 ho with ho | ho
      · split at ho
        · rw [List.mem_singleton.1 ho] at ht
          simp at ht
        · simp at ho
      · rw [List.mem_singleton.1 ho] at ht
        simpa using ht
    exact hf.probed invite hp
  | @gone how =>
    rw [List.mem_singleton.1 ho] at ht
    cases how <;> simp [Departure.outcome] at ht
  | firstWait => simp at ho
  | detached => simp at ho
  | passedOn => simp at ho
  | verifies => simp at ho
  | _ =>
    rw [List.mem_singleton.1 ho] at ht
    simp at ht

end Rendezvous

/-- A watch that ends with a turn has read the snapshot in its feed, after its position. -/
theorem TurnWatch.received_of_result? {v : TurnWatch} {feed : Feed MatchNews} {now : Instant}
    {m : Match} (h : v.result? feed now = some (.myTurn m)) :
    .received m ∈ feed.sent.drop v.position ∧ m.id = v.matchId ∧ m.isMyTurn = true := by
  have hr : (feed.unread v.position).findSome? (verdict v.matchId) = some (.myTurn m) := by
    unfold result? at h
    split at h
    next hr => exact hr.trans h
    next =>
      split at h
      · cases h
      · split at h <;> cases h
  obtain ⟨news, hn, hv⟩ := List.exists_of_findSome?_eq_some hr
  have hsent := List.drop_subset_drop_left feed.sent (Nat.le_max_left _ _) hn
  cases news with
  | removed id =>
    simp only [verdict] at hv
    split at hv <;> cases hv
  | received m' =>
    simp only [verdict] at hv
    split at hv
    · cases hv
    next hid =>
      split at hv
      · cases hv
      · split at hv
        next ht =>
          obtain rfl := TurnResult.myTurn.inj (Option.some.inj hv)
          exact ⟨hsent, Decidable.not_not.1 hid, ht⟩
        next => cases hv

namespace Agent

/-- A snapshot that a move may bring. -/
def Move.Shown (S : Match → Prop) : Move → Prop
  | .start _ m _ => S m
  | .finish _ (.turn (.myTurn m)) => S m
  | _ => True

/-- An agent that only looks at what was shown. -/
structure Faithful (S : Match → Prop) (a : Agent) : Prop where
  rendezvous : ∀ r, a.rendezvous = some r → r.Faithful S
  notices : ∀ r g m, a.rendezvous = some r → (g, .turn (.myTurn m)) ∈ noticed a.queue →
    S m ∧ m.id = r.matchId ∧ m.isMyTurn = true

theorem Faithful.mono {S S' : Match → Prop} {a : Agent} (h : a.Faithful S)
    (hS : ∀ m, S m → S' m) : a.Faithful S' where
  rendezvous r hr := (h.rendezvous r hr).mono hS
  notices r g m hr hm := (h.notices r g m hr hm).imp (hS m) id

theorem faithful_ofRole (S : Match → Prop) (role : Role) (timing : Timing) :
    (ofRole role timing).Faithful S :=
  ⟨fun r h => by simp [ofRole] at h, fun r g m h => by simp [ofRole] at h⟩

theorem Faithful.congr {S : Match → Prop} {a b : Agent} (h : a.Faithful S) (hs : a.SameWork b) :
    b.Faithful S :=
  ⟨fun r hr => h.rendezvous r (hs.rendezvous ▸ hr),
    fun r g m hr hm => h.notices r g m (hs.rendezvous ▸ hr) (hs.noticed ▸ hm)⟩

/-- What the next step of a faithful agent looks at was shown. -/
theorem shown_of_stride {S : Match → Prop} {a a' : Agent} {s : Surroundings} {r' : Rendezvous}
    {out : List Output} (h : a.Stride s a' r' out) (hf : a.Faithful S) :
    ∃ r cause, a.rendezvous = some r ∧ r.Passage s cause r' out ∧ cause.Shown S r.matchId ∧
      (∀ n, cause = .notice n → r.progress = .underway) ∧
      ∀ x ∈ noticed a'.queue, x ∈ noticed a.queue := by
  cases h with
  | @first r _ m position _ hr _ hp _ _ _ hpass =>
    exact ⟨r, _, hr, hpass, (hf.rendezvous r hr).fresh m position hp, (fun n h => by cases h),
      fun x hx => hx⟩
  | @later r _ n queue _ hr _ hp hq _ hpass =>
    refine ⟨r, _, hr, hpass, ?_, fun _ _ => hp, ?_⟩
    · cases n with
      | detach => trivial
      | done g how =>
        cases how with
        | turn result =>
          cases result with
          | myTurn m => exact hf.notices r g m hr (by rw [hq]; exact List.mem_cons_self)
          | _ => trivial
        | _ => trivial
    · intro x hx
      rw [hq]
      cases n with
      | detach => exact hx
      | done g how => exact List.mem_cons_of_mem _ hx

theorem faithful_of_stride {S : Match → Prop} {a a' : Agent} {s : Surroundings} {r' : Rendezvous}
    {out : List Output} (h : a.Stride s a' r' out) (hf : a.Faithful S) :
    Faithful S { a' with rendezvous := some r' } := by
  obtain ⟨r, cause, hr, hpass, hshown, hu, hq⟩ := shown_of_stride h hf
  constructor
  · intro q hq
    rw [← Option.some.inj hq]
    exact Rendezvous.faithful_of_passage (hf.rendezvous r hr) hpass hu hshown
  · intro q g m hr' hm
    obtain ⟨hm, hid, ht⟩ := hf.notices r g m hr (hq _ hm)
    rw [← Option.some.inj hr', (Rendezvous.sameAim_of_passage hpass).matchId]
    exact ⟨hm, hid, ht⟩

theorem faithful_progress {S : Match → Prop} {a : Agent} (hf : a.Faithful S) {i : JobId}
    {t : Task} (ht : a.task? i = some t) {work : Work} (hb : t.work.MayBecome work) :
    (a.progress i work).Faithful S := by
  obtain ⟨r, j, hr, hj, -, rfl⟩ := exists_of_task? ht
  have hr' := rendezvous_progress hr i work
  have h := hf.rendezvous r hr
  constructor
  · intro q hq
    obtain rfl := Option.some.inj (hr'.symm.trans hq)
    refine ⟨h.fresh, h.pending, h.probed, Registry.forall_modify h.works i ?_⟩
    intro j' hj' hw
    obtain rfl := Option.some.inj (hj.symm.trans hj')
    unfold Job.progress
    split
    · exact hb.sincere hw
    · exact hw
  · intro q g m hq hm
    obtain rfl := Option.some.inj (hr'.symm.trans hq)
    exact hf.notices r g m hr hm

theorem faithful_complete {S : Match → Prop} {a : Agent} (hf : a.Faithful S) {i : JobId}
    {t : Task} (ht : a.task? i = some t) {how : TaskEnd} (he : t.work.MayEnd how)
    (hs : ∀ m, how = .turn (.myTurn m) → S m) : (a.complete i how).Faithful S := by
  obtain ⟨r, j, hr, hj, -, rfl⟩ := exists_of_task? ht
  have hr' := rendezvous_complete hr ht how
  have h := hf.rendezvous r hr
  constructor
  · intro q hq
    obtain rfl := Option.some.inj (hr'.symm.trans hq)
    exact ⟨h.fresh, h.pending, h.probed,
      Registry.forall_modify h.works i fun j _ hj => by simpa using hj⟩
  · intro q g m hq hm
    obtain rfl := Option.some.inj (hr'.symm.trans hq)
    simp only [complete, hr, ht] at hm
    split at hm
    · rw [noticed_append, List.mem_append] at hm
      rcases hm with hm | hm
      · exact hf.notices r g m hr hm
      · obtain ⟨-, rfl⟩ := Prod.ext_iff.1 (List.mem_singleton.1 hm)
        have hw := h.works j (List.mem_of_getElem? hj)
        cases hwork : j.work.work with
        | awaitTurn v =>
          rw [hwork] at he hw
          obtain ⟨feed, now, hres⟩ := he
          obtain ⟨-, hid, hturn⟩ := TurnWatch.received_of_result? hres
          exact ⟨hs m rfl, hid.trans hw, hturn⟩
        | _ =>
          rw [hwork] at he
          exact he.elim
    · exact hf.notices r g m hr hm

/-- Every move keeps an agent faithful, if what it brings was shown. -/
theorem faithful_of_moves {S : Match → Prop} {a b : Agent} {mv : Move} {marks : List Mark}
    (h : a.Standing) (hf : a.Faithful S) (hm : a.Moves mv marks b) (hs : mv.Shown S) :
    b.Faithful S := by
  cases hm with
  | start hstart =>
    obtain ⟨hr, hq, role, -, rfl⟩ := start_of_standing h hstart
    refine ⟨?_, fun r g m hr hm => by simp [hq] at hm⟩
    intro r hr
    obtain rfl := Option.some.inj hr
    refine ⟨?_, fun p text hp => by simp at hp, fun text hp => by simp at hp,
      List.forall_mem_nil _⟩
    intro m position hp
    obtain ⟨rfl, -⟩ := Progress.fresh.inj hp
    exact ⟨hs, rfl⟩
  | owner c => exact hf.congr (sameWork_call a c)
  | step hstep =>
    obtain ⟨a', r', out, hstride, hb⟩ := stride_of_stepWithin? h hstep
    obtain ⟨rfl, -⟩ := Prod.ext_iff.1 hb
    exact (faithful_of_stride hstride hf).congr (sameWork_absorbWithin _ a' r' out)
  | goOn ht hb => exact faithful_progress hf ht hb
  | finish ht he => exact faithful_complete hf ht he fun m hm => by subst hm; exact hs

/-! ## What the owner is told -/

/-- What reaches the owner was put out. -/
theorem put_out_of_delivered {within : List OwnerCall} {id : MatchId} {report : Report}
    {out : List Output} :
    ∀ {a : Agent}, .delivered report ∈ (a.emitAll within id out).2.map Mark.effect →
      report.matchId = id ∧ (.reported report.outcome ∈ out ∨ .concluded report.outcome ∈ out) := by
  induction out with
  | nil => exact fun h => by simp [emitAll] at h
  | cons o out ih =>
    intro a h
    simp only [emitAll, List.map_append, List.mem_append] at h
    rcases h with h | h
    · simp only [emit, List.map_map, List.mem_map, Function.comp_apply] at h
      obtain ⟨e, he, hr⟩ := h
      have hr : e = .delivered report := by cases e <;> simp_all [Mark.ofEffect, Mark.effect]
      subst hr
      cases o with
      | reported o' =>
        simp only [output] at he
        split at he
        · simp at he
        · obtain rfl := Effect.delivered.inj (List.mem_singleton.1 he)
          exact ⟨rfl, .inl List.mem_cons_self⟩
      | concluded o' =>
        simp only [output] at he
        split at he
        · simp at he
        · obtain rfl := Effect.delivered.inj (List.mem_singleton.1 he)
          exact ⟨rfl, .inr List.mem_cons_self⟩
      | _ => simp [output] at he
    · exact (ih h).imp_right (Or.imp (List.mem_cons_of_mem o) (List.mem_cons_of_mem o))

/-- An invite that an agent tells its owner was found. -/
theorem found_of_moves {S : Match → Prop} {a b : Agent} {mv : Move} {marks : List Mark}
    {id : MatchId} {text : String} (h : a.Standing) (hf : a.Faithful S) (hm : a.Moves mv marks b)
    (hc : .delivered ⟨id, .complete (some text)⟩ ∈ marks.map Mark.effect) : Found S id text := by
  cases hm with
  | step hstep =>
    obtain ⟨a', r', out, hstride, hb⟩ := stride_of_stepWithin? h hstep
    obtain ⟨-, rfl⟩ := Prod.ext_iff.1 hb
    obtain ⟨r, cause, hr, hpass, -, -⟩ := shown_of_stride hstride hf
    obtain ⟨rfl, ho⟩ := put_out_of_delivered hc
    have haim := (Rendezvous.sameAim_of_passage hpass).matchId
    show Found S r'.matchId text
    rw [haim]
    rcases ho with ho | ho
    · exact Rendezvous.found_of_passage (hf.rendezvous r hr) hpass ho (.inl rfl)
    · exact Rendezvous.found_of_passage (hf.rendezvous r hr) hpass ho (.inr rfl)
  | _ => simp at hc

end Agent

end TurnRendezvous
