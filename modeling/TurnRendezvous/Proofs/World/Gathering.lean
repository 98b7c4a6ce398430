/-
# `World.Gathered` — two agents and all that goes on around them

One player has created a match for another, and each has an agent for it, a host and a
guest's client.  The agents are started when their owners like, each on what its player
sees just then; their steps and their tasks, and the dismissal that the guest's agent
starts, take place in any order (`World.Proceeds`).  In between anything else may go on,
but nobody else touches the room, both players stay signed in, and no wait runs out.

The room is then at one of the hours of the invitation, and the two agents are where they
can be at that hour (`Gathered`).  This outlasts everything but one: a guest may miss its
turn while it waits, when more news is before its wait than a feed keeps.  So it is assumed
that the guest keeps up with its feed (`KeepsUp`).

* `gathered_start`, `gathered_host_step`, `gathered_guest_task` and so on: one lemma for
  each kind of thing that happens;
* `gathered_of_proceeds`: whatever happens, the two stay gathered.
-/
import TurnRendezvous.Proofs.Agent.Invited
import TurnRendezvous.Proofs.World.Course

namespace TurnRendezvous

namespace World

/-! ## What happens -/

/-- Whether a part of the world has to do with the match `id`, which the members at `i`
and `k` play. -/
def concerns (w : World Lobby) (i k : Nat) (id : MatchId) : Part → Bool
  | .rendezvous x => x = i || x = k
  | .task x _ => x = i || x = k
  | .dismissal n => (w.dismissals[n]?).any fun e => e.2 = id
  | .session _ => false

/-- The turn wait that a part is, and the feed that it reads. -/
def wait? (w : World Lobby) : Part → Option (TurnWatch × Feed MatchNews)
  | .task x j =>
    match w.members[x]? with
    | none => none
    | some m =>
      match m.agent.task? j with
      | some ⟨_, .awaitTurn v⟩ => some (v, w.service.hub.feed (w.player m.caller))
      | _ => none
  | _ => none

/-- Whether a part is a turn wait that runs out now. -/
def timesOut (w : World Lobby) (part : Part) : Bool :=
  (w.wait? part).any fun (v, feed) => v.result? feed w.now = some .timedOut

/-- No turn wait of the member at `x` has more news before it than a feed keeps. -/
def KeepsUp (x : Nat) (w : World Lobby) : Prop :=
  ∀ j v feed, w.wait? (.task x j) = some (v, feed) →
    feed.sent.length ≤ v.position + Hub.feedCapacity

/-- What can happen while the members at `i` and `k` play the match `id`, and nobody else
does, both are signed in and no wait runs out. -/
inductive Proceeds (i k : Nat) (id : MatchId) (w : World Lobby) : World Lobby → Prop
  /-- One of the agents is started on what its player sees now. -/
  | start {x : Nat} {m : Member} {room : Match} :
      (x = i ∨ x = k) → w.members[x]? = some m →
      w.service.hub.snapshot? id (w.player m.caller) = some room →
      Proceeds i k id w (w.start x room).2
  /-- A step of one of the agents or of its tasks, or the dismissal of the match. -/
  | step {words : List UInt64} {part : Part} {w' : World Lobby} :
      w.concerns i k id part = true → w.timesOut part = false → w.step? words part = some w' →
      Proceeds i k id w w'
  /-- Anything else, with any calls of the hub that are not about the match. -/
  | aside {w' : World Lobby} :
      w'.members[i]? = w.members[i]? → w'.members[k]? = w.members[k]? →
      (∀ x m, x = i ∨ x = k → w.members[x]? = some m →
        w'.player m.caller = w.player m.caller ∧ w'.service.isSignedIn m.caller = true) →
      w'.dismissals.filter (·.2 = id) = w.dismissals.filter (·.2 = id) →
      Hub.Elsewhere id w.service.hub w'.service.hub → Proceeds i k id w w'

/-- What a row of such things leads to, if each world on the way satisfies `ok`. -/
inductive Unfolds (ok : World Lobby → Prop) (i k : Nat) (id : MatchId) (w₀ : World Lobby) :
    World Lobby → Prop
  | nil : Unfolds ok i k id w₀ w₀
  | snoc {w w' : World Lobby} :
      Unfolds ok i k id w₀ w → ok w → Proceeds i k id w w' → Unfolds ok i k id w₀ w'

/-- Nothing that has to do with the match can go on. -/
def AtRest (w : World Lobby) (i k : Nat) (id : MatchId) : Prop :=
  ∀ part words, w.concerns i k id part = true → w.step? words part = none

/-- The member `m` stands at `x` for the player `p`, who is signed in. -/
structure Plays (w : World Lobby) (x : Nat) (p : PlayerId) (m : Member) : Prop where
  here : w.members[x]? = some m
  player : w.player m.caller = p
  signedIn : w.service.isSignedIn m.caller = true

/-- A member with an agent of this role that was not started, and dismisses the match as
the role does by itself. -/
structure Ready (role : Role) (m : Member) : Prop where
  agent : ∃ timing, m.agent = .ofRole role timing ∧ timing.dismissOnFinish = none
  delivered : m.delivered = []

/-- The match was just created, and the host and the guest have an agent each. -/
structure Opens (I : Invitation) (i k : Nat) (w : World Lobby) : Prop where
  created : ∃ h : Hub, h.Reachable ∧ I.id ∉ h.created ∧
    w.service.hub = h.perform (.create I.id I.host (.inviting I.guest))
  host : ∃ m, w.Plays i I.host m ∧ Ready (.host I.invite) m
  guest : ∃ m, w.Plays k I.guest m ∧ Ready (.client none) m
  /-- Nobody could dismiss the match before it was there. -/
  untouched : w.dismissals.filter (·.2 = I.id) = []

/-! ## What is kept -/

/-- The invitation has come to the hour `t`, and both agents are where they can be. -/
structure Gathered (I : Invitation) (i k : Nat) (t : Invitation.Hour) (w : World Lobby)
    (m m' : Member) : Prop where
  holds : I.Holds t w.service.hub
  host : w.Plays i I.host m
  hosting : I.Hosting t m.agent m.delivered
  guest : w.Plays k I.guest m'
  visiting : I.Visiting t w.service.hub m'.agent m'.delivered
  dismissals : w.dismissals.filter (·.2 = I.id) =
    if t = .leaving then [(m'.caller, I.id)] else []

theorem gathered_of_opens {I : Invitation} {i k : Nat} {w : World Lobby} (h : w.Opens I i k) :
    ∃ m m', Gathered I i k .opened w m m' := by
  obtain ⟨⟨hub, hr, hid, hhub⟩, ⟨m, hm, ⟨τ, ha, hτ⟩, hd⟩, ⟨m', hm', ⟨τ', ha', hτ'⟩, hd'⟩, hdis⟩ := h
  refine ⟨m, m', ?_, hm, ?_, hm', ?_, hdis⟩
  · rw [hhub]
    exact Invitation.holds_of_create hr hid
  · rw [hd]
    exact .unstarted rfl ha hτ
  · rw [hd']
    exact .unstarted (.inl rfl) ha' hτ'

section Gathered
variable {I : Invitation} {i k : Nat} {t : Invitation.Hour} {w w' : World Lobby} {m m' : Member}

theorem Gathered.ne (hg : Gathered I i k t w m m') : i ≠ k := by
  rintro rfl
  obtain rfl := Option.some.inj (hg.host.here.symm.trans hg.guest.here)
  exact I.apart (hg.guest.player.symm.trans hg.host.player)

/-- A member is still there for the player, if no account changed. -/
theorem Plays.congr {x : Nat} {p : PlayerId} (hp : w.Plays x p m) (hm : w'.members[x]? = some m')
    (hc : m'.caller = m.caller) (hh : w'.service.handles = w.service.handles)
    (hs : w'.service.accounts = w.service.accounts) : w'.Plays x p m' := by
  refine ⟨hm, ?_, ?_⟩
  · rw [← hp.player, hc]
    simp only [World.player, Lobby.player, Lobby.handle, hh]
  · rw [← hp.signedIn, hc]
    simp only [Lobby.isSignedIn, Lobby.handle, hh, hs]

/-! ## The moves of one member -/

/-- The member at `x` becomes `m`; the other members, the accounts and the dismissals stay. -/
structure Alters (x : Nat) (m : Member) (w w' : World Lobby) : Prop where
  here : w'.members[x]? = some m
  others : ∀ y, x ≠ y → w'.members[y]? = w.members[y]?
  handles : w'.service.handles = w.service.handles
  accounts : w'.service.accounts = w.service.accounts
  dismissals : w'.dismissals = w.dismissals

section Alters
variable {x : Nat} {p : PlayerId} {m₁ m₂ : Member} {w₂ : World Lobby}

/-- Whoever is altered stands at its place. -/
theorem Plays.self (hp : w.Plays x p m) (hw : Alters x m₁ w w') (hc : m₁.caller = m.caller) :
    w'.Plays x p m₁ :=
  hp.congr hw.here hc hw.handles hw.accounts

/-- And so does everybody else. -/
theorem Plays.other {y : Nat} (hp : w.Plays y p m) (hw : Alters x m₁ w w') (hy : x ≠ y) :
    w'.Plays y p m :=
  hp.congr ((hw.others y hy).trans hp.here) rfl hw.handles hw.accounts

theorem Alters.trans (h : Alters x m₁ w w') (h₂ : Alters x m₂ w' w₂) : Alters x m₂ w w₂ where
  here := h₂.here
  others y hy := (h₂.others y hy).trans (h.others y hy)
  handles := h₂.handles.trans h.handles
  accounts := h₂.accounts.trans h.accounts
  dismissals := h₂.dismissals.trans h.dismissals

theorem alters_modify (hm : w.members[x]? = some m) (f : Member → Member) :
    Alters x (f m) w (w.modifyMember x f) where
  here := getElem?_modifyMember hm f
  others y hy := by simp [modifyMember, hy]
  handles := rfl
  accounts := rfl
  dismissals := rfl

theorem alters_subscribe (hm : w.members[x]? = some m) (c : Caller) :
    Alters x m w (w.subscribe c) :=
  ⟨hm, fun _ _ => rfl, rfl, rfl, rfl⟩

/-- A turn of a player who is signed in is answered by the hub. -/
theorem callTurn_of_signedIn {c : Caller} {id : MatchId} {data : Bytes} {next : Option PlayerId}
    {room : Match} (hs : w.service.isSignedIn c = true)
    (hcall : (w.service.hub.takeTurn (w.player c) id data next).2 = .ok room) :
    w.callTurn c id data next =
      (World.note
        { w with
          service := { w.service with
            hub := (w.service.hub.takeTurn (w.player c) id data next).1 } }
        c (.turnLanded id), .ok ()) := by
  rcases answer_of_callTurn w c id data next with ⟨f, hans, -⟩ | ⟨_, -, -, heq⟩
  · have hanswer : (w.service.takeTurn c id data next).2 =
        (w.service.hub.takeTurn (w.player c) id data next).2 := by
      simp only [Lobby.takeTurn, Lobby.act, hs, if_true, World.player]
    cases hans.symm.trans (hanswer.trans hcall)
  · exact heq

section Turn
variable {id : MatchId} {j : JobId} {data : Bytes} {next : Option PlayerId}
  {room : Match}

/-- A turn lands that the hub does not refuse. -/
theorem alters_landTurn (hm : w.Plays x p m)
    (hcall : (w.service.hub.takeTurn p id data next).2 = .ok room) :
    Alters x { m with agent := m.agent.complete j (.submitted (.ok ())) } w
        (w.landTurn x m.caller id j data next) ∧
      (w.landTurn x m.caller id j data next).service.hub =
        (w.service.hub.takeTurn p id data next).1 := by
  obtain ⟨here, rfl, hs⟩ := hm
  simp only [landTurn, callTurn_of_signedIn hs hcall]
  refine ⟨⟨getElem?_modifyMember here _, fun y hy => ?_, rfl, rfl, rfl⟩, rfl⟩
  simp [taskEnd, modifyAgent, modifyMember, note, hy]

/-- A turn is handed over, unless it was before, and lands. -/
theorem alters_stepSubmit {issued : Bool} (hm : w.Plays x p m)
    (hcall : (w.service.hub.takeTurn p id data next).2 = .ok room)
    (hb : w.stepSubmit? x m.caller id j data next issued = some w') :
    ∃ a, (a = m.agent ∨ a = m.agent.progress j (.submit data next true)) ∧
      Alters x { m with agent := a.complete j (.submitted (.ok ())) } w w' ∧
      w'.service.hub = (w.service.hub.takeTurn p id data next).1 := by
  cases issued with
  | true =>
    obtain rfl := Option.some.inj hb
    exact ⟨_, .inl rfl, alters_landTurn hm hcall⟩
  | false =>
    obtain rfl := Option.some.inj hb
    have issued : Alters x { m with agent := m.agent.progress j (.submit data next true) } w
        (w.issueTurn x m.caller id j data next) :=
      ⟨getElem?_modifyMember hm.here _,
        fun y hy => by simp [issueTurn, taskProgress, modifyAgent, modifyMember, note, hy],
        rfl, rfl, rfl⟩
    have landed := alters_landTurn (j := j) (hm.congr issued.here rfl rfl rfl) hcall
    exact ⟨_, .inr rfl, issued.trans landed.1, landed.2⟩

end Turn

end Alters

/-- The host's agent moves, and the hub only changes elsewhere. -/
theorem Gathered.host_moves (hg : Gathered I i k t w m m') {m₁ : Member}
    (hw : Alters i m₁ w w') (hc : m₁.caller = m.caller)
    (hrun : Hub.Elsewhere I.id w.service.hub w'.service.hub)
    (ha : I.Hosting t m₁.agent m₁.delivered) : Gathered I i k t w' m₁ m' where
  holds := hg.holds.elsewhere hrun
  host := hg.host.self hw hc
  hosting := ha
  guest := hg.guest.other hw hg.ne
  visiting := hg.visiting.onward (.inl rfl) fun _ hw => hw.elsewhere hg.holds hrun
  dismissals := hw.dismissals ▸ hg.dismissals

/-- The guest's agent moves, and the hub only changes elsewhere. -/
theorem Gathered.guest_moves (hg : Gathered I i k t w m m') {m₁ : Member}
    (hw : Alters k m₁ w w') (hc : m₁.caller = m'.caller)
    (hrun : Hub.Elsewhere I.id w.service.hub w'.service.hub)
    (ha : I.Visiting t w'.service.hub m₁.agent m₁.delivered) : Gathered I i k t w' m m₁ where
  holds := hg.holds.elsewhere hrun
  host := hg.host.other hw hg.ne.symm
  hosting := hg.hosting
  guest := hg.guest.self hw hc
  visiting := ha
  dismissals := by rw [hw.dismissals, hc]; exact hg.dismissals

/-- To subscribe is no call about the match. -/
theorem elsewhere_subscribe (id : MatchId) (h : Hub) (p : PlayerId) :
    Hub.Elsewhere id h (h.subscribe p) :=
  Hub.Elsewhere.refl.call (a := .subscribe p) trivial rfl

/-! ## Starts and steps -/

theorem gathered_start (hg : Gathered I i k t w m m') {x : Nat} {m₁ : Member} {room : Match}
    (hx : x = i ∨ x = k) (hm : w.members[x]? = some m₁)
    (hroom : w.service.hub.snapshot? I.id (w.player m₁.caller) = some room) :
    ∃ m m', Gathered I i k t (w.start x room).2 m m' := by
  simp only [start, hm]
  split
  · exact ⟨m, m', hg⟩
  next agent hb =>
    have hw := (alters_subscribe hm m₁.caller).trans
      (alters_modify (w := w.subscribe m₁.caller) hm fun m => { m with agent })
    have hrun := elsewhere_subscribe I.id w.service.hub (w.player m₁.caller)
    rcases hx with rfl | rfl
    · obtain rfl := Option.some.inj (hg.host.here.symm.trans hm)
      rw [hg.host.player] at hroom
      exact ⟨_, m', hg.host_moves hw rfl hrun
        (Invitation.hosting_start hg.holds hroom hg.hosting hb)⟩
    · obtain rfl := Option.some.inj (hg.guest.here.symm.trans hm)
      have hp : w.service.player m'.caller = I.guest := hg.guest.player
      rw [hg.guest.player] at hroom
      have ha := Invitation.visiting_start hg.holds hroom hg.visiting (by rw [← hp]; exact hb)
      rw [← hp] at ha
      exact ⟨m, _, hg.guest_moves hw rfl hrun ha⟩

theorem gathered_host_step (hg : Gathered I i k t w m m') {words : List UInt64}
    (hb : w.stepRendezvous? i words = some w') : ∃ m, Gathered I i k t w' m m' := by
  simp only [stepRendezvous?, hg.host.here, Option.bind_eq_bind, Option.bind_some,
    Option.bind_eq_some_iff, Option.pure_def, Option.some.injEq] at hb
  obtain ⟨⟨agent, effects⟩, hstep, rfl⟩ := hb
  have hw := alters_modify hg.host.here fun m => { m with agent }
  rcases Invitation.hosting_step hg.hosting hstep with ⟨ha, data, next, rfl⟩ | ⟨ha, rfl⟩
  · exact ⟨_, hg.host_moves hw rfl .refl ha⟩
  · exact ⟨_, hg.host_moves (hw.trans (alters_modify hw.here _)) rfl .refl ha⟩

/-- The guest's agent has told its owner, and starts to turn away. -/
theorem Gathered.guest_leaves (hg : Gathered I i k .taken w m m') {m₁ : Member}
    (hw : Alters k m₁ { w with dismissals := w.dismissals ++ [(m'.caller, I.id)] } w')
    (hc : m₁.caller = m'.caller) (hub : w'.service.hub = w.service.hub)
    (ha : I.Visiting .leaving w.service.hub m₁.agent m₁.delivered) :
    Gathered I i k .leaving w' m m₁ where
  holds := hub ▸ ⟨hg.holds.reachable, hg.holds.room, hg.holds.quiet⟩
  host := hg.host.congr ((hw.others i hg.ne.symm).trans hg.host.here) rfl hw.handles hw.accounts
  hosting := hg.hosting.later nofun nofun
  guest := hg.guest.congr hw.here hc hw.handles hw.accounts
  visiting := hub ▸ ha
  dismissals := by
    rw [hw.dismissals, List.filter_append, hg.dismissals]
    simp [hc]

theorem gathered_guest_step (hg : Gathered I i k t w m m') {words : List UInt64}
    (hb : w.stepRendezvous? k words = some w') : ∃ t' m', Gathered I i k t' w' m m' := by
  simp only [stepRendezvous?, hg.guest.here, Option.bind_eq_bind, Option.bind_some,
    Option.bind_eq_some_iff, Option.pure_def, Option.some.injEq] at hb
  obtain ⟨⟨agent, effects⟩, hstep, rfl⟩ := hb
  have hw := alters_modify hg.guest.here fun m => { m with agent }
  rcases Invitation.visiting_step hg.visiting hstep with
    ⟨ha, rfl | ⟨data, next, rfl | rfl⟩⟩ | ⟨rfl, ha, rfl⟩
  · exact ⟨t, _, hg.guest_moves hw rfl .refl ha⟩
  · exact ⟨t, _, hg.guest_moves hw rfl .refl ha⟩
  · have hrun := elsewhere_subscribe I.id w.service.hub (w.service.player m'.caller)
    exact ⟨t, _, hg.guest_moves (hw.trans (alters_subscribe hw.here m'.caller)) rfl hrun
      (ha.onward (.inl rfl) fun _ hw => hw.elsewhere hg.holds hrun)⟩
  · cases hr : m'.agent.rendezvous with
    | none => simp [Agent.step?, Agent.next?, hr] at hstep
    | some r =>
      simp only [List.foldl_cons, List.foldl_nil, effect, hr, hg.visiting.matchId hr]
      have hleft := alters_modify
        (w := { w with dismissals := w.dismissals ++ [(m'.caller, I.id)] }) hg.guest.here
        fun m => { m with agent }
      exact ⟨.leaving, _, hg.guest_leaves (hleft.trans (alters_modify hleft.here _)) rfl rfl ha⟩

/-! ## Tasks -/

/-- The host's turn lands, which the guest hears if it listens. -/
theorem Gathered.host_lands (hg : Gathered I i k .opened w m m') {m₁ : Member}
    (hw : Alters i m₁ w w') (hc : m₁.caller = m.caller)
    (hub : w'.service.hub =
      (w.service.hub.takeTurn I.host I.id I.offer.encode (some I.guest)).1)
    (ha : I.Hosting .offered m₁.agent m₁.delivered) : Gathered I i k .offered w' m₁ m' where
  holds := hub ▸ Invitation.offered_of_turn hg.holds
  host := hg.host.self hw hc
  hosting := ha
  guest := hg.guest.other hw hg.ne
  visiting := hub ▸ hg.visiting.onward (.inr ⟨rfl, rfl⟩) fun _ ha => ha.offered hg.holds
  dismissals := hw.dismissals ▸ hg.dismissals

/-- The guest's turn lands. -/
theorem Gathered.guest_lands (hg : Gathered I i k .offered w m m') {m₁ : Member}
    (hw : Alters k m₁ w w') (hc : m₁.caller = m'.caller)
    (hub : w'.service.hub =
      (w.service.hub.takeTurn I.guest I.id I.offer.encode (some I.host)).1)
    (ha : I.Visiting .taken w'.service.hub m₁.agent m₁.delivered) :
    Gathered I i k .taken w' m m₁ where
  holds := hub ▸ Invitation.taken_of_turn hg.holds
  host := hg.host.other hw hg.ne.symm
  hosting := hg.hosting.later nofun nofun
  guest := hg.guest.self hw hc
  visiting := ha
  dismissals := hw.dismissals ▸ hg.dismissals

theorem gathered_host_task (hg : Gathered I i k t w m m') {j : JobId}
    (hb : w.stepTask? i j = some w') : ∃ t' m, Gathered I i k t' w' m m' := by
  simp only [stepTask?, hg.host.here, Option.bind_eq_bind, Option.bind_some,
    Option.bind_eq_some_iff] at hb
  obtain ⟨r, hr, task, ht, hb⟩ := hb
  rcases Invitation.hosting_task hg.hosting ht with
    ⟨issued, rfl, hwork, hlands⟩ | ⟨v, hwork, hid, hreads⟩
  · simp only [hwork, hg.hosting.matchId hr] at hb
    have haccepted := congrArg Prod.snd (Invitation.takeTurn_host hg.holds)
    obtain ⟨a, ha, hw, hub⟩ := alters_stepSubmit hg.host haccepted hb
    exact ⟨.offered, _, hg.host_lands hw rfl hub (hlands a ha .offered (by decide))⟩
  · have hquiet : v.result? (w.service.hub.feed I.host) = none := by
      have hnone : ((w.service.hub.feed I.host).unread v.position).findSome?
          (EndWatch.verdict v.matchId) = none :=
        List.findSome?_eq_none_iff.2 fun n hn => hid ▸ hg.holds.quiet n (List.mem_of_mem_drop hn)
      simp [EndWatch.result?, hnone, Hub.notClosed_of_reachable hg.holds.reachable]
    have hp : w.service.player m.caller = I.host := hg.host.player
    simp only [hwork, stepEndWatch?, Matchmaker.feed, hp, hquiet, Option.ite_none_left_eq_some,
      Option.some.injEq] at hb
    obtain ⟨-, rfl⟩ := hb
    exact ⟨t, _, hg.host_moves (alters_modify hg.host.here _) rfl .refl (hreads _)⟩

/-- The turn wait of the guest's agent reads the guest's feed. -/
theorem Gathered.wait?_eq (hg : Gathered I i k t w m m') {j : JobId} {task : Task} {v : TurnWatch}
    (ht : m'.agent.task? j = some task) (hwork : task.work = .awaitTurn v) :
    w.wait? (.task k j) = some (v, w.service.hub.feed I.guest) := by
  obtain ⟨generation, work⟩ := task
  obtain rfl : work = .awaitTurn v := hwork
  simp only [World.wait?, hg.guest.here, ht, hg.guest.player]

/-- A turn wait that keeps up and does not run out ends with the turn, once it is there. -/
theorem Gathered.result?_wait (hg : Gathered I i k t w m m') {v : TurnWatch}
    (hid : v.matchId = I.id) (ha : I.Awaits t w.service.hub v.position)
    (hup : (w.service.hub.feed I.guest).sent.length ≤ v.position + Hub.feedCapacity)
    (htime : v.result? (w.service.hub.feed I.guest) w.now ≠ some .timedOut) :
    v.result? (w.service.hub.feed I.guest) w.now = I.call? t := by
  have hresume : (w.service.hub.feed I.guest).resume v.position = v.position := by
    rw [Feed.resume, Hub.capacity_of_reachable hg.holds.reachable]
    omega
  have hresult := ha.result? hid rfl hresume w.now
  cases hcall : I.call? t with
  | some result => simpa [hcall] using hresult
  | none =>
    rw [hcall] at hresult
    simp only at hresult
    split at hresult
    · exact absurd hresult htime
    · exact hresult

theorem gathered_guest_task (hg : Gathered I i k t w m m') (hup : w.KeepsUp k) {j : JobId}
    (htime : w.timesOut (.task k j) = false) (hb : w.stepTask? k j = some w') :
    ∃ t' m', Gathered I i k t' w' m m' := by
  simp only [stepTask?, hg.guest.here, Option.bind_eq_bind, Option.bind_some,
    Option.bind_eq_some_iff] at hb
  obtain ⟨r, hr, task, ht, hb⟩ := hb
  rcases Invitation.visiting_task hg.visiting ht with
    ⟨issued, rfl, hwork, hlands⟩ | ⟨v, hwork, hid, hawaits, hreads, hends⟩
  · simp only [hwork, hg.visiting.matchId hr] at hb
    have haccepted := congrArg Prod.snd (Invitation.takeTurn_guest hg.holds)
    obtain ⟨a, ha, hw, hub⟩ := alters_stepSubmit hg.guest haccepted hb
    exact ⟨.taken, _, hg.guest_lands hw rfl hub (hlands a ha _)⟩
  · have hwait := hg.wait?_eq ht hwork
    have hresult := hg.result?_wait hid hawaits (hup j v _ hwait)
      (by simpa [timesOut, hwait] using htime)
    have hp : w.service.player m'.caller = I.guest := hg.guest.player
    simp only [hwork, stepTurnWatch?, Matchmaker.feed, hp, hresult] at hb
    cases hcall : I.call? t with
    | some result =>
      simp only [hcall, Option.some.injEq] at hb
      subst hb
      exact ⟨t, _, hg.guest_moves (alters_modify hg.guest.here _) rfl .refl (hends result hcall)⟩
    | none =>
      simp only [hcall, Option.ite_none_left_eq_some, Option.some.injEq] at hb
      obtain ⟨-, rfl⟩ := hb
      exact ⟨t, _, hg.guest_moves (alters_modify hg.guest.here _) rfl .refl
        (hreads _ (Invitation.awaits_position hawaits.listens hcall))⟩

/-! ## The dismissal -/

/-- The one element that is meant is taken out of a list. -/
theorem filter_eraseIdx_of_singleton {α : Type} {p : α → Bool} {l : List α} {n : Nat} {a b : α}
    (hl : l.filter p = [b]) (hn : l[n]? = some a) (ha : p a = true) :
    a = b ∧ (l.eraseIdx n).filter p = [] := by
  obtain ⟨hlt, rfl⟩ := List.getElem?_eq_some_iff.1 hn
  have hsplit : l.filter p = (l.take n).filter p ++ l[n] :: (l.drop (n + 1)).filter p := by
    rw [← List.filter_cons_of_pos ha, ← List.filter_append, ← List.drop_eq_getElem_cons hlt,
      List.take_append_drop]
  rw [List.eraseIdx_eq_take_drop_succ, List.filter_append]
  rw [hl] at hsplit
  cases hfirst : (l.take n).filter p with
  | nil =>
    simp only [hfirst, List.nil_append, List.cons.injEq] at hsplit
    exact ⟨hsplit.1.symm, hsplit.2.symm⟩
  | cons c rest => simp [hfirst] at hsplit

/-- The guest turns away, and both have succeeded. -/
theorem Gathered.guest_left (hg : Gathered I i k .leaving w m m')
    (hi : w'.members[i]? = w.members[i]?) (hk : w'.members[k]? = w.members[k]?)
    (hh : w'.service.handles = w.service.handles) (hs : w'.service.accounts = w.service.accounts)
    (hub : w'.service.hub = (w.service.hub.dismiss I.guest I.id).1)
    (hd : w'.dismissals.filter (·.2 = I.id) = []) : Gathered I i k .left w' m m' where
  holds := hub ▸ Invitation.left_of_dismiss hg.holds
  host := hg.host.congr (hi.trans hg.host.here) rfl hh hs
  hosting := hg.hosting.later nofun nofun
  guest := hg.guest.congr (hk.trans hg.guest.here) rfl hh hs
  visiting := hg.visiting.left
  dismissals := hd

theorem gathered_dismissal (hg : Gathered I i k t w m m') {n : Nat}
    (hn : w.concerns i k I.id (.dismissal n) = true) (hb : w.stepDismissal? n = some w') :
    ∃ t', Gathered I i k t' w' m m' := by
  simp only [stepDismissal?, Option.map_eq_some_iff] at hb
  obtain ⟨⟨c, id⟩, he, rfl⟩ := hb
  obtain rfl : id = I.id := by simpa [concerns, he] using hn
  have hmem : (c, I.id) ∈ w.dismissals.filter (·.2 = I.id) :=
    List.mem_filter.2 ⟨List.mem_of_getElem? he, by simp⟩
  rw [hg.dismissals] at hmem
  obtain rfl : t = .leaving := by
    by_contra ht
    simp [ht] at hmem
  obtain ⟨hc, hd⟩ := filter_eraseIdx_of_singleton (hg.dismissals.trans (if_pos rfl)) he (by simp)
  obtain rfl : c = m'.caller := congrArg Prod.fst hc
  have hcall : w.service.dismiss m'.caller I.id =
      ({ w.service with hub := (w.service.hub.dismiss I.guest I.id).1 },
        (w.service.hub.dismiss I.guest I.id).2) := by
    have hp : w.service.player m'.caller = I.guest := hg.guest.player
    simp only [Lobby.dismiss, Lobby.act, hg.guest.signedIn, if_true, hp]
  refine ⟨.left, hg.guest_left ?_ ?_ ?_ ?_ ?_ hd⟩
  all_goals simp only [callDismiss, note, Matchmaker.dismissMatch, hcall]

/-! ## Everything that happens -/

/-- Something else happens. -/
theorem Gathered.aside (hg : Gathered I i k t w m m') (hi : w'.members[i]? = w.members[i]?)
    (hk : w'.members[k]? = w.members[k]?)
    (hplayers : ∀ x m, x = i ∨ x = k → w.members[x]? = some m →
      w'.player m.caller = w.player m.caller ∧ w'.service.isSignedIn m.caller = true)
    (hd : w'.dismissals.filter (·.2 = I.id) = w.dismissals.filter (·.2 = I.id))
    (hrun : Hub.Elsewhere I.id w.service.hub w'.service.hub) : Gathered I i k t w' m m' where
  holds := hg.holds.elsewhere hrun
  host :=
    have ⟨hp, hs⟩ := hplayers i m (.inl rfl) hg.host.here
    ⟨hi.trans hg.host.here, hp.trans hg.host.player, hs⟩
  hosting := hg.hosting
  guest :=
    have ⟨hp, hs⟩ := hplayers k m' (.inr rfl) hg.guest.here
    ⟨hk.trans hg.guest.here, hp.trans hg.guest.player, hs⟩
  visiting := hg.visiting.onward (.inl rfl) fun _ ha => ha.elsewhere hg.holds hrun
  dismissals := hd.trans hg.dismissals

theorem gathered_of_proceeds (hg : Gathered I i k t w m m') (hup : w.KeepsUp k)
    (hp : Proceeds i k I.id w w') : ∃ t' m m', Gathered I i k t' w' m m' := by
  cases hp with
  | start hx hm hroom => exact ⟨t, gathered_start hg hx hm hroom⟩
  | @step words part _ hc htime hb =>
    cases part with
    | rendezvous x =>
      rcases (by simpa [concerns] using hc : x = i ∨ x = k) with rfl | rfl
      · obtain ⟨m, h⟩ := gathered_host_step hg hb
        exact ⟨t, m, m', h⟩
      · obtain ⟨t', m', h⟩ := gathered_guest_step hg hb
        exact ⟨t', m, m', h⟩
    | task x j =>
      rcases (by simpa [concerns] using hc : x = i ∨ x = k) with rfl | rfl
      · obtain ⟨t', m, h⟩ := gathered_host_task hg hb
        exact ⟨t', m, m', h⟩
      · obtain ⟨t', m', h⟩ := gathered_guest_task hg hup htime hb
        exact ⟨t', m, m', h⟩
    | dismissal n =>
      obtain ⟨t', h⟩ := gathered_dismissal hg hc hb
      exact ⟨t', m, m', h⟩
    | session => cases hc
  | aside hi hk hplayers hd hrun => exact ⟨t, m, m', hg.aside hi hk hplayers hd hrun⟩

end Gathered

end World

end TurnRendezvous
