/-
# `World.History` — what a lobby with its agents can go through

Any number of players connect to one hub, in the way of a lobby.  At any time
one part of the world makes a step, with any randomness; the clock is set; a
player or the service calls the hub, but for turns, which only agents take; an
agent or a session is added, started, let go or dropped (`Happening`).  An
agent is started on what its player saw, or could have seen, of a room at some
time, however long ago.

A history is the row of the worlds so far, the latest first.

* `history_stop`: to stop an agent is to do three such things;
* `history_run`: what the schedule has a part do is a row of steps.
-/
import TurnRendezvous.Proofs.Agent.Faithful
import TurnRendezvous.Proofs.Hub.Chronicle
import TurnRendezvous.World.Schedule
import TurnRendezvous.Matchmaker.Lobby

namespace TurnRendezvous

/-! ## Calls of a lobby -/

namespace Lobby

/-- A call that is not a turn: it is refused, or the hub performs it. -/
inductive Acts (l : Lobby) : Lobby → Prop
  | refused : Acts l l
  | performed {a : Hub.Action} :
      a.Next l.hub → a.isTurn = false → Acts l { l with hub := l.hub.perform a }

theorem acts_create (l : Lobby) (c : Caller) (request : MatchRequest) :
    l.Acts (l.create c request).1 := by
  unfold create act
  split
  · exact .performed (a := .create l.hub.nextId (l.player c) request) rfl rfl
  · exact .refused

theorem acts_cancel (l : Lobby) (c : Caller) (id : MatchId) : l.Acts (l.cancel c id).1 := by
  unfold cancel act
  split
  · exact .performed (a := .cancel (l.player c) id) trivial rfl
  · exact .refused

theorem acts_dismiss (l : Lobby) (c : Caller) (id : MatchId) : l.Acts (l.dismiss c id).1 := by
  unfold dismiss act
  split
  · exact .performed (a := .dismiss (l.player c) id) trivial rfl
  · exact .refused

theorem Acts.handles_eq {l l' : Lobby} (h : l.Acts l') : l'.handles = l.handles := by
  cases h with
  | refused => rfl
  | performed => rfl

theorem resolve_keeps (l : Lobby) (name : String) :
    l.handles <+: (l.resolve name).1.handles ∧ (l.resolve name).1.hub = l.hub := by
  unfold resolve
  split
  · exact ⟨List.prefix_rfl, rfl⟩
  · exact ⟨List.prefix_append _ _, rfl⟩

theorem cloneHandle_keeps (l : Lobby) (name source : String) :
    l.handles <+: (l.cloneHandle name source).1.handles ∧
      (l.cloneHandle name source).1.hub = l.hub := by
  obtain ⟨hs, hub⟩ := resolve_keeps l source
  exact ⟨hs.trans (List.prefix_append _ _), hub⟩

/-- Whoever is there already keeps the player. -/
theorem player_stays {l l' : Lobby} (h : l.handles <+: l'.handles) {c : Caller}
    (hc : c < l.handles.length) : l'.player c = l.player c := by
  obtain ⟨rest, hrest⟩ := h
  simp only [player, handle, ← hrest, List.getElem?_append_left hc]

end Lobby

namespace World

/-! ## Histories -/

/-- The world after a step of the rendezvous of the member `m`, which stands at `i`:
`agent` is what became of its agent. -/
def carryOut (w : World Lobby) (i : Nat) (m : Member) (agent : Agent) (effects : List Effect) :
    World Lobby :=
  effects.foldl (fun w e => w.effect i m e) (w.modifyAgent i fun _ => agent)

/-- The player behind a caller. -/
def player (w : World Lobby) (c : Caller) : PlayerId := w.service.player c

/-- A room as it was at some time. -/
def Past (ws : List (World Lobby)) (r : Room) : Prop := ∃ w ∈ ws, r ∈ w.service.hub.rooms

/-- What can happen in a world, if `P` are the rooms that ever were. -/
inductive Happening (P : Room → Prop) (w : World Lobby) : World Lobby → Prop
  /-- A part of the world makes a step. -/
  | step {words : List UInt64} {part : Part} {w' : World Lobby} :
      w.step? words part = some w' → Happening P w w'
  /-- A rendezvous makes a step, and its owner makes calls in the callbacks. -/
  | stepWithin {i : Nat} {m : Member} {words : List UInt64} {within : List OwnerCall}
      {agent : Agent} {marks : List Agent.Mark} :
      w.members[i]? = some m →
      m.agent.stepWithin? (w.surroundings m.caller words) within = some (agent, marks) →
      Happening P w (w.carryOut i m agent (marks.map Agent.Mark.effect))
  | clock (now : Instant) : Happening P w { w with now }
  | connect (name : String) (player : PlayerId) :
      Happening P w { w with service := (w.service.connect name player).1 }
  | clone (name source : String) :
      Happening P w { w with service := (w.service.cloneHandle name source).1 }
  | signIn (c : Caller) (value : Bool) :
      Happening P w { w with service := w.service.setSignedIn c value }
  | subscribe (c : Caller) : Happening P w (w.subscribe c)
  | create (c : Caller) (request : MatchRequest) :
      Happening P w { w with service := (w.service.create c request).1 }
  | cancel (c : Caller) (id : MatchId) : Happening P w (w.callCancel c id)
  | dismiss (c : Caller) (id : MatchId) : Happening P w (w.callDismiss c id)
  | expire (id : MatchId) :
      Happening P w { w with service := { w.service with hub := (w.service.hub.expire id).1 } }
  | remove (id : MatchId) :
      Happening P w { w with service := { w.service with hub := (w.service.hub.remove id).1 } }
  | addMember {c : Caller} (probes : ProbeScript) (role : Role) (timing : Timing) :
      c < w.service.handles.length →
      Happening P w (w.addMember { caller := c, probes, agent := .ofRole role timing }).2
  | addQuest {c : Caller} (probes : ProbeScript) (timing : Timing) (side : Side)
      (maxAttempts : Option UInt32) :
      c < w.service.handles.length →
      Happening P w
        (w.addQuest { caller := c, probes, timing, session := { side, maxAttempts } }).2
  /-- An agent is started on a room as its player saw it. -/
  | start {i : Nat} {m : Member} {r : Room} :
      w.members[i]? = some m → P r → Happening P w (w.start i (r.snapshot (w.player m.caller))).2
  | detach (i : Nat) : Happening P w (w.detach i)
  /-- An agent is given up; to stop it is to cancel and to dismiss its match, too. -/
  | giveUp (i : Nat) : Happening P w (w.modifyAgent i .abandonMatch)
  | abort (k : Nat) : Happening P w (w.abort k)

/-- The worlds so far, the latest first; at first there is an empty hub. -/
inductive History : List (World Lobby) → Prop
  | start : History [{ service := {} }]
  | next {w w' : World Lobby} {ws : List (World Lobby)} :
      History (w :: ws) → Happening (Past (w :: ws)) w w' → History (w' :: w :: ws)

/-- To stop an agent is to give it up, to cancel its match and to dismiss it. -/
theorem history_stop {w : World Lobby} {ws : List (World Lobby)} (h : History (w :: ws))
    (i : Nat) : ∃ ws', History (w.stop i :: ws') ∧ w ∈ ws' := by
  unfold stop
  cases hm : w.members[i]? with
  | none => exact ⟨w :: ws, h.next (.clock w.now), List.mem_cons_self⟩
  | some m =>
    have given := h.next (.giveUp i)
    cases hid : m.agent.matchId with
    | none =>
      simp only [hid]
      exact ⟨_, given, List.mem_cons_self⟩
    | some id =>
      simp only [hid]
      have cancelled := given.next (.cancel m.caller id)
      exact ⟨_, cancelled.next (.dismiss m.caller id), by simp⟩

theorem history_runSession (k fuel : Nat) :
    ∀ {w w' : World Lobby} {ws : List (World Lobby)}, History (w :: ws) →
      w.runSession? k fuel = some w' → ∃ ws', History (w' :: ws') := by
  induction fuel with
  | zero =>
    intro w w' ws _ hs
    cases hs
  | succ fuel ih =>
    intro w w' ws h hs
    obtain ⟨w₁, hstep, hrest⟩ := Option.map_eq_some_iff.1 hs
    have hs₁ : w.step? [] (.session k) = some w₁ := hstep
    have h₁ := h.next (.step hs₁)
    cases hrun : w₁.runSession? k fuel with
    | none =>
      obtain rfl : w₁ = w' := by simpa [hrun] using hrest
      exact ⟨_, h₁⟩
    | some w₂ =>
      obtain rfl : w₂ = w' := by simpa [hrun] using hrest
      exact ih h₁ hrun

/-- Whatever a part does when the schedule gives it its turn. -/
theorem history_run {w w' : World Lobby} {ws : List (World Lobby)} (h : History (w :: ws))
    {fuel : Nat} {words : List UInt64} {part : Part} (hs : w.run? fuel words part = some w') :
    ∃ ws', History (w' :: ws') := by
  cases part with
  | session k => exact history_runSession k fuel h hs
  | rendezvous i => exact ⟨_, h.next (.step (show w.step? words (.rendezvous i) = _ from hs))⟩
  | task i j => exact ⟨_, h.next (.step (show w.step? words (.task i j) = _ from hs))⟩
  | dismissal k => exact ⟨_, h.next (.step (show w.step? words (.dismissal k) = _ from hs))⟩

end World

end TurnRendezvous
