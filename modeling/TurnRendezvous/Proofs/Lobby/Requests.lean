/-
# `Lobby.serve` — requests to a lobby

What a player or the service can ask of a lobby is a `Request`; to subscribe is none,
since nobody is refused that.  `Lobby.serve` carries a request out with the lobby's own
calls, and says what is left behind and what is answered.

The lobby decides one thing by itself: whoever is signed out is refused
(`serve_of_signedOut`).  What else is asked for is a call of the hub (`serve_of_action`)
or only a look at it (`serve_fetch`).  So a request that is refused changes nothing, and
one that is answered with a match has been carried out to the end
(`refused_requests_change_nothing`).
-/
import TurnRendezvous.Matchmaker.Lobby
import TurnRendezvous.Proofs.Hub.Answers

namespace TurnRendezvous

namespace Lobby

/-- What is asked of a lobby, by a caller or by the service. -/
inductive Request
  | create (c : Caller) (config : MatchRequest)
  | takeTurn (c : Caller) (id : MatchId) (data : Bytes) (next : Option PlayerId)
  | cancel (c : Caller) (id : MatchId)
  | dismiss (c : Caller) (id : MatchId)
  | fetch (c : Caller) (id : MatchId)
  | expire (id : MatchId)
  | remove (id : MatchId)

/-- Who asks, if it is not the service. -/
def Request.caller? : Request → Option Caller
  | .create c _ | .takeTurn c .. | .cancel c _ | .dismiss c _ | .fetch c _ => some c
  | .expire _ | .remove _ => none

/-- The call of the hub that a request comes to, if it is more than a look. -/
def Request.action? (l : Lobby) : Request → Option Hub.Action
  | .create c config => some (.create l.hub.nextId (l.player c) config)
  | .takeTurn c id data next => some (.takeTurn (l.player c) id data next)
  | .cancel c id => some (.cancel (l.player c) id)
  | .dismiss c id => some (.dismiss (l.player c) id)
  | .fetch .. => none
  | .expire id => some (.expire id)
  | .remove id => some (.remove id)

/-- The lobby after a request, and the answer: a match, or that it is done. -/
def serve (l : Lobby) : Request → Lobby × Except Failure (Option Match)
  | .create c config => ((l.create c config).1, (l.create c config).2.map some)
  | .takeTurn c id data next =>
    ((l.takeTurn c id data next).1, (l.takeTurn c id data next).2.map some)
  | .cancel c id => ((l.cancel c id).1, (l.cancel c id).2.map fun _ => none)
  | .dismiss c id => ((l.dismiss c id).1, (l.dismiss c id).2.map fun _ => none)
  | .fetch c id => (l, (l.fetch c id).map some)
  | .expire id => ({ l with hub := (l.hub.expire id).1 }, (l.hub.expire id).2.map fun _ => none)
  | .remove id => ({ l with hub := (l.hub.remove id).1 }, (l.hub.remove id).2.map fun _ => none)

section Serve
variable {l : Lobby} {q : Request} {c : Caller}

/-- Whoever is signed out is refused everything. -/
theorem serve_of_signedOut (hq : q.caller? = some c) (hc : l.isSignedIn c = false) :
    l.serve q = (l, .error .notSignedIn) := by
  cases q with
  | expire id | remove id => cases hq
  | create | takeTurn | cancel | dismiss | fetch =>
    cases hq
    simp [serve, create, takeTurn, cancel, dismiss, fetch, act, hc, Except.map]

/-- Any other request to do something is a call of the hub. -/
theorem serve_of_action {a : Hub.Action} (ha : q.action? l = some a)
    (hin : ∀ c, q.caller? = some c → l.isSignedIn c = true) :
    l.serve q = ({ l with hub := l.hub.perform a }, l.hub.answer a) := by
  cases q with
  | fetch c id => cases ha
  | expire id | remove id =>
    cases ha
    rfl
  | create | takeTurn | cancel | dismiss =>
    cases ha
    have hc := hin _ rfl
    simp [serve, create, takeTurn, cancel, dismiss, act, hc, Hub.create, Hub.perform, Hub.answer]

/-- A look shows what the player sees. -/
theorem serve_fetch {id : MatchId} (hc : l.isSignedIn c = true) :
    l.serve (.fetch c id) = (l, match l.hub.snapshot? id (l.player c) with
      | some m => .ok (some m)
      | none => .error (Hub.noMatch id)) := by
  cases hm : l.hub.snapshot? id (l.player c) <;> simp [serve, fetch, hc, hm, Except.map]

/-- Either the caller is signed out, or the request is a look, or it reaches the hub. -/
theorem serve_cases (l : Lobby) (q : Request) :
    (∃ c, q.caller? = some c ∧ l.isSignedIn c = false) ∨
      (∃ c id, q = .fetch c id ∧ l.isSignedIn c = true) ∨
      ∃ a, q.action? l = some a ∧
        l.serve q = ({ l with hub := l.hub.perform a }, l.hub.answer a) := by
  by_cases hin : ∀ c, q.caller? = some c → l.isSignedIn c = true
  · right
    cases q with
    | fetch c id => exact .inl ⟨c, id, rfl, hin c rfl⟩
    | create | takeTurn | cancel | dismiss | expire | remove =>
      exact .inr ⟨_, rfl, serve_of_action rfl hin⟩
  · push Not at hin
    obtain ⟨c, hq, hc⟩ := hin
    exact .inl ⟨c, hq, Bool.eq_false_iff.2 hc⟩

/-- A request brings no name but the next one. -/
theorem fresh_of_action {a : Hub.Action} (hf : l.hub.nextId ∉ l.hub.created)
    (ha : q.action? l = some a) : a.Fresh l.hub := by
  cases q with
  | fetch => cases ha
  | create =>
    cases ha
    exact hf
  | takeTurn | cancel | dismiss | expire | remove =>
    cases ha
    trivial

end Serve

/-- A request that is refused leaves the lobby as it was: all rooms, the queue, and all
that anybody has been told.  A player who is signed out is refused everything, and told
why.  And a match that is answered is what its viewer sees of the room from then on, if the
name for a new room is a new one. -/
theorem refused_requests_change_nothing {l : Lobby} (hr : l.hub.Reachable) (q : Request) :
    (∀ e, (l.serve q).2 = .error e → (l.serve q).1 = l) ∧
      (∀ c, q.caller? = some c → l.isSignedIn c = false →
        (l.serve q).2 = .error .notSignedIn) ∧
      (l.hub.nextId ∉ l.hub.created → ∀ m, (l.serve q).2 = .ok (some m) →
        (l.serve q).1.hub.snapshot? m.id m.viewer = some m) := by
  have hs := Hub.reachable_sound hr
  refine ⟨?_, fun c hq hc => by rw [serve_of_signedOut hq hc], ?_⟩
  · intro e he
    rcases serve_cases l q with ⟨c, hq, hc⟩ | ⟨c, id, rfl, hc⟩ | ⟨a, -, heq⟩
    · rw [serve_of_signedOut hq hc]
    · rw [serve_fetch hc]
    · rw [heq] at he ⊢
      rw [Hub.perform_of_refused (Hub.tidy_eq hs) he]
  · intro hf m hm
    rcases serve_cases l q with ⟨c, hq, hc⟩ | ⟨c, id, rfl, hc⟩ | ⟨a, ha, heq⟩
    · rw [serve_of_signedOut hq hc] at hm
      cases hm
    · rw [serve_fetch hc] at hm ⊢
      cases hseen : l.hub.snapshot? id (l.player c) with
      | none =>
        rw [hseen] at hm
        cases hm
      | some m' =>
        rw [hseen] at hm
        obtain rfl := Option.some.inj (Except.ok.inj hm)
        obtain ⟨r, hv, rfl⟩ := Option.map_eq_some_iff.1 hseen
        obtain rfl := (Hub.mem_of_visible? hv).2.1
        exact hseen
    · rw [heq] at hm ⊢
      exact Hub.snapshot_of_answer hs (fresh_of_action hf ha) hm

/-- Bob takes the turn that is Ann's, and nothing changes, and Ann asks for a match while
she is signed out. -/
theorem refused_requests_change_nothing_out_of_turn :
    let l := ((({} : Lobby).connect "ann" ⟨"ann"⟩).1.connect "bob" ⟨"bob"⟩).1
    let l := (l.serve (.create 0 (.inviting ⟨"bob"⟩))).1
    let q : Request := .takeTurn 1 ⟨"#1"⟩ [7] (some ⟨"ann"⟩)
    let out := l.setSignedIn 0 false
    l.hub.rooms.length = 1 ∧
      (l.serve q).2 = .error (Room.notYourTurn ⟨"bob"⟩ ⟨"#1"⟩) ∧ (l.serve q).1 = l ∧
      out.isSignedIn 0 = false ∧ (out.serve (.create 0 .autoMatching)).2 = .error .notSignedIn := by
  intro l₀ l q out
  have hr : l.hub.Reachable :=
    Hub.Reachable.empty.call (a := .create l₀.hub.nextId ⟨"ann"⟩ (.inviting ⟨"bob"⟩)) (by decide)
  have hrefused : (l.serve q).2 = .error (Room.notYourTurn ⟨"bob"⟩ ⟨"#1"⟩) := by decide
  have hnothing := (refused_requests_change_nothing hr q).1 _ hrefused
  have hout := (refused_requests_change_nothing (l := out) hr (.create 0 .autoMatching)).2.1
  exact ⟨by decide, hrefused, hnothing, rfl, hout 0 rfl rfl⟩

end Lobby

end TurnRendezvous
