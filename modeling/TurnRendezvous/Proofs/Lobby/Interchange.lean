/-
# `Lobby.requests_interchange` — requests about two rooms

Whoever is answered does not know what else has been asked for meanwhile.  As far as other
rooms go this makes no difference: two requests that each name a room, and not the same one,
are answered alike in either order, and leave the same rooms and the same queue.  What can be
told apart afterwards is only in which order somebody who sees both rooms was told of them.

A request is local to the room it names since the hub's call is (`local_takeTurn` and so on),
and since nothing that a lobby adds to the call looks at rooms (`local_act`).
-/
import TurnRendezvous.Proofs.Hub.Edits
import TurnRendezvous.Proofs.Lobby.Errands

namespace TurnRendezvous

namespace Hub

/-- To answer in other words changes nothing. -/
theorem Local.map {α β : Type} {id : MatchId} {f : Hub → Hub × α} (hf : Local id f) (t : α → β) :
    Local id fun h => ((f h).1, t (f h).2) := by
  intro h
  obtain ⟨e, x, he⟩ := hf h
  refine ⟨e, t x, fun g hg => ?_⟩
  show ((f g).1, t (f g).2) = _
  rw [he g hg]

/-- A look at a room is local to it. -/
theorem local_look {α : Type} (id : MatchId) (look : Hub → α)
    (hlook : ∀ g h : Hub, g.room? id = h.room? id → look g = look h) :
    Local id fun h => (h, look h) := by
  intro h
  refine ⟨.nothing id, look h, fun g hg => ?_⟩
  show (g, look g) = _
  rw [apply_nothing, hlook g h hg]

end Hub

namespace Lobby

/-- The room that a request names. -/
def Request.room? : Request → Option MatchId
  | .create .. => none
  | .takeTurn _ id _ _ | .cancel _ id | .dismiss _ id | .fetch _ id | .expire id | .remove id =>
    some id

section Local
variable {id : MatchId} (l : Lobby)

/-- Who acts, and whether they may, does not depend on any room. -/
theorem local_act {α : Type} (c : Caller) {f : Hub → PlayerId → Hub × Except Failure α}
    (hf : Hub.Local id fun h => f h (l.player c)) :
    Hub.Local id fun h => (((l.withHub h).act c f).1.hub, ((l.withHub h).act c f).2) := by
  intro h
  have hsame (g : Hub) : (l.withHub g).isSignedIn c = l.isSignedIn c := rfl
  cases hin : l.isSignedIn c with
  | true =>
    obtain ⟨e, x, he⟩ := hf h
    refine ⟨e, x, fun g hg => ?_⟩
    rw [← he g hg]
    simp only [act, hsame, hin, if_true]
    rfl
  | false =>
    refine ⟨.nothing id, .error .notSignedIn, fun g _ => ?_⟩
    simp only [act, hsame, hin, Bool.false_eq_true, if_false, Hub.apply_nothing]
    rfl

/-- A request is local to the room that it names. -/
theorem local_serve {q : Request} (hq : q.room? = some id) :
    Hub.Local id fun h => (((l.withHub h).serve q).1.hub, ((l.withHub h).serve q).2) := by
  cases q with
  | create => cases hq
  | takeTurn c _ data next =>
    cases hq
    exact (l.local_act c (Hub.local_takeTurn (l.player c) id data next)).map (Except.map some)
  | cancel c =>
    cases hq
    exact (l.local_act c (Hub.local_cancel (l.player c) id)).map (Except.map fun _ => none)
  | dismiss c =>
    cases hq
    exact (l.local_act c (Hub.local_dismiss (l.player c) id)).map (Except.map fun _ => none)
  | fetch c =>
    cases hq
    refine Hub.local_look id (fun h => ((l.withHub h).fetch c id).map some) fun g h hg => ?_
    have hseen : g.snapshot? id (l.player c) = h.snapshot? id (l.player c) :=
      congrArg (Option.map fun r : Room => r.snapshot (l.player c))
        (Hub.visible?_congr hg (l.player c))
    have hsee (k : Hub) : (l.withHub k).hub.snapshot? id ((l.withHub k).player c) =
      k.snapshot? id (l.player c) := rfl
    simp only [fetch, hsee, hseen]
    rfl
  | expire =>
    cases hq
    exact (Hub.local_expire id).map (Except.map fun _ => none)
  | remove =>
    cases hq
    exact (Hub.local_remove id).map (Except.map fun _ => none)

/-- A request changes nothing of a lobby but its hub. -/
theorem serve_fst (q : Request) : (l.serve q).1 = l.withHub (l.serve q).1.hub := by
  have hact {α : Type} (c : Caller) (f : Hub → PlayerId → Hub × Except Failure α) :
      (l.act c f).1 = l.withHub (l.act c f).1.hub := by
    unfold act
    split <;> rfl
  cases q with
  | create c config => exact hact c fun h p => h.create p config
  | takeTurn c id data next => exact hact c fun h p => h.takeTurn p id data next
  | cancel c id => exact hact c fun h p => h.cancel p id
  | dismiss c id => exact hact c fun h p => h.dismiss p id
  | fetch | expire | remove => rfl

end Local

/-- Two requests that name different rooms are each answered as if the other had not been
made.  And whichever comes first, the lobby is the same afterwards: the rooms, the queue of
open rooms and what every player has been told of any single room, in the same order. -/
theorem requests_interchange {l : Lobby} {q q' : Request} {i j : MatchId}
    (hi : q.room? = some i) (hj : q'.room? = some j) (hne : i ≠ j) :
    ((l.serve q').1.serve q).2 = (l.serve q).2 ∧
      ((l.serve q).1.serve q').2 = (l.serve q').2 ∧
      Hub.Alike l.hub ((l.serve q).1.serve q').1.hub ((l.serve q').1.serve q).1.hub ∧
      ((l.serve q).1.serve q').1.withHub ((l.serve q').1.serve q).1.hub =
        ((l.serve q').1.serve q).1 := by
  obtain ⟨hanswer, hanswer', halike⟩ := (l.local_serve hi).comm (l.local_serve hj) hne l.hub
  have hself : l.withHub l.hub = l := rfl
  have hafter (q : Request) : l.withHub (l.serve q).1.hub = (l.serve q).1 := (serve_fst l q).symm
  simp only [hself, hafter] at hanswer hanswer' halike
  refine ⟨hanswer, hanswer', halike, ?_⟩
  rw [serve_fst (l.serve q').1 q, serve_fst (l.serve q).1 q', serve_fst l q, serve_fst l q']
  rfl

/-- Ann hands Bob the turn on one match, and Bob, who is the only one to see another one, turns
away from it, so that it goes away.  He is told of both, in either order. -/
theorem requests_interchange_while_bob_leaves :
    let l := ((({} : Lobby).connect "ann" ⟨"ann"⟩).1.connect "bob" ⟨"bob"⟩).1
    let h := [Hub.Action.subscribe ⟨"bob"⟩, .create ⟨"a"⟩ ⟨"ann"⟩ ⟨[⟨"bob"⟩], true⟩,
      .create ⟨"b"⟩ ⟨"bob"⟩ ⟨[⟨"ann"⟩], true⟩, .dismiss ⟨"ann"⟩ ⟨"b"⟩].foldl Hub.perform {}
    let l := { l with hub := h }
    let q : Request := .takeTurn 0 ⟨"a"⟩ [7] (some ⟨"bob"⟩)
    let q' : Request := .dismiss 1 ⟨"b"⟩
    let a := (l.serve q).1.serve q'
    let b := (l.serve q').1.serve q
    q.room? = some ⟨"a"⟩ ∧ q'.room? = some ⟨"b"⟩ ∧
      (∃ m, (l.serve q).2 = .ok (some m)) ∧ (l.serve q').2 = .ok none ∧
      l.hub.openIds = [⟨"a"⟩, ⟨"b"⟩] ∧ a.1.hub.openIds = [⟨"a"⟩] ∧
      (a.1.hub.feed ⟨"bob"⟩).sent ≠ (b.1.hub.feed ⟨"bob"⟩).sent ∧
      b.2 = (l.serve q).2 ∧ a.2 = (l.serve q').2 ∧ Hub.Alike l.hub a.1.hub b.1.hub := by
  intro l₀ h l q q' a b
  have hi : q.room? = some ⟨"a"⟩ := rfl
  have hj : q'.room? = some ⟨"b"⟩ := rfl
  obtain ⟨hanswer, hanswer', halike, -⟩ := requests_interchange (l := l) hi hj (by decide)
  exact ⟨rfl, rfl, ⟨_, rfl⟩, rfl, by decide, by decide, by decide, hanswer, hanswer', halike⟩

end Lobby

end TurnRendezvous
