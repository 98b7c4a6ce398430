/-
# `Match.opponent?` — the turn that a fresh snapshot suggests

A player who has looked a room up and is to move there hands the turn to whom the snapshot
suggests: to the first of the others, or if there are none to the open slot.  Whether a hub
accepts a turn is checked apart from that, on the room: the one named has to take part and
to be somebody else, and nobody may be named only while the slot is open.

The two agree on every room that calls lead to.  Whoever is named is one of the others by the
way the name was found.  Whoever names nobody is alone, and a room that goes on with a single
player in it still waits for a second one (`Room.Peopled`).

* `Room.suggests_place`: what is suggested is a place that the turn may go to;
* `Hub.suggestion_accepted_iff`: when a hub accepts the turn;
* `fresh_snapshot_tells_turn`: what this says about the callers of a lobby.
-/
import TurnRendezvous.Proofs.Hub.Holding
import TurnRendezvous.Proofs.Lobby.Requests

namespace TurnRendezvous

/-- In a room that goes on, the turn may go where the snapshot of a participant suggests. -/
theorem Room.suggests_place {r : Room} {p : PlayerId} (hr : r.Sound) (hpeopled : r.Peopled)
    (hl : r.status.isLive = true) (hp : p ∈ r.participants) :
    (∃ q, (r.snapshot p).opponent? = some q ∧ q ≠ p ∧ q ∈ r.participants) ∨
      ((r.snapshot p).opponent? = none ∧ r.openSlot = true) := by
  cases ho : (r.snapshot p).opponent? with
  | some q =>
    obtain ⟨hq, hne⟩ := mem_of_opponent? ho
    exact .inl ⟨q, rfl, hne, hq⟩
  | none =>
    have halone := participants_eq_of_alone hr hp ho
    refine .inr ⟨rfl, (hpeopled hl).resolve_right ?_⟩
    simp [halone]

namespace Hub

section Snapshot
variable {h : Hub} {id : MatchId} {p q : PlayerId}

theorem snapshot?_eq_some_iff (hs : h.Sound) {m : Match} :
    h.snapshot? id p = some m ↔
      ∃ r ∈ h.rooms, r.id = id ∧ r.isSeenBy p = true ∧ r.snapshot p = m := by
  constructor
  · intro hm
    obtain ⟨r, hv, rfl⟩ := Option.map_eq_some_iff.1 hm
    obtain ⟨hr, hid, hseen⟩ := mem_of_visible? hv
    exact ⟨r, hr, hid, hseen, rfl⟩
  · rintro ⟨r, hr, hid, hseen, rfl⟩
    exact Option.map_eq_some_iff.2 ⟨r, (visible?_eq_some_iff hs).2 ⟨hr, hid, hseen⟩, rfl⟩

/-- The turn that a player's snapshot suggests is accepted just when the player is to move in
that snapshot. -/
theorem suggestion_accepted_iff (hr : h.Reachable) {next : Option PlayerId}
    (hnext : ∀ m, h.snapshot? id p = some m → next = m.opponent?) (data : Bytes) :
    (∃ m, h.answer (.takeTurn p id data next) = .ok (some m)) ↔
      ∃ m, h.snapshot? id p = some m ∧ m.isMyTurn = true := by
  have hs := reachable_sound hr
  rw [turn_accepted_iff hs]
  constructor
  · rintro ⟨r, hr, hid, hseen, hl, hholder, -⟩
    refine ⟨r.snapshot p, (snapshot?_eq_some_iff hs).2 ⟨r, hr, hid, hseen, rfl⟩, ?_⟩
    simp [Match.isMyTurn, Room.snapshot, hl, hholder]
  · rintro ⟨m, hm, hmine⟩
    obtain ⟨r, hmem, hid, hseen, rfl⟩ := (snapshot?_eq_some_iff hs).1 hm
    obtain ⟨hl, hholder⟩ := Room.holder_of_isMyTurn hmine
    refine ⟨r, hmem, hid, hseen, hl, hholder, ?_⟩
    rw [hnext _ hm]
    exact Room.suggests_place (hs.rooms r hmem) (peopled_of_reachable hr r hmem) hl
      (Room.isSeenBy_iff.1 hseen).1

/-- The snapshots that two players have of one room show the turn with one of them at most. -/
theorem mover_unique {m m' : Match} (hm : h.snapshot? id p = some m)
    (hm' : h.snapshot? id q = some m') (hmine : m.isMyTurn = true) (hmine' : m'.isMyTurn = true) :
    p = q := by
  obtain ⟨r, hv, rfl⟩ := Option.map_eq_some_iff.1 hm
  obtain ⟨r', hv', rfl⟩ := Option.map_eq_some_iff.1 hm'
  have hroom := (Option.filter_eq_some_iff.1 hv).1
  have hroom' := (Option.filter_eq_some_iff.1 hv').1
  obtain rfl := Option.some.inj (hroom.symm.trans hroom')
  have hholds := (Room.holder_of_isMyTurn hmine).2
  have hholds' := (Room.holder_of_isMyTurn hmine').2
  exact Option.some.inj (hholds.symm.trans hholds')

end Snapshot

end Hub

namespace Lobby

/-- A caller who is signed in is answered by the hub. -/
theorem takeTurn_answer {l : Lobby} {c : Caller} (hin : l.isSignedIn c = true) (id : MatchId)
    (data : Bytes) (next : Option PlayerId) :
    (l.takeTurn c id data next).2.map some =
      l.hub.answer (.takeTurn (l.player c) id data next) := by
  have hcall : l.serve (.takeTurn c id data next) = _ :=
    serve_of_action (q := .takeTurn c id data next) rfl fun c' hc' => by
      cases hc'
      exact hin
  exact congrArg Prod.snd hcall

/-- Whoever is signed in and takes a turn as the own current snapshot of a room suggests is
accepted just when there is such a snapshot and it is its viewer's turn there; without one,
every turn is refused.  And no two players are to move in their snapshots of one room. -/
theorem fresh_snapshot_tells_turn {l : Lobby} (hr : l.hub.Reachable) :
    (∀ (c : Caller) (id : MatchId) (data : Bytes) (next : Option PlayerId),
        l.isSignedIn c = true →
        (∀ m, l.hub.snapshot? id (l.player c) = some m → next = m.opponent?) →
        ((∃ m, (l.takeTurn c id data next).2 = .ok m) ↔
          ∃ m, l.hub.snapshot? id (l.player c) = some m ∧ m.isMyTurn = true)) ∧
      ∀ (id : MatchId) (p q : PlayerId) (m m' : Match),
        l.hub.snapshot? id p = some m → l.hub.snapshot? id q = some m' →
        m.isMyTurn = true → m'.isMyTurn = true → p = q := by
  refine ⟨?_, fun id p q m m' => Hub.mover_unique⟩
  intro c id data next hin hnext
  rw [← Hub.suggestion_accepted_iff hr hnext data, ← takeTurn_answer hin]
  constructor
  · rintro ⟨m, hm⟩
    exact ⟨m, by rw [hm]; rfl⟩
  · rintro ⟨m, hm⟩
    obtain ⟨m', hok, -⟩ := Hub.exists_of_map_eq_ok hm
    exact ⟨m', hok⟩

/-- Ann waits for somebody and may move all the same, since the turn can rest with the open
slot; Bob, whom she has invited to another match, sees that it is not his turn there, and of
the first one he sees nothing. -/
theorem fresh_snapshot_tells_turn_of_one_alone :
    let l := ((({} : Lobby).connect "ann" ⟨"ann"⟩).1.connect "bob" ⟨"bob"⟩).1
    let h := [Hub.Action.create ⟨"a"⟩ ⟨"ann"⟩ .autoMatching,
      .create ⟨"b"⟩ ⟨"ann"⟩ (.inviting ⟨"bob"⟩)].foldl Hub.perform {}
    let l := { l with hub := h }
    h.Reachable ∧ l.isSignedIn 0 = true ∧
      (∃ m, (l.takeTurn 0 ⟨"a"⟩ [7] none).2 = .ok m) ∧
      (∃ m, (l.takeTurn 0 ⟨"b"⟩ [7] (some ⟨"bob"⟩)).2 = .ok m) ∧
      (¬ ∃ m, (l.takeTurn 1 ⟨"b"⟩ [7] (some ⟨"ann"⟩)).2 = .ok m) ∧
      (¬ ∃ m, (l.takeTurn 1 ⟨"a"⟩ [7] none).2 = .ok m) ∧
      ∀ q m, l.hub.snapshot? ⟨"b"⟩ q = some m → m.isMyTurn = true → q = ⟨"ann"⟩ := by
  intro l₀ h l
  have hopened := Hub.Reachable.empty.call (a := .create ⟨"a"⟩ ⟨"ann"⟩ .autoMatching) (by decide)
  have hr : l.hub.Reachable :=
    hopened.call (a := .create ⟨"b"⟩ ⟨"ann"⟩ (.inviting ⟨"bob"⟩)) (by decide)
  obtain ⟨tells, alone⟩ := fresh_snapshot_tells_turn hr
  refine ⟨hr, rfl, ?_, ?_, ?_, ?_, ?_⟩
  · exact (tells 0 ⟨"a"⟩ [7] none rfl (by rintro m ⟨⟩; rfl)).2 ⟨_, rfl, rfl⟩
  · exact (tells 0 ⟨"b"⟩ [7] (some ⟨"bob"⟩) rfl (by rintro m ⟨⟩; rfl)).2 ⟨_, rfl, rfl⟩
  · rw [tells 1 ⟨"b"⟩ [7] (some ⟨"ann"⟩) rfl (by rintro m ⟨⟩; rfl)]
    rintro ⟨m, ⟨⟩, hmine⟩
    cases hmine
  · rw [tells 1 ⟨"a"⟩ [7] none rfl (by rintro m ⟨⟩)]
    rintro ⟨m, ⟨⟩, -⟩
  · intro q m hm hmine
    exact alone ⟨"b"⟩ q ⟨"ann"⟩ m _ hm rfl hmine rfl

end Lobby

end TurnRendezvous
