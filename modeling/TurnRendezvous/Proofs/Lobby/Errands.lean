/-
# `Errand.sight` — what a snapshot says about its viewer's own calls

A room holds more than a snapshot of it shows: whether its slot is open, who of the others
is to move, who has turned away.  A player who looks a room up, plays on it, calls it off
or turns away from it finds out nothing of that.  `Errand.sight` carries such an errand
out on the snapshot alone, and `serve_errand` says that a lobby does the same.

Two things make this true of rooms that calls lead to.  A room has an open slot just while
it is looking for players, so the snapshot shows whether a turn may rest with the slot;
and nobody hands the turn to themselves, so whoever has moved sees the turn with the
others, whichever of them has it.

So two hubs that look the same to a player answer the player's errands in the same way and
go on looking the same (`snapshot_decides_answers`).  Above all a room that is not seen is
as good as none.
-/
import TurnRendezvous.Proofs.Lobby.Requests

namespace TurnRendezvous

/-! ## On a snapshot -/

namespace Match

/-- Whether the turn may go from the viewer to `next`. -/
def checkNext (m : Match) : Option PlayerId → Except Failure Unit
  | some next =>
    if next = m.viewer || !m.participants.contains next then .error (Room.badNext next m.id)
    else .ok ()
  | none => if m.status = .autoMatching then .ok () else .error (Room.noOpenSlot m.id)

/-- Why the viewer cannot take a turn, if so. -/
def checkTurn (m : Match) (next : Option PlayerId) : Except Failure Unit :=
  if !m.status.isLive then .error (Room.matchOver m.id)
  else if m.turn ≠ .mine then .error (Room.notYourTurn m.viewer m.id)
  else m.checkNext next

/-- The match once the viewer has moved. -/
def withTurn (m : Match) (data : Bytes) : Match :=
  { m with data := some data, version := m.version + 1, turn := .theirs }

def ended (m : Match) (status : Status) : Match := { m with status, turn := .theirs }

end Match

/-- What a player can ask for about one room. -/
inductive Errand
  | fetch
  | takeTurn (data : Bytes) (next : Option PlayerId)
  | cancel
  | dismiss

/-- What a player sees of a room after an errand, and the answer, if all that is known is
what the player saw before. -/
def Errand.sight (id : MatchId) :
    Errand → Option Match → Option Match × Except Failure (Option Match)
  | _, none => (none, .error (Hub.noMatch id))
  | .fetch, some m => (some m, .ok (some m))
  | .takeTurn data next, some m =>
    match m.checkTurn next with
    | .error e => (some m, .error e)
    | .ok () => (some (m.withTurn data), .ok (some (m.withTurn data)))
  | .cancel, some m =>
    if m.status.isLive then (some (m.ended .cancelled), .ok none)
    else (some m, .error (Room.matchOver id))
  | .dismiss, some _ => (none, .ok none)

@[simp] theorem Errand.sight_none (id : MatchId) (e : Errand) :
    e.sight id none = (none, .error (Hub.noMatch id)) := by
  cases e <;> rfl

namespace Room

variable {r : Room} {p : PlayerId}

/-- A snapshot shows whether its viewer can take a turn. -/
theorem checkTurn_snapshot (hr : r.Sound) (next : Option PlayerId) :
    (r.snapshot p).checkTurn next = r.checkTurn p next := by
  have hturn : (r.snapshot p).turn ≠ .mine ↔ r.holder ≠ some p := by simp [snapshot]
  have hnext : (r.snapshot p).checkNext next = r.checkNext p next := by
    cases next with
    | some q => rfl
    | none => exact if_congr hr.open_iff.symm rfl rfl
  unfold Match.checkTurn checkTurn
  rw [hnext]
  exact if_congr Iff.rfl rfl (if_congr hturn rfl rfl)

/-- Whoever has moved does not see who is next. -/
theorem snapshot_withTurn {data : Bytes} {next : Option PlayerId}
    (hc : r.checkTurn p next = .ok ()) :
    (r.withTurn data next).snapshot p = (r.snapshot p).withTurn data := by
  have hnext : next ≠ some p := by
    rintro rfl
    rcases (checkTurn_eq_ok_iff.1 hc).2.2 with ⟨q, hq, hne, -⟩ | ⟨hnone, -⟩
    · exact hne (Option.some.inj hq).symm
    · cases hnone
  simp [snapshot, withTurn, Match.withTurn, hnext]

theorem snapshot_ended (status : Status) :
    (r.ended status).snapshot p = (r.snapshot p).ended status := rfl

end Room

/-! ## In a hub -/

namespace Hub

theorem snapshot?_of_visible? {h : Hub} {p : PlayerId} {id : MatchId} {r : Room}
    (hv : h.visible? p id = some r) : h.snapshot? id p = some (r.snapshot p) :=
  congrArg (Option.map fun r : Room => r.snapshot p) hv

section Sight
variable {h : Hub} (hs : h.Sound) (p : PlayerId) (id : MatchId)
include hs

theorem sight_takeTurn (data : Bytes) (next : Option PlayerId) :
    ((h.perform (.takeTurn p id data next)).snapshot? id p,
        h.answer (.takeTurn p id data next)) =
      (Errand.takeTurn data next).sight id (h.snapshot? id p) := by
  cases hv : h.visible? p id with
  | none => simp [snapshot?, perform, answer, takeTurn, hv, Errand.sight, Except.map]
  | some r =>
    obtain ⟨hr, rfl, -⟩ := mem_of_visible? hv
    have hcheck := Room.checkTurn_snapshot (p := p) (hs.rooms r hr) next
    cases hc : r.checkTurn p next with
    | error e =>
      simp [snapshot?, perform, answer, takeTurn, hv, hc, Errand.sight, hcheck, Except.map]
    | ok =>
      have hans : h.answer (.takeTurn p r.id data next) =
          .ok (some ((r.withTurn data next).snapshot p)) := by
        simp [answer, takeTurn, hv, hc, Except.map]
      have hafter : (h.perform (.takeTurn p r.id data next)).snapshot? r.id p =
          some ((r.withTurn data next).snapshot p) :=
        snapshot_of_answer (a := .takeTurn p r.id data next) hs trivial hans
      rw [hafter, hans, snapshot?_of_visible? hv, Room.snapshot_withTurn hc]
      simp [Errand.sight, hcheck, hc]

theorem sight_cancel :
    ((h.perform (.cancel p id)).snapshot? id p, h.answer (.cancel p id)) =
      Errand.cancel.sight id (h.snapshot? id p) := by
  cases hv : h.visible? p id with
  | none => simp [snapshot?, perform, answer, cancel, hv, Errand.sight, Except.map]
  | some r =>
    obtain ⟨hr, rfl, hseen⟩ := mem_of_visible? hv
    have hstatus : (r.snapshot p).status = r.status := rfl
    cases hl : r.status.isLive with
    | false =>
      simp [snapshot?, perform, answer, cancel, hv, hl, Errand.sight, hstatus, Except.map]
    | true =>
      have hroom := (room?_eq_some_iff hs).2 ⟨hr, rfl⟩
      have hcall : h.cancel p r.id = (h.endRoom r .cancelled, .ok ()) := by simp [cancel, hv, hl]
      have hafter : (h.endRoom r .cancelled).snapshot? r.id p =
          some ((r.ended .cancelled).snapshot p) :=
        snapshot?_announce ((view_congr rfl).trans (view_put (r := r.ended .cancelled) hroom)) hseen
      simp only [perform, answer, hcall, hafter, snapshot?_of_visible? hv, Room.snapshot_ended]
      simp [Errand.sight, hstatus, hl, Except.map]

/-- Whoever turns away from a room does not see it any more. -/
theorem view_dismiss {r : Room} (hv : h.visible? p id = some r) :
    (h.dismiss p id).1.view p = Function.update (h.view p) id none := by
  obtain ⟨hr, rfl, -⟩ := mem_of_visible? hv
  have hroom := (room?_eq_some_iff hs).2 ⟨hr, rfl⟩
  simp only [dismiss, hv]
  split
  · exact (view_congr (congrArg rooms (drop_put h (r.dismiss p)))).trans (view_drop h r.id p)
  · have hput := view_put (p := p) (r := r.dismiss p) hroom
    rw [sight?_dismiss_self] at hput
    exact (view_congr rfl).trans hput

theorem sight_dismiss :
    ((h.perform (.dismiss p id)).snapshot? id p, h.answer (.dismiss p id)) =
      Errand.dismiss.sight id (h.snapshot? id p) := by
  cases hv : h.visible? p id with
  | none => simp [snapshot?, perform, answer, dismiss, hv, Errand.sight, Except.map]
  | some r =>
    have hafter : (h.perform (.dismiss p id)).snapshot? id p = none :=
      (congrFun (view_dismiss hs p id hv) id).trans (Function.update_self ..)
    have hans : h.answer (.dismiss p id) = .ok none := by
      simp only [answer, dismiss, hv]
      split <;> rfl
    rw [hafter, hans, snapshot?_of_visible? hv]
    rfl

end Sight

end Hub

/-! ## In a lobby -/

def Errand.request (c : Caller) (id : MatchId) : Errand → Lobby.Request
  | .fetch => .fetch c id
  | .takeTurn data next => .takeTurn c id data next
  | .cancel => .cancel c id
  | .dismiss => .dismiss c id

namespace Lobby

/-- The same handles at another hub. -/
def withHub (l : Lobby) (h : Hub) : Lobby := { l with hub := h }

/-- The lobby after a row of requests, and all the answers. -/
def serveAll (l : Lobby) : List Request → Lobby × List (Except Failure (Option Match))
  | [] => (l, [])
  | q :: qs =>
    let rest := (l.serve q).1.serveAll qs
    (rest.1, (l.serve q).2 :: rest.2)

/-- The requests for errands that each have a caller and are all about one room. -/
def requests (id : MatchId) (es : List (Caller × Errand)) : List Request :=
  es.map fun (c, e) => e.request c id

/-- At the hub `h` an errand about the room comes to `s`: what the caller's player sees
afterwards, and the answer. -/
def ComesTo (l : Lobby) (h : Hub) (c : Caller) (id : MatchId) (e : Errand)
    (s : Option Match × Except Failure (Option Match)) : Prop :=
  ∃ g : Hub, g.Reachable ∧ (l.withHub h).serve (e.request c id) = (l.withHub g, s.2) ∧
    g.snapshot? id (l.player c) = s.1

section Errands
variable {l : Lobby} {c : Caller} {h h' : Hub} {p : PlayerId} {id : MatchId}

/-- An errand that reaches the hub comes to what the call does. -/
theorem comesTo_of_action (hr : h.Reachable) (hin : l.isSignedIn c = true) {e : Errand}
    {a : Hub.Action} (ha : (e.request c id).action? (l.withHub h) = some a) (hf : a.Fresh h) :
    l.ComesTo h c id e ((h.perform a).snapshot? id (l.player c), h.answer a) := by
  refine ⟨h.perform a, hr.call hf, serve_of_action ha fun c' hc' => ?_, rfl⟩
  cases e <;> cases hc' <;> exact hin

/-- A player's errand comes to what the player's snapshot says. -/
theorem serve_errand (hr : h.Reachable) (hin : l.isSignedIn c = true) (id : MatchId)
    (e : Errand) : l.ComesTo h c id e (e.sight id (h.snapshot? id (l.player c))) := by
  have hs := Hub.reachable_sound hr
  cases e with
  | fetch =>
    have hlook : (l.withHub h).serve (.fetch c id) = _ := serve_fetch hin
    have hsees : (l.withHub h).hub.snapshot? id ((l.withHub h).player c) =
        h.snapshot? id (l.player c) := rfl
    rw [hsees] at hlook
    refine ⟨h, hr, hlook.trans ?_, ?_⟩ <;> cases h.snapshot? id (l.player c) <;> rfl
  | takeTurn data next =>
    rw [← Hub.sight_takeTurn hs]
    exact comesTo_of_action hr hin rfl trivial
  | cancel =>
    rw [← Hub.sight_cancel hs]
    exact comesTo_of_action hr hin rfl trivial
  | dismiss =>
    rw [← Hub.sight_dismiss hs]
    exact comesTo_of_action hr hin rfl trivial

/-- A player who sees the same in two hubs is told the same, and sees the same afterwards. -/
theorem serve_alike (hr : h.Reachable) (hr' : h'.Reachable)
    (hsame : h'.snapshot? id (l.player c) = h.snapshot? id (l.player c)) (e : Errand) :
    ∃ s, l.ComesTo h c id e s ∧ l.ComesTo h' c id e s := by
  cases hin : l.isSignedIn c with
  | true => exact ⟨_, serve_errand hr hin id e, hsame ▸ serve_errand hr' hin id e⟩
  | false =>
    have refused (h : Hub) :
        (l.withHub h).serve (e.request c id) = (l.withHub h, .error .notSignedIn) :=
      serve_of_signedOut (by cases e <;> rfl) hin
    exact ⟨(h.snapshot? id (l.player c), _), ⟨h, hr, refused h, rfl⟩, ⟨h', hr', refused h', hsame⟩⟩

theorem serveAll_alike {es : List (Caller × Errand)} (hp : ∀ x ∈ es, l.player x.1 = p) :
    ∀ {h h' : Hub}, h.Reachable → h'.Reachable → h'.snapshot? id p = h.snapshot? id p →
      ((l.withHub h').serveAll (requests id es)).2 = ((l.withHub h).serveAll (requests id es)).2 ∧
        ((l.withHub h').serveAll (requests id es)).1.hub.snapshot? id p =
          ((l.withHub h).serveAll (requests id es)).1.hub.snapshot? id p := by
  induction es with
  | nil => exact fun _ _ hsame => ⟨rfl, hsame⟩
  | cons x es ih =>
    obtain ⟨c, e⟩ := x
    obtain ⟨hx, hp⟩ := List.forall_mem_cons.1 hp
    subst hx
    intro h h' hr hr' hsame
    obtain ⟨s, ⟨g, hg, heq, hafter⟩, ⟨g', hg', heq', hafter'⟩⟩ := serve_alike hr hr' hsame e
    have hrest := ih hp hg hg' (hafter'.trans hafter.symm)
    simp only [requests, List.map_cons, serveAll, heq, heq', List.cons.injEq, true_and]
    exact hrest

/-- Nothing is found out about a room that is not seen. -/
theorem serveAll_of_unseen {es : List (Caller × Errand)}
    (hes : ∀ x ∈ es, l.player x.1 = p ∧ l.isSignedIn x.1 = true) :
    ∀ {h : Hub}, h.Reachable → h.snapshot? id p = none →
      ((l.withHub h).serveAll (requests id es)).2 = es.map fun _ => .error (Hub.noMatch id) := by
  induction es with
  | nil => exact fun _ _ => rfl
  | cons x es ih =>
    obtain ⟨c, e⟩ := x
    obtain ⟨⟨hp, hin⟩, hes⟩ := List.forall_mem_cons.1 hes
    intro h hr hnone
    subst hp
    obtain ⟨g, hg, heq, hafter⟩ := serve_errand hr hin id e
    rw [hnone, Errand.sight_none] at heq hafter
    have hrest := ih hes hg hafter
    simp only [requests, List.map_cons, serveAll, heq, List.cons.injEq, true_and]
    exact hrest

/-- A player who does not take part in a room, or has turned away from it, does not see it. -/
theorem snapshot?_eq_none_of_hidden
    (hhidden : ∀ r ∈ h.rooms, r.id = id → p ∉ r.participants ∨ p ∈ r.dismissed) :
    h.snapshot? id p = none := by
  refine Option.map_eq_none_iff.2 (Option.eq_none_iff_forall_not_mem.2 ?_)
  intro r hr
  obtain ⟨hmem, hid, hseen⟩ := Hub.mem_of_visible? hr
  obtain ⟨hin, hstays⟩ := Room.isSeenBy_iff.1 hseen
  exact (hhidden r hmem hid).elim (· hin) hstays

end Errands

/-- What a player sees of a room, if anything, says what the player's errands about it come
to.  So two hubs in which it is the same answer every row of these errands in the same way,
and the player sees the same of the room afterwards.  If the room is not there, or not the
player's, or the player has turned away from it, then every answer is that there is no such
match. -/
theorem snapshot_decides_answers {l : Lobby} {h h' : Hub} {p : PlayerId} {id : MatchId}
    (hr : h.Reachable) (hr' : h'.Reachable) (hsame : h'.snapshot? id p = h.snapshot? id p)
    {es : List (Caller × Errand)} (hp : ∀ x ∈ es, l.player x.1 = p) :
    (∀ x ∈ es, l.isSignedIn x.1 = true → l.ComesTo h x.1 id x.2 (x.2.sight id (h.snapshot? id p))) ∧
      ((l.withHub h').serveAll (requests id es)).2 = ((l.withHub h).serveAll (requests id es)).2 ∧
      ((l.withHub h').serveAll (requests id es)).1.hub.snapshot? id p =
        ((l.withHub h).serveAll (requests id es)).1.hub.snapshot? id p ∧
      ((∀ r ∈ h.rooms, r.id = id → p ∉ r.participants ∨ p ∈ r.dismissed) →
        (∀ x ∈ es, l.isSignedIn x.1 = true) →
        ((l.withHub h).serveAll (requests id es)).2 = es.map fun _ => .error (Hub.noMatch id)) := by
  obtain ⟨hanswers, hafter⟩ := serveAll_alike hp hr hr' hsame
  refine ⟨?_, hanswers, hafter, ?_⟩
  · intro x hx hin
    rw [← hp x hx]
    exact serve_errand hr hin id x.2
  intro hhidden hin
  exact serveAll_of_unseen (fun x hx => ⟨hp x hx, hin x hx⟩) hr
    (snapshot?_eq_none_of_hidden hhidden)

/-- Ann's turn has gone to Bob, or it rests with the open slot, which Ann cannot tell; and
Cy, who has turned away from a room, cannot tell it from one that never was. -/
theorem snapshot_decides_answers_after_the_turn :
    let l := ((({} : Lobby).connect "ann" ⟨"ann"⟩).1.connect "cy" ⟨"cy"⟩).1
    let opened := ({} : Hub).perform (.create ⟨"a"⟩ ⟨"ann"⟩ ⟨[⟨"bob"⟩, ⟨"cy"⟩], true⟩)
    let toBob := opened.perform (.takeTurn ⟨"ann"⟩ ⟨"a"⟩ [7] (some ⟨"bob"⟩))
    let toSlot := opened.perform (.takeTurn ⟨"ann"⟩ ⟨"a"⟩ [7] none)
    let left := toBob.perform (.dismiss ⟨"cy"⟩ ⟨"a"⟩)
    let asAnn : List (Caller × Errand) :=
      [(0, .fetch), (0, .takeTurn [8] none), (0, .cancel), (0, .dismiss), (0, .fetch)]
    let asCy : List (Caller × Errand) := [(1, .cancel), (1, .dismiss), (1, .fetch)]
    toBob.rooms ≠ toSlot.rooms ∧
      toSlot.snapshot? ⟨"a"⟩ ⟨"ann"⟩ = toBob.snapshot? ⟨"a"⟩ ⟨"ann"⟩ ∧
      ((l.withHub toSlot).serveAll (requests ⟨"a"⟩ asAnn)).2 =
        ((l.withHub toBob).serveAll (requests ⟨"a"⟩ asAnn)).2 ∧
      left.rooms.length = 1 ∧
      ((l.withHub {}).serveAll (requests ⟨"a"⟩ asCy)).2 =
        ((l.withHub left).serveAll (requests ⟨"a"⟩ asCy)).2 ∧
      ((l.withHub left).serveAll (requests ⟨"a"⟩ asCy)).2 =
        asCy.map fun _ => .error (Hub.noMatch ⟨"a"⟩) := by
  intro l opened toBob toSlot left asAnn asCy
  have hopened : opened.Reachable := Hub.Reachable.empty.call
    (a := .create ⟨"a"⟩ ⟨"ann"⟩ ⟨[⟨"bob"⟩, ⟨"cy"⟩], true⟩) (by decide)
  have hbob : toBob.Reachable :=
    hopened.call (a := .takeTurn ⟨"ann"⟩ ⟨"a"⟩ [7] (some ⟨"bob"⟩)) trivial
  have hslot : toSlot.Reachable := hopened.call (a := .takeTurn ⟨"ann"⟩ ⟨"a"⟩ [7] none) trivial
  have hleft : left.Reachable := hbob.call (a := .dismiss ⟨"cy"⟩ ⟨"a"⟩) trivial
  have hann : toSlot.snapshot? ⟨"a"⟩ ⟨"ann"⟩ = toBob.snapshot? ⟨"a"⟩ ⟨"ann"⟩ := by decide
  have byAnn : ∀ x ∈ asAnn, l.player x.1 = ⟨"ann"⟩ := by decide
  have alike := snapshot_decides_answers hbob hslot hann byAnn
  have hcy : ({} : Hub).snapshot? ⟨"a"⟩ ⟨"cy"⟩ = left.snapshot? ⟨"a"⟩ ⟨"cy"⟩ := by decide
  have byCy : ∀ x ∈ asCy, l.player x.1 = ⟨"cy"⟩ := by decide
  have unseen := snapshot_decides_answers hleft .empty hcy byCy
  exact ⟨by decide, hann, alike.2.1, by decide, unseen.2.1, unseen.2.2.2 (by decide) (by decide)⟩

end Lobby

end TurnRendezvous
