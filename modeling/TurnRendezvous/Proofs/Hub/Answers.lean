/-
# `Hub.answer` — what a call is answered

`Hub.perform` is what a call leaves behind, and `Hub.answer` is what its caller is told:
why it is refused, a match, or that it is done.  Both are read off the same call, so the
one says something about the other.

* `perform_of_refused`: a call that is refused leaves the hub as it was;
* `snapshot_of_answer`: a match that is answered is what its viewer sees of the room from
  then on, so nobody could look it up and not find it;
* `source_of_answer`: and the room is a new one or goes on.
-/
import TurnRendezvous.Proofs.Hub.View

namespace TurnRendezvous

namespace Room

/-- Whoever takes the open slot of a room sees it. -/
theorem isSeenBy_join_self {r : Room} {p : PlayerId} (hr : r.Sound) (hp : r.includes p = false) :
    (r.join p).isSeenBy p = true := by
  refine isSeenBy_iff.2 ⟨List.mem_append_right _ (List.mem_singleton_self p), ?_⟩
  intro hd
  -- whoever has turned away from a room was in it
  simp [includes, hr.dismissed p hd] at hp

theorem isSeenBy_ofRequest (id : MatchId) (p : PlayerId) (c : MatchRequest) :
    (ofRequest id p c).isSeenBy p = true :=
  isSeenBy_iff.2 ⟨List.mem_of_head? (head?_party p c.invitees), List.not_mem_nil⟩

end Room

namespace Hub

/-- What the caller of a call is told. -/
def answer (h : Hub) : Action → Except Failure (Option Match)
  | .subscribe _ => .ok none
  | .create id p c => (h.createAs id p c).2.map some
  | .takeTurn p id data next => (h.takeTurn p id data next).2.map some
  | .cancel p id => (h.cancel p id).2.map fun _ => none
  | .dismiss p id => (h.dismiss p id).2.map fun _ => none
  | .expire id => (h.expire id).2.map fun _ => none
  | .remove id => (h.remove id).2.map fun _ => none

section Answer
variable {h : Hub} {a : Action}

/-! ## Refusals -/

/-- What comes of a call that is refused, if all it can do else is succeed. -/
theorem fst_of_refused {α : Type} {x : Hub × Except Failure α} {f : α → Option Match}
    (hx : (∃ e, x = (h, .error e)) ∨ ∃ h' b, x = (h', .ok b)) {e : Failure}
    (he : x.2.map f = .error e) : x.1 = h := by
  rcases hx with ⟨_, rfl⟩ | ⟨_, _, rfl⟩
  · rfl
  · cases he

/-- A call that is refused leaves all as it was: the rooms, the queue, and what anybody is
told. -/
theorem perform_of_refused (ht : h.tidy = h) {e : Failure} (he : h.answer a = .error e) :
    h.perform a = h := by
  cases a with
  | subscribe p => cases he
  | create id p c =>
    refine fst_of_refused ?_ he
    rcases createAs_cases ht id p c with ⟨-, hr⟩ | ⟨_, -, -, -, heq⟩ | ⟨-, -, -, heq⟩
    · exact .inl hr
    · exact .inr ⟨_, _, heq⟩
    · exact .inr ⟨_, _, heq⟩
  | takeTurn p id data next =>
    refine fst_of_refused ?_ he
    exact (takeTurn_cases h p id data next).imp_right fun ⟨_, _, _, heq⟩ => ⟨_, _, heq⟩
  | cancel p id =>
    refine fst_of_refused ?_ he
    exact (cancel_cases h p id).imp_right fun ⟨_, _, _, heq⟩ => ⟨_, _, heq⟩
  | dismiss p id =>
    refine fst_of_refused ?_ he
    rcases dismiss_cases h p id with hr | ⟨_, -, ⟨-, heq⟩ | ⟨-, heq⟩⟩
    · exact .inl hr
    · exact .inr ⟨_, _, heq⟩
    · exact .inr ⟨_, _, heq⟩
  | expire id =>
    refine fst_of_refused ?_ he
    exact (expire_cases h id).imp_right fun ⟨_, _, heq⟩ => ⟨_, _, heq⟩
  | remove id =>
    refine fst_of_refused ?_ he
    exact (remove_cases h id).imp_right fun ⟨_, _, heq⟩ => ⟨_, _, heq⟩

/-! ## Matches that are answered -/

/-- The calls that are answered with a match, and the rooms of these. -/
inductive Answers (h : Hub) : Action → Match → Prop
  | joined {id : MatchId} {p : PlayerId} {c : MatchRequest} {r : Room} :
      h.joinable? p = some r →
      h.perform (.create id p c) = ((h.unqueue r.id).put (r.join p)).announce (r.join p) →
      Answers h (.create id p c) ((r.join p).snapshot p)
  | opened {id : MatchId} {p : PlayerId} {c : MatchRequest} :
      h.perform (.create id p c) =
        (h.add (.ofRequest id p c)).announce (.ofRequest id p c) →
      Answers h (.create id p c) ((Room.ofRequest id p c).snapshot p)
  | turned {p : PlayerId} {r : Room} {data : Bytes} {next : Option PlayerId} :
      h.visible? p r.id = some r → r.checkTurn p next = .ok () →
      h.perform (.takeTurn p r.id data next) =
        (h.put (r.withTurn data next)).announce (r.withTurn data next) →
      Answers h (.takeTurn p r.id data next) ((r.withTurn data next).snapshot p)

theorem exists_of_map_eq_ok {α β : Type} {x : Except Failure α} {f : α → β} {b : β}
    (hx : x.map f = .ok b) : ∃ a, x = .ok a ∧ f a = b := by
  cases x with
  | error e => cases hx
  | ok a => exact ⟨a, rfl, Except.ok.inj hx⟩

theorem answers_of_answer (ht : h.tidy = h) {m : Match} (hm : h.answer a = .ok (some m)) :
    h.Answers a m := by
  cases a with
  | subscribe p => cases hm
  | create id p c =>
    obtain ⟨m', hok, hm⟩ := exists_of_map_eq_ok hm
    obtain rfl := Option.some.inj hm
    rcases createAs_cases ht id p c with ⟨-, e, heq⟩ | ⟨r, -, -, hj, heq⟩ | ⟨-, -, -, heq⟩
    · cases hok.symm.trans (congrArg Prod.snd heq)
    · obtain rfl := Except.ok.inj (hok.symm.trans (congrArg Prod.snd heq))
      exact .joined hj (congrArg Prod.fst heq)
    · obtain rfl := Except.ok.inj (hok.symm.trans (congrArg Prod.snd heq))
      exact .opened (congrArg Prod.fst heq)
  | takeTurn p id data next =>
    obtain ⟨m', hok, hm⟩ := exists_of_map_eq_ok hm
    obtain rfl := Option.some.inj hm
    rcases takeTurn_cases h p id data next with ⟨e, heq⟩ | ⟨r, hv, hc, heq⟩
    · cases hok.symm.trans (congrArg Prod.snd heq)
    · obtain rfl := Except.ok.inj (hok.symm.trans (congrArg Prod.snd heq))
      obtain rfl := (mem_of_visible? hv).2.1
      exact .turned hv hc (congrArg Prod.fst heq)
  | cancel p id | dismiss p id | expire id | remove id =>
    obtain ⟨_, -, hnone⟩ := exists_of_map_eq_ok hm
    cases hnone

/-- What a player sees of a room that has found its place and was shown. -/
theorem snapshot?_announce {g : Hub} {r : Room} {p : PlayerId} {v : MatchId → Option Match}
    (hv : g.view p = Function.update v r.id (r.sight? p)) (hp : r.isSeenBy p = true) :
    (g.announce r).snapshot? r.id p = some (r.snapshot p) := by
  have hview := (view_congr (p := p) (rooms_announce g r)).trans hv
  simpa [view, Room.sight?, hp] using congrFun hview r.id

/-- A match that is answered is what its viewer sees of the room from then on. -/
theorem snapshot_of_answer (hs : h.Sound) (hf : a.Fresh h) {m : Match}
    (hm : h.answer a = .ok (some m)) : (h.perform a).snapshot? m.id m.viewer = some m := by
  cases answers_of_answer (tidy_eq hs) hm with
  | @joined id p c r hj heq =>
    obtain ⟨-, hroom, hout⟩ := joinable?_eq_some hj
    have hseen := Room.isSeenBy_join_self (hs.rooms r (mem_of_room? hroom).1) hout
    rw [heq]
    exact snapshot?_announce (view_put (h := h.unqueue r.id) (r := r.join p) hroom) hseen
  | @opened id p c heq =>
    have hnone : h.room? id = none :=
      room?_eq_none_iff.2 fun r hr hid => hf (hid ▸ hs.created r hr)
    rw [heq]
    exact snapshot?_announce (view_add (r := .ofRequest id p c) hnone)
      (Room.isSeenBy_ofRequest id p c)
  | @turned p r data next hv hc heq =>
    obtain ⟨hr, -, hseen⟩ := mem_of_visible? hv
    have hroom := (room?_eq_some_iff hs).2 ⟨hr, rfl⟩
    rw [heq]
    exact snapshot?_announce (view_put (r := r.withTurn data next) hroom) hseen

/-- A turn is accepted just from the player who holds it, in a room that is not over and that
the player sees, and only if it goes to another participant or to the open slot. -/
theorem turn_accepted_iff (hs : h.Sound) {id : MatchId} {p : PlayerId} {data : Bytes}
    {next : Option PlayerId} :
    (∃ m, h.answer (.takeTurn p id data next) = .ok (some m)) ↔
      ∃ r ∈ h.rooms, r.id = id ∧ r.isSeenBy p = true ∧ r.status.isLive = true ∧
        r.holder = some p ∧ ((∃ q, next = some q ∧ q ≠ p ∧ q ∈ r.participants) ∨
          (next = none ∧ r.openSlot = true)) := by
  constructor
  · rintro ⟨m, hm⟩
    cases answers_of_answer (tidy_eq hs) hm with
    | turned hv hc =>
      obtain ⟨hr, hid, hseen⟩ := mem_of_visible? hv
      exact ⟨_, hr, hid, hseen, Room.checkTurn_eq_ok_iff.1 hc⟩
  · rintro ⟨r, hr, rfl, hseen, hturn⟩
    have hc := Room.checkTurn_eq_ok_iff.2 hturn
    have hv := (visible?_eq_some_iff hs).2 ⟨hr, rfl, hseen⟩
    exact ⟨(r.withTurn data next).snapshot p, by simp [answer, takeTurn, hv, hc, Except.map]⟩

/-- A match that is answered is that of a room just opened, or of one that goes on. -/
theorem source_of_answer (ht : h.tidy = h) {m : Match} (hm : h.answer a = .ok (some m)) :
    (∃ p c, a = .create m.id p c) ∨ ∃ r ∈ h.rooms, r.id = m.id ∧ r.status.isLive = true := by
  cases answers_of_answer ht hm with
  | joined hj =>
    have hroom := (joinable?_eq_some hj).2.1
    have hlive := (Bool.and_eq_true_iff.1 (isOpen_of_joinable? ht hj)).2
    exact .inr ⟨_, (mem_of_room? hroom).1, rfl, hlive⟩
  | opened => exact .inl ⟨_, _, rfl⟩
  | turned hv hc =>
    exact .inr ⟨_, (mem_of_visible? hv).1, rfl, (Room.checkTurn_eq_ok_iff.1 hc).1⟩

end Answer

end Hub

end TurnRendezvous
