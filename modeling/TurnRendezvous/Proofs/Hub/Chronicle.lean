/-
# `Hub.Chronicle` — the rooms that ever were

Snapshots outlive the rooms they were taken of.  What can be said of a snapshot
that somebody still holds is said of the rooms that there ever were: `P` is the
set of these, and `h.Chronicle P` says that it fits the hub as it is now.

* a room keeps its creator, and a name is not used for another room;
* data that is once there does not go away;
* all that players were told shows rooms that were (`Shown`).

Every call carries a chronicle on (`chronicle_perform`).
-/
import TurnRendezvous.Proofs.Hub.News

namespace TurnRendezvous

/-- A snapshot of a room that was, for the player `p`. -/
def Shown (P : Room → Prop) (p : PlayerId) (m : Match) : Prop := ∃ r, P r ∧ m = r.snapshot p

theorem Shown.mono {P P' : Room → Prop} (hP : ∀ r, P r → P' r) {p : PlayerId} {m : Match}
    (h : Shown P p m) : Shown P' p m := by
  obtain ⟨r, hr, hm⟩ := h
  exact ⟨r, hP r hr, hm⟩

/-- Whoever is to move in a snapshot holds the turn. -/
theorem Room.holder_of_isMyTurn {r : Room} {p : PlayerId} (h : (r.snapshot p).isMyTurn = true) :
    r.status.isLive = true ∧ r.holder = some p := by
  simp only [Match.isMyTurn, snapshot, Bool.and_eq_true] at h
  refine ⟨h.1, ?_⟩
  by_cases hh : r.holder = some p
  · exact hh
  · simp [hh] at h

/-- Data that is there stays there. -/
theorem Room.Step.data_ne_none {r r' : Room} {a : Hub.Action} (h : r.Step a r')
    (hd : r.data ≠ none) : r'.data ≠ none := by
  cases h with
  | turn => simp [withTurn]
  | _ => exact hd

/-- Whether a call is a turn. -/
def Hub.Action.isTurn : Hub.Action → Bool
  | .takeTurn .. => true
  | _ => false

/-- Only a turn changes data. -/
theorem Room.Step.data_eq {r r' : Room} {a : Hub.Action} (h : r.Step a r')
    (ha : a.isTurn = false) : r'.data = r.data := by
  cases h with
  | turn => cases ha
  | _ => rfl

namespace Hub

/-- How a hub fits the rooms that ever were. -/
structure Chronicle (P : Room → Prop) (h : Hub) : Prop where
  sound : h.Sound
  numbered : h.Numbered
  rooms : ∀ r ∈ h.rooms, P r
  told : h.Told (Shown P)
  past : ∀ r, P r → r.Sound ∧ r.id ∈ h.created
  /-- A name belongs to one room, and a room to one creator. -/
  creator : ∀ r r', P r → P r' → r.id = r'.id → r.creator = r'.creator
  /-- A room that once had data has some. -/
  kept : ∀ r, P r → r.data ≠ none → ∀ r' ∈ h.rooms, r'.id = r.id → r'.data ≠ none

theorem chronicle_empty : ({} : Hub).Chronicle fun _ => False where
  sound := sound_empty
  numbered := by simp [Numbered]
  rooms := by simp
  told := by simp [Told]
  past := by simp
  creator := by simp
  kept := by simp

/-- The rooms that ever were, with those after a call. -/
def With (P : Room → Prop) (h : Hub) (r : Room) : Prop := P r ∨ r ∈ h.rooms

theorem with_eq_self {P : Room → Prop} {h : Hub} (hr : ∀ r ∈ h.rooms, P r) : With P h = P :=
  funext fun r => propext ⟨fun h => h.elim id (hr r), .inl⟩

section Call
variable {P : Room → Prop} {h : Hub} (hc : h.Chronicle P) {a : Action} (ha : a.Next h)
include hc ha

/-- A room after a call has a name of its own, and no data yet, or goes back to
one before. -/
theorem source_of_mem {q : Room} (hq : q ∈ (h.perform a).rooms) :
    (q.id ∉ h.created ∧ q.data = none ∧ q.Sound) ∨
      ∃ r ∈ h.rooms, r.id = q.id ∧ r.creator = q.creator ∧ q.Sound ∧
        (r.data ≠ none → q.data ≠ none) ∧ (a.isTurn = false → q.data = r.data) := by
  rcases mem_rooms_perform (tidy_eq hc.sound) hq with hq | ⟨id, p, c, rfl, -, rfl, -⟩ | ⟨r, hr, hs⟩
  · exact .inr ⟨q, hq, rfl, rfl, hc.sound.rooms q hq, id, fun _ => rfl⟩
  · exact .inl ⟨ha.fresh hc.numbered, rfl, Room.sound_ofRequest id p c⟩
  · exact .inr ⟨r, hr, hs.id_eq.symm, hs.creator_eq.symm, hs.sound (hc.sound.rooms r hr),
      hs.data_ne_none, hs.data_eq⟩

theorem chronicle_perform : (h.perform a).Chronicle (With P (h.perform a)) := by
  have hsound := sound_perform hc.sound (ha.fresh hc.numbered)
  have hsub := created_subset_perform hc.sound a
  refine
    { sound := hsound
      numbered := numbered_perform hc.sound hc.numbered ha
      rooms := fun _ => .inr
      told := told_perform hc.sound (hc.told.mono fun p m => Shown.mono fun _ => .inl) a
        fun r hr p => ⟨r, .inr hr, rfl⟩
      past := ?_, creator := ?_, kept := ?_ }
  · rintro r (hr | hr)
    · exact (hc.past r hr).imp id fun h => hsub h
    · exact ⟨hsound.rooms r hr, hsound.created r hr⟩
  · have mixed : ∀ {r q : Room}, P r → q ∈ (h.perform a).rooms → r.id = q.id →
        r.creator = q.creator := by
      intro r q hr hq hid
      rcases source_of_mem hc ha hq with ⟨hf, -⟩ | ⟨s, hs, hid', hcr, -⟩
      · exact absurd (hid ▸ (hc.past r hr).2) hf
      · exact (hc.creator r s hr (hc.rooms s hs) (hid.trans hid'.symm)).trans hcr
    rintro r r' (hr | hr) (hr' | hr') hid
    · exact hc.creator r r' hr hr' hid
    · exact mixed hr hr' hid
    · exact (mixed hr' hr hid.symm).symm
    · exact congrArg Room.creator (eq_of_id_eq hsound hr hr' hid)
  · rintro r (hr | hr) hd r' hr' hid
    · rcases source_of_mem hc ha hr' with ⟨hf, -⟩ | ⟨s, hs, hid', -, -, hdata, -⟩
      · exact absurd (hid ▸ (hc.past r hr).2) hf
      · exact hdata (hc.kept r hr hd s hs (hid'.trans hid))
    · exact eq_of_id_eq hsound hr' hr hid ▸ hd

/-- Data after a call that is no turn was there before. -/
theorem data_of_mem {q : Room} {b : Bytes} (ht : a.isTurn = false)
    (hq : With P (h.perform a) q) (hb : q.data = some b) :
    ∃ r, P r ∧ r.id = q.id ∧ r.creator = q.creator ∧ r.data = some b := by
  rcases hq with hq | hq
  · exact ⟨q, hq, rfl, rfl, hb⟩
  · rcases source_of_mem hc ha hq with ⟨-, hd, -⟩ | ⟨r, hr, hid, hcr, -, -, hd⟩
    · simp [hd] at hb
    · exact ⟨r, hc.rooms r hr, hid, hcr, (hd ht).symm.trans hb⟩

end Call

/-- Data after a turn was there before, or is what was handed over. -/
theorem data_of_turn {P : Room → Prop} {h : Hub} (hc : h.Chronicle P) {p : PlayerId} {id : MatchId}
    {data : Bytes} {next : Option PlayerId} {q : Room} {b : Bytes}
    (hq : With P (h.takeTurn p id data next).1 q) (hb : q.data = some b) :
    (∃ r, P r ∧ r.id = q.id ∧ r.creator = q.creator ∧ r.data = some b) ∨
      (q.id = id ∧ b = data ∧ (∃ r ∈ h.rooms, r.id = q.id ∧ r.creator = q.creator) ∧
        ∃ m, (h.takeTurn p id data next).2 = .ok m) := by
  rcases hq with hq | hq
  · exact .inl ⟨q, hq, rfl, rfl, hb⟩
  rcases takeTurn_cases h p id data next with ⟨e, ht⟩ | ⟨r, hv, -, ht⟩
  · rw [ht] at hq
    exact .inl ⟨q, hc.rooms q hq, rfl, rfl, hb⟩
  · rw [ht] at hq
    obtain ⟨hm, hid, -⟩ := mem_of_visible? hv
    rcases mem_rooms_put (by simpa using hq) with rfl | hq
    · exact .inr ⟨hid, (Option.some.inj hb).symm, ⟨r, hm, rfl, rfl⟩, _, by rw [ht]⟩
    · exact .inl ⟨q, hc.rooms q hq, rfl, rfl, hb⟩

end Hub

end TurnRendezvous
