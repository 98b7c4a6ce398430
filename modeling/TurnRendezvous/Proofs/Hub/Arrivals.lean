/-
# `Hub.opened` — who is let in where

Whoever asks for a match with whoever comes is let into a room that waits for somebody, and if
there is none opens one that waits.  Rooms come and go, and may leave the row of those that
wait out of its middle: somebody who was let in, or was in the first ones already, a room that
was called off, ran out of time or was deleted.  None of this moves a room before another, so
all rooms stand in the order in which they were opened (`InOrder`), and the first one in the
row that a player is not in was opened before all others that are left for that player.

The order is read off the calls of a run and their answers (`opened`), as the ledger of a room
is.  What it is to be let in, and to open a room, is said of the rooms themselves, field by
field (`LetsIn`, `Opens`).

* `inOrder_perform`, `created_call`: what a call does to the order, and how it is read off;
* `joinable?_eq`: who waits is looked up in the rooms, in their order;
* `first_come_first_served`: what this says about every run.
-/
import TurnRendezvous.Matchmaker.Lobby
import TurnRendezvous.Proofs.Hub.Ended
import TurnRendezvous.Proofs.Hub.Ledger

namespace TurnRendezvous

namespace Room

/-- Whether a room waits for somebody, and `p` is not in it. -/
def Awaits (r : Room) (p : PlayerId) : Prop := r.status = .autoMatching ∧ p ∉ r.participants

/-- What a room `r` has become when `p` was let in. -/
structure Welcomes (r : Room) (p : PlayerId) (q : Room) : Prop where
  id : q.id = r.id
  creator : q.creator = r.creator
  participants : q.participants = r.participants ++ [p]
  status : q.status = .active
  version : q.version = r.version
  data : q.data = r.data
  /-- The turn is with `p` just when it was waiting for whoever comes. -/
  taken : q.holder = some p ↔ r.holder = none
  kept : r.holder ≠ none → q.holder = r.holder

section
variable {r : Room} {p : PlayerId}

theorem awaits_iff (hr : r.Sound) : (r.openSlot && !r.includes p) = true ↔ r.Awaits p := by
  simp [Awaits, includes, hr.open_iff]

theorem welcomes_join (hr : r.Sound) (hp : p ∉ r.participants) : r.Welcomes p (r.join p) where
  id := rfl
  creator := rfl
  participants := rfl
  status := rfl
  version := rfl
  data := rfl
  taken := by
    cases hh : r.holder with
    | none => simp [join, hh]
    | some q =>
      -- only those who take part hold a turn
      have hne : q ≠ p := by
        rintro rfl
        cases hl : r.status.isLive with
        | false => exact Option.some_ne_none _ (hh.symm.trans (hr.ended hl).1)
        | true =>
          obtain ⟨s, hs, hholds⟩ | ⟨hnone, -⟩ := hr.holder hl
          · exact hp (Option.some.inj (hholds.symm.trans hh) ▸ hs)
          · exact Option.some_ne_none _ (hh.symm.trans hnone)
      simp [join, hh, hne]
  kept := by
    intro hh
    obtain ⟨q, hq⟩ := Option.ne_none_iff_exists'.1 hh
    simp [join, hq]

/-- What may become of a room's players: somebody comes through the open slot, once. -/
theorem lasting_joined (r : Room) : Lasting fun q =>
    (q.participants = r.participants ∧ (q.openSlot = true → r.openSlot = true)) ∨ r.Joined q := by
  intro q q' a hq hstep
  cases hstep with
  | @join id p c ho =>
    have hopen : q.openSlot = true := (Bool.and_eq_true_iff.1 ho).1
    obtain ⟨hp, hs⟩ | ⟨-, hs, -⟩ := hq
    · exact .inr ⟨hs hopen, rfl, p, by rw [← hp]; rfl⟩
    · exact absurd (hs.symm.trans hopen) Bool.false_ne_true
  | turn => exact hq
  | dismiss => exact hq
  | cancel | expire =>
    obtain ⟨hp, -⟩ | ⟨ho, -, hp⟩ := hq
    · exact .inl ⟨hp, fun h => absurd h Bool.false_ne_true⟩
    · exact .inr ⟨ho, rfl, hp⟩

end

end Room

namespace Hub

/-! ## The order of the rooms -/

/-- The name of the room that a call has opened, if it has: the name was brought by the call
itself. -/
def opening? : Exchange → Option MatchId
  | (.create id _ _, .ok (some m)) => if m.id = id then some id else none
  | _ => none

/-- The names of the rooms that were opened in a run, in order. -/
def opened (t : List Exchange) : List MatchId := t.filterMap opening?

/-- The rooms stand in the order in which they were created, and each has its own name. -/
structure InOrder (h : Hub) : Prop where
  rooms : (h.rooms.map Room.id).Sublist h.created
  nodup : h.created.Nodup

section Order
variable {h h' : Hub} {a : Action} {t : List Exchange}

theorem inOrder_perform (hs : h.Sound) (ho : h.InOrder) (hf : a.Fresh h) :
    (h.perform a).InOrder := by
  rcases ids_of_outcome (outcome_perform (tidy_eq hs) a) with ⟨hids, hc⟩ | ⟨id, p, c, rfl, hids, hc⟩
  · exact ⟨hc ▸ hids.trans ho.rooms, hc ▸ ho.nodup⟩
  · refine ⟨?_, ?_⟩
    · rw [hids, hc]
      exact ho.rooms.append_right [id]
    · rw [hc]
      exact List.nodup_append_comm.1 (List.nodup_cons.2 ⟨hf, ho.nodup⟩)

theorem inOrder_of_reachable (hr : h.Reachable) : h.InOrder := by
  induction hr with
  | empty => exact ⟨List.Sublist.refl _, List.nodup_nil⟩
  | call hr hf ih => exact inOrder_perform (reachable_sound hr) ih hf

/-- A room was created just when the call was answered with a match of the name it brought. -/
theorem created_call (hs : h.Sound) (hf : a.Fresh h) :
    (h.perform a).created = h.created ++ (opening? (a, h.answer a)).toList := by
  cases hans : h.answer a with
  | error e =>
    have hentry : opening? (a, .error e) = none := by cases a <;> rfl
    rw [perform_of_refused (tidy_eq hs) hans, hentry, Option.toList_none, List.append_nil]
  | ok m =>
    cases m with
    | none =>
      have hentry : opening? (a, .ok none) = none := by cases a <;> rfl
      rw [hentry, Option.toList_none, List.append_nil]
      rcases created_of_outcome (outcome_perform (tidy_eq hs) a) with hc | ⟨id, p, c, rfl, -⟩
      · exact hc
      · obtain ⟨m, -, hm⟩ := exists_of_map_eq_ok hans
        cases hm
    | some m =>
      cases answers_of_answer (tidy_eq hs) hans with
      | @joined id p c r hj heq =>
        obtain ⟨-, hroom, -⟩ := joinable?_eq_some hj
        have hne : r.id ≠ id := by
          rintro rfl
          exact hf (hs.created r (mem_of_room? hroom).1)
        rw [heq, created_announce]
        simp [opening?, Room.snapshot, Room.join, hne, put, unqueue]
      | @opened id p c heq =>
        rw [heq, created_announce]
        simp [opening?, Room.snapshot, Room.ofRequest, add]
      | turned _ _ heq =>
        rw [heq, created_announce]
        simp [opening?, put]

theorem opened_of_recorded (ht : Recorded t h) : opened t = h.created := by
  induction ht with
  | nil => rfl
  | @call t h a ht hf ih =>
    have hs := reachable_sound ht.reachable
    rw [created_call hs hf, ← ih]
    cases hd : opening? (a, h.answer a) <;> simp [opened, hd]

end Order

/-! ## The first room that waits -/

section First
variable {h : Hub} {p : PlayerId} {r : Room}

theorem filterMap_openIds (hs : h.Sound) :
    h.openIds.filterMap h.room? = h.rooms.filter (·.openSlot) := by
  have hroom : ∀ r ∈ h.rooms.filter (·.openSlot), (h.room? ∘ Room.id) r = some r := by
    intro r hr
    exact (room?_eq_some_iff hs).2 ⟨(List.mem_filter.1 hr).1, rfl⟩
  rw [hs.queue, queueOf, List.filterMap_map, List.filterMap_congr hroom, List.filterMap_some]

theorem joinable?_eq (hs : h.Sound) (p : PlayerId) :
    h.joinable? p = h.rooms.find? fun r => r.openSlot && !r.includes p := by
  rw [joinable?, filterMap_openIds hs, List.find?_filter]
  refine congrArg (List.find? · h.rooms) (funext fun r => ?_)
  rw [Bool.decide_and, Bool.decide_eq_true, Bool.decide_eq_true]

/-- Nobody finds a room just when none is left for that player. -/
theorem joinable?_eq_none (hs : h.Sound) (hj : h.joinable? p = none) :
    ∀ q ∈ h.rooms, ¬ q.Awaits p := by
  rw [joinable?_eq hs, List.find?_eq_none] at hj
  intro q hq hwaits
  exact hj q hq ((Room.awaits_iff (hs.rooms q hq)).2 hwaits)

/-- The room that is found stands before all others that are left for the player. -/
theorem sublist_of_joinable? (hs : h.Sound) (ho : h.InOrder) (hj : h.joinable? p = some r) :
    r ∈ h.rooms ∧ r.Awaits p ∧
      ∀ q ∈ h.rooms, q.Awaits p → q ≠ r → [r.id, q.id].Sublist h.created := by
  rw [joinable?_eq hs, List.find?_eq_some_iff_append] at hj
  obtain ⟨hwaits, before, behind, hsplit, hbefore⟩ := hj
  have hr : r ∈ h.rooms := by simp [hsplit]
  refine ⟨hr, (Room.awaits_iff (hs.rooms r hr)).1 hwaits, ?_⟩
  intro q hq hqwaits hne
  have hwaits := (Room.awaits_iff (hs.rooms q hq)).2 hqwaits
  have hbehind : q ∈ behind := by
    rw [hsplit, List.mem_append, List.mem_cons] at hq
    rcases hq with hq | hq | hq
    · have hno := hbefore q hq
      rw [hwaits] at hno
      cases hno
    · exact absurd hq hne
    · exact hq
  have htwo : [r, q].Sublist h.rooms := by
    rw [hsplit]
    exact ((List.singleton_sublist.2 hbehind).cons_cons r).trans (List.sublist_append_right _ _)
  exact (htwo.map Room.id).trans ho.rooms

end First

/-! ## Being let in, and opening a room -/

/-- Of the rooms that wait for somebody and that `p` is not in, `r` was opened first. -/
structure IsFirst (t : List Exchange) (h : Hub) (p : PlayerId) (r : Room) : Prop where
  mem : r ∈ h.rooms
  waits : r.Awaits p
  first : ∀ q ∈ h.rooms, q.Awaits p → q ≠ r → [r.id, q.id].Sublist (opened t)

/-- `p` is let into `r`, and told of the match. -/
structure LetsIn (h : Hub) (p : PlayerId) (r : Room) (h' : Hub) (m : Match) : Prop where
  stranger : p ≠ r.creator
  room : ∃ q ∈ h'.rooms, r.Welcomes p q ∧ m = q.snapshot p
  others : ∀ q : Room, q.id ≠ r.id → (q ∈ h'.rooms ↔ q ∈ h.rooms)
  openRooms : h'.openRooms + 1 = h.openRooms

/-- `p` opens a room of that name, which waits for somebody, and is told of the match. -/
structure Opens (h : Hub) (id : MatchId) (p : PlayerId) (h' : Hub) (m : Match) : Prop where
  room : ∃ q : Room, h'.rooms = h.rooms ++ [q] ∧ m = q.snapshot p ∧ q.id = id ∧
    q.status = .autoMatching ∧ q.creator = p ∧ q.participants = [p] ∧ q.holder = some p
  openRooms : h'.openRooms = h.openRooms + 1

/-- What comes of it when `p` asks for a match with whoever comes. -/
def Serves (t : List Exchange) (h : Hub) (id : MatchId) (p : PlayerId) (h' : Hub) (m : Match) :
    Prop :=
  (∃ r, IsFirst t h p r ∧ LetsIn h p r h' m) ∨
    ((∀ q ∈ h.rooms, ¬ q.Awaits p) ∧ Opens h id p h' m)

section Serves
variable {h h' : Hub} {p : PlayerId} {r : Room} {id : MatchId}

theorem length_unqueue (hs : h.Sound) (hid : id ∈ h.openIds) :
    (h.unqueue id).openIds.length + 1 = h.openIds.length := by
  have herase : h.openIds.erase id = h.openIds.filter (· ≠ id) := by
    rw [(nodup_openIds hs).erase_eq_filter]
    exact List.filter_congr fun x _ => by simp [bne, Bool.beq_eq_decide_eq]
  show (h.openIds.filter (· ≠ id)).length + 1 = _
  rw [← herase, List.length_erase_add_one hid]

theorem mem_rooms_put_of_ne {q : Room} (hid : q.id ≠ r.id) :
    q ∈ (h.put r).rooms ↔ q ∈ h.rooms := by
  constructor
  · intro hq
    rcases mem_rooms_put hq with rfl | hq
    · exact absurd rfl hid
    · exact hq
  · intro hq
    exact List.mem_map.2 ⟨q, hq, if_neg hid⟩

theorem letsIn_join (hs : h.Sound) (hj : h.joinable? p = some r)
    (hs' : (((h.unqueue r.id).put (r.join p)).announce (r.join p)).Sound) :
    LetsIn h p r (((h.unqueue r.id).put (r.join p)).announce (r.join p))
      ((r.join p).snapshot p) := by
  obtain ⟨hid, hroom, hout⟩ := joinable?_eq_some hj
  have hr := (mem_of_room? hroom).1
  have hp : p ∉ r.participants := by simpa [Room.includes] using hout
  refine { stranger := ?_, room := ⟨r.join p, ?_, ?_, rfl⟩, others := ?_, openRooms := ?_ }
  · rintro rfl
    exact hp (List.mem_of_head? (hs.rooms r hr).creator)
  · rw [rooms_announce]
    exact mem_rooms_of_put (h := h.unqueue r.id) hr rfl
  · exact Room.welcomes_join (hs.rooms r hr) hp
  · intro q hq
    rw [rooms_announce]
    exact mem_rooms_put_of_ne (h := h.unqueue r.id) (r := r.join p) hq
  · rw [openRooms_eq hs', openRooms_eq hs, openIds_announce]
    exact length_unqueue hs hid

theorem opens_add (hs : h.Sound)
    (hs' : ((h.add (.ofRequest id p .autoMatching)).announce
      (.ofRequest id p .autoMatching)).Sound) :
    Opens h id p ((h.add (.ofRequest id p .autoMatching)).announce (.ofRequest id p .autoMatching))
      ((Room.ofRequest id p .autoMatching).snapshot p) where
  room := ⟨.ofRequest id p .autoMatching, by rw [rooms_announce]; rfl, rfl, rfl, rfl, rfl, rfl, rfl⟩
  openRooms := by
    rw [openRooms_eq hs', openRooms_eq hs, openIds_announce]
    simp [add, Room.ofRequest, MatchRequest.autoMatching]

/-- A player who asks for a match with whoever comes gets one, as the first in the row, or as
the one who begins a row. -/
theorem serves_createAs {t : List Exchange} (ht : Recorded t h) (hf : id ∉ opened t)
    (p : PlayerId) :
    ∃ h' m, h.createAs id p .autoMatching = (h', .ok m) ∧ Serves t h id p h' m := by
  have hs := reachable_sound ht.reachable
  have ho := inOrder_of_reachable ht.reachable
  have hcreated := opened_of_recorded ht
  rw [hcreated] at hf
  have hs' : (h.createAs id p .autoMatching).1.Sound :=
    sound_perform (a := .create id p .autoMatching) hs hf
  rcases createAs_cases (tidy_eq hs) id p .autoMatching with
    ⟨hrefused, -⟩ | ⟨r, -, -, hj, heq⟩ | ⟨hj, -, -, heq⟩
  · simp [MatchRequest.autoMatching] at hrefused
  · rw [heq] at hs'
    obtain ⟨hr, hwaits, hfirst⟩ := sublist_of_joinable? hs ho hj
    refine ⟨_, _, heq, .inl ⟨r, ⟨hr, hwaits, ?_⟩, letsIn_join hs hj hs'⟩⟩
    rw [hcreated]
    exact hfirst
  · rw [heq] at hs'
    exact ⟨_, _, heq, .inr ⟨joinable?_eq_none hs (hj rfl rfl), opens_add hs hs'⟩⟩

end Serves

/-! ## Main statement -/

/-- In every run of the hub, and with any name for a new room, a player who asks for a match
with whoever comes is let into the room that was opened first of all those that wait for
somebody and that the player is not in; only if there is none, a room is opened.  This is so
for every caller of a lobby who is signed in.  And through its open slot a room gets one
player at most, for as long as it is there. -/
theorem first_come_first_served {t : List Exchange} {h : Hub} (ht : Recorded t h) :
    (opened t).Nodup ∧
      (∀ id p, id ∉ opened t →
        ∃ h' m, h.createAs id p .autoMatching = (h', .ok m) ∧ Serves t h id p h' m) ∧
      (∀ (l : Lobby) (c : Caller), l.hub = h → l.isSignedIn c = true → h.nextId ∉ opened t →
        ∃ h' m, l.create c .autoMatching = ({ l with hub := h' }, .ok m) ∧
          Serves t h h.nextId (l.player c) h' m) ∧
      (∀ id, (joiners (ledger id t)).length ≤ 1) ∧
      ∀ r ∈ h.rooms, ∀ h', Onward h h' → ∀ q ∈ h'.rooms, q.id = r.id →
        q.participants = r.participants ∨ r.Joined q := by
  have hs := reachable_sound ht.reachable
  refine ⟨?_, ?_, ?_, ?_, ?_⟩
  · rw [opened_of_recorded ht]
    exact (inOrder_of_reachable ht.reachable).nodup
  · intro id p hf
    exact serves_createAs ht hf p
  · rintro l c rfl hin hf
    obtain ⟨h', m, heq, hserves⟩ := serves_createAs ht hf (l.player c)
    refine ⟨h', m, ?_, hserves⟩
    simp [Lobby.create, Lobby.act, hin, create, heq]
  · intro id
    exact (kept_of_recorded ht id).orderly.joiners
  · intro r hr h' hrun q hq hid
    have hbears : h.Bears r.id fun q =>
        (q.participants = r.participants ∧ (q.openSlot = true → r.openSlot = true)) ∨
          r.Joined q := by
      refine ⟨hs.created r hr, ?_⟩
      intro q hq hid
      rw [eq_of_id_eq hs hq hr hid]
      exact .inl ⟨rfl, fun h => h⟩
    have hlater := (bears_of_onward r.lasting_joined ht.reachable hbears hrun).1
    exact (hlater.rooms q hq hid).imp_left And.left

/-- Ann opens two rooms, as she is not let into her own.  She leaves the turn of the second to
whoever comes and calls off the first.  Bob, who has invited Cy, waits too, but behind her: it
is Ann's second room that Dan is let into, and he is to move. -/
theorem first_come_first_served_past_a_cancelled_room :
    ∃ t h, Recorded t h ∧ opened t = [⟨"a"⟩, ⟨"b"⟩, ⟨"c"⟩] ∧ ⟨"d"⟩ ∉ opened t ∧
      (∃ h' m, h.createAs ⟨"d"⟩ ⟨"dan"⟩ .autoMatching = (h', .ok m) ∧
        Serves t h ⟨"d"⟩ ⟨"dan"⟩ h' m) ∧
      (h.createAs ⟨"d"⟩ ⟨"dan"⟩ .autoMatching).2.toOption.map (fun m => (m.id, m.isMyTurn)) =
        some (⟨"b"⟩, true) ∧
      h.openRooms = 2 ∧ (h.createAs ⟨"d"⟩ ⟨"dan"⟩ .autoMatching).1.openRooms = 1 := by
  have first := Recorded.nil.call (a := .create ⟨"a"⟩ ⟨"ann"⟩ .autoMatching) (by decide)
  have second := first.call (a := .create ⟨"b"⟩ ⟨"ann"⟩ .autoMatching) (by decide)
  have left := second.call (a := .takeTurn ⟨"ann"⟩ ⟨"b"⟩ [1] none) trivial
  have third := left.call (a := .create ⟨"c"⟩ ⟨"bob"⟩ ⟨[⟨"cy"⟩], true⟩) (by decide)
  have cancelled := third.call (a := .cancel ⟨"ann"⟩ ⟨"a"⟩) trivial
  obtain ⟨-, hserved, -⟩ := first_come_first_served cancelled
  have hdan := hserved ⟨"d"⟩ ⟨"dan"⟩ (by decide)
  exact ⟨_, _, cancelled, by decide, by decide, hdan, by decide, by decide, by decide⟩

end Hub

end TurnRendezvous
