/-
# `Hub.Sound` — what every hub keeps

Each call restores several things by hand: the status of a room, its open
slot, the queue of open rooms, the holder of the turn, who takes part and
who has dismissed the room.  `Room.Sound` says how these fit together in a
room, and `Hub.Sound` how the rooms and the queue do.

* `Room.Step.sound`: a room that makes a step stays sound;
* `sound_perform`: so does the hub after any call;
* `rooms_and_queue_agree`: what this says about every hub that calls lead to,
  read out in full.

The queue is kept in a stronger form than the last one needs: it is the row
of all open rooms in the order in which they were created.
-/
import Mathlib.Data.List.Nodup
import TurnRendezvous.Proofs.Hub.Calls

namespace TurnRendezvous

namespace Room

/-! ## Rooms -/

/-- How the parts of a room fit together. -/
structure Sound (r : Room) : Prop where
  open_iff : r.openSlot = true ↔ r.status = .autoMatching
  /-- In a live room a participant is to move, or the open slot is. -/
  holder : r.status.isLive = true →
    (∃ p ∈ r.participants, r.holder = some p) ∨ (r.holder = none ∧ r.openSlot = true)
  ended : r.status.isLive = false → r.holder = none ∧ r.openSlot = false
  nodup : r.participants.Nodup
  creator : r.participants.head? = some r.creator
  dismissed : ∀ p ∈ r.dismissed, p ∈ r.participants
  seen : ∃ p ∈ r.participants, p ∉ r.dismissed
  data : r.data = none ↔ r.version = 0
  /-- Until the first turn it is the creator who is to move. -/
  untouched : r.data = none → r.status.isLive = true → r.holder = some r.creator

theorem isOpen_iff {r : Room} (hr : r.Sound) : r.isOpen = true ↔ r.openSlot = true := by
  simp only [isOpen, Bool.and_eq_true, and_iff_left_iff_imp]
  intro h
  rw [hr.open_iff.1 h]
  rfl

theorem isSeenBy_iff {r : Room} {p : PlayerId} :
    r.isSeenBy p = true ↔ p ∈ r.participants ∧ p ∉ r.dismissed := by
  simp [isSeenBy, includes]

theorem mem_viewers_iff {r : Room} {p : PlayerId} : p ∈ r.viewers ↔ r.isSeenBy p = true := by
  simp [viewers, isSeenBy_iff]

theorem isDeserted_eq_false_iff {r : Room} :
    r.isDeserted = false ↔ ∃ p ∈ r.participants, p ∉ r.dismissed := by
  simp [isDeserted]

/-- When a player can take a turn. -/
theorem checkTurn_eq_ok_iff {r : Room} {p : PlayerId} {next : Option PlayerId} :
    r.checkTurn p next = .ok () ↔ r.status.isLive = true ∧ r.holder = some p ∧
      ((∃ q, next = some q ∧ q ≠ p ∧ q ∈ r.participants) ∨ (next = none ∧ r.openSlot = true)) := by
  cases hl : r.status.isLive with
  | false => simp [checkTurn, hl]
  | true =>
    by_cases hp : r.holder = some p
    · cases next with
      | none => by_cases ho : r.openSlot = true <;> simp [checkTurn, checkNext, hl, hp, ho]
      | some q =>
        by_cases hq : q = p
        · simp [checkTurn, checkNext, hl, hp, hq]
        · by_cases hi : q ∈ r.participants <;>
            simp [checkTurn, checkNext, includes, hl, hp, hq, hi]
    · simp [checkTurn, hl, hp]

/-! ### The party of a new room -/

/-- The party grows at its end and names nobody twice. -/
theorem foldl_party {ps : List PlayerId} (invitees : List PlayerId) (h : ps.Nodup) :
    (invitees.foldl (fun ps q => if ps.contains q then ps else ps ++ [q]) ps).Nodup ∧
      ps <+: invitees.foldl (fun ps q => if ps.contains q then ps else ps ++ [q]) ps := by
  induction invitees generalizing ps with
  | nil => exact ⟨h, List.prefix_refl _⟩
  | cons q qs ih =>
    simp only [List.foldl_cons]
    split
    · exact ih h
    next hq =>
      have hq : q ∉ ps := by simpa using hq
      have h' : (ps ++ [q]).Nodup :=
        List.nodup_append.2 ⟨h, by simp, by
          rintro a ha b hb rfl
          exact hq (List.mem_singleton.1 hb ▸ ha)⟩
      exact ⟨(ih h').1, (List.prefix_append _ _).trans (ih h').2⟩

theorem nodup_party (p : PlayerId) (invitees : List PlayerId) : (party p invitees).Nodup :=
  (foldl_party invitees (List.nodup_singleton p)).1

theorem head?_party (p : PlayerId) (invitees : List PlayerId) :
    (party p invitees).head? = some p := by
  obtain ⟨t, ht⟩ := (foldl_party invitees (List.nodup_singleton p)).2
  unfold party
  rw [← ht]
  rfl

/-! ### Every step keeps a room sound -/

theorem sound_ofRequest (id : MatchId) (p : PlayerId) (c : MatchRequest) :
    (ofRequest id p c).Sound := by
  have hp : p ∈ party p c.invitees := List.mem_of_head? (head?_party p c.invitees)
  refine
    { open_iff := ?_, holder := fun _ => .inl ⟨p, hp, rfl⟩, ended := ?_
      nodup := nodup_party p c.invitees, creator := head?_party p c.invitees
      dismissed := fun _ h => absurd h List.not_mem_nil
      seen := ⟨p, hp, List.not_mem_nil⟩
      data := Iff.intro (fun _ => rfl) (fun _ => rfl)
      untouched := fun _ _ => rfl }
  · cases hc : c.autoMatch <;> simp [ofRequest, hc]
  · cases hc : c.autoMatch <;> simp [ofRequest, hc, Status.isLive]

theorem sound_join {r : Room} {p : PlayerId} (hr : r.Sound) (ho : r.isOpen = true)
    (hp : r.includes p = false) : (r.join p).Sound := by
  have hp : p ∉ r.participants := by simpa [includes] using hp
  have hl : r.status.isLive = true := (Bool.and_eq_true_iff.1 ho).2
  refine
    { open_iff := by simp [join], holder := fun _ => .inl ?_
      ended := by simp [join, Status.isLive], nodup := ?_, creator := ?_
      dismissed := fun q hq => List.mem_append_left _ (hr.dismissed q hq)
      seen := ?_, data := hr.data, untouched := fun hd _ => ?_ }
  · rcases hr.holder hl with ⟨q, hq, hh⟩ | ⟨hh, -⟩
    · exact ⟨q, List.mem_append_left _ hq, by simp [join, hh]⟩
    · exact ⟨p, List.mem_append_right _ (List.mem_singleton_self p), by simp [join, hh]⟩
  · refine List.nodup_append.2 ⟨hr.nodup, List.nodup_singleton p, ?_⟩
    rintro a ha b hb rfl
    exact hp (List.mem_singleton.1 hb ▸ ha)
  · simp only [join, List.head?_append, hr.creator, Option.some_or]
  · obtain ⟨q, hq, hd⟩ := hr.seen
    exact ⟨q, List.mem_append_left _ hq, hd⟩
  · simp [join, hr.untouched hd hl]

theorem sound_withTurn {r : Room} {p : PlayerId} {next : Option PlayerId} (hr : r.Sound)
    (hc : r.checkTurn p next = .ok ()) (data : Bytes) : (r.withTurn data next).Sound := by
  obtain ⟨hl, -, hn⟩ := checkTurn_eq_ok_iff.1 hc
  refine
    { hr with
      holder := fun _ => ?_
      ended := fun h => absurd (h.symm.trans hl) Bool.false_ne_true
      data := by simp [withTurn]
      untouched := fun h => by simp [withTurn] at h }
  rcases hn with ⟨q, rfl, -, hq⟩ | ⟨rfl, ho⟩
  · exact .inl ⟨q, hq, rfl⟩
  · exact .inr ⟨rfl, ho⟩

theorem sound_ended {r : Room} {status : Status} (hr : r.Sound) (hs : status.isLive = false) :
    (r.ended status).Sound :=
  { hr with
    open_iff := by
      refine ⟨fun h => absurd h Bool.false_ne_true, ?_⟩
      intro h
      have h : status = .autoMatching := h
      exact absurd hs (by simp [h, Status.isLive])
    holder := fun h => absurd (hs.symm.trans h) Bool.false_ne_true
    ended := fun _ => ⟨rfl, rfl⟩
    untouched := fun _ h => absurd (hs.symm.trans h) Bool.false_ne_true }

theorem sound_dismiss {r : Room} {p : PlayerId} (hr : r.Sound) (hp : r.isSeenBy p = true)
    (hd : (r.dismiss p).isDeserted = false) : (r.dismiss p).Sound :=
  { hr with
    dismissed := fun q hq => by
      rcases List.mem_append.1 hq with hq | hq
      · exact hr.dismissed q hq
      · rw [List.mem_singleton.1 hq]
        exact (isSeenBy_iff.1 hp).1
    seen := isDeserted_eq_false_iff.1 hd }

theorem Step.sound {r r' : Room} {a : Hub.Action} (h : r.Step a r') (hr : r.Sound) : r'.Sound := by
  cases h with
  | join ho hp => exact sound_join hr ho hp
  | turn _ hc => exact sound_withTurn hr hc _
  | cancel => exact sound_ended hr rfl
  | dismiss hp hd => exact sound_dismiss hr hp hd
  | expire => exact sound_ended hr rfl

end Room

namespace Hub

/-! ## Hubs -/

/-- The names of the open rooms, oldest first. -/
def queueOf (rs : List Room) : List MatchId := (rs.filter (·.openSlot)).map Room.id

/-- How the rooms of a hub, their names and the queue fit together. -/
structure Sound (h : Hub) : Prop where
  /-- No two rooms have one name. -/
  nodup : (h.rooms.map Room.id).Nodup
  /-- The queue is the row of the open rooms. -/
  queue : h.openIds = queueOf h.rooms
  rooms : ∀ r ∈ h.rooms, r.Sound
  created : ∀ r ∈ h.rooms, r.id ∈ h.created

theorem eq_of_id_eq {h : Hub} (hs : h.Sound) {q r : Room} (hq : q ∈ h.rooms) (hr : r ∈ h.rooms)
    (hid : q.id = r.id) : q = r :=
  List.inj_on_of_nodup_map hs.nodup hq hr hid

theorem room?_eq_some_iff {h : Hub} (hs : h.Sound) {id : MatchId} {r : Room} :
    h.room? id = some r ↔ r ∈ h.rooms ∧ r.id = id := by
  refine ⟨mem_of_room?, ?_⟩
  rintro ⟨hr, rfl⟩
  cases hq : h.room? r.id with
  | none => exact absurd rfl (room?_eq_none_iff.1 hq r hr)
  | some q =>
    obtain ⟨hm, hid⟩ := mem_of_room? hq
    rw [eq_of_id_eq hs hm hr hid]

theorem visible?_eq_some_iff {h : Hub} (hs : h.Sound) {p : PlayerId} {id : MatchId} {r : Room} :
    h.visible? p id = some r ↔ r ∈ h.rooms ∧ r.id = id ∧ r.isSeenBy p = true := by
  refine ⟨mem_of_visible?, ?_⟩
  rintro ⟨hr, hid, hseen⟩
  exact Option.filter_eq_some_iff.2 ⟨(room?_eq_some_iff hs).2 ⟨hr, hid⟩, hseen⟩

theorem mem_openIds_iff {h : Hub} (hs : h.Sound) {id : MatchId} :
    id ∈ h.openIds ↔ ∃ r ∈ h.rooms, r.id = id ∧ r.openSlot = true := by
  rw [hs.queue]
  constructor
  · intro hid
    obtain ⟨r, hr, rfl⟩ := List.mem_map.1 hid
    obtain ⟨hm, ho⟩ := List.mem_filter.1 hr
    exact ⟨r, hm, rfl, ho⟩
  · rintro ⟨r, hm, rfl, ho⟩
    exact List.mem_map_of_mem (List.mem_filter.2 ⟨hm, ho⟩)

theorem nodup_openIds {h : Hub} (hs : h.Sound) : h.openIds.Nodup :=
  hs.queue ▸ (List.filter_sublist.map Room.id).nodup hs.nodup

/-- Every name in the queue is that of a room that can be joined. -/
theorem isOpen_of_mem_openIds {h : Hub} (hs : h.Sound) {id : MatchId} (hid : id ∈ h.openIds) :
    h.isOpen id = true := by
  obtain ⟨r, hr, rfl, ho⟩ := (mem_openIds_iff hs).1 hid
  simp only [isOpen, (room?_eq_some_iff hs).2 ⟨hr, rfl⟩]
  exact (Room.isOpen_iff (hs.rooms r hr)).2 ho

theorem tidy_eq {h : Hub} (hs : h.Sound) : h.tidy = h := by
  have hq : h.openIds.filter h.isOpen = h.openIds :=
    List.filter_eq_self.2 fun _ hid => isOpen_of_mem_openIds hs hid
  simp only [tidy, hq]

theorem openRooms_eq {h : Hub} (hs : h.Sound) : h.openRooms = h.openIds.length :=
  List.countP_eq_length.2 fun _ hid => isOpen_of_mem_openIds hs hid

/-! ### The queue under each kind of change -/

/-- A room in the place of one that was as open as it is leaves the queue alone. -/
theorem queueOf_put_same {r : Room} {rs : List Room}
    (h : ∀ q ∈ rs, q.id = r.id → q.openSlot = r.openSlot) :
    queueOf (rs.map fun q => if q.id = r.id then r else q) = queueOf rs := by
  induction rs with
  | nil => rfl
  | cons q rs ih =>
    have ih := ih fun s hs => h s (List.mem_cons_of_mem q hs)
    simp only [queueOf] at ih ⊢
    by_cases hq : q.id = r.id
    · have ho := h q List.mem_cons_self hq
      cases hr : r.openSlot <;> simp [hq, ho, hr, ih]
    · cases hs : q.openSlot <;> simp [hq, hs, ih]

/-- A room that was closed leaves the queue. -/
theorem queueOf_put_closed {r : Room} (hr : r.openSlot = false) (rs : List Room) :
    queueOf (rs.map fun q => if q.id = r.id then r else q) =
      (queueOf rs).filter (· ≠ r.id) := by
  induction rs with
  | nil => rfl
  | cons q rs ih =>
    simp only [queueOf] at ih ⊢
    by_cases hq : q.id = r.id
    · cases hs : q.openSlot <;> simp_all
    · cases hs : q.openSlot <;> simp_all

/-- A room that is taken away leaves the queue. -/
theorem queueOf_drop (id : MatchId) (rs : List Room) :
    queueOf (rs.filter (·.id ≠ id)) = (queueOf rs).filter (· ≠ id) := by
  simp only [queueOf, List.filter_map, List.filter_filter]
  congr 1
  exact List.filter_congr fun q _ => by simp [Bool.and_comm]

/-! ### Every call keeps a hub sound -/

/-- What is sound are the rooms, the queue and the names; the news is not looked at. -/
theorem Sound.congr {h h' : Hub} (hs : h.Sound) (hr : h'.rooms = h.rooms)
    (hq : h'.openIds = h.openIds) (hc : h'.created = h.created) : h'.Sound :=
  ⟨hr ▸ hs.nodup, by rw [hq, hr]; exact hs.queue, hr ▸ hs.rooms, by rw [hr, hc]; exact hs.created⟩

theorem sound_subscribe {h : Hub} (hs : h.Sound) (p : PlayerId) : (h.subscribe p).Sound :=
  hs.congr (rooms_subscribe h p) (openIds_subscribe h p) (created_subscribe h p)

theorem sound_send {h : Hub} (hs : h.Sound) (p : PlayerId) (news : MatchNews) :
    (h.send p news).Sound :=
  hs.congr rfl rfl rfl

theorem sound_announce {h : Hub} (hs : h.Sound) (r : Room) : (h.announce r).Sound :=
  hs.congr (rooms_announce h r) (openIds_announce h r) (created_announce h r)

theorem sound_announceRemoval {h : Hub} (hs : h.Sound) (r : Room) :
    (h.announceRemoval r).Sound :=
  hs.congr (rooms_announceRemoval h r) (openIds_announceRemoval h r) (created_announceRemoval h r)

theorem sound_empty : ({} : Hub).Sound :=
  ⟨List.nodup_nil, rfl, fun _ h => absurd h List.not_mem_nil, fun _ h => absurd h List.not_mem_nil⟩

/-- A room in the place of the one of its name, which is as open. -/
theorem sound_put {h : Hub} (hs : h.Sound) {r q : Room} (hq : q ∈ h.rooms) (hid : r.id = q.id)
    (ho : r.openSlot = q.openSlot) (hr : r.Sound) : (h.put r).Sound where
  nodup := by rw [map_id_put]; exact hs.nodup
  queue := by
    refine hs.queue.trans (queueOf_put_same ?_).symm
    intro s hm hid'
    rw [eq_of_id_eq hs hm hq (hid'.trans hid), ho]
  rooms := fun s hm => (mem_rooms_put hm).elim (fun h => h ▸ hr) (hs.rooms s)
  created := fun s hm => by
    rcases mem_rooms_put hm with rfl | hm
    · exact hid ▸ hs.created q hq
    · exact hs.created s hm

/-- A closed room in the place of the one of its name, and out of the queue. -/
theorem sound_put_unqueue {h : Hub} (hs : h.Sound) {r q : Room} (hq : q ∈ h.rooms)
    (hid : r.id = q.id) (ho : r.openSlot = false) (hr : r.Sound) :
    ((h.put r).unqueue r.id).Sound where
  nodup := (map_id_put h r).symm ▸ hs.nodup
  queue := (congrArg (List.filter (· ≠ r.id)) hs.queue).trans (queueOf_put_closed ho h.rooms).symm
  rooms := fun s hm => (mem_rooms_put hm).elim (fun h => h ▸ hr) (hs.rooms s)
  created := fun s hm => by
    rcases mem_rooms_put hm with rfl | hm
    · exact hid ▸ hs.created q hq
    · exact hs.created s hm

theorem sound_drop_unqueue {h : Hub} (hs : h.Sound) (id : MatchId) :
    ((h.drop id).unqueue id).Sound where
  nodup := (List.filter_sublist.map Room.id).nodup hs.nodup
  queue := (congrArg (List.filter (· ≠ id)) hs.queue).trans (queueOf_drop id h.rooms).symm
  rooms := fun s hm => hs.rooms s (List.mem_filter.1 hm).1
  created := fun s hm => hs.created s (List.mem_filter.1 hm).1

theorem sound_add {h : Hub} (hs : h.Sound) {r : Room} (hf : r.id ∉ h.created) (hr : r.Sound) :
    (h.add r).Sound where
  nodup := by
    simp only [add, List.map_append, List.map_cons, List.map_nil]
    refine List.nodup_append.2 ⟨hs.nodup, List.nodup_singleton _, ?_⟩
    rintro a ha b hb rfl
    obtain ⟨q, hq, hid⟩ := List.mem_map.1 ha
    rw [List.mem_singleton.1 hb] at hid
    exact hf (hid ▸ hs.created q hq)
  queue := by
    cases ho : r.openSlot <;> simp [add, queueOf, ho, hs.queue]
  rooms := fun s hm => by
    rcases List.mem_append.1 hm with hm | hm
    · exact hs.rooms s hm
    · exact List.mem_singleton.1 hm ▸ hr
  created := fun s hm => by
    rcases List.mem_append.1 hm with hm | hm
    · exact List.mem_append_left _ (hs.created s hm)
    · exact List.mem_append_right _ (List.mem_singleton.1 hm ▸ List.mem_singleton_self _)

/-- A room that goes away does not show what it was replaced by just before. -/
theorem drop_put (h : Hub) (r : Room) : (h.put r).drop r.id = h.drop r.id := by
  simp only [drop, put, Hub.mk.injEq, and_true]
  induction h.rooms with
  | nil => rfl
  | cons q rs ih =>
    simp only [List.map_cons, List.filter_cons, ih]
    by_cases hq : q.id = r.id <;> simp [hq]

theorem sound_endRoom {h : Hub} (hs : h.Sound) {r : Room} (hr : r ∈ h.rooms) {status : Status}
    (hl : status.isLive = false) : (h.endRoom r status).Sound :=
  sound_announce
    (sound_put_unqueue (r := r.ended status) hs hr rfl rfl (Room.sound_ended (hs.rooms r hr) hl)) _

theorem sound_outcome {h h' : Hub} {a : Action} (hs : h.Sound) (hf : a.Fresh h)
    (ho : Outcome h a h') : h'.Sound := by
  cases ho with
  | refused => exact hs
  | listening => exact sound_subscribe hs _
  | @joined id p c r ha hi hj =>
    obtain ⟨-, hroom, hp⟩ := joinable?_eq_some hj
    have hm := (mem_of_room? hroom).1
    have hr := Room.sound_join (hs.rooms r hm) (isOpen_of_joinable? (tidy_eq hs) hj) hp
    -- taking the name out of the queue and putting the room in its place commute
    exact sound_announce (sound_put_unqueue (r := r.join p) hs hm rfl rfl hr) _
  | @opened id p c hj hc hp =>
    exact sound_announce (sound_add (r := .ofRequest id p c) hs hf (Room.sound_ofRequest id p c)) _
  | @turned p r data next hr hc =>
    have hm := (mem_of_visible? hr).1
    have hr := Room.sound_withTurn (hs.rooms r hm) hc data
    exact sound_announce (sound_put (r := r.withTurn data next) hs hm rfl rfl hr) _
  | cancelled hr hl => exact sound_endRoom hs (mem_of_visible? hr).1 rfl
  | @dismissed p r hr hd =>
    obtain ⟨hm, -, hp⟩ := mem_of_visible? hr
    have hr := Room.sound_dismiss (hs.rooms r hm) hp hd
    exact sound_send (sound_put (r := r.dismiss p) hs hm rfl rfl hr) _ _
  | @deserted p r hr hd =>
    have hg := congrArg rooms (drop_put h (r.dismiss p))
    exact (sound_drop_unqueue hs r.id).congr hg rfl rfl
  | expired hr => exact sound_endRoom hs (mem_of_room? hr).1 rfl
  | removed hr => exact sound_announceRemoval (sound_drop_unqueue hs _) _

theorem sound_perform {h : Hub} (hs : h.Sound) {a : Action} (hf : a.Fresh h) :
    (h.perform a).Sound :=
  sound_outcome hs hf (outcome_perform (tidy_eq hs) a)

theorem reachable_sound {h : Hub} (hr : Reachable h) : h.Sound := by
  induction hr with
  | empty => exact sound_empty
  | call _ hf ih => exact sound_perform ih hf

/-- In every hub that calls lead to, the queue names the open rooms and nothing
else, once each; a room is open just while it is looking for players; a live
room has somebody to move, and one that is over has not; the party begins with
the creator and somebody still sees the room; and data is there just when turns
were taken.  So all queued rooms can be joined, and tidying the queue drops
nothing. -/
theorem rooms_and_queue_agree {h : Hub} (hr : Reachable h) :
    (h.rooms.map Room.id).Nodup ∧ h.openIds.Nodup ∧
      (∀ id, id ∈ h.openIds ↔ ∃ r ∈ h.rooms, r.id = id ∧ r.openSlot = true) ∧
      (∀ r ∈ h.rooms,
        (r.openSlot = true ↔ r.status = .autoMatching) ∧
        (r.status.isLive = true →
          (∃ p ∈ r.participants, r.holder = some p) ∨ (r.holder = none ∧ r.openSlot = true)) ∧
        (r.status.isLive = false → r.holder = none ∧ r.openSlot = false) ∧
        r.participants.Nodup ∧ r.participants.head? = some r.creator ∧
        (∀ p ∈ r.dismissed, p ∈ r.participants) ∧ (∃ p ∈ r.participants, p ∉ r.dismissed) ∧
        (r.data = none ↔ r.version = 0)) ∧
      h.openRooms = h.openIds.length ∧ h.tidy = h := by
  have hs := reachable_sound hr
  refine ⟨hs.nodup, nodup_openIds hs, fun _ => mem_openIds_iff hs, ?_,
    openRooms_eq hs, tidy_eq hs⟩
  intro r hm
  have hm := hs.rooms r hm
  exact ⟨hm.open_iff, hm.holder, hm.ended, hm.nodup, hm.creator, hm.dismissed, hm.seen, hm.data⟩

/-- A room whose turn rests with its open slot, one with an invitee and an open
slot, and one that was called off. -/
theorem rooms_and_queue_agree_in_a_busy_hub :
    let h := [Action.create ⟨"a"⟩ ⟨"ann"⟩ .autoMatching, .takeTurn ⟨"ann"⟩ ⟨"a"⟩ [7] none,
      .create ⟨"b"⟩ ⟨"bob"⟩ ⟨[⟨"cy"⟩, ⟨"cy"⟩], true⟩, .create ⟨"c"⟩ ⟨"ann"⟩ (.inviting ⟨"bob"⟩),
      .cancel ⟨"bob"⟩ ⟨"c"⟩].foldl perform {}
    Reachable h ∧ h.openIds = [⟨"a"⟩, ⟨"b"⟩] ∧ h.rooms.length = 3 ∧
      h.openRooms = h.openIds.length ∧ h.tidy = h := by
  intro h
  have h₁ := Reachable.empty.call (a := .create ⟨"a"⟩ ⟨"ann"⟩ .autoMatching) (by decide)
  have h₂ := h₁.call (a := .takeTurn ⟨"ann"⟩ ⟨"a"⟩ [7] none) trivial
  have h₃ := h₂.call (a := .create ⟨"b"⟩ ⟨"bob"⟩ ⟨[⟨"cy"⟩, ⟨"cy"⟩], true⟩) (by decide)
  have h₄ := h₃.call (a := .create ⟨"c"⟩ ⟨"ann"⟩ (.inviting ⟨"bob"⟩)) (by decide)
  have hr : Reachable h := h₄.call (a := .cancel ⟨"bob"⟩ ⟨"c"⟩) trivial
  obtain ⟨-, -, -, -, hn, ht⟩ := rooms_and_queue_agree hr
  exact ⟨hr, by decide, by decide, hn, ht⟩

end Hub

end TurnRendezvous
