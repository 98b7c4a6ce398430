/-
# `Hub.Reachable` — the states that a hub can come to

A call of the hub is an `Action`, and `Hub.perform` is what it leaves
behind.  A hub is reachable if a row of calls leads to it from the empty
one; a call that may open a room brings a name for it that no room ever
had.

What a call does is said once, with what it answers (`createAs_cases`,
`takeTurn_cases` and so on).  `outcome_perform` lists the ways in which it ends
(`Outcome`), and `mem_rooms_perform` reads off them what becomes of the rooms: a
room afterwards is an old one, one that was just opened, or comes from an old
one by a `Room.Step`.
-/
import TurnRendezvous.Hub

namespace TurnRendezvous

/-- One call of a hub. -/
inductive Hub.Action
  | subscribe (p : PlayerId)
  /-- Creates a match, under the name `id` if it comes to a new room. -/
  | create (id : MatchId) (p : PlayerId) (c : MatchRequest)
  | takeTurn (p : PlayerId) (id : MatchId) (data : Bytes) (next : Option PlayerId)
  | cancel (p : PlayerId) (id : MatchId)
  | dismiss (p : PlayerId) (id : MatchId)
  | expire (id : MatchId)
  | remove (id : MatchId)

namespace Hub

/-- The hub after a call. -/
def perform (h : Hub) : Action → Hub
  | .subscribe p => h.subscribe p
  | .create id p c => (h.createAs id p c).1
  | .takeTurn p id data next => (h.takeTurn p id data next).1
  | .cancel p id => (h.cancel p id).1
  | .dismiss p id => (h.dismiss p id).1
  | .expire id => (h.expire id).1
  | .remove id => (h.remove id).1

/-- A call brings no name that a room had before. -/
def Action.Fresh (h : Hub) : Action → Prop
  | .create id _ _ => id ∉ h.created
  | _ => True

instance (h : Hub) : (a : Action) → Decidable (a.Fresh h)
  | .create id _ _ => inferInstanceAs (Decidable (id ∉ h.created))
  | .subscribe _ | .takeTurn .. | .cancel .. | .dismiss .. | .expire _ | .remove _ =>
    .isTrue trivial

/-- The states that calls lead to from the empty hub. -/
inductive Reachable : Hub → Prop
  | empty : Reachable {}
  | call {h : Hub} {a : Action} : Reachable h → a.Fresh h → Reachable (h.perform a)

/-! ## Telling the players leaves the rooms alone -/

section Book
variable (h : Hub) (r : Room) (p : PlayerId) (news : MatchNews)

@[simp] theorem rooms_subscribe : (h.subscribe p).rooms = h.rooms := by
  unfold subscribe; split <;> rfl

@[simp] theorem openIds_subscribe : (h.subscribe p).openIds = h.openIds := by
  unfold subscribe; split <;> rfl

@[simp] theorem created_subscribe : (h.subscribe p).created = h.created := by
  unfold subscribe; split <;> rfl

@[simp] theorem rooms_send : (h.send p news).rooms = h.rooms := rfl

@[simp] theorem openIds_send : (h.send p news).openIds = h.openIds := rfl

@[simp] theorem created_send : (h.send p news).created = h.created := rfl

/-- A row of messages changes nothing that a single one does not. -/
theorem foldl_send_eq {β : Type} (get : Hub → β) (f : PlayerId → MatchNews)
    (hget : ∀ (h : Hub) p, get (h.send p (f p)) = get h) (ps : List PlayerId) :
    ∀ h : Hub, get (ps.foldl (fun h p => h.send p (f p)) h) = get h := by
  induction ps with
  | nil => exact fun _ => rfl
  | cons p ps ih => exact fun h => (ih _).trans (hget h p)

@[simp] theorem rooms_announce : (h.announce r).rooms = h.rooms :=
  foldl_send_eq rooms _ (fun _ _ => rfl) _ h

@[simp] theorem openIds_announce : (h.announce r).openIds = h.openIds :=
  foldl_send_eq openIds _ (fun _ _ => rfl) _ h

@[simp] theorem created_announce : (h.announce r).created = h.created :=
  foldl_send_eq created _ (fun _ _ => rfl) _ h

@[simp] theorem rooms_announceRemoval : (h.announceRemoval r).rooms = h.rooms :=
  foldl_send_eq rooms (fun _ => .removed r.id) (fun _ _ => rfl) _ h

@[simp] theorem openIds_announceRemoval : (h.announceRemoval r).openIds = h.openIds :=
  foldl_send_eq openIds (fun _ => .removed r.id) (fun _ _ => rfl) _ h

@[simp] theorem created_announceRemoval : (h.announceRemoval r).created = h.created :=
  foldl_send_eq created (fun _ => .removed r.id) (fun _ _ => rfl) _ h

end Book

/-! ## Keeping rooms -/

theorem mem_rooms_put {h : Hub} {r q : Room} (hq : q ∈ (h.put r).rooms) : q = r ∨ q ∈ h.rooms := by
  obtain ⟨s, hs, rfl⟩ := List.mem_map.1 hq
  split
  · exact .inl rfl
  · exact .inr hs

/-- The names of the rooms stay in place when one of them is replaced. -/
theorem map_id_put (h : Hub) (r : Room) : (h.put r).rooms.map Room.id = h.rooms.map Room.id := by
  simp only [put, List.map_map]
  refine List.map_congr_left ?_
  intro q _
  by_cases hq : q.id = r.id <;> simp [hq]

theorem mem_of_room? {h : Hub} {id : MatchId} {r : Room} (hr : h.room? id = some r) :
    r ∈ h.rooms ∧ r.id = id :=
  ⟨List.mem_of_find?_eq_some hr, by simpa using List.find?_some hr⟩

theorem mem_of_visible? {h : Hub} {p : PlayerId} {id : MatchId} {r : Room}
    (hr : h.visible? p id = some r) : r ∈ h.rooms ∧ r.id = id ∧ r.isSeenBy p = true := by
  obtain ⟨hr, hp⟩ := Option.filter_eq_some_iff.1 hr
  obtain ⟨hm, hid⟩ := mem_of_room? hr
  exact ⟨hm, hid, hp⟩

theorem room?_eq_none_iff {h : Hub} {id : MatchId} :
    h.room? id = none ↔ ∀ r ∈ h.rooms, r.id ≠ id := by
  simp [room?]

/-- The room that a player is let into. -/
theorem joinable?_eq_some {h : Hub} {p : PlayerId} {r : Room} (hr : h.joinable? p = some r) :
    r.id ∈ h.openIds ∧ h.room? r.id = some r ∧ r.includes p = false := by
  have hp := List.find?_some hr
  obtain ⟨id, hid, hroom⟩ := List.mem_filterMap.1 (List.mem_of_find?_eq_some hr)
  obtain rfl := (mem_of_room? hroom).2
  exact ⟨hid, hroom, by simpa using hp⟩

/-! ## What a call does and answers -/

/-- A request for a match of one, or with oneself, is refused, and nothing changes.  Any
other lets the player into the oldest room that waits, or opens a new one. -/
theorem createAs_cases {h : Hub} (ht : h.tidy = h) (id : MatchId) (p : PlayerId)
    (c : MatchRequest) :
    ((c.autoMatch = false ∧ c.invitees = [] ∨ p ∈ c.invitees) ∧
        ∃ e, h.createAs id p c = (h, .error e)) ∨
      (∃ r, c.autoMatch = true ∧ c.invitees = [] ∧ h.joinable? p = some r ∧
        h.createAs id p c =
          (((h.unqueue r.id).put (r.join p)).announce (r.join p), .ok ((r.join p).snapshot p))) ∨
      ((c.autoMatch = true → c.invitees = [] → h.joinable? p = none) ∧
        (c.autoMatch = true ∨ c.invitees ≠ []) ∧ p ∉ c.invitees ∧
        h.createAs id p c =
          ((h.add (.ofRequest id p c)).announce (.ofRequest id p c),
            .ok ((Room.ofRequest id p c).snapshot p))) := by
  by_cases hi : c.invitees = []
  · have hp : p ∉ c.invitees := by simp [hi]
    cases ha : c.autoMatch with
    | false => exact .inl ⟨.inl ⟨rfl, hi⟩, nobodyInvited, by simp [createAs, ha, hi]⟩
    | true =>
      cases hj : h.joinable? p with
      | some r =>
        refine .inr (.inl ⟨r, rfl, hi, rfl, ?_⟩)
        simp [createAs, ha, hi, join?, ht, hj, Room.join]
      | none =>
        refine .inr (.inr ⟨fun _ _ => rfl, .inl rfl, hp, ?_⟩)
        simp [createAs, ha, hi, join?, ht, hj, openRoom]
  · by_cases hp : p ∈ c.invitees
    · exact .inl ⟨.inr hp, selfInvited, by simp [createAs, hi, hp]⟩
    · refine .inr (.inr ⟨fun _ h => absurd h hi, .inr hi, hp, ?_⟩)
      simp [createAs, hi, hp, openRoom]

/-- A turn is refused, and nothing changes, or it is taken. -/
theorem takeTurn_cases (h : Hub) (p : PlayerId) (id : MatchId) (data : Bytes)
    (next : Option PlayerId) :
    (∃ e, h.takeTurn p id data next = (h, .error e)) ∨
      ∃ r, h.visible? p id = some r ∧ r.checkTurn p next = .ok () ∧
        h.takeTurn p id data next =
          ((h.put (r.withTurn data next)).announce (r.withTurn data next),
            .ok ((r.withTurn data next).snapshot p)) := by
  unfold takeTurn
  split
  · exact .inl ⟨_, rfl⟩
  next r hr =>
    split
    next e he => exact .inl ⟨e, rfl⟩
    next hc => exact .inr ⟨r, hr, hc, rfl⟩

/-- A room is not cancelled, and nothing changes, or it ends. -/
theorem cancel_cases (h : Hub) (p : PlayerId) (id : MatchId) :
    (∃ e, h.cancel p id = (h, .error e)) ∨
      ∃ r, h.visible? p id = some r ∧ r.status.isLive = true ∧
        h.cancel p id = (h.endRoom r .cancelled, .ok ()) := by
  unfold cancel
  split
  · exact .inl ⟨_, rfl⟩
  next r hr =>
    split
    next hl => exact .inr ⟨r, hr, hl, rfl⟩
    · exact .inl ⟨_, rfl⟩

/-- A room is not dismissed, and nothing changes, or the player turns away from it, and if
that was the last one to see it, it goes away. -/
theorem dismiss_cases (h : Hub) (p : PlayerId) (id : MatchId) :
    (∃ e, h.dismiss p id = (h, .error e)) ∨
      ∃ r, h.visible? p id = some r ∧
        (((r.dismiss p).isDeserted = false ∧
            h.dismiss p id = ((h.put (r.dismiss p)).send p (.removed id), .ok ())) ∨
          ((r.dismiss p).isDeserted = true ∧
            h.dismiss p id =
              ((((h.put (r.dismiss p)).send p (.removed id)).drop id).unqueue id, .ok ()))) := by
  unfold dismiss
  split
  · exact .inl ⟨_, rfl⟩
  next r hr =>
    refine .inr ⟨r, hr, ?_⟩
    cases hd : (r.dismiss p).isDeserted with
    | false => exact .inl ⟨rfl, by simp [hd]⟩
    | true => exact .inr ⟨rfl, by simp [hd]⟩

/-- There is no such room, and nothing changes, or it runs out of time. -/
theorem expire_cases (h : Hub) (id : MatchId) :
    (∃ e, h.expire id = (h, .error e)) ∨
      ∃ r, h.room? id = some r ∧ h.expire id = (h.endRoom r .expired, .ok ()) := by
  unfold expire
  split
  · exact .inl ⟨_, rfl⟩
  next r hr => exact .inr ⟨r, hr, rfl⟩

/-- There is no such room, and nothing changes, or it is deleted. -/
theorem remove_cases (h : Hub) (id : MatchId) :
    (∃ e, h.remove id = (h, .error e)) ∨
      ∃ r, h.room? id = some r ∧
        h.remove id = (((h.drop id).unqueue id).announceRemoval r, .ok ()) := by
  unfold remove
  split
  · exact .inl ⟨_, rfl⟩
  next r hr => exact .inr ⟨r, hr, rfl⟩

/-! ## The ways in which a call ends -/

/-- What a call leaves behind in a hub whose queue is tidy. -/
inductive Outcome (h : Hub) : Action → Hub → Prop
  | refused {a : Action} : Outcome h a h
  | listening {p : PlayerId} : Outcome h (.subscribe p) (h.subscribe p)
  | joined {id : MatchId} {p : PlayerId} {c : MatchRequest} {r : Room} :
      c.autoMatch = true → c.invitees = [] → h.joinable? p = some r →
      Outcome h (.create id p c) (((h.unqueue r.id).put (r.join p)).announce (r.join p))
  | opened {id : MatchId} {p : PlayerId} {c : MatchRequest} :
      (c.autoMatch = true → c.invitees = [] → h.joinable? p = none) →
      (c.autoMatch = true ∨ c.invitees ≠ []) → p ∉ c.invitees →
      Outcome h (.create id p c) ((h.add (.ofRequest id p c)).announce (.ofRequest id p c))
  | turned {p : PlayerId} {r : Room} {data : Bytes} {next : Option PlayerId} :
      h.visible? p r.id = some r → r.checkTurn p next = .ok () →
      Outcome h (.takeTurn p r.id data next)
        ((h.put (r.withTurn data next)).announce (r.withTurn data next))
  | cancelled {p : PlayerId} {r : Room} :
      h.visible? p r.id = some r → r.status.isLive = true →
      Outcome h (.cancel p r.id) (h.endRoom r .cancelled)
  | dismissed {p : PlayerId} {r : Room} :
      h.visible? p r.id = some r → (r.dismiss p).isDeserted = false →
      Outcome h (.dismiss p r.id) ((h.put (r.dismiss p)).send p (.removed r.id))
  | deserted {p : PlayerId} {r : Room} :
      h.visible? p r.id = some r → (r.dismiss p).isDeserted = true →
      Outcome h (.dismiss p r.id)
        ((((h.put (r.dismiss p)).send p (.removed r.id)).drop r.id).unqueue r.id)
  | expired {r : Room} :
      h.room? r.id = some r → Outcome h (.expire r.id) (h.endRoom r .expired)
  | removed {r : Room} :
      h.room? r.id = some r →
      Outcome h (.remove r.id) (((h.drop r.id).unqueue r.id).announceRemoval r)

theorem outcome_create {h : Hub} (ht : h.tidy = h) (id : MatchId) (p : PlayerId)
    (c : MatchRequest) : Outcome h (.create id p c) (h.createAs id p c).1 := by
  rcases createAs_cases ht id p c with ⟨-, e, heq⟩ | ⟨r, ha, hi, hj, heq⟩ | ⟨hj, hc, hp, heq⟩
  · exact heq ▸ .refused
  · exact heq ▸ .joined ha hi hj
  · exact heq ▸ .opened hj hc hp

theorem outcome_takeTurn (h : Hub) (p : PlayerId) (id : MatchId) (data : Bytes)
    (next : Option PlayerId) :
    Outcome h (.takeTurn p id data next) (h.takeTurn p id data next).1 := by
  rcases takeTurn_cases h p id data next with ⟨e, heq⟩ | ⟨r, hr, hc, heq⟩
  · exact heq ▸ .refused
  · obtain rfl := (mem_of_visible? hr).2.1
    exact heq ▸ .turned hr hc

theorem outcome_cancel (h : Hub) (p : PlayerId) (id : MatchId) :
    Outcome h (.cancel p id) (h.cancel p id).1 := by
  rcases cancel_cases h p id with ⟨e, heq⟩ | ⟨r, hr, hl, heq⟩
  · exact heq ▸ .refused
  · obtain rfl := (mem_of_visible? hr).2.1
    exact heq ▸ .cancelled hr hl

theorem outcome_dismiss (h : Hub) (p : PlayerId) (id : MatchId) :
    Outcome h (.dismiss p id) (h.dismiss p id).1 := by
  rcases dismiss_cases h p id with ⟨e, heq⟩ | ⟨r, hr, ⟨hd, heq⟩ | ⟨hd, heq⟩⟩
  · exact heq ▸ .refused
  · obtain rfl := (mem_of_visible? hr).2.1
    exact heq ▸ .dismissed hr hd
  · obtain rfl := (mem_of_visible? hr).2.1
    exact heq ▸ .deserted hr hd

theorem outcome_expire (h : Hub) (id : MatchId) : Outcome h (.expire id) (h.expire id).1 := by
  rcases expire_cases h id with ⟨e, heq⟩ | ⟨r, hr, heq⟩
  · exact heq ▸ .refused
  · obtain rfl := (mem_of_room? hr).2
    exact heq ▸ .expired hr

theorem outcome_remove (h : Hub) (id : MatchId) : Outcome h (.remove id) (h.remove id).1 := by
  rcases remove_cases h id with ⟨e, heq⟩ | ⟨r, hr, heq⟩
  · exact heq ▸ .refused
  · obtain rfl := (mem_of_room? hr).2
    exact heq ▸ .removed hr

theorem outcome_perform {h : Hub} (ht : h.tidy = h) (a : Action) :
    Outcome h a (h.perform a) := by
  cases a with
  | subscribe p => exact .listening
  | create id p c => exact outcome_create ht id p c
  | takeTurn p id data next => exact outcome_takeTurn h p id data next
  | cancel p id => exact outcome_cancel h p id
  | dismiss p id => exact outcome_dismiss h p id
  | expire id => exact outcome_expire h id
  | remove id => exact outcome_remove h id

end Hub

/-! ## How a room changes -/

/-- What a call does to a room that stays. -/
inductive Room.Step (r : Room) : Hub.Action → Room → Prop
  | join {id : MatchId} {p : PlayerId} {c : MatchRequest} :
      r.isOpen = true → r.includes p = false → Step r (.create id p c) (r.join p)
  | turn {p : PlayerId} {data : Bytes} {next : Option PlayerId} :
      r.isSeenBy p = true → r.checkTurn p next = .ok () →
      Step r (.takeTurn p r.id data next) (r.withTurn data next)
  | cancel {p : PlayerId} :
      r.isSeenBy p = true → r.status.isLive = true →
      Step r (.cancel p r.id) (r.ended .cancelled)
  | dismiss {p : PlayerId} :
      r.isSeenBy p = true → (r.dismiss p).isDeserted = false →
      Step r (.dismiss p r.id) (r.dismiss p)
  | expire : Step r (.expire r.id) (r.ended .expired)

namespace Room

/-- A room keeps its name. -/
theorem Step.id_eq {r r' : Room} {a : Hub.Action} (h : r.Step a r') : r'.id = r.id := by
  cases h <;> rfl

/-- A room keeps its creator. -/
theorem Step.creator_eq {r r' : Room} {a : Hub.Action} (h : r.Step a r') :
    r'.creator = r.creator := by
  cases h <;> rfl

end Room

namespace Hub

/-- The room of a queued name can be joined, if the queue is tidy. -/
theorem isOpen_of_joinable? {h : Hub} (ht : h.tidy = h) {p : PlayerId} {r : Room}
    (hr : h.joinable? p = some r) : r.isOpen = true := by
  obtain ⟨hid, hroom, -⟩ := joinable?_eq_some hr
  have hq : h.openIds.filter h.isOpen = h.openIds := congrArg openIds ht
  rw [← hq] at hid
  simpa [isOpen, hroom] using (List.mem_filter.1 hid).2

/-- Where a room comes from that is there after a call: it was there before, it
was just opened, or it made a step. -/
theorem mem_rooms_perform {h : Hub} (ht : h.tidy = h) {a : Action} {q : Room}
    (hq : q ∈ (h.perform a).rooms) :
    q ∈ h.rooms ∨
      (∃ id p c, a = .create id p c ∧ p ∉ c.invitees ∧ q = .ofRequest id p c ∧
        (c.autoMatch = true ∨ c.invitees ≠ [])) ∨
      ∃ r ∈ h.rooms, r.Step a q := by
  generalize hh : h.perform a = h' at hq
  have ho := outcome_perform ht a
  rw [hh] at ho
  cases ho with
  | refused => exact .inl hq
  | listening => exact .inl (by simpa using hq)
  | joined ha hi hj =>
    obtain ⟨-, hroom, hp⟩ := joinable?_eq_some hj
    rcases mem_rooms_put (by simpa using hq) with rfl | hq
    · exact .inr (.inr ⟨_, (mem_of_room? hroom).1, .join (isOpen_of_joinable? ht hj) hp⟩)
    · exact .inl hq
  | opened hj hc hp =>
    simp only [rooms_announce, add, List.mem_append, List.mem_singleton] at hq
    rcases hq with hq | rfl
    · exact .inl hq
    · exact .inr (.inl ⟨_, _, _, rfl, hp, rfl, hc⟩)
  | turned hr hc =>
    obtain ⟨hm, -, hs⟩ := mem_of_visible? hr
    rcases mem_rooms_put (by simpa using hq) with rfl | hq
    · exact .inr (.inr ⟨_, hm, .turn hs hc⟩)
    · exact .inl hq
  | cancelled hr hl =>
    obtain ⟨hm, -, hs⟩ := mem_of_visible? hr
    rcases mem_rooms_put (by simpa [endRoom, unqueue] using hq) with rfl | hq
    · exact .inr (.inr ⟨_, hm, .cancel hs hl⟩)
    · exact .inl hq
  | dismissed hr hd =>
    obtain ⟨hm, -, hs⟩ := mem_of_visible? hr
    rcases mem_rooms_put (by simpa using hq) with rfl | hq
    · exact .inr (.inr ⟨_, hm, .dismiss hs hd⟩)
    · exact .inl hq
  | deserted hr hd =>
    simp only [unqueue, drop, rooms_send, List.mem_filter, decide_eq_true_eq] at hq
    rcases mem_rooms_put hq.1 with rfl | hold
    · exact absurd rfl hq.2
    · exact .inl hold
  | expired hr =>
    rcases mem_rooms_put (by simpa [endRoom, unqueue] using hq) with rfl | hq
    · exact .inr (.inr ⟨_, (mem_of_room? hr).1, .expire⟩)
    · exact .inl hq
  | removed hr =>
    simp only [rooms_announceRemoval, unqueue, drop, List.mem_filter] at hq
    exact .inl hq.1

end Hub

end TurnRendezvous
