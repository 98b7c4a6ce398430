/-
# `Hub.Edit` — what a call does to the one room it names

Calls of a hub share the row of rooms, the queue of open rooms and the players' news.  Yet a
call that names a room changes the row at that name only, takes at most that name out of the
queue, and has nothing told but of that room.  An `Edit` is all that such a call does; it is
found by looking at that room and at nothing else (`Local`), be the call accepted or refused.

* `local_takeTurn`, `local_cancel` and so on: calls that name a room are local to it;
* `apply_comm`, `sent_apply_comm`: edits of two rooms may change places;
* `Local.comm`: so may two calls, and they are answered alike.
-/
import TurnRendezvous.Proofs.Hub.View

namespace TurnRendezvous

namespace Hub

/-! ## Edits -/

/-- A change of the room of one name, with what players are told of it. -/
structure Edit (id : MatchId) where
  /-- What becomes of the room; `none` if it goes away. -/
  becomes : Room → Option Room
  /-- Whether the name is taken out of the queue of open rooms. -/
  unqueues : Bool
  /-- Who is told what, in order. -/
  news : List (PlayerId × MatchNews)
  keeps_id : ∀ r q, becomes r = some q → r.id = id → q.id = id
  about : ∀ n ∈ news, n.2.matchId = id

namespace Edit

variable {id : MatchId}

/-- The edit that changes nothing. -/
def nothing (id : MatchId) : Edit id where
  becomes := some
  unqueues := false
  news := []
  keeps_id := by
    rintro r q ⟨⟩ hr
    exact hr
  about := List.forall_mem_nil _

/-- The room `r` takes the place of the one of its name, and its viewers are shown it. -/
def showing (r : Room) (unqueues : Bool) : Edit r.id where
  becomes := fun _ => some r
  unqueues := unqueues
  news := r.viewers.map fun p => (p, .received (r.snapshot p))
  keeps_id := by
    rintro - q ⟨⟩ -
    rfl
  about := by
    intro n hn
    obtain ⟨p, -, rfl⟩ := List.mem_map.1 hn
    rfl

/-- Somebody has turned away from the room, which is `r` from then on, and is told so. -/
def leaving (r : Room) (p : PlayerId) : Edit r.id where
  becomes := fun _ => some r
  unqueues := false
  news := [(p, .removed r.id)]
  keeps_id := by
    rintro - q ⟨⟩ -
    rfl
  about := by simp [MatchNews.matchId]

/-- The room goes away, and some players are told. -/
def dropping (id : MatchId) (ps : List PlayerId) : Edit id where
  becomes := fun _ => none
  unqueues := true
  news := ps.map fun p => (p, .removed id)
  keeps_id := by
    rintro r q ⟨⟩
  about := by
    intro n hn
    obtain ⟨p, -, rfl⟩ := List.mem_map.1 hn
    rfl

/-- What becomes of any room. -/
def on (e : Edit id) (r : Room) : Option Room := if r.id = id then e.becomes r else some r

/-- What a player is told. -/
def heard (e : Edit id) (p : PlayerId) : List MatchNews :=
  e.news.filterMap fun n => if p = n.1 then some n.2 else none

theorem on_of_ne (e : Edit id) {r : Room} (hr : r.id ≠ id) : e.on r = some r := if_neg hr

theorem id_of_on (e : Edit id) {r q : Room} (hq : e.on r = some q) : q.id = r.id := by
  by_cases hr : r.id = id
  · have hbecomes : e.becomes r = some q := (if_pos hr).symm.trans hq
    exact (e.keeps_id r q hbecomes hr).trans hr.symm
  · rw [e.on_of_ne hr] at hq
    exact congrArg Room.id (Option.some.inj hq).symm

theorem matchId_of_mem_heard (e : Edit id) {p : PlayerId} {n : MatchNews} (hn : n ∈ e.heard p) :
    n.matchId = id := by
  obtain ⟨x, hx, hsome⟩ := List.mem_filterMap.1 hn
  split at hsome
  · exact Option.some.inj hsome ▸ e.about x hx
  · cases hsome

/-- An edit of another room leaves what becomes of this one as it is. -/
theorem on_bind_on_of_ne {i j : MatchId} (hne : i ≠ j) (e : Edit i) (e' : Edit j) {r : Room}
    (hr : r.id = i) : (e.on r).bind e'.on = e.on r := by
  cases hq : e.on r with
  | none => rfl
  | some q =>
    have hid : q.id ≠ j := (e.id_of_on hq).trans hr ▸ hne
    exact e'.on_of_ne hid

theorem on_comm {i j : MatchId} (hne : i ≠ j) (e : Edit i) (e' : Edit j) (r : Room) :
    (e.on r).bind e'.on = (e'.on r).bind e.on := by
  by_cases hi : r.id = i
  · rw [on_bind_on_of_ne hne e e' hi, e'.on_of_ne (hi ▸ hne), Option.bind_some]
  · by_cases hj : r.id = j
    · rw [on_bind_on_of_ne hne.symm e' e hj, e.on_of_ne hi, Option.bind_some]
    · rw [e.on_of_ne hi, e'.on_of_ne hj, Option.bind_some, Option.bind_some, e.on_of_ne hi,
        e'.on_of_ne hj]

end Edit

/-- Tells players something, one after the other. -/
def tell (h : Hub) (news : List (PlayerId × MatchNews)) : Hub :=
  news.foldl (fun h n => h.send n.1 n.2) h

/-- The hub after an edit. -/
def apply {id : MatchId} (h : Hub) (e : Edit id) : Hub :=
  tell
    { h with
      rooms := h.rooms.filterMap e.on
      openIds := if e.unqueues then h.openIds.filter (· ≠ id) else h.openIds }
    e.news

/-! ## Who is told what -/

section Tell
variable {h : Hub} {p : PlayerId} {news : List (PlayerId × MatchNews)}

theorem tell_eq {β : Type} (get : Hub → β) (hget : ∀ h q n, get (send h q n) = get h)
    (news : List (PlayerId × MatchNews)) : ∀ h : Hub, get (h.tell news) = get h := by
  induction news with
  | nil => exact fun _ => rfl
  | cons n news ih => exact fun h => (ih _).trans (hget h n.1 n.2)

@[simp] theorem rooms_tell : (h.tell news).rooms = h.rooms :=
  tell_eq rooms (fun _ _ _ => rfl) news h

@[simp] theorem openIds_tell : (h.tell news).openIds = h.openIds :=
  tell_eq openIds (fun _ _ _ => rfl) news h

@[simp] theorem created_tell : (h.tell news).created = h.created :=
  tell_eq created (fun _ _ _ => rfl) news h

/-- Nobody begins or ends to listen because something is sent. -/
theorem listens_send_iff {q : PlayerId} {n : MatchNews} : (h.send q n).Listens p ↔ h.Listens p := by
  refine ⟨fun hl => ⟨?_, ?_⟩, fun hl => listens_send hl q n⟩
  · have hmap := lookup_map_value
      (fun k (f : Feed MatchNews) => if k = q then f.send n else f) p h.listeners
    have hlisted := hl.listed
    simpa only [send, hmap, Option.isSome_map] using hlisted
  · have hopen := hl.notClosed
    rw [feed_send] at hopen
    split at hopen
    · rwa [Feed.closed_send] at hopen
    · exact hopen

/-- Whoever does not listen is not told anything. -/
theorem feed_send_of_not_listens (hl : ¬ h.Listens p) (q : PlayerId) (n : MatchNews) :
    (h.send q n).feed p = h.feed p := by
  rw [feed_send]
  split
  next hlisted =>
    refine Feed.send_of_closed ?_ n
    by_contra hopen
    exact hl ⟨hlisted.1, Bool.eq_false_iff.2 hopen⟩
  next => rfl

theorem listens_tell_iff : (h.tell news).Listens p ↔ h.Listens p := by
  induction news generalizing h with
  | nil => exact Iff.rfl
  | cons n news ih => exact ih.trans listens_send_iff

theorem feed_tell_of_not_listens (hl : ¬ h.Listens p) : (h.tell news).feed p = h.feed p := by
  induction news generalizing h with
  | nil => rfl
  | cons n news ih =>
    exact (ih (mt listens_send_iff.1 hl)).trans (feed_send_of_not_listens hl n.1 n.2)

theorem sent_tell_of_listens (hl : h.Listens p) :
    ((h.tell news).feed p).sent =
      (h.feed p).sent ++ news.filterMap fun n => if p = n.1 then some n.2 else none := by
  induction news generalizing h with
  | nil => simp [tell]
  | cons n news ih =>
    have hrest := ih (listens_send hl n.1 n.2)
    rw [sent_send_of_listens hl] at hrest
    refine hrest.trans ?_
    by_cases hp : p = n.1 <;> simp [hp]

end Tell

/-! ## Edits of two rooms -/

section Apply
variable {i j : MatchId} (h : Hub)

@[simp] theorem rooms_apply (e : Edit i) : (h.apply e).rooms = h.rooms.filterMap e.on := rooms_tell

@[simp] theorem openIds_apply (e : Edit i) :
    (h.apply e).openIds = if e.unqueues then h.openIds.filter (· ≠ i) else h.openIds :=
  openIds_tell

@[simp] theorem created_apply (e : Edit i) : (h.apply e).created = h.created := created_tell

/-- The news counts alone, and an edit comes to it last. -/
theorem listens_apply_iff (e : Edit i) {p : PlayerId} : (h.apply e).Listens p ↔ h.Listens p :=
  listens_tell_iff.trans ⟨fun hl => hl.congr rfl, fun hl => hl.congr rfl⟩

theorem sent_apply_of_listens {p : PlayerId} (hl : h.Listens p) (e : Edit i) :
    ((h.apply e).feed p).sent = (h.feed p).sent ++ e.heard p :=
  sent_tell_of_listens (hl.congr rfl)

theorem feed_apply_of_not_listens {p : PlayerId} (hl : ¬ h.Listens p) (e : Edit i) :
    (h.apply e).feed p = h.feed p :=
  feed_tell_of_not_listens fun hl' => hl (hl'.congr rfl)

/-- An edit is not seen from another room. -/
theorem room?_apply_of_ne (hne : i ≠ j) (e : Edit i) : (h.apply e).room? j = h.room? j := by
  rw [room?, rooms_apply, room?]
  induction h.rooms with
  | nil => rfl
  | cons r rs ih =>
    by_cases hr : r.id = i
    · have hskip : (r :: rs).find? (·.id = j) = rs.find? (·.id = j) :=
        List.find?_cons_of_neg (by simpa using hr ▸ hne)
      cases hq : e.on r with
      | none => rw [List.filterMap_cons_none hq, ih, hskip]
      | some q =>
        have hid : q.id ≠ j := (e.id_of_on hq).trans hr ▸ hne
        rw [List.filterMap_cons_some hq, List.find?_cons_of_neg (by simpa using hid), ih, hskip]
    · rw [List.filterMap_cons_some (e.on_of_ne hr), List.find?_cons, List.find?_cons, ih]

/-- Edits of two rooms may change places, as far as the rooms and the queue go. -/
theorem apply_comm (hne : i ≠ j) (e : Edit i) (e' : Edit j) :
    ((h.apply e).apply e').rooms = ((h.apply e').apply e).rooms ∧
      ((h.apply e).apply e').openIds = ((h.apply e').apply e).openIds := by
  constructor
  · simp only [rooms_apply, List.filterMap_filterMap]
    exact List.filterMap_congr fun r _ => Edit.on_comm hne e e' r
  · simp only [openIds_apply]
    cases e.unqueues <;> cases e'.unqueues <;> simp [List.filter_filter, Bool.and_comm]

/-- What a player is told by edits of two rooms is the same about each room, whichever of
them comes first. -/
theorem sent_apply_comm (hne : i ≠ j) (e : Edit i) (e' : Edit j) (p : PlayerId) :
    ∃ new new', (((h.apply e).apply e').feed p).sent = (h.feed p).sent ++ new ∧
      (((h.apply e').apply e).feed p).sent = (h.feed p).sent ++ new' ∧
      ∀ id, new.filter (·.matchId = id) = new'.filter (·.matchId = id) := by
  by_cases hl : h.Listens p
  · have hl₁ := (listens_apply_iff h e).2 hl
    have hl₂ := (listens_apply_iff h e').2 hl
    refine ⟨e.heard p ++ e'.heard p, e'.heard p ++ e.heard p, ?_, ?_, ?_⟩
    · rw [sent_apply_of_listens _ hl₁, sent_apply_of_listens _ hl, List.append_assoc]
    · rw [sent_apply_of_listens _ hl₂, sent_apply_of_listens _ hl, List.append_assoc]
    · intro id
      simp only [List.filter_append]
      -- one of the two rows is not about the room at all
      by_cases hi : i = id
      · have hnone : (e'.heard p).filter (·.matchId = id) = [] := by
          refine List.filter_eq_nil_iff.2 fun n hn => ?_
          simpa [e'.matchId_of_mem_heard hn] using fun hj => hne (hi.trans hj.symm)
        rw [hnone, List.append_nil, List.nil_append]
      · have hnone : (e.heard p).filter (·.matchId = id) = [] := by
          refine List.filter_eq_nil_iff.2 fun n hn => ?_
          simpa [e.matchId_of_mem_heard hn] using hi
        rw [hnone, List.append_nil, List.nil_append]
  · have hl₁ := mt (listens_apply_iff h e).1 hl
    have hl₂ := mt (listens_apply_iff h e').1 hl
    refine ⟨[], [], ?_, ?_, fun _ => rfl⟩
    · rw [feed_apply_of_not_listens _ hl₁, feed_apply_of_not_listens _ hl, List.append_nil]
    · rw [feed_apply_of_not_listens _ hl₂, feed_apply_of_not_listens _ hl, List.append_nil]

end Apply

/-! ## Calls are edits -/

section Calls
variable (h : Hub) (r : Room)

theorem apply_nothing (id : MatchId) : h.apply (.nothing id) = h := by
  have hon : (Edit.nothing id).on = some := funext fun r => ite_self (some r)
  have hrooms : h.rooms.filterMap (Edit.nothing id).on = h.rooms := by
    rw [hon, List.filterMap_some]
  exact congrArg (fun rs => { h with rooms := rs }) hrooms

theorem rooms_put_eq : (h.put r).rooms =
    h.rooms.filterMap fun q => if q.id = r.id then some r else some q := by
  rw [put, ← List.filterMap_eq_map]
  exact List.filterMap_congr fun q _ => (apply_ite some (q.id = r.id) r q)

theorem rooms_drop_eq (id : MatchId) : (h.drop id).rooms =
    h.rooms.filterMap fun q => if q.id = id then none else some q := by
  rw [drop, ← List.filterMap_eq_filter]
  refine List.filterMap_congr fun q _ => ?_
  by_cases hq : q.id = id <;> simp [Option.guard, hq]

theorem apply_showing : h.apply (.showing r false) = (h.put r).announce r := by
  unfold apply announce tell Edit.showing
  rw [List.foldl_map]
  congr 1
  exact congrArg (fun rs => { h with rooms := rs }) (rooms_put_eq h r).symm

theorem apply_showing_closed :
    h.apply (.showing r true) = ((h.put r).unqueue r.id).announce r := by
  unfold apply announce tell Edit.showing
  rw [List.foldl_map]
  congr 1
  exact congrArg (fun rs => { h with rooms := rs, openIds := h.openIds.filter (· ≠ r.id) })
    (rooms_put_eq h r).symm

theorem apply_leaving (p : PlayerId) :
    h.apply (.leaving r p) = (h.put r).send p (.removed r.id) :=
  congrArg (fun rs => send { h with rooms := rs } p (.removed r.id)) (rooms_put_eq h r).symm

theorem apply_dropping (id : MatchId) (ps : List PlayerId) :
    h.apply (.dropping id ps) =
      ps.foldl (fun h p => h.send p (.removed id)) ((h.drop id).unqueue id) := by
  unfold apply tell Edit.dropping
  rw [List.foldl_map]
  congr 1
  exact congrArg (fun rs => { h with rooms := rs, openIds := h.openIds.filter (· ≠ id) })
    (rooms_drop_eq h id).symm

end Calls

/-- What a call does and answers is found out by looking at the room of one name, and what it
does is an edit of that room. -/
def Local {α : Type} (id : MatchId) (f : Hub → Hub × α) : Prop :=
  ∀ h : Hub, ∃ (e : Edit id) (x : α), ∀ g : Hub, g.room? id = h.room? id → f g = (g.apply e, x)

theorem visible?_congr {g h : Hub} {id : MatchId} (hg : g.room? id = h.room? id) (p : PlayerId) :
    g.visible? p id = h.visible? p id :=
  congrArg (Option.filter fun r : Room => r.isSeenBy p) hg

/-! ### Calls that name a room -/

section Calls
variable (p : PlayerId) (id : MatchId)

theorem local_takeTurn (data : Bytes) (next : Option PlayerId) :
    Local id fun h => h.takeTurn p id data next := by
  intro h
  cases hv : h.visible? p id with
  | none =>
    refine ⟨.nothing id, .error (noMatch id), fun g hg => ?_⟩
    simp only [takeTurn, visible?_congr hg, hv, apply_nothing]
  | some r =>
    obtain rfl := (mem_of_visible? hv).2.1
    cases hc : r.checkTurn p next with
    | error e =>
      refine ⟨.nothing r.id, .error e, fun g hg => ?_⟩
      simp only [takeTurn, visible?_congr hg, hv, hc, apply_nothing]
    | ok =>
      refine ⟨.showing (r.withTurn data next) false, .ok ((r.withTurn data next).snapshot p),
        fun g hg => ?_⟩
      simp only [takeTurn, visible?_congr hg, hv, hc, ← apply_showing]
      rfl

theorem local_cancel : Local id fun h => h.cancel p id := by
  intro h
  cases hv : h.visible? p id with
  | none =>
    refine ⟨.nothing id, .error (noMatch id), fun g hg => ?_⟩
    simp only [cancel, visible?_congr hg, hv, apply_nothing]
  | some r =>
    obtain rfl := (mem_of_visible? hv).2.1
    cases hl : r.status.isLive with
    | false =>
      refine ⟨.nothing r.id, .error (Room.matchOver r.id), fun g hg => ?_⟩
      simp [cancel, visible?_congr hg, hv, hl, apply_nothing]
    | true =>
      refine ⟨.showing (r.ended .cancelled) true, .ok (), fun g hg => ?_⟩
      simp only [cancel, visible?_congr hg, hv, hl, if_true, endRoom, ← apply_showing_closed]
      rfl

theorem local_dismiss : Local id fun h => h.dismiss p id := by
  intro h
  cases hv : h.visible? p id with
  | none =>
    refine ⟨.nothing id, .error (noMatch id), fun g hg => ?_⟩
    simp only [dismiss, visible?_congr hg, hv, apply_nothing]
  | some r =>
    obtain rfl := (mem_of_visible? hv).2.1
    cases hd : (r.dismiss p).isDeserted with
    | false =>
      refine ⟨.leaving (r.dismiss p) p, .ok (), fun g hg => ?_⟩
      simp only [dismiss, visible?_congr hg, hv, hd, Bool.false_eq_true, if_false]
      exact congrArg (·, Except.ok ()) (apply_leaving g (r.dismiss p) p).symm
    | true =>
      refine ⟨.dropping r.id [p], .ok (), fun g hg => ?_⟩
      simp only [dismiss, visible?_congr hg, hv, hd, if_true, apply_dropping]
      -- the room goes away after the last player was told, which comes to the same
      have hdrop : (g.put (r.dismiss p)).drop r.id = g.drop r.id := drop_put g (r.dismiss p)
      exact congrArg (fun k : Hub => ((k.unqueue r.id).send p (.removed r.id), Except.ok ())) hdrop

theorem local_expire : Local id fun h => h.expire id := by
  intro h
  cases hr : h.room? id with
  | none =>
    refine ⟨.nothing id, .error (noMatch id), fun g hg => ?_⟩
    simp only [expire, hg, apply_nothing]
  | some r =>
    obtain rfl := (mem_of_room? hr).2
    refine ⟨.showing (r.ended .expired) true, .ok (), fun g hg => ?_⟩
    simp only [expire, hg, endRoom, ← apply_showing_closed]
    rfl

theorem local_remove : Local id fun h => h.remove id := by
  intro h
  cases hr : h.room? id with
  | none =>
    refine ⟨.nothing id, .error (noMatch id), fun g hg => ?_⟩
    simp only [remove, hg, apply_nothing]
  | some r =>
    obtain rfl := (mem_of_room? hr).2
    refine ⟨.dropping r.id r.viewers, .ok (), fun g hg => ?_⟩
    simp only [remove, hg, announceRemoval, apply_dropping]

end Calls

/-! ### Two of them -/

/-- Two hubs that `h` has come to, and that differ in nothing but the order of what was told
of different rooms. -/
structure Alike (h a b : Hub) : Prop where
  rooms : a.rooms = b.rooms
  openIds : a.openIds = b.openIds
  created : a.created = b.created
  told : ∀ p, ∃ new new', (a.feed p).sent = (h.feed p).sent ++ new ∧
    (b.feed p).sent = (h.feed p).sent ++ new' ∧
    ∀ id, new.filter (·.matchId = id) = new'.filter (·.matchId = id)

/-- Calls about two rooms may change places. -/
theorem Local.comm {α β : Type} {i j : MatchId} {f : Hub → Hub × α} {f' : Hub → Hub × β}
    (hf : Local i f) (hf' : Local j f') (hne : i ≠ j) (h : Hub) :
    (f (f' h).1).2 = (f h).2 ∧ (f' (f h).1).2 = (f' h).2 ∧
      Alike h (f' (f h).1).1 (f (f' h).1).1 := by
  obtain ⟨e, x, he⟩ := hf h
  obtain ⟨e', x', he'⟩ := hf' h
  have hlater := he (h.apply e') (room?_apply_of_ne h hne.symm e')
  have hlater' := he' (h.apply e) (room?_apply_of_ne h hne e)
  rw [he h rfl, he' h rfl, hlater, hlater']
  obtain ⟨hrooms, hqueue⟩ := apply_comm h hne e e'
  refine ⟨rfl, rfl, hrooms, hqueue, ?_, sent_apply_comm h hne e e'⟩
  simp only [created_apply]

end Hub

end TurnRendezvous
