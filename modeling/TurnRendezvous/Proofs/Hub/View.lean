/-
# `Hub.view` — the news keeps a player's view up to date

A player who begins to listen can look at all rooms once and then go by the news
alone: `Hub.heed` writes an update into a view, and what was sent up to now, written
into the view from the beginning, is what the player sees now.

Each kind of call tells its own viewers in its own place: the room as it has become,
or that it is gone, to everybody who still sees it or to nobody but the one who
turned away.  So the argument is made once for a call (`informs_perform`) from what
becomes of the rooms (`view_put`, `view_add`, `view_drop`) and what is sent
(`informs_announce`, `informs_announceRemoval`), and carried along a row of calls
(`informed_of_onward`).

Nothing is said about how much of the news a reader can still fetch: a feed keeps
`feedCapacity` items, and this is about all that were sent.
-/
import Mathlib.Logic.Function.Basic
import TurnRendezvous.Proofs.Hub.Tidings

namespace TurnRendezvous

/-- What a player sees of a room, if anything. -/
def Room.sight? (r : Room) (p : PlayerId) : Option Match :=
  if r.isSeenBy p then some (r.snapshot p) else none

namespace Hub

/-! ## Views -/

/-- What a player sees of the rooms, by their names. -/
def view (h : Hub) (p : PlayerId) : MatchId → Option Match := fun id => h.snapshot? id p

/-- A view with an update written into it. -/
def heed (view : MatchId → Option Match) : MatchNews → MatchId → Option Match
  | .received m => Function.update view m.id (some m)
  | .removed id => Function.update view id none

section View
variable {h : Hub} {r q : Room} {p : PlayerId}

theorem view_eq (h : Hub) (p : PlayerId) (id : MatchId) :
    h.view p id = (h.room? id).bind (·.sight? p) := by
  unfold view snapshot? visible?
  cases h.room? id with
  | none => rfl
  | some r => cases hp : r.isSeenBy p <;> simp [Room.sight?, hp]

/-- Only the rooms count. -/
theorem view_congr {h' : Hub} (hr : h'.rooms = h.rooms) : h'.view p = h.view p := by
  funext id
  simp only [view_eq, room?, hr]

theorem view_of_room? (hr : h.room? r.id = some r) : h.view p r.id = r.sight? p := by
  rw [view_eq, hr]
  rfl

theorem room?_put (h : Hub) (r : Room) (id : MatchId) :
    (h.put r).room? id = (h.room? id).map fun q => if q.id = r.id then r else q := by
  have hname : ((fun q : Room => decide (q.id = id)) ∘ fun q => if q.id = r.id then r else q) =
      fun q => decide (q.id = id) := by
    funext q
    by_cases hq : q.id = r.id <;> simp [hq]
  simp only [room?, put, List.find?_map, hname]

/-- A room in the place of one of the same name. -/
theorem view_put (hq : h.room? r.id = some q) :
    (h.put r).view p = Function.update (h.view p) r.id (r.sight? p) := by
  funext id
  rw [view_eq, room?_put]
  by_cases hid : id = r.id
  · subst hid
    simp [hq, (mem_of_room? hq).2]
  · rw [Function.update_of_ne hid, view_eq]
    cases hs : h.room? id with
    | none => rfl
    | some s => simp [(mem_of_room? hs).2, hid]

theorem room?_add (h : Hub) (r : Room) (id : MatchId) :
    (h.add r).room? id = (h.room? id).or (if r.id = id then some r else none) := by
  simp [room?, add, List.find?_append, List.find?_singleton]

/-- A room under a new name. -/
theorem view_add (hr : h.room? r.id = none) :
    (h.add r).view p = Function.update (h.view p) r.id (r.sight? p) := by
  funext id
  rw [view_eq, room?_add]
  by_cases hid : id = r.id
  · subst hid
    simp [hr]
  · rw [Function.update_of_ne hid, view_eq, if_neg (Ne.symm hid), Option.or_none]

/-- The other rooms stay. -/
theorem room?_drop_of_ne (h : Hub) {i id : MatchId} (hi : i ≠ id) :
    (h.drop id).room? i = h.room? i := by
  simp only [room?, drop, List.find?_filter]
  congr 1
  funext s
  by_cases hs : s.id = i <;> simp [hs, hi]

/-- A room that goes away. -/
theorem view_drop (h : Hub) (id : MatchId) (p : PlayerId) :
    (h.drop id).view p = Function.update (h.view p) id none := by
  funext i
  by_cases hi : i = id
  · subst hi
    have hnone : (h.drop i).room? i = none := room?_eq_none_iff.2 (by simp [drop])
    rw [Function.update_self, view_eq, hnone]
    rfl
  · rw [Function.update_of_ne hi, view_eq, room?_drop_of_ne h hi, view_eq]

end View

/-! ## What is sent -/

/-- A player listens, and nobody has closed the feed. -/
structure Listens (h : Hub) (p : PlayerId) : Prop where
  listed : (h.listeners.lookup p).isSome = true
  notClosed : (h.feed p).closed = false

section Listens
variable {h : Hub} {p : PlayerId}

theorem Listens.congr {h' : Hub} (hl : h.Listens p) (he : h'.listeners = h.listeners) :
    h'.Listens p :=
  ⟨he ▸ hl.listed, by unfold feed; rw [he]; exact hl.notClosed⟩

theorem listens_subscribe_self (hp : h.listeners.lookup p = none) : (h.subscribe p).Listens p := by
  refine ⟨?_, ?_⟩
  · simp [subscribe, hp, List.lookup_append]
  · rw [feed_subscribe]
    simp [feed, hp]

theorem listens_subscribe (hl : h.Listens p) (q : PlayerId) : (h.subscribe q).Listens p := by
  refine ⟨?_, by rw [feed_subscribe]; exact hl.notClosed⟩
  unfold subscribe
  split
  · exact hl.listed
  · simp [List.lookup_append, Option.isSome_or, hl.listed]

theorem listens_send (hl : h.Listens p) (q : PlayerId) (news : MatchNews) :
    (h.send q news).Listens p := by
  refine ⟨?_, ?_⟩
  · have hmap := lookup_map_value
      (fun k (f : Feed MatchNews) => if k = q then f.send news else f) p h.listeners
    simp only [send, hmap, Option.isSome_map, hl.listed]
  · rw [feed_send]
    split <;> simp [hl.notClosed]

theorem sent_send_of_listens (hl : h.Listens p) (q : PlayerId) (news : MatchNews) :
    ((h.send q news).feed p).sent = (h.feed p).sent ++ if p = q then [news] else [] := by
  rw [feed_send]
  by_cases hp : p = q
  · rw [if_pos ⟨hl.listed, hp⟩, if_pos hp, Feed.sent_send hl.notClosed]
  · rw [if_neg fun h => hp h.2, if_neg hp, List.append_nil]

/-- Messages to several players, each of whom is named once. -/
theorem sent_foldl_send (f : PlayerId → MatchNews) {ps : List PlayerId} (hn : ps.Nodup) :
    ∀ {h : Hub}, h.Listens p →
      (ps.foldl (fun h q => h.send q (f q)) h).Listens p ∧
        ((ps.foldl (fun h q => h.send q (f q)) h).feed p).sent =
          (h.feed p).sent ++ if p ∈ ps then [f p] else [] := by
  induction ps with
  | nil => exact fun hl => ⟨hl, by simp⟩
  | cons q ps ih =>
    intro h hl
    obtain ⟨hq, hn⟩ := List.nodup_cons.1 hn
    obtain ⟨hl', hs⟩ := ih hn (listens_send hl q (f q))
    refine ⟨hl', ?_⟩
    rw [List.foldl_cons, hs, sent_send_of_listens hl]
    by_cases hp : p = q
    · subst hp
      simp [hq]
    · simp [hp]

/-- All viewers of a room, each once. -/
theorem sent_viewers (f : PlayerId → MatchNews) {r : Room} (hr : r.participants.Nodup)
    (hl : h.Listens p) :
    (r.viewers.foldl (fun h q => h.send q (f q)) h).Listens p ∧
      ((r.viewers.foldl (fun h q => h.send q (f q)) h).feed p).sent =
        (h.feed p).sent ++ if r.isSeenBy p = true then [f p] else [] := by
  have hs := sent_foldl_send f (hr.filter r.isSeenBy) hl
  simpa only [Room.viewers, ← Room.mem_viewers_iff] using hs

end Listens

/-! ## What a call tells -/

/-- From `h` to `h'` the player is told `new`: all that changed for the player, and
nothing that the player does not see. -/
structure Informs (p : PlayerId) (h h' : Hub) (new : List MatchNews) : Prop where
  listens : h'.Listens p
  sent : (h'.feed p).sent = (h.feed p).sent ++ new
  replay : new.foldl heed (h.view p) = h'.view p
  /-- What is shown is what the player sees afterwards. -/
  shown : ∀ m, .received m ∈ new → h'.view p m.id = some m
  /-- What is called gone was there for the player, and is not any more. -/
  hidden : ∀ id, .removed id ∈ new → (h.view p id).isSome = true ∧ h'.view p id = none

section Call
variable {h g : Hub} {p : PlayerId} {r : Room}

/-- Nothing was said, and nothing changed. -/
theorem Informs.of_same {h' : Hub} (hl : h'.Listens p) (hf : h'.feed p = h.feed p)
    (hv : h'.view p = h.view p) : Informs p h h' [] where
  listens := hl
  sent := by rw [hf, List.append_nil]
  replay := hv.symm
  shown := fun _ hm => absurd hm List.not_mem_nil
  hidden := fun _ hm => absurd hm List.not_mem_nil

/-- A room that was put in its place is shown to its viewers.  Whoever does not see
it did not see it before. -/
theorem informs_announce (hl : h.Listens p) (hg : g.listeners = h.listeners)
    (hr : r.participants.Nodup)
    (hv : g.view p = Function.update (h.view p) r.id (r.sight? p))
    (hn : r.isSeenBy p = false → h.view p r.id = none) :
    Informs p h (g.announce r)
      (if r.isSeenBy p = true then [.received (r.snapshot p)] else []) := by
  obtain ⟨hl', hs⟩ := sent_viewers (fun q => .received (r.snapshot q)) hr (hl.congr hg)
  have hfeed : g.feed p = h.feed p := by unfold feed; rw [hg]
  have hview : (g.announce r).view p = Function.update (h.view p) r.id (r.sight? p) :=
    (view_congr (rooms_announce g r)).trans hv
  refine ⟨hl', hfeed ▸ hs, ?_, ?_, ?_⟩
  · cases hp : r.isSeenBy p with
    | true => simp [hview, Room.sight?, hp, heed, Room.snapshot]
    | false => simp [hview, Room.sight?, hp, ← hn hp]
  · cases hp : r.isSeenBy p with
    | true => simp [hview, Room.sight?, hp, Room.snapshot]
    | false => simp
  · cases hp : r.isSeenBy p <;> simp

/-- A room that was taken away is called gone to those who saw it. -/
theorem informs_announceRemoval (hl : h.Listens p) (hg : g.listeners = h.listeners)
    (hr : r.participants.Nodup) (hroom : h.room? r.id = some r)
    (hv : g.view p = Function.update (h.view p) r.id none) :
    Informs p h (g.announceRemoval r) (if r.isSeenBy p = true then [.removed r.id] else []) := by
  obtain ⟨hl', hs⟩ := sent_viewers (fun _ => .removed r.id) hr (hl.congr hg)
  have hfeed : g.feed p = h.feed p := by unfold feed; rw [hg]
  have hview : (g.announceRemoval r).view p = Function.update (h.view p) r.id none :=
    (view_congr (rooms_announceRemoval g r)).trans hv
  have hold := view_of_room? (p := p) hroom
  refine ⟨hl', hfeed ▸ hs, ?_, ?_, ?_⟩
  · cases hp : r.isSeenBy p with
    | true => simp [hview, heed]
    | false =>
      have hnone : h.view p r.id = none := by simp [hold, Room.sight?, hp]
      simp [hview, ← hnone]
  · cases hp : r.isSeenBy p <;> simp
  · cases hp : r.isSeenBy p with
    | true => simp [hview, hold, Room.sight?, hp]
    | false => simp

/-- A player who turned away is the only one to be told, and the only one for whom
something changed. -/
theorem informs_send_removed (hl : h.Listens p) (hg : g.listeners = h.listeners) {q : PlayerId}
    {id : MatchId} (hq : (h.view q id).isSome = true)
    (hown : g.view q = Function.update (h.view q) id none)
    (hother : p ≠ q → g.view p = h.view p) :
    Informs p h (g.send q (.removed id)) (if p = q then [.removed id] else []) := by
  have hlg := hl.congr hg
  have hfeed : g.feed p = h.feed p := by unfold feed; rw [hg]
  have hview : (g.send q (.removed id)).view p = g.view p := view_congr (rooms_send g q _)
  refine ⟨listens_send hlg q _, hfeed ▸ sent_send_of_listens hlg q _, ?_, ?_, ?_⟩
  · by_cases hp : p = q
    · subst hp
      simp [hview, hown, heed]
    · simp [hview, hp, hother hp]
  · by_cases hp : p = q <;> simp [hp]
  · by_cases hp : p = q
    · subst hp
      simp [hview, hown, hq]
    · simp [hp]

/-- Nobody loses sight of a room because somebody joins it. -/
theorem isSeenBy_join {q : PlayerId} (hp : r.isSeenBy p = true) :
    (r.join q).isSeenBy p = true := by
  obtain ⟨hm, hd⟩ := Room.isSeenBy_iff.1 hp
  exact Room.isSeenBy_iff.2 ⟨List.mem_append_left _ hm, hd⟩

/-- Turning away changes nothing for anybody else. -/
theorem sight?_dismiss {q : PlayerId} (hp : p ≠ q) : (r.dismiss q).sight? p = r.sight? p := by
  have hseen : (r.dismiss q).isSeenBy p = r.isSeenBy p := by
    rw [Bool.eq_iff_iff, Room.isSeenBy_iff, Room.isSeenBy_iff]
    simp [Room.dismiss, hp]
  unfold Room.sight?
  rw [hseen]
  rfl

theorem sight?_dismiss_self : (r.dismiss p).sight? p = none := by
  have hseen : (r.dismiss p).isSeenBy p = false := by
    rw [Bool.eq_false_iff, ne_eq, Room.isSeenBy_iff]
    simp [Room.dismiss]
  simp [Room.sight?, hseen]

/-- A room that nobody sees. -/
theorem sight?_of_isDeserted (hd : r.isDeserted = true) : r.sight? p = none := by
  have hseen : r.isSeenBy p = false := by
    rw [Bool.eq_false_iff, ne_eq, Room.isSeenBy_iff]
    rintro ⟨hm, hn⟩
    exact hn (by simpa using List.all_eq_true.1 hd p hm)
  simp [Room.sight?, hseen]

theorem informs_endRoom (hs : h.Sound) (hl : h.Listens p) (hr : h.room? r.id = some r)
    (status : Status) : ∃ new, Informs p h (h.endRoom r status) new := by
  have hm := (mem_of_room? hr).1
  refine ⟨_, informs_announce (r := r.ended status) hl rfl (hs.rooms r hm).nodup ?_ ?_⟩
  · exact (view_congr rfl).trans (view_put (r := r.ended status) hr)
  · intro hp
    have hp : r.isSeenBy p = false := hp
    exact (view_of_room? hr).trans (by simp [Room.sight?, hp])

theorem informs_outcome {h' : Hub} {a : Action} (hs : h.Sound) (hf : a.Fresh h)
    (ho : Outcome h a h') (hl : h.Listens p) : ∃ new, Informs p h h' new := by
  have hroom {q : PlayerId} {r : Room} (hv : h.visible? q r.id = some r) :
      h.room? r.id = some r := by
    obtain ⟨hm, hid, -⟩ := mem_of_visible? hv
    exact (room?_eq_some_iff hs).2 ⟨hm, hid⟩
  cases ho with
  | refused => exact ⟨_, .of_same hl rfl rfl⟩
  | listening =>
    exact ⟨_, .of_same (listens_subscribe hl _) (feed_subscribe _ _ _)
      (view_congr (rooms_subscribe _ _))⟩
  | @joined id q c r _ _ hj =>
    obtain ⟨-, hr, hq⟩ := joinable?_eq_some hj
    have hm := (mem_of_room? hr).1
    have hsound := Room.sound_join (hs.rooms r hm) (isOpen_of_joinable? (tidy_eq hs) hj) hq
    refine ⟨_, informs_announce (r := r.join q) hl rfl hsound.nodup ?_ ?_⟩
    · exact view_put (h := h.unqueue r.id) (r := r.join q) hr
    · intro hp
      have hp : r.isSeenBy p = false :=
        Bool.eq_false_iff.2 fun hold => Bool.eq_false_iff.1 hp (isSeenBy_join hold)
      exact (view_of_room? hr).trans (by simp [Room.sight?, hp])
  | @opened id q c =>
    have hnone : h.room? id = none :=
      room?_eq_none_iff.2 fun r hm hid => hf (hid ▸ hs.created r hm)
    refine ⟨_, informs_announce (r := .ofRequest id q c) hl rfl
      (Room.sound_ofRequest id q c).nodup ?_ ?_⟩
    · exact view_add hnone
    · intro _
      rw [view_eq]
      change (h.room? id).bind _ = none
      rw [hnone]
      rfl
  | @turned q r data next hv hc =>
    have hr := hroom hv
    refine ⟨_, informs_announce (r := r.withTurn data next) hl rfl
      (hs.rooms r (mem_of_room? hr).1).nodup ?_ ?_⟩
    · exact view_put (r := r.withTurn data next) hr
    · intro hp
      have hp : r.isSeenBy p = false := hp
      exact (view_of_room? hr).trans (by simp [Room.sight?, hp])
  | cancelled hv => exact informs_endRoom hs hl (hroom hv) _
  | @dismissed q r hv =>
    have hr := hroom hv
    have hput {s : PlayerId} := view_put (p := s) (r := r.dismiss q) hr
    refine ⟨_, informs_send_removed (g := h.put (r.dismiss q)) hl rfl ?_ ?_ ?_⟩
    · rw [view_of_room? hr]
      simp [Room.sight?, (mem_of_visible? hv).2.2]
    · rw [hput, sight?_dismiss_self]
      rfl
    · intro hp
      rw [hput, sight?_dismiss hp, ← view_of_room? hr]
      exact Function.update_eq_self _ _
  | @deserted q r hv hd =>
    have hr := hroom hv
    have hdrop {s : PlayerId} : ((((h.put (r.dismiss q)).send q (.removed r.id)).drop r.id).unqueue
        r.id).view s = Function.update (h.view s) r.id none :=
      (view_congr (congrArg rooms (drop_put h (r.dismiss q)))).trans (view_drop h r.id s)
    -- the room is dropped after the message was sent; what counts is the row of both
    refine ⟨_, informs_send_removed (g := ((h.put (r.dismiss q)).drop r.id).unqueue r.id)
      hl rfl ?_ hdrop ?_⟩
    · rw [view_of_room? hr]
      simp [Room.sight?, (mem_of_visible? hv).2.2]
    · intro hp
      have hnone : h.view p r.id = none := by
        rw [view_of_room? hr, ← sight?_dismiss hp]
        exact sight?_of_isDeserted hd
      refine Eq.trans hdrop ?_
      rw [← hnone]
      exact Function.update_eq_self _ _
  | expired hr => exact informs_endRoom hs hl hr _
  | @removed r hr =>
    refine ⟨_, informs_announceRemoval (g := (h.drop r.id).unqueue r.id) hl rfl
      (hs.rooms r (mem_of_room? hr).1).nodup hr ?_⟩
    exact (view_congr rfl).trans (view_drop h r.id p)

/-- Every call tells every listener all that it changed for them. -/
theorem informs_perform (hs : h.Sound) {a : Action} (hf : a.Fresh h) (hl : h.Listens p) :
    ∃ new, Informs p h (h.perform a) new :=
  informs_outcome hs hf (outcome_perform (tidy_eq hs) a) hl

end Call

/-! ## Rows of calls -/

/-- The hubs that calls lead to from `h`. -/
inductive Onward (h : Hub) : Hub → Prop
  | refl : Onward h h
  | call {h' : Hub} {a : Action} : Onward h h' → a.Fresh h' → Onward h (h'.perform a)

/-- All that a listener was told along a row of calls. -/
theorem informed_of_onward {h h' : Hub} {p : PlayerId} (hs : h.Sound) (hl : h.Listens p)
    (hrun : Onward h h') :
    h'.Sound ∧ h'.Listens p ∧
      ∃ new, (h'.feed p).sent = (h.feed p).sent ++ new ∧ new.foldl heed (h.view p) = h'.view p := by
  induction hrun with
  | refl => exact ⟨hs, hl, [], by rw [List.append_nil], rfl⟩
  | call _ hf ih =>
    obtain ⟨hs', hl', old, hsent, hview⟩ := ih
    obtain ⟨new, hnew⟩ := informs_perform hs' hf hl'
    refine ⟨sound_perform hs' hf, hnew.listens, old ++ new, ?_, ?_⟩
    · rw [hnew.sent, hsent, List.append_assoc]
    · rw [List.foldl_append, hview, hnew.replay]

/-- A player subscribes for the first time, and then anybody calls the hub as they
like.  All updates that were sent to the player, written one after the other into what
the player saw in the beginning, give what the player sees now.  And whatever call
comes next, it tells the player just what it changes: each match that it shows is what
the player sees from then on, and each that it calls gone was there for the player
until then. -/
theorem news_replays_to_view {h₀ h : Hub} {p : PlayerId} (hr : Reachable h₀)
    (hp : h₀.listeners.lookup p = none) (hrun : Onward (h₀.subscribe p) h) :
    (h.feed p).sent.foldl heed (h₀.view p) = h.view p ∧
      ∀ a : Action, a.Fresh h → ∃ new,
        ((h.perform a).feed p).sent = (h.feed p).sent ++ new ∧
        new.foldl heed (h.view p) = (h.perform a).view p ∧
        (∀ m, .received m ∈ new → (h.perform a).view p m.id = some m) ∧
        ∀ id, .removed id ∈ new →
          (h.view p id).isSome = true ∧ (h.perform a).view p id = none := by
  have hs := sound_subscribe (reachable_sound hr) p
  obtain ⟨hs', hl', new, hsent, hview⟩ :=
    informed_of_onward hs (listens_subscribe_self hp) hrun
  have hbegin : ((h₀.subscribe p).feed p).sent = [] := by
    rw [feed_subscribe]
    simp [feed, hp]
  refine ⟨?_, ?_⟩
  · rw [hsent, hbegin, List.nil_append, ← hview, view_congr (rooms_subscribe h₀ p)]
  · intro a hf
    obtain ⟨new, hnew⟩ := informs_perform hs' hf hl'
    exact ⟨new, hnew.sent, hnew.replay, hnew.shown, hnew.hidden⟩

/-- Bob is invited and begins to listen; the turn comes to him, somebody else invites
him, too, and he turns away from the first match. -/
theorem news_replays_to_view_of_an_invitee :
    let h₀ := ({} : Hub).perform (.create ⟨"a"⟩ ⟨"ann"⟩ (.inviting ⟨"bob"⟩))
    let h := [Action.takeTurn ⟨"ann"⟩ ⟨"a"⟩ [7] (some ⟨"bob"⟩),
      .create ⟨"b"⟩ ⟨"cy"⟩ (.inviting ⟨"bob"⟩), .dismiss ⟨"bob"⟩ ⟨"a"⟩].foldl perform
        (h₀.subscribe ⟨"bob"⟩)
    (h.feed ⟨"bob"⟩).sent.length = 3 ∧ h.view ⟨"bob"⟩ ⟨"a"⟩ = none ∧
      (h.view ⟨"bob"⟩ ⟨"b"⟩).isSome = true ∧
      (h.feed ⟨"bob"⟩).sent.foldl heed (h₀.view ⟨"bob"⟩) = h.view ⟨"bob"⟩ := by
  intro h₀ h
  have hr : Reachable h₀ :=
    Reachable.empty.call (a := .create ⟨"a"⟩ ⟨"ann"⟩ (.inviting ⟨"bob"⟩)) (by decide)
  have h₁ := (Onward.refl (h := h₀.subscribe ⟨"bob"⟩)).call
    (a := .takeTurn ⟨"ann"⟩ ⟨"a"⟩ [7] (some ⟨"bob"⟩)) trivial
  have h₂ := h₁.call (a := .create ⟨"b"⟩ ⟨"cy"⟩ (.inviting ⟨"bob"⟩)) (by decide)
  have h₃ : Onward _ h := h₂.call (a := .dismiss ⟨"bob"⟩ ⟨"a"⟩) trivial
  exact ⟨by decide, by decide, by decide, (news_replays_to_view hr (by decide) h₃).1⟩

end Hub

end TurnRendezvous
