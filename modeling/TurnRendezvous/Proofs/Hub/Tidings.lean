/-
# `Hub.Adds` — what a call adds to the news

`Hub.Told` says what all news is like.  Whoever reads on from a place in a feed
has to know more: which news a call adds to what was there.  A feed only grows
(`Hub.Adds`), and what a call adds is one of a few things (`Hub.Announced`): the
snapshot of a room that was opened, joined, played on or ended, or word that a
room is gone.  Above all a player who turns away has nobody told of the room.

* `adds_send`, `adds_announce`: one message, and one to all viewers of a room;
* `adds_perform`: what a call adds.
-/
import TurnRendezvous.Proofs.Hub.News

namespace TurnRendezvous

namespace Hub

/-! ## Feeds -/

/-- A change of the values of a list of pairs, seen from one key. -/
theorem lookup_map_value {α β : Type} [BEq α] [LawfulBEq α] (g : α → β → β) (a : α)
    (l : List (α × β)) : (l.map fun x => (x.1, g x.1 x.2)).lookup a = (l.lookup a).map (g a) := by
  induction l with
  | nil => rfl
  | cons x l ih =>
    obtain ⟨k, b⟩ := x
    simp only [List.map_cons, List.lookup_cons, ih]
    cases h : a == k with
    | true => rw [eq_of_beq h]; rfl
    | false => rfl

theorem feed_send (h : Hub) (q p : PlayerId) (news : MatchNews) :
    (h.send q news).feed p =
      if (h.listeners.lookup p).isSome ∧ p = q then (h.feed p).send news else h.feed p := by
  have hl : (h.send q news).listeners.lookup p =
      (h.listeners.lookup p).map fun f => if p = q then f.send news else f :=
    lookup_map_value (fun k (f : Feed MatchNews) => if k = q then f.send news else f) p h.listeners
  simp only [feed, hl]
  cases h.listeners.lookup p with
  | none => simp
  | some f => by_cases hp : p = q <;> simp [hp]

@[simp] theorem feed_subscribe (h : Hub) (q p : PlayerId) : (h.subscribe q).feed p = h.feed p := by
  unfold subscribe
  split
  · rfl
  next hq =>
    have hnone := Option.not_isSome_iff_eq_none.1 hq
    simp only [feed, List.lookup_append, List.lookup_cons, List.lookup_nil]
    cases hp : p == q with
    | true => simp [eq_of_beq hp, hnone]
    | false => simp

/-- From `h` to `h'` the news of every player only grows, by what satisfies `N`. -/
def Adds (N : PlayerId → MatchNews → Prop) (h h' : Hub) : Prop :=
  ∀ p, ∃ new, (h'.feed p).sent = (h.feed p).sent ++ new ∧ ∀ n ∈ new, N p n

section Adds
variable {N : PlayerId → MatchNews → Prop} {h h' : Hub}

theorem Adds.of_feed_eq (hf : ∀ p, h'.feed p = h.feed p) : Adds N h h' := by
  intro p
  exact ⟨[], by rw [hf p, List.append_nil], List.forall_mem_nil _⟩

theorem Adds.trans {h'' : Hub} (h₁ : Adds N h h') (h₂ : Adds N h' h'') : Adds N h h'' := by
  intro p
  obtain ⟨new, hs, hn⟩ := h₁ p
  obtain ⟨new', hs', hn'⟩ := h₂ p
  exact ⟨new ++ new', by rw [hs', hs, List.append_assoc], List.forall_mem_append.2 ⟨hn, hn'⟩⟩

/-- What a reader at any position has not passed has only grown. -/
theorem Adds.mem_drop (ha : Adds N h h') {p : PlayerId} {position : Nat} {n : MatchNews}
    (hn : n ∈ (h'.feed p).sent.drop position) :
    n ∈ (h.feed p).sent.drop position ∨ N p n := by
  obtain ⟨new, hs, hnew⟩ := ha p
  rw [hs, List.drop_append] at hn
  rcases List.mem_append.1 hn with hn | hn
  · exact .inl hn
  · exact .inr (hnew n (List.mem_of_mem_drop hn))

theorem adds_send {q : PlayerId} {news : MatchNews} (hn : N q news) :
    Adds N h (h.send q news) := by
  intro p
  rw [feed_send]
  split
  next hp =>
    obtain ⟨-, rfl⟩ := hp
    unfold Feed.send
    split
    · exact ⟨[], (List.append_nil _).symm, List.forall_mem_nil _⟩
    · exact ⟨[news], rfl, by simpa using hn⟩
  next => exact ⟨[], (List.append_nil _).symm, List.forall_mem_nil _⟩

theorem adds_foldl_send {f : PlayerId → MatchNews} {ps : List PlayerId}
    (hn : ∀ p ∈ ps, N p (f p)) :
    ∀ h : Hub, Adds N h (ps.foldl (fun h p => h.send p (f p)) h) := by
  induction ps with
  | nil => exact fun h => .of_feed_eq fun _ => rfl
  | cons p ps ih =>
    obtain ⟨hp, hps⟩ := List.forall_mem_cons.1 hn
    exact fun h => (adds_send hp).trans (ih hps _)

theorem adds_announce {r : Room} (hn : ∀ p, r.isSeenBy p = true → N p (.received (r.snapshot p))) :
    Adds N h (h.announce r) :=
  adds_foldl_send (fun p hp => hn p (List.mem_filter.1 hp).2) h

theorem adds_announceRemoval {r : Room} (hn : ∀ p, r.isSeenBy p = true → N p (.removed r.id)) :
    Adds N h (h.announceRemoval r) :=
  adds_foldl_send (f := fun _ => .removed r.id) (fun p hp => hn p (List.mem_filter.1 hp).2) h

end Adds

/-! ## Calls -/

/-- The rooms that a call may put before their viewers. -/
inductive Shows (h : Hub) : Action → Room → Prop
  | opened {id : MatchId} {q : PlayerId} {c : MatchRequest} :
      Shows h (.create id q c) (.ofRequest id q c)
  | joined {id : MatchId} {q : PlayerId} {c : MatchRequest} {r : Room} :
      r ∈ h.rooms → r.isOpen = true → r.includes q = false → Shows h (.create id q c) (r.join q)
  | turned {q : PlayerId} {r : Room} {data : Bytes} {next : Option PlayerId} :
      r ∈ h.rooms → r.checkTurn q next = .ok () →
      Shows h (.takeTurn q r.id data next) (r.withTurn data next)
  | ended {a : Action} {r : Room} {status : Status} :
      r ∈ h.rooms → status.isLive = false → Shows h a (r.ended status)

/-- What players may be told by a call that leads from `h` to `h'`. -/
inductive Announced (h h' : Hub) (a : Action) (p : PlayerId) : MatchNews → Prop
  | shown {r : Room} :
      h.Shows a r → r ∈ h'.rooms → r.isSeenBy p = true →
      Announced h h' a p (.received (r.snapshot p))
  | removed {r : Room} : r ∈ h.rooms → r.isSeenBy p = true → Announced h h' a p (.removed r.id)

theorem adds_outcome {h h' : Hub} (ht : h.tidy = h) {a : Action} (ho : Outcome h a h') :
    Adds (Announced h h' a) h h' := by
  cases ho with
  | refused => exact .of_feed_eq fun _ => rfl
  | listening => exact .of_feed_eq fun _ => feed_subscribe _ _ _
  | @joined id q c r _ _ hj =>
    obtain ⟨-, hroom, hq⟩ := joinable?_eq_some hj
    have hm := (mem_of_room? hroom).1
    have hm' : r.join q ∈ ((h.unqueue r.id).put (r.join q)).rooms :=
      mem_rooms_of_put (h := h.unqueue r.id) hm rfl
    refine adds_announce (h := (h.unqueue r.id).put (r.join q)) fun p hp => .shown ?_ ?_ hp
    · exact .joined hm (isOpen_of_joinable? ht hj) hq
    · rwa [rooms_announce]
  | @opened id q c =>
    refine adds_announce (h := h.add (.ofRequest id q c)) fun p hp => .shown .opened ?_ hp
    rw [rooms_announce]
    exact List.mem_append_right _ (List.mem_singleton_self _)
  | @turned q r data next hv hc =>
    have hm := (mem_of_visible? hv).1
    refine adds_announce (h := h.put (r.withTurn data next)) fun p hp =>
      .shown (.turned hm hc) ?_ hp
    rw [rooms_announce]
    exact mem_rooms_of_put hm rfl
  | @cancelled q r hv =>
    have hm := (mem_of_visible? hv).1
    refine adds_announce fun p hp => .shown (.ended hm rfl) ?_ hp
    simp only [endRoom, rooms_announce]
    exact mem_rooms_of_put (r := r.ended .cancelled) hm rfl
  | @dismissed q r hv =>
    obtain ⟨hm, -, hs⟩ := mem_of_visible? hv
    exact adds_send (h := h.put (r.dismiss q)) (.removed hm hs)
  | @deserted q r hv =>
    obtain ⟨hm, -, hs⟩ := mem_of_visible? hv
    exact adds_send (h := h.put (r.dismiss q)) (.removed hm hs)
  | @expired r hv =>
    have hm := (mem_of_room? hv).1
    refine adds_announce fun p hp => .shown (.ended hm rfl) ?_ hp
    simp only [endRoom, rooms_announce]
    exact mem_rooms_of_put (r := r.ended .expired) hm rfl
  | @removed r hv =>
    have hm := (mem_of_room? hv).1
    exact adds_announceRemoval fun p hp => .removed hm hp

/-- All that a call adds to the news is one of these. -/
theorem adds_perform {h : Hub} (ht : h.tidy = h) (a : Action) :
    Adds (Announced h (h.perform a) a) h (h.perform a) :=
  adds_outcome ht (outcome_perform ht a)

end Hub

end TurnRendezvous
