/-
# `Hub.Told` — what players are told, and under which names

Whatever a feed of a hub holds about a room is the room as it was for that
player right after some call.  `Hub.Told T` says that all news satisfies `T`, and
`told_perform` that it is enough to look at the rooms after each call.

The hub names its rooms by numbers.  `Hub.Numbered` says that the names so far
are the first ones, so the next name is always a new one (`nextId_fresh`).
-/
import TurnRendezvous.Proofs.Hub.Sound

namespace TurnRendezvous

namespace Hub

/-! ## News -/

/-- All snapshots among the news of a hub satisfy `T`. -/
def Told (T : PlayerId → Match → Prop) (h : Hub) : Prop :=
  ∀ p f m, (p, f) ∈ h.listeners → .received m ∈ f.sent → T p m

section Told
variable {T : PlayerId → Match → Prop} {h : Hub}

/-- Only the news counts. -/
theorem Told.congr {h' : Hub} (ht : h.Told T) (hl : h'.listeners = h.listeners) : h'.Told T :=
  fun p f m hp hm => ht p f m (hl ▸ hp) hm

theorem told_subscribe (ht : h.Told T) (p : PlayerId) : (h.subscribe p).Told T := by
  unfold subscribe
  split
  · exact ht
  · intro q f m hq hm
    rcases List.mem_append.1 hq with hq | hq
    · exact ht q f m hq hm
    · obtain ⟨-, rfl⟩ := Prod.ext_iff.1 (List.mem_singleton.1 hq)
      simp at hm

theorem told_send (ht : h.Told T) {p : PlayerId} {news : MatchNews}
    (hn : ∀ m, news = .received m → T p m) : (h.send p news).Told T := by
  intro q f m hq hm
  obtain ⟨⟨q', f'⟩, hq', he⟩ := List.mem_map.1 hq
  obtain ⟨rfl, rfl⟩ := Prod.ext_iff.1 he
  simp only at hm
  split at hm
  next hp =>
    unfold Feed.send at hm
    split at hm
    · exact ht _ _ m hq' hm
    · rcases List.mem_append.1 hm with hm | hm
      · exact ht _ _ m hq' hm
      · exact hp ▸ hn m (List.mem_singleton.1 hm).symm
  next => exact ht _ _ m hq' hm

theorem told_foldl_send {f : PlayerId → MatchNews} (hn : ∀ p m, f p = .received m → T p m)
    (ps : List PlayerId) :
    ∀ {h : Hub}, h.Told T → (ps.foldl (fun h p => h.send p (f p)) h).Told T := by
  induction ps with
  | nil => exact id
  | cons p ps ih => exact fun ht => ih (told_send ht (hn p))

theorem told_announce (ht : h.Told T) {r : Room} (hr : ∀ p, T p (r.snapshot p)) :
    (h.announce r).Told T :=
  told_foldl_send (fun p _ hm => MatchNews.received.inj hm ▸ hr p) _ ht

theorem told_announceRemoval (ht : h.Told T) (r : Room) : (h.announceRemoval r).Told T :=
  told_foldl_send (f := fun _ => .removed r.id) (fun _ _ hm => by cases hm) _ ht

theorem mem_rooms_of_put {r q : Room} (hq : q ∈ h.rooms) (hid : q.id = r.id) :
    r ∈ (h.put r).rooms :=
  List.mem_map.2 ⟨q, hq, if_pos hid⟩

/-- A call tells players of the rooms as they are after it. -/
theorem told_perform (hs : h.Sound) (ht : h.Told T) (a : Action)
    (hr : ∀ r ∈ (h.perform a).rooms, ∀ p, T p (r.snapshot p)) : (h.perform a).Told T := by
  generalize hh : h.perform a = h' at hr ⊢
  have ho := outcome_perform (tidy_eq hs) a
  rw [hh] at ho
  cases ho with
  | refused => exact ht
  | listening => exact told_subscribe ht _
  | @joined _ p _ r _ _ hj =>
    have hm := (mem_of_room? (joinable?_eq_some hj).2.1).1
    refine told_announce ?_ (hr _ ?_)
    · exact ht.congr rfl
    · rw [rooms_announce]
      exact mem_rooms_of_put (h := h.unqueue r.id) (r := r.join p) hm rfl
  | opened =>
    refine told_announce ?_ (hr _ ?_)
    · exact ht.congr rfl
    · rw [rooms_announce]
      exact List.mem_append_right _ (List.mem_singleton_self _)
  | @turned _ r data next hv =>
    refine told_announce ?_ (hr _ ?_)
    · exact ht.congr rfl
    · rw [rooms_announce]
      exact mem_rooms_of_put (r := r.withTurn data next) (mem_of_visible? hv).1 rfl
  | @cancelled _ r hv =>
    refine told_announce ?_ (hr _ ?_)
    · exact ht.congr rfl
    · simp only [endRoom, rooms_announce]
      exact mem_rooms_of_put (r := r.ended .cancelled) (mem_of_visible? hv).1 rfl
  | dismissed => exact told_send (ht.congr rfl) fun m hm => by cases hm
  | deserted => exact (told_send (h := h.put _) (ht.congr rfl) fun m hm => by cases hm).congr rfl
  | @expired r hv =>
    refine told_announce ?_ (hr _ ?_)
    · exact ht.congr rfl
    · simp only [endRoom, rooms_announce]
      exact mem_rooms_of_put (r := r.ended .expired) (mem_of_room? hv).1 rfl
  | removed =>
    refine told_announceRemoval ?_ _
    exact ht.congr rfl

theorem Told.mono {T' : PlayerId → Match → Prop} (ht : h.Told T) (hT : ∀ p m, T p m → T' p m) :
    h.Told T' :=
  fun p f m hp hm => hT p m (ht p f m hp hm)

/-- What a player reads in the own feed. -/
theorem told_feed (ht : h.Told T) {p : PlayerId} {m : Match}
    (hm : .received m ∈ (h.feed p).sent) : T p m := by
  unfold feed at hm
  cases hf : h.listeners.lookup p with
  | none => simp [hf] at hm
  | some f =>
    obtain ⟨before, after, hl, -⟩ := List.lookup_eq_some_iff.1 hf
    exact ht p f m (hl ▸ List.mem_append_right _ List.mem_cons_self) (by simpa [hf] using hm)

end Told

/-! ## Names -/

/-- The name of the room that is opened after `n` others. -/
def nameOf (n : Nat) : MatchId := ⟨"#" ++ (n + 1).repr⟩

theorem nameOf_injective {m n : Nat} (h : nameOf m = nameOf n) : m = n := by
  have hr : (m + 1).repr = (n + 1).repr := by simpa [nameOf] using h
  have hd := congrArg (fun s => Nat.ofDigitChars 10 s.toList 0) hr
  simpa using hd

/-- The names so far are those of the first rooms. -/
def Numbered (h : Hub) : Prop := ∀ id ∈ h.created, ∃ n < h.created.length, id = nameOf n

/-- The next name is a new one. -/
theorem nextId_fresh {h : Hub} (hn : h.Numbered) : h.nextId ∉ h.created := by
  intro hmem
  obtain ⟨n, hlt, hid⟩ := hn _ hmem
  have hid : nameOf h.created.length = nameOf n := hid
  rw [nameOf_injective hid] at hlt
  exact Nat.lt_irrefl n hlt

/-- A call whose room, if it opens one, has the next name. -/
def Action.Next (h : Hub) : Action → Prop
  | .create id _ _ => id = h.nextId
  | _ => True

theorem Action.Next.fresh {h : Hub} {a : Action} (ha : a.Next h) (hn : h.Numbered) :
    a.Fresh h := by
  cases a with
  | create id p c => exact (show id = h.nextId from ha) ▸ nextId_fresh hn
  | _ => trivial

/-- A call leaves the names of the rooms in their order, with some left out at most, or it
opens a room and adds its name behind them. -/
theorem ids_of_outcome {h h' : Hub} {a : Action} (ho : Outcome h a h') :
    ((h'.rooms.map Room.id).Sublist (h.rooms.map Room.id) ∧ h'.created = h.created) ∨
      ∃ id p c, a = .create id p c ∧ h'.rooms.map Room.id = h.rooms.map Room.id ++ [id] ∧
        h'.created = h.created ++ [id] := by
  have put (g : Hub) (r : Room) (hg : g.rooms = h.rooms) :
      ((g.put r).rooms.map Room.id).Sublist (h.rooms.map Room.id) := by
    rw [map_id_put, hg]
  cases ho with
  | refused => exact .inl ⟨List.Sublist.refl _, rfl⟩
  | listening =>
    rw [rooms_subscribe, created_subscribe]
    exact .inl ⟨List.Sublist.refl _, rfl⟩
  | @joined id p c r =>
    rw [rooms_announce, created_announce]
    exact .inl ⟨put (h.unqueue r.id) _ rfl, rfl⟩
  | @opened id p c =>
    rw [rooms_announce, created_announce]
    exact .inr ⟨id, p, c, rfl, by simp [add, Room.ofRequest], rfl⟩
  | turned =>
    rw [rooms_announce, created_announce]
    exact .inl ⟨put h _ rfl, rfl⟩
  | cancelled | expired =>
    rw [endRoom, rooms_announce, created_announce]
    exact .inl ⟨put h _ rfl, rfl⟩
  | dismissed => exact .inl ⟨put h _ rfl, rfl⟩
  | @deserted p r => exact .inl ⟨(List.filter_sublist.map Room.id).trans (put h _ rfl), rfl⟩
  | removed =>
    rw [rooms_announceRemoval, created_announceRemoval]
    exact .inl ⟨List.filter_sublist.map Room.id, rfl⟩

theorem created_of_outcome {h h' : Hub} {a : Action} (ho : Outcome h a h') :
    h'.created = h.created ∨ ∃ id p c, a = .create id p c ∧ h'.created = h.created ++ [id] := by
  rcases ids_of_outcome ho with ⟨-, hc⟩ | ⟨id, p, c, ha, -, hc⟩
  · exact .inl hc
  · exact .inr ⟨id, p, c, ha, hc⟩

/-- No name is forgotten. -/
theorem created_subset_perform {h : Hub} (hs : h.Sound) (a : Action) :
    h.created ⊆ (h.perform a).created := by
  rcases created_of_outcome (outcome_perform (tidy_eq hs) a) with hc | ⟨id, p, c, -, hc⟩
  · rw [hc]
    exact List.Subset.refl _
  · rw [hc]
    exact List.subset_append_left _ _

theorem numbered_perform {h : Hub} (hs : h.Sound) (hn : h.Numbered) {a : Action}
    (ha : a.Next h) : (h.perform a).Numbered := by
  rcases created_of_outcome (outcome_perform (tidy_eq hs) a) with hc | ⟨id, p, c, rfl, hc⟩
  · intro x hx
    rw [hc] at hx ⊢
    exact hn x hx
  · intro x hx
    rw [hc] at hx ⊢
    simp only [List.length_append, List.length_singleton]
    rcases List.mem_append.1 hx with hx | hx
    · obtain ⟨n, hlt, rfl⟩ := hn x hx
      exact ⟨n, Nat.lt_succ_of_lt hlt, rfl⟩
    · exact ⟨_, Nat.lt_succ_self _, (List.mem_singleton.1 hx).trans ha⟩

/-! ## Answers -/

/-- Whoever asks for a room gets it as it is then. -/
theorem snapshot_of_create {h : Hub} (hs : h.Sound) {p : PlayerId} {c : MatchRequest} {m : Match}
    (hm : (h.create p c).2 = .ok m) : ∃ r ∈ (h.create p c).1.rooms, m = r.snapshot p := by
  unfold create at hm ⊢
  rcases createAs_cases (tidy_eq hs) h.nextId p c with
    ⟨-, e, heq⟩ | ⟨r, -, -, hj, heq⟩ | ⟨-, -, -, heq⟩
  · rw [heq] at hm
    cases hm
  · rw [heq] at hm ⊢
    refine ⟨r.join p, ?_, (Except.ok.inj hm).symm⟩
    rw [rooms_announce]
    exact mem_rooms_of_put (h := h.unqueue r.id) (mem_of_room? (joinable?_eq_some hj).2.1).1 rfl
  · rw [heq] at hm ⊢
    refine ⟨.ofRequest h.nextId p c, ?_, (Except.ok.inj hm).symm⟩
    rw [rooms_announce]
    exact List.mem_append_right _ (List.mem_singleton_self _)

end Hub

end TurnRendezvous
