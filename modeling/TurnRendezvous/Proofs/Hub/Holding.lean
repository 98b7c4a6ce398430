/-
# `Room.Held` — a room while somebody holds its turn

A turn is decided on a snapshot and taken later, and in between others may call
the hub.  `Room.Held p r r'` says what may have become of the room `r` by then:
while it is live and `p` takes no turn on it, it stays as it was, but that
somebody may have joined it.

So whoever names the next player from an old snapshot names one who is still
there.  Whoever names nobody, since nobody else was there, means the open slot;
and if that was taken meanwhile the turn is refused, not passed on to the
player who took it (`turn_on_old_snapshot_refused`).

* `Room.Step.held`: what a call leaves of a turn that is held;
* `stillHeld_of_since`: what a row of calls leaves of it;
* `peopled_of_reachable`: a live room has an open slot or a second player;
* `turn_on_old_snapshot`: when a turn is accepted that an old snapshot suggests.
-/
import TurnRendezvous.Proofs.Hub.Chronicle

namespace TurnRendezvous

/-- Whether a call is a turn of this player on this room. -/
def Hub.Action.isTurnOf (p : PlayerId) (id : MatchId) : Hub.Action → Bool
  | .takeTurn q i _ _ => decide (q = p ∧ i = id)
  | _ => false

namespace Room

/-! ## Rooms -/

/-- Somebody has taken the open slot. -/
def Joined (r r' : Room) : Prop :=
  r.openSlot = true ∧ r'.openSlot = false ∧ ∃ q, r'.participants = r.participants ++ [q]

/-- What becomes of a room while `p` holds its turn. -/
structure Held (p : PlayerId) (r r' : Room) : Prop where
  id : r'.id = r.id
  holder : r'.holder = some p
  data : r'.data = r.data
  version : r'.version = r.version
  party : (r'.participants = r.participants ∧ r'.openSlot = r.openSlot) ∨ r.Joined r'

theorem Held.refl {p : PlayerId} {r : Room} (h : r.holder = some p) : r.Held p r :=
  ⟨rfl, h, rfl, rfl, .inl ⟨rfl, rfl⟩⟩

/-- Nobody comes into a room that is held but through its open slot. -/
theorem Held.subset {p : PlayerId} {r r' : Room} (h : r.Held p r') :
    r.participants ⊆ r'.participants := by
  rcases h.party with ⟨hp, -⟩ | ⟨-, -, q, hp⟩
  · rw [hp]
    exact List.Subset.refl _
  · rw [hp]
    exact List.subset_append_left _ _

theorem Held.join {p q : PlayerId} {r r' : Room} (h : r.Held p r') (ho : r'.isOpen = true) :
    r.Held p (r'.join q) ∧ r.Joined (r'.join q) := by
  have hopen : r'.openSlot = true := (Bool.and_eq_true_iff.1 ho).1
  have hj : r.Joined (r'.join q) := by
    rcases h.party with ⟨hp, hs⟩ | ⟨-, hs, -⟩
    · exact ⟨hs ▸ hopen, rfl, q, by rw [← hp]; rfl⟩
    · exact absurd (hs.symm.trans hopen) Bool.false_ne_true
  exact ⟨⟨h.id, by simp [Room.join, h.holder], h.data, h.version, .inr hj⟩, hj⟩

/-- Every other call leaves the turn with its holder, if the room goes on. -/
theorem Step.held {p : PlayerId} {r r' r'' : Room} {a : Hub.Action} (hs : r'.Step a r'')
    (h : r.Held p r') (ha : a.isTurnOf p r.id = false) (hl : r''.status.isLive = true) :
    r.Held p r'' := by
  cases hs with
  | join ho => exact (h.join ho).1
  | turn _ hc =>
    have hp := Option.some.inj ((checkTurn_eq_ok_iff.1 hc).2.1.symm.trans h.holder)
    simp [Hub.Action.isTurnOf, hp, h.id] at ha
  | cancel => cases hl
  | dismiss => exact ⟨h.id, h.holder, h.data, h.version, h.party⟩
  | expire => cases hl

/-- What is over is not brought back to life. -/
theorem Step.isLive {r r' : Room} {a : Hub.Action} (hs : r.Step a r')
    (hl : r'.status.isLive = true) : r.status.isLive = true := by
  cases hs with
  | join ho => exact (Bool.and_eq_true_iff.1 ho).2
  | turn _ hc => exact (checkTurn_eq_ok_iff.1 hc).1
  | cancel => cases hl
  | dismiss => exact hl
  | expire => cases hl

/-- Whom a snapshot suggests as the next player. -/
theorem mem_of_opponent? {r : Room} {p q : PlayerId} (h : (r.snapshot p).opponent? = some q) :
    q ∈ r.participants ∧ q ≠ p := by
  have hq := List.find?_some h
  exact ⟨List.mem_of_find?_eq_some h, by simpa [snapshot] using hq⟩

theorem opponent?_eq_none_iff {r : Room} {p : PlayerId} :
    (r.snapshot p).opponent? = none ↔ ∀ q ∈ r.participants, q = p := by
  simp [Match.opponent?, snapshot]

/-- Whoever takes part and suggests nobody is alone. -/
theorem participants_eq_of_alone {r : Room} {p : PlayerId} (hr : r.Sound)
    (hp : p ∈ r.participants) (h : (r.snapshot p).opponent? = none) : r.participants = [p] := by
  have hall := opponent?_eq_none_iff.1 h
  have hn := hr.nodup
  cases hps : r.participants with
  | nil => simp [hps] at hp
  | cons q qs =>
    rw [hps] at hall hn
    obtain rfl := hall q List.mem_cons_self
    cases qs with
    | nil => rfl
    | cons s qs =>
      have hs := hall s (List.mem_cons_of_mem _ List.mem_cons_self)
      simp [hs] at hn

/-! ## Somebody to play with -/

/-- In a live room there is a second player, or place for one. -/
def Peopled (r : Room) : Prop :=
  r.status.isLive = true → r.openSlot = true ∨ 2 ≤ r.participants.length

/-- Whoever invites somebody else is not alone. -/
theorem two_le_length_party {p : PlayerId} {invitees : List PlayerId} (hne : invitees ≠ [])
    (hp : p ∉ invitees) : 2 ≤ (party p invitees).length := by
  cases invitees with
  | nil => exact absurd rfl hne
  | cons q qs =>
    have hq : p ≠ q := fun h => hp (h ▸ List.mem_cons_self)
    have hpre : [p, q] <+: party p (q :: qs) := by
      have hn : [p, q].Nodup := by simp [hq]
      have hq' : ¬ q = p := fun h => hq h.symm
      simpa [party, hq'] using (foldl_party qs hn).2
    exact hpre.length_le

theorem peopled_ofRequest {id : MatchId} {p : PlayerId} {c : MatchRequest}
    (hc : c.autoMatch = true ∨ c.invitees ≠ []) (hp : p ∉ c.invitees) :
    (ofRequest id p c).Peopled := by
  intro _
  rcases hc with hc | hc
  · exact .inl hc
  · exact .inr (two_le_length_party hc hp)

theorem Step.peopled {r r' : Room} {a : Hub.Action} (hs : r.Step a r') (hr : r.Sound)
    (hp : r.Peopled) : r'.Peopled := by
  intro hl
  have hold := hp (hs.isLive hl)
  cases hs with
  | @join _ q _ =>
    have hne : r.participants ≠ [] := by
      intro h
      have hc := hr.creator
      simp [h] at hc
    have hpos := List.length_pos_of_ne_nil hne
    right
    show 2 ≤ (r.participants ++ [q]).length
    rw [List.length_append, List.length_singleton]
    omega
  | turn => exact hold
  | cancel => cases hl
  | dismiss => exact hold
  | expire => cases hl

end Room

namespace Hub

theorem peopled_of_reachable {h : Hub} (hr : Reachable h) : ∀ r ∈ h.rooms, r.Peopled := by
  induction hr with
  | empty => exact List.forall_mem_nil _
  | @call h a hr _ ih =>
    have hs := reachable_sound hr
    intro q hq
    rcases mem_rooms_perform (tidy_eq hs) hq with hq | ⟨id, p, c, -, hp, rfl, hc⟩ | ⟨r, hm, hstep⟩
    · exact ih q hq
    · exact Room.peopled_ofRequest hc hp
    · exact hstep.peopled (hs.rooms r hm) (ih r hm)

/-! ## Rows of calls -/

/-- The hubs that calls lead to from `h`, if `p` takes no turn on the room `id`. -/
inductive Since (p : PlayerId) (id : MatchId) (h : Hub) : Hub → Prop
  | refl : Since p id h h
  | call {h' : Hub} {a : Action} :
      Since p id h h' → a.Fresh h' → a.isTurnOf p id = false → Since p id h (h'.perform a)

/-- A room that is there under a name that was used goes back to one before the call. -/
theorem step_of_mem {h : Hub} (hs : h.Sound) {a : Action} (ha : a.Fresh h) {q : Room}
    (hq : q ∈ (h.perform a).rooms) (hid : q.id ∈ h.created) :
    q ∈ h.rooms ∨ ∃ r ∈ h.rooms, r.Step a q := by
  rcases mem_rooms_perform (tidy_eq hs) hq with hq | ⟨id, p, c, rfl, -, rfl, -⟩ | hstep
  · exact .inl hq
  · exact absurd hid ha
  · exact .inr hstep

/-- The turn on a room that `p` held is held still, if the room is still live. -/
def StillHeld (p : PlayerId) (r : Room) (h : Hub) : Prop :=
  r.id ∈ h.created ∧
    ∀ r' ∈ h.rooms, r'.id = r.id → r'.status.isLive = true → r.Held p r'

theorem stillHeld_of_mem {p : PlayerId} {h : Hub} {r : Room} (hs : h.Sound) (hr : r ∈ h.rooms)
    (hp : r.holder = some p) : StillHeld p r h := by
  refine ⟨hs.created r hr, ?_⟩
  intro r' hr' hid _
  rw [eq_of_id_eq hs hr' hr hid]
  exact .refl hp

theorem stillHeld_perform {p : PlayerId} {h : Hub} {r : Room} {a : Action} (hs : h.Sound)
    (hf : a.Fresh h) (ha : a.isTurnOf p r.id = false) (hh : StillHeld p r h) :
    StillHeld p r (h.perform a) := by
  obtain ⟨hc, hh⟩ := hh
  refine ⟨created_subset_perform hs a hc, ?_⟩
  intro q hq hid hl
  rcases step_of_mem hs hf hq (hid ▸ hc) with hq | ⟨r', hr', hstep⟩
  · exact hh q hq hid hl
  · exact hstep.held (hh r' hr' (hstep.id_eq ▸ hid) (hstep.isLive hl)) ha hl

theorem sound_of_since {p : PlayerId} {id : MatchId} {h h' : Hub} (hs : h.Sound)
    (hrun : Since p id h h') : h'.Sound := by
  induction hrun with
  | refl => exact hs
  | call _ hf _ ih => exact sound_perform ih hf

/-- What calls leave of a turn that is held. -/
theorem stillHeld_of_since {p : PlayerId} {h h' : Hub} {r : Room} (hs : h.Sound)
    (hr : r ∈ h.rooms) (hp : r.holder = some p) (hrun : Since p r.id h h') : StillHeld p r h' := by
  induction hrun with
  | refl => exact stillHeld_of_mem hs hr hp
  | call hrun hf ha ih => exact stillHeld_perform (sound_of_since hs hrun) hf ha ih

/-- A player who was to move in a snapshot, has taken no turn since and still sees
the room alive can take the turn that the snapshot suggests: it goes to the player
named, or stays with the open slot.  Only if the player was alone, and so named
nobody, and has been joined since, the turn is refused and the hub stays as it is. -/
theorem turn_on_old_snapshot {p : PlayerId} {id : MatchId} {next : Option PlayerId}
    {h h' : Hub} {r r' : Room} (hr : Reachable h) (hv : h.visible? p id = some r)
    (hm : (r.snapshot p).isMyTurn = true) (hnext : (r.snapshot p).opponent? = next)
    (hrun : Since p id h h') (hv' : h'.visible? p id = some r') (hl : r'.status.isLive = true)
    (data : Bytes) :
    ((next = none → r'.openSlot = true) →
      h'.takeTurn p id data next =
        ((h'.put (r'.withTurn data next)).announce (r'.withTurn data next),
          .ok ((r'.withTurn data next).snapshot p))) ∧
    (next = none → r'.openSlot = false →
      (∃ q, r'.participants = [p, q]) ∧
        h'.takeTurn p id data next = (h', .error (Room.noOpenSlot id))) := by
  have hs := reachable_sound hr
  obtain ⟨hmem, rfl, hseen⟩ := mem_of_visible? hv
  obtain ⟨hmem', hid, -⟩ := mem_of_visible? hv'
  obtain ⟨hlive, hholder⟩ := Room.holder_of_isMyTurn hm
  have hheld := (stillHeld_of_since hs hmem hholder hrun).2 r' hmem' hid hl
  constructor
  · intro hslot
    have hc : r'.checkTurn p next = .ok () := by
      refine Room.checkTurn_eq_ok_iff.2 ⟨hl, hheld.holder, ?_⟩
      cases next with
      | none => exact .inr ⟨rfl, hslot rfl⟩
      | some q =>
        obtain ⟨hmem, hne⟩ := Room.mem_of_opponent? hnext
        exact .inl ⟨q, rfl, hne, hheld.subset hmem⟩
    simp only [takeTurn, hv', hc]
  · rintro rfl hslot
    have halone := Room.participants_eq_of_alone (hs.rooms r hmem)
      (Room.isSeenBy_iff.1 hseen).1 hnext
    have hopen : r.openSlot = true := by
      refine (peopled_of_reachable hr r hmem hlive).resolve_right ?_
      simp [halone]
    have hc : r'.checkTurn p none = .error (Room.noOpenSlot r.id) := by
      simp [Room.checkTurn, Room.checkNext, hl, hheld.holder, hslot, hid]
    refine ⟨?_, by simp only [takeTurn, hv', hc]⟩
    rcases hheld.party with ⟨-, hsame⟩ | ⟨-, -, q, hp⟩
    · exact absurd (hslot.symm.trans (hsame.trans hopen)) Bool.false_ne_true
    · exact ⟨q, by rw [hp, halone]; rfl⟩

/-- A turn for an invitee is accepted, though somebody has joined meanwhile. -/
theorem turn_on_old_snapshot_after_join :
    let h := [Action.create ⟨"a"⟩ ⟨"ann"⟩ ⟨[⟨"bob"⟩], true⟩].foldl perform {}
    let h' := h.perform (.create ⟨"b"⟩ ⟨"cy"⟩ .autoMatching)
    ∃ r r', Reachable h ∧ h.visible? ⟨"ann"⟩ ⟨"a"⟩ = some r ∧
      (r.snapshot ⟨"ann"⟩).isMyTurn = true ∧ (r.snapshot ⟨"ann"⟩).opponent? = some ⟨"bob"⟩ ∧
      Since ⟨"ann"⟩ ⟨"a"⟩ h h' ∧ h'.visible? ⟨"ann"⟩ ⟨"a"⟩ = some r' ∧
      r'.status.isLive = true ∧ r.Joined r' ∧
      ∃ m, (h'.takeTurn ⟨"ann"⟩ ⟨"a"⟩ [7] (some ⟨"bob"⟩)).2 = .ok m := by
  intro h h'
  have hr : Reachable h :=
    Reachable.empty.call (a := .create ⟨"a"⟩ ⟨"ann"⟩ ⟨[⟨"bob"⟩], true⟩) (by decide)
  have hrun : Since ⟨"ann"⟩ ⟨"a"⟩ h h' :=
    Since.refl.call (a := .create ⟨"b"⟩ ⟨"cy"⟩ .autoMatching) (by decide) rfl
  refine ⟨_, _, hr, rfl, rfl, rfl, hrun, rfl, rfl, ⟨rfl, rfl, _, rfl⟩, ?_⟩
  exact ⟨_, congrArg Prod.snd ((turn_on_old_snapshot hr rfl rfl rfl hrun rfl rfl [7]).1 nofun)⟩

/-- A turn for the open slot is refused once somebody has taken the slot, and not
passed on to whoever did. -/
theorem turn_on_old_snapshot_refused :
    let h := [Action.create ⟨"a"⟩ ⟨"ann"⟩ .autoMatching].foldl perform {}
    let h' := h.perform (.create ⟨"b"⟩ ⟨"bob"⟩ .autoMatching)
    ∃ r r', Reachable h ∧ h.visible? ⟨"ann"⟩ ⟨"a"⟩ = some r ∧
      (r.snapshot ⟨"ann"⟩).isMyTurn = true ∧ Since ⟨"ann"⟩ ⟨"a"⟩ h h' ∧
      h'.visible? ⟨"ann"⟩ ⟨"a"⟩ = some r' ∧ r'.status.isLive = true ∧
      (h'.takeTurn ⟨"ann"⟩ ⟨"a"⟩ [7] (r.snapshot ⟨"ann"⟩).opponent?).2 =
        .error (Room.noOpenSlot ⟨"a"⟩) := by
  intro h h'
  have hr : Reachable h :=
    Reachable.empty.call (a := .create ⟨"a"⟩ ⟨"ann"⟩ .autoMatching) (by decide)
  have hrun : Since ⟨"ann"⟩ ⟨"a"⟩ h h' :=
    Since.refl.call (a := .create ⟨"b"⟩ ⟨"bob"⟩ .autoMatching) (by decide) rfl
  exact ⟨_, _, hr, rfl, rfl, hrun, rfl, rfl, rfl⟩

end Hub

end TurnRendezvous
