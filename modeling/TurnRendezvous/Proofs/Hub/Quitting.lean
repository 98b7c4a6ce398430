/-
# `Hub.Gone` — rooms that a player has given up

To give a room up is to cancel it and then to turn away from it.  Either call may find
the room over or removed already.  But as long as the player has not turned away from
it, the first one leaves the room over, if it is there at all, and the second one hides
it from the player.

* `over_of_cancel`, `gone_of_dismiss`: so in the end the room is gone;
* `gone_perform`: whatever is called after that, it stays so;
* `Regular.exists_create`: and whoever asks for a room with whoever comes gets another one.
-/
import TurnRendezvous.Proofs.Hub.Later

namespace TurnRendezvous

/-- A room is hidden from a player by the player's own dismissal only. -/
theorem Room.Step.isSeenBy {r r' : Room} {a : Hub.Action} (hs : r.Step a r') {p : PlayerId}
    (ha : a ≠ .dismiss p r.id) (hp : r.isSeenBy p = true) : r'.isSeenBy p = true := by
  cases hs with
  | join => exact Hub.isSeenBy_join hp
  | @dismiss q =>
    have hq : p ≠ q := fun h => ha (h ▸ rfl)
    obtain ⟨hmem, hd⟩ := Room.isSeenBy_iff.1 hp
    refine Room.isSeenBy_iff.2 ⟨hmem, ?_⟩
    simp [Room.dismiss, hd, hq]
  | _ => exact hp

namespace Hub

/-- The room was created, and for as long as it is there the player sees it. -/
structure Sees (h : Hub) (p : PlayerId) (id : MatchId) : Prop where
  created : id ∈ h.created
  seen : ∀ r ∈ h.rooms, r.id = id → r.isSeenBy p = true

/-- The room is over, if it is there at all. -/
def Over (h : Hub) (id : MatchId) : Prop := ∀ r ∈ h.rooms, r.id = id → r.status.isLive = false

/-- The room was created and is over, and the player has turned away from it. -/
structure Gone (h : Hub) (p : PlayerId) (id : MatchId) : Prop where
  created : id ∈ h.created
  ended : h.Over id
  left : ∀ r ∈ h.rooms, r.id = id → p ∈ r.dismissed

section Gone
variable {h h' : Hub} {p : PlayerId} {id : MatchId}

theorem Sees.enrols (hp : h.Sees p id) : h.Enrols p id :=
  ⟨hp.created, fun r hr hid => (Room.isSeenBy_iff.1 (hp.seen r hr hid)).1⟩

/-- The room of a name that a player sees is visible to the player, if there is one. -/
theorem Sees.visible? (hs : h.Sound) (hp : h.Sees p id) {r : Room} (hr : r ∈ h.rooms)
    (hid : r.id = id) : h.visible? p id = some r :=
  (visible?_eq_some_iff hs).2 ⟨hr, hid, hp.seen r hr hid⟩

theorem Gone.enrols (hs : h.Sound) (hp : h.Gone p id) : h.Enrols p id :=
  ⟨hp.created, fun r hr hid => (hs.rooms r hr).dismissed p (hp.left r hr hid)⟩

theorem Gone.visible? (hp : h.Gone p id) : h.visible? p id = none := by
  refine Option.eq_none_iff_forall_not_mem.2 fun r hr => ?_
  obtain ⟨hmem, hid, hseen⟩ := mem_of_visible? hr
  exact (Room.isSeenBy_iff.1 hseen).2 (hp.left r hmem hid)

theorem Over.not_mem_openIds (hs : h.Sound) (ho : h.Over id) : id ∉ h.openIds := by
  intro hid
  obtain ⟨r, hr, rfl, hopen⟩ := (mem_openIds_iff hs).1 hid
  rw [((hs.rooms r hr).ended (ho r hr rfl)).2] at hopen
  cases hopen

/-! ## What calls keep -/

theorem sees_perform (hs : h.Sound) {a : Action} (hf : a.Fresh h) (ha : a ≠ .dismiss p id)
    (hp : h.Sees p id) : (h.perform a).Sees p id := by
  refine ⟨created_subset_perform hs a hp.created, ?_⟩
  rintro q hq rfl
  rcases step_of_mem hs hf hq hp.created with hq | ⟨r, hr, hstep⟩
  · exact hp.seen q hq rfl
  · exact hstep.isSeenBy (hstep.id_eq ▸ ha) (hp.seen r hr hstep.id_eq.symm)

theorem over_perform (hs : h.Sound) {a : Action} (hf : a.Fresh h) (hc : id ∈ h.created)
    (ho : h.Over id) : (h.perform a).Over id := by
  rintro q hq rfl
  rcases step_of_mem hs hf hq hc with hq | ⟨r, hr, hstep⟩
  · exact ho q hq rfl
  · exact Bool.eq_false_iff.2 fun hlive =>
      Bool.eq_false_iff.1 (ho r hr hstep.id_eq.symm) (hstep.isLive hlive)

theorem gone_perform (hs : h.Sound) {a : Action} (hf : a.Fresh h) (hp : h.Gone p id) :
    (h.perform a).Gone p id := by
  refine ⟨created_subset_perform hs a hp.created, over_perform hs hf hp.created hp.ended, ?_⟩
  rintro q hq rfl
  rcases step_of_mem hs hf hq hp.created with hq | ⟨r, hr, hstep⟩
  · exact hp.left q hq rfl
  · exact hstep.mem_dismissed (hp.left r hr hstep.id_eq.symm)

/-! ## Giving a room up -/

/-- Whoever cancels a room that is not hidden leaves it over. -/
theorem over_of_cancel (hs : h.Sound) (hp : h.Sees p id) : (h.cancel p id).1.Over id := by
  have hs' : (h.cancel p id).1.Sound := sound_perform hs (a := .cancel p id) trivial
  rintro q hq rfl
  unfold cancel at hq hs'
  cases hv : h.visible? p q.id with
  | none =>
    simp only [hv] at hq
    rw [hp.visible? hs hq rfl] at hv
    cases hv
  | some r =>
    obtain ⟨hr, hid, -⟩ := mem_of_visible? hv
    simp only [hv] at hq hs'
    split at hq
    next hlive =>
      rw [if_pos hlive] at hs'
      have hended : r.ended .cancelled ∈ (h.endRoom r .cancelled).rooms := by
        rw [endRoom, rooms_announce]
        exact mem_rooms_of_put hr rfl
      rw [eq_of_id_eq hs' hq hended hid.symm]
      rfl
    next hdead =>
      rw [eq_of_id_eq hs hq hr hid.symm]
      exact Bool.eq_false_iff.2 hdead

/-- Whoever turns away from it then has done with it. -/
theorem gone_of_dismiss (hs : h.Sound) (hp : h.Sees p id) (ho : h.Over id) :
    (h.dismiss p id).1.Gone p id := by
  have hf : Action.Fresh h (.dismiss p id) := trivial
  have hs' : (h.dismiss p id).1.Sound := sound_perform hs hf
  refine ⟨created_subset_perform hs (.dismiss p id) hp.created,
    over_perform hs hf hp.created ho, ?_⟩
  rintro q hq rfl
  unfold dismiss at hq hs'
  cases hv : h.visible? p q.id with
  | none =>
    simp only [hv] at hq
    rw [hp.visible? hs hq rfl] at hv
    cases hv
  | some r =>
    obtain ⟨hr, hid, -⟩ := mem_of_visible? hv
    simp only [hv] at hq hs'
    split at hq
    · have hne : q.id ≠ q.id := by simpa [unqueue, drop] using (List.mem_filter.1 hq).2
      exact absurd rfl hne
    next hkept =>
      rw [if_neg hkept] at hs'
      have hleft : r.dismiss p ∈ ((h.put (r.dismiss p)).send p (.removed q.id)).rooms :=
        mem_rooms_of_put hr rfl
      rw [eq_of_id_eq hs' hq hleft hid.symm]
      exact List.mem_append_right _ List.mem_cons_self

/-! ## Rows of calls -/

theorem Regular.sees (hr : h.Regular) (hp : h.Sees p id) (hrun : Staying p h h') :
    h'.Sees p id := by
  induction hrun with
  | refl => exact hp
  | call hrun ha hd ih =>
    have hr' := hr.later hrun.later
    exact sees_perform hr'.sound (ha.fresh hr'.numbered) (hd _) ih

theorem Regular.over (hr : h.Regular) (hc : id ∈ h.created) (ho : h.Over id)
    (hrun : Later h h') : id ∈ h'.created ∧ h'.Over id := by
  induction hrun with
  | refl => exact ⟨hc, ho⟩
  | call hrun ha ih =>
    have hr' := hr.later hrun
    obtain ⟨hc', ho'⟩ := ih
    exact ⟨created_subset_perform hr'.sound _ hc',
      over_perform hr'.sound (ha.fresh hr'.numbered) hc' ho'⟩

theorem Regular.gone (hr : h.Regular) (hp : h.Gone p id) (hrun : Later h h') : h'.Gone p id := by
  induction hrun with
  | refl => exact hp
  | call hrun ha ih =>
    have hr' := hr.later hrun
    exact gone_perform hr'.sound (ha.fresh hr'.numbered) ih

/-! ## Asking for another room -/

/-- Whoever asks for a room with whoever comes gets one, and sees it; and it is not one that
the player has taken part in before. -/
theorem Regular.exists_create (hr : h.Regular) (p : PlayerId) :
    ∃ m, (h.create p .autoMatching).2 = .ok m ∧ (h.create p .autoMatching).1.Sees p m.id ∧
      ∀ id, h.Enrols p id → m.id ≠ id := by
  have hs := hr.sound
  have hs' : (h.create p .autoMatching).1.Sound :=
    (hr.perform (a := .create h.nextId p .autoMatching) rfl).sound
  have sees {m : Match} (hm : (h.create p .autoMatching).2 = .ok m) :
      (h.create p .autoMatching).1.Sees p m.id := by
    obtain ⟨r, hmem, rfl, hseen⟩ := mem_rooms_create hs p hm
    refine ⟨hs'.created r hmem, fun q hq hid => ?_⟩
    rw [eq_of_id_eq hs' hq hmem hid]
    exact hseen
  rcases create_autoMatching hs p with ⟨r, hj, heq⟩ | ⟨-, heq⟩
  · refine ⟨(r.join p).snapshot p, by rw [heq], sees (by rw [heq]), ?_⟩
    rintro id he rfl
    -- nobody joins a room twice
    obtain ⟨-, hroom, hout⟩ := joinable?_eq_some hj
    simp [Room.includes, he.takesPart r (mem_of_room? hroom).1 rfl] at hout
  · refine ⟨(h.newRoom p).snapshot p, by rw [heq], sees (by rw [heq]), ?_⟩
    rintro id he rfl
    -- the name of a new room is new
    exact nextId_fresh hr.numbered he.created

end Gone

end Hub

end TurnRendezvous
