/-
# `Hub.Later` — the hubs of a lobby

In a lobby every new room has the next name.  A hub in which that was always so is
`Regular`; it is reachable, and the next name is fresh there, so it stays regular
(`Later`).  Some things go on only as long as a player dismisses nothing (`Staying`).

Whoever asks for a room with whoever comes gets in every case a room to take part in: the
oldest open one, or a new one (`create_autoMatching`).
-/
import TurnRendezvous.Proofs.Hub.Answers
import TurnRendezvous.Proofs.Hub.Lost

namespace TurnRendezvous

namespace Hub

/-! ## Regular hubs -/

/-- A hub in which all rooms have got their names in order. -/
structure Regular (h : Hub) : Prop where
  reachable : Reachable h
  numbered : h.Numbered

/-- The hubs that calls lead to from `h` in which new rooms have the next name. -/
inductive Later (h : Hub) : Hub → Prop
  | refl : Later h h
  | call {h' : Hub} {a : Action} : Later h h' → a.Next h' → Later h (h'.perform a)

/-- The same, if `p` dismisses nothing. -/
inductive Staying (p : PlayerId) (h : Hub) : Hub → Prop
  | refl : Staying p h h
  | call {h' : Hub} {a : Action} :
      Staying p h h' → a.Next h' → (∀ id, a ≠ .dismiss p id) → Staying p h (h'.perform a)

section Later
variable {h h' : Hub} {p : PlayerId} {id : MatchId}

theorem regular_empty : Regular {} := ⟨.empty, by simp [Numbered]⟩

theorem Regular.perform (hr : h.Regular) {a : Action} (ha : a.Next h) : (h.perform a).Regular where
  reachable := hr.reachable.call (ha.fresh hr.numbered)
  numbered := numbered_perform (reachable_sound hr.reachable) hr.numbered ha

theorem Later.one {a : Action} (ha : a.Next h) : Later h (h.perform a) := .call .refl ha

theorem Staying.one {a : Action} (ha : a.Next h) (hd : ∀ id, a ≠ .dismiss p id) :
    Staying p h (h.perform a) := .call .refl ha hd

theorem Staying.later (hrun : Staying p h h') : Later h h' := by
  induction hrun with
  | refl => exact .refl
  | call _ ha _ ih => exact .call ih ha

theorem Regular.later (hr : h.Regular) (hrun : Later h h') : h'.Regular := by
  induction hrun with
  | refl => exact hr
  | call _ ha ih => exact ih.perform ha

theorem Later.onward (hrun : Later h h') (hr : h.Regular) : Onward h h' := by
  induction hrun with
  | refl => exact .refl
  | call hrun ha ih => exact .call ih (ha.fresh (hr.later hrun).numbered)

theorem Regular.sound (hr : h.Regular) : h.Sound := reachable_sound hr.reachable

theorem Regular.enrols (hr : h.Regular) (he : h.Enrols p id) (hrun : Later h h') :
    h'.Enrols p id :=
  enrols_of_onward hr.reachable he (hrun.onward hr)

theorem Regular.lost (hr : h.Regular) (he : h.Enrols p id) (hl : h.Lost p id)
    (hrun : Later h h') : h'.Lost p id :=
  lost_of_onward hr.reachable he hl (hrun.onward hr)

end Later

/-! ## Asking for a room with whoever comes -/

/-- The room that a player opens who asks for a match with whoever comes. -/
def newRoom (h : Hub) (p : PlayerId) : Room := .ofRequest h.nextId p .autoMatching

section Create
variable {h : Hub} (hs : h.Sound) (p : PlayerId)
include hs

/-- A player who asks for a match with whoever comes joins the oldest room that waits, or
opens one. -/
theorem create_autoMatching :
    (∃ r, h.joinable? p = some r ∧ h.create p .autoMatching =
        (((h.unqueue r.id).put (r.join p)).announce (r.join p), .ok ((r.join p).snapshot p))) ∨
      (h.joinable? p = none ∧ h.create p .autoMatching =
        ((h.add (h.newRoom p)).announce (h.newRoom p), .ok ((h.newRoom p).snapshot p))) := by
  unfold create newRoom
  rcases createAs_cases (tidy_eq hs) h.nextId p .autoMatching with
    ⟨hrefused, -⟩ | ⟨r, -, -, hj, heq⟩ | ⟨hj, -, -, heq⟩
  · simp [MatchRequest.autoMatching] at hrefused
  · exact .inl ⟨r, hj, heq⟩
  · exact .inr ⟨hj rfl rfl, heq⟩

/-- The room that the player is told of is there, and the player sees it. -/
theorem mem_rooms_create {m : Match} (hm : (h.create p .autoMatching).2 = .ok m) :
    ∃ r ∈ (h.create p .autoMatching).1.rooms, m = r.snapshot p ∧ r.isSeenBy p = true := by
  rcases create_autoMatching hs p with ⟨r, hj, heq⟩ | ⟨-, heq⟩
  · rw [heq] at hm ⊢
    obtain ⟨-, hroom, hout⟩ := joinable?_eq_some hj
    have hr := (mem_of_room? hroom).1
    refine ⟨r.join p, ?_, (Except.ok.inj hm).symm, Room.isSeenBy_join_self (hs.rooms r hr) hout⟩
    rw [rooms_announce]
    exact mem_rooms_of_put (h := h.unqueue r.id) hr rfl
  · rw [heq] at hm ⊢
    refine ⟨h.newRoom p, ?_, (Except.ok.inj hm).symm, Room.isSeenBy_ofRequest ..⟩
    rw [rooms_announce]
    exact List.mem_append_right _ (List.mem_singleton_self _)

end Create

end Hub

end TurnRendezvous
