/-
# `Hub.Bears` — what a room has for good

There are things that no step takes from a room again (`Room.Lasting`).  Once a room has
such a property, it has it for as long as it is there, since a name is not used twice; and
whatever players are shown of it from then on has been taken of a room like that.
`Hub.Bears` says this of a name in a hub.

The end of a room is of that kind: a room that is over is not opened, joined or played on
any more, so all that is left to change is who still sees it and how it is called over
(`Room.Remains`).  So is its absence, for which the property is one that no room has.
-/
import TurnRendezvous.Proofs.Hub.Answers
import TurnRendezvous.Proofs.Hub.Quitting

namespace TurnRendezvous

namespace Room

/-- No step takes such a property from a room. -/
def Lasting (P : Room → Prop) : Prop :=
  ∀ ⦃r r' : Room⦄ ⦃a : Hub.Action⦄, P r → r.Step a r' → P r'

/-- What is left, in `q`, of a room `r` that was over. -/
structure Remains (r q : Room) : Prop where
  ended : q.status.isLive = false
  holder : q.holder = none
  openSlot : q.openSlot = false
  data : q.data = r.data
  version : q.version = r.version
  participants : q.participants = r.participants
  creator : q.creator = r.creator

theorem remains_self {r : Room} (hr : r.Sound) (ho : r.status.isLive = false) : r.Remains r where
  ended := ho
  holder := (hr.ended ho).1
  openSlot := (hr.ended ho).2
  data := rfl
  version := rfl
  participants := rfl
  creator := rfl

/-- Nobody is to move in a room that is over. -/
theorem Remains.turn {r q : Room} (hq : r.Remains q) (p : PlayerId) :
    (q.snapshot p).isMyTurn = false ∧ (q.snapshot p).turn = .theirs := by
  simp [snapshot, Match.isMyTurn, hq.ended, hq.holder]

/-- A room that is over stays so, whatever is called. -/
theorem lasting_remains (r : Room) : Lasting r.Remains := by
  intro q q' a hq hstep
  -- to join, to move and to call off all need a room that goes on
  cases hstep with
  | join ho => exact absurd (hq.ended.symm.trans (Bool.and_eq_true_iff.1 ho).2) Bool.false_ne_true
  | turn _ hc => exact absurd (hq.ended.symm.trans (checkTurn_eq_ok_iff.1 hc).1) Bool.false_ne_true
  | cancel _ hl => exact absurd (hq.ended.symm.trans hl) Bool.false_ne_true
  | dismiss => exact { hq with }
  | expire => exact { hq with ended := rfl, holder := rfl, openSlot := rfl }

/-- There is no room that such a step could be made from. -/
theorem lasting_false : Lasting fun _ => False := fun _ _ _ h _ => h

end Room

namespace Hub

/-- The room was created, and for as long as it is there it has the property. -/
structure Bears (h : Hub) (id : MatchId) (P : Room → Prop) : Prop where
  created : id ∈ h.created
  rooms : ∀ q ∈ h.rooms, q.id = id → P q

section Bears
variable {h h' : Hub} {id : MatchId} {P : Room → Prop}

theorem bears_perform (hP : Room.Lasting P) (hs : h.Sound) {a : Action} (hf : a.Fresh h)
    (hb : h.Bears id P) : (h.perform a).Bears id P := by
  refine ⟨created_subset_perform hs a hb.created, ?_⟩
  rintro q hq rfl
  rcases step_of_mem hs hf hq hb.created with hq | ⟨r, hr, hstep⟩
  · exact hb.rooms q hq rfl
  · exact hP (hb.rooms r hr hstep.id_eq.symm) hstep

/-- What is shown of a room that has the property. -/
def ShownWith (P : Room → Prop) (id : MatchId) (p : PlayerId) (n : MatchNews) : Prop :=
  ∀ m, n = .received m → m.id = id → ∃ q, P q ∧ m = q.snapshot p

/-- What a call tells of a room that has the property afterwards shows that. -/
theorem adds_of_bears (hs : h.Sound) {a : Action} (hb : (h.perform a).Bears id P) :
    Adds (ShownWith P id) h (h.perform a) := by
  intro p
  obtain ⟨new, hsent, hnew⟩ := adds_perform (tidy_eq hs) a p
  refine ⟨new, hsent, ?_⟩
  rintro n hn m rfl hid
  cases hnew _ hn with
  | @shown q _ hq => exact ⟨q, hb.rooms q hq hid, rfl⟩

/-- Along a row of calls the room keeps its property, and all news of it shows that. -/
theorem bears_of_onward (hP : Room.Lasting P) (hr : h.Reachable) (hb : h.Bears id P)
    (hrun : Onward h h') : h'.Bears id P ∧ Adds (ShownWith P id) h h' := by
  induction hrun with
  | refl => exact ⟨hb, .of_feed_eq fun _ => rfl⟩
  | @call h' a hrun hf ih =>
    obtain ⟨hb', hadds⟩ := ih
    have hs := reachable_sound (reachable_of_onward hr hrun)
    have hnext := bears_perform hP hs hf hb'
    exact ⟨hnext, hadds.trans (adds_of_bears hs hnext)⟩

/-- What a player sees of the room shows its property. -/
theorem Bears.exists_of_snapshot (hb : h.Bears id P) {p : PlayerId} {m : Match}
    (hm : h.snapshot? id p = some m) : ∃ q, P q ∧ m = q.snapshot p := by
  obtain ⟨q, hv, rfl⟩ := Option.map_eq_some_iff.1 hm
  obtain ⟨hq, hid, -⟩ := mem_of_visible? hv
  exact ⟨q, hb.rooms q hq hid, rfl⟩

/-- No call is answered with a match of a room that is over or gone. -/
theorem Bears.id_ne_of_answer (hb : h.Bears id P) (ho : h.Over id) (hs : h.Sound) {a : Action}
    (hf : a.Fresh h) {m : Match} (hm : h.answer a = .ok (some m)) : m.id ≠ id := by
  rintro rfl
  rcases source_of_answer (tidy_eq hs) hm with ⟨p, c, rfl⟩ | ⟨q, hq, hid, hlive⟩
  · exact hf hb.created
  · exact Bool.eq_false_iff.1 (ho q hq hid) hlive

/-- There are no turns in a room that is over. -/
theorem Over.takeTurn (ho : h.Over id) (p : PlayerId) (data : Bytes) (next : Option PlayerId) :
    ∃ e, h.takeTurn p id data next = (h, .error e) := by
  refine (takeTurn_cases h p id data next).resolve_right ?_
  rintro ⟨r, hv, hc, -⟩
  obtain ⟨hr, hid, -⟩ := mem_of_visible? hv
  exact Bool.eq_false_iff.1 (ho r hr hid) (Room.checkTurn_eq_ok_iff.1 hc).1

/-- Nor is it called off. -/
theorem Over.cancel (ho : h.Over id) (p : PlayerId) : ∃ e, h.cancel p id = (h, .error e) := by
  refine (cancel_cases h p id).resolve_right ?_
  rintro ⟨r, hv, hl, -⟩
  obtain ⟨hr, hid, -⟩ := mem_of_visible? hv
  exact Bool.eq_false_iff.1 (ho r hr hid) hl

end Bears

/-! ## Rooms that are over -/

/-- What players have been told of the room since `h`. -/
def toldSince (h h' : Hub) (p : PlayerId) : List MatchNews :=
  (h'.feed p).sent.drop (h.feed p).sent.length

/-- The room `r` was over in `h`, and so it is in `h'`. -/
structure Settled (r : Room) (h h' : Hub) : Prop where
  remains : ∀ q ∈ h'.rooms, q.id = r.id → r.Remains q
  /-- It does not wait for anybody. -/
  queue : r.id ∉ h'.openIds
  /-- Nobody joins it, and nobody is let into it in any other way. -/
  answers : ∀ a m, a.Fresh h' → h'.answer a = .ok (some m) → m.id ≠ r.id
  seen : ∀ p m, h'.snapshot? r.id p = some m → m.isMyTurn = false ∧ m.turn = .theirs
  told : ∀ p m, .received m ∈ toldSince h h' p → m.id = r.id →
    m.isMyTurn = false ∧ m.turn = .theirs
  takeTurn : ∀ p data next, ∃ e, h'.takeTurn p r.id data next = (h', .error e)
  cancel : ∀ p, ∃ e, h'.cancel p r.id = (h', .error e)

/-- The room of the name was gone after `h`, and so it is in `h'`. -/
structure Vanished (id : MatchId) (h h' : Hub) : Prop where
  seen : ∀ p, h'.snapshot? id p = none
  told : ∀ p m, .received m ∈ toldSince h h' p → m.id ≠ id
  answers : ∀ a m, a.Fresh h' → h'.answer a = .ok (some m) → m.id ≠ id

section Ends
variable {h h' : Hub} {r : Room} {p : PlayerId}

theorem Adds.mem_toldSince {N : PlayerId → MatchNews → Prop} (ha : Adds N h h') {n : MatchNews}
    (hn : n ∈ toldSince h h' p) : N p n := by
  rcases ha.mem_drop hn with hn | hn
  · rw [List.drop_length] at hn
    cases hn
  · exact hn

theorem settled_of_onward (hr : h.Reachable) (hm : r ∈ h.rooms) (ho : r.status.isLive = false)
    (hrun : Onward h h') : Settled r h h' := by
  have hs := reachable_sound hr
  have hs' := reachable_sound (reachable_of_onward hr hrun)
  have hbears : h.Bears r.id r.Remains := by
    refine ⟨hs.created r hm, ?_⟩
    intro q hq hid
    rw [eq_of_id_eq hs hq hm hid]
    exact Room.remains_self (hs.rooms r hm) ho
  obtain ⟨hb, hadds⟩ := bears_of_onward (Room.lasting_remains r) hr hbears hrun
  have hover : h'.Over r.id := fun q hq hid => (hb.rooms q hq hid).ended
  refine
    { remains := hb.rooms
      queue := hover.not_mem_openIds hs'
      answers := fun a m hf => hb.id_ne_of_answer hover hs' hf
      seen := ?_, told := ?_
      takeTurn := hover.takeTurn
      cancel := hover.cancel }
  · intro p m hm
    obtain ⟨q, hq, rfl⟩ := hb.exists_of_snapshot hm
    exact hq.turn p
  · intro p m hm hid
    obtain ⟨q, hq, rfl⟩ := hadds.mem_toldSince hm m rfl hid
    exact hq.turn p

theorem vanished_of_onward {a : Action} (hr : h.Reachable) (hf : a.Fresh h) {id : MatchId}
    (hc : id ∈ h.created) (hgone : ∀ q ∈ (h.perform a).rooms, q.id ≠ id)
    (hrun : Onward (h.perform a) h') : Vanished id h h' := by
  have hs := reachable_sound hr
  have hnext : (h.perform a).Bears id fun _ => False := ⟨created_subset_perform hs a hc, hgone⟩
  obtain ⟨hb, hadds⟩ := bears_of_onward Room.lasting_false (hr.call hf) hnext hrun
  refine { seen := ?_, told := ?_, answers := ?_ }
  · intro p
    refine Option.eq_none_iff_forall_not_mem.2 fun m hm => ?_
    obtain ⟨-, hnone, -⟩ := hb.exists_of_snapshot hm
    exact hnone
  · intro p m hm hid
    obtain ⟨-, hnone, -⟩ := ((adds_of_bears hs hnext).trans hadds).mem_toldSince hm m rfl hid
    exact hnone
  · have hs' := reachable_sound (reachable_of_onward (hr.call hf) hrun)
    have hover : h'.Over id := fun q hq hid => absurd hid (hb.rooms q hq)
    exact fun a m hf => hb.id_ne_of_answer hover hs' hf

/-- A room that was deleted is not there. -/
theorem id_ne_of_mem_remove (hroom : h.room? r.id = some r) :
    ∀ q ∈ (h.remove r.id).1.rooms, q.id ≠ r.id := by
  intro q hq
  simp only [remove, hroom, rooms_announceRemoval, unqueue, drop] at hq
  simpa using (List.mem_filter.1 hq).2

/-- Nor is one that the last player who saw it has turned away from. -/
theorem id_ne_of_mem_dismiss (hs : h.Sound) (hm : r ∈ h.rooms) (hlast : r.viewers = [p]) :
    ∀ q ∈ (h.dismiss p r.id).1.rooms, q.id ≠ r.id := by
  have hseen : r.isSeenBy p = true := Room.mem_viewers_iff.1 (hlast ▸ List.mem_singleton_self p)
  have hv := (visible?_eq_some_iff hs).2 ⟨hm, rfl, hseen⟩
  have hd : (r.dismiss p).isDeserted = true := by
    refine List.all_eq_true.2 fun q hq => List.contains_iff_mem.2 ?_
    by_cases hleft : q ∈ r.dismissed
    · exact List.mem_append_left _ hleft
    · have hq : q ∈ r.viewers := Room.mem_viewers_iff.2 (Room.isSeenBy_iff.2 ⟨hq, hleft⟩)
      exact List.mem_append_right _ (hlast ▸ hq)
  intro q hq
  simp only [dismiss, hv, hd, if_true, unqueue, drop] at hq
  simpa using (List.mem_filter.1 hq).2

end Ends

/-- A room that is over stays over: it is what it was, but for those who still see it,
nobody is to move or is let into it, and whoever plays on it or calls it off is refused.
And a room that was deleted, or that the last player who saw it has turned away from, is
not shown to anybody again. -/
theorem ended_rooms_stay_ended {h : Hub} (hr : h.Reachable) {r : Room} (hm : r ∈ h.rooms) :
    (r.status.isLive = false → ∀ h', Onward h h' → Settled r h h') ∧
      ∀ a : Action, (a = .remove r.id ∨ ∃ p, a = .dismiss p r.id ∧ r.viewers = [p]) →
        ∀ h', Onward (h.perform a) h' → Vanished r.id h h' := by
  have hs := reachable_sound hr
  refine ⟨fun ho h' => settled_of_onward hr hm ho, ?_⟩
  rintro a (rfl | ⟨p, rfl, hlast⟩) h' hrun
  · have hgone := id_ne_of_mem_remove ((room?_eq_some_iff hs).2 ⟨hm, rfl⟩)
    exact vanished_of_onward (a := .remove r.id) hr trivial (hs.created r hm) hgone hrun
  · have hgone := id_ne_of_mem_dismiss hs hm hlast
    exact vanished_of_onward (a := .dismiss p r.id) hr trivial (hs.created r hm) hgone hrun

/-- A match is called off and runs out of time all the same, Bob turns away from it, and
Cy finds nobody to play with; then Ann turns away from it, too. -/
theorem ended_rooms_stay_ended_after_a_cancelled_search :
    let h := [Action.create ⟨"a"⟩ ⟨"ann"⟩ ⟨[⟨"bob"⟩], true⟩, .subscribe ⟨"ann"⟩,
      .cancel ⟨"ann"⟩ ⟨"a"⟩].foldl perform {}
    let h' := [Action.expire ⟨"a"⟩, .create ⟨"b"⟩ ⟨"cy"⟩ .autoMatching,
      .dismiss ⟨"bob"⟩ ⟨"a"⟩].foldl perform h
    let r : Room := (Room.ofRequest ⟨"a"⟩ ⟨"ann"⟩ ⟨[⟨"bob"⟩], true⟩).ended .cancelled
    let r' : Room := (r.ended .expired).dismiss ⟨"bob"⟩
    let left := h'.perform (.dismiss ⟨"ann"⟩ ⟨"a"⟩)
    r ∈ h.rooms ∧ r.status.isLive = false ∧ (toldSince h h' ⟨"ann"⟩).length = 1 ∧ Settled r h h' ∧
      r' ∈ h'.rooms ∧ r'.viewers = [⟨"ann"⟩] ∧ Vanished r'.id h' left := by
  intro h h' r r' left
  have hstart := Reachable.empty.call (a := .create ⟨"a"⟩ ⟨"ann"⟩ ⟨[⟨"bob"⟩], true⟩) (by decide)
  have hr : Reachable h :=
    (hstart.call (a := .subscribe ⟨"ann"⟩) trivial).call (a := .cancel ⟨"ann"⟩ ⟨"a"⟩) trivial
  have hexpired := (Onward.refl (h := h)).call (a := .expire ⟨"a"⟩) trivial
  have hsought := hexpired.call (a := .create ⟨"b"⟩ ⟨"cy"⟩ .autoMatching) (by decide)
  have hrun : Onward h h' := hsought.call (a := .dismiss ⟨"bob"⟩ ⟨"a"⟩) trivial
  have hm : r ∈ h.rooms := by decide
  have hm' : r' ∈ h'.rooms := by decide
  have hlast : r'.viewers = [⟨"ann"⟩] := by decide
  have hr' := reachable_of_onward hr hrun
  exact ⟨hm, rfl, by decide, (ended_rooms_stay_ended hr hm).1 rfl h' hrun, hm', hlast,
    (ended_rooms_stay_ended hr' hm').2 _ (.inr ⟨_, rfl, hlast⟩) left .refl⟩

end Hub

end TurnRendezvous
