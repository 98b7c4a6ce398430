/-
# `Hub.Elsewhere` — what goes on in other rooms

Whoever follows one room wants to forget all others.  A call that names another room,
or none, leaves a room without an open slot as it is and has nobody told of it
(`Hub.Spares`): the only calls that find their room by themselves are requests for a
match, and what they find has an open slot or is new.

* `spares_perform`, `spares_of_elsewhere`: one such call, and a row of them;
* `notClosed_of_reachable`, `capacity_of_reachable`: what all feeds have in common;
* `named_of_reachable`: all news is about rooms that were created.
-/
import TurnRendezvous.Proofs.Hub.View

namespace TurnRendezvous

namespace Hub

/-! ## Calls about other rooms -/

/-- Whether a call names the room. -/
def Action.names (id : MatchId) : Action → Bool
  | .subscribe _ | .create .. => false
  | .takeTurn _ i _ _ | .cancel _ i | .dismiss _ i | .expire i | .remove i => decide (i = id)

/-- From `h` to `h'` the room stays as it is, and nobody is told anything of it. -/
structure Spares (id : MatchId) (h h' : Hub) : Prop where
  room : h'.room? id = h.room? id
  news : Adds (fun _ n => n.matchId ≠ id) h h'

section Spares
variable {id : MatchId} {h h' : Hub} {r : Room}

theorem Spares.trans {h'' : Hub} (h₁ : Spares id h h') (h₂ : Spares id h' h'') : Spares id h h'' :=
  ⟨h₂.room.trans h₁.room, h₁.news.trans h₂.news⟩

/-- Nobody is told anything at all. -/
theorem Spares.of_quiet (hr : h'.room? id = h.room? id) (hf : ∀ p, h'.feed p = h.feed p) :
    Spares id h h' :=
  ⟨hr, .of_feed_eq hf⟩

theorem spares_unqueue (h : Hub) (id i : MatchId) : Spares id h (h.unqueue i) :=
  .of_quiet rfl fun _ => rfl

theorem spares_put (h : Hub) (hr : r.id ≠ id) : Spares id h (h.put r) := by
  refine .of_quiet ?_ fun _ => rfl
  rw [room?_put]
  cases hq : h.room? id with
  | none => rfl
  | some q => simp [(mem_of_room? hq).2, hr.symm]

theorem spares_add (h : Hub) (hr : r.id ≠ id) : Spares id h (h.add r) := by
  refine .of_quiet ?_ fun _ => rfl
  rw [room?_add, if_neg hr, Option.or_none]

theorem spares_drop (h : Hub) {i : MatchId} (hi : i ≠ id) : Spares id h (h.drop i) :=
  .of_quiet (room?_drop_of_ne h hi.symm) fun _ => rfl

theorem spares_send (h : Hub) (p : PlayerId) (news : MatchNews) (hn : news.matchId ≠ id) :
    Spares id h (h.send p news) :=
  ⟨rfl, adds_send hn⟩

theorem spares_announce (h : Hub) (hr : r.id ≠ id) : Spares id h (h.announce r) :=
  ⟨by simp only [room?, rooms_announce], adds_announce fun _ _ => hr⟩

theorem spares_announceRemoval (h : Hub) (hr : r.id ≠ id) : Spares id h (h.announceRemoval r) :=
  ⟨by simp only [room?, rooms_announceRemoval], adds_announceRemoval fun _ _ => hr⟩

theorem spares_endRoom (h : Hub) (hr : r.id ≠ id) (status : Status) :
    Spares id h (h.endRoom r status) := by
  have put := spares_put h (r := r.ended status) hr
  have unqueued := put.trans (spares_unqueue _ id r.id)
  exact unqueued.trans (spares_announce _ (r := r.ended status) hr)

theorem spares_outcome {a : Action} (ht : h.tidy = h) (hf : a.Fresh h) (ha : a.names id = false)
    (hid : id ∈ h.created) (hslot : ∀ r, h.room? id = some r → r.openSlot = false)
    (ho : Outcome h a h') : Spares id h h' := by
  have other {i : MatchId} (hi : decide (i = id) = false) : i ≠ id := by simpa using hi
  cases ho with
  | refused => exact .of_quiet rfl fun _ => rfl
  | listening =>
    exact .of_quiet (by simp only [room?, rooms_subscribe]) fun _ => feed_subscribe _ _ _
  | @joined _ q _ r _ _ hj =>
    have hroom := (joinable?_eq_some hj).2.1
    have hopen := (Bool.and_eq_true_iff.1 (isOpen_of_joinable? ht hj)).1
    have hr : r.id ≠ id := by
      rintro rfl
      exact absurd ((hslot r hroom).symm.trans hopen) Bool.false_ne_true
    have put := (spares_unqueue h id r.id).trans (spares_put _ (r := r.join q) hr)
    exact put.trans (spares_announce _ (r := r.join q) hr)
  | @opened i q c =>
    have hr : i ≠ id := by
      rintro rfl
      exact hf hid
    exact (spares_add h (r := .ofRequest i q c) hr).trans
      (spares_announce _ (r := .ofRequest i q c) hr)
  | @turned q r data next =>
    have hr := other ha
    exact (spares_put h (r := r.withTurn data next) hr).trans
      (spares_announce _ (r := r.withTurn data next) hr)
  | cancelled => exact spares_endRoom h (other ha) _
  | @dismissed q r =>
    have hr := other ha
    exact (spares_put h (r := r.dismiss q) hr).trans (spares_send _ q (.removed r.id) hr)
  | @deserted q r =>
    have hr := other ha
    have told := (spares_put h (r := r.dismiss q) hr).trans
      (spares_send _ q (.removed r.id) hr)
    exact (told.trans (spares_drop _ hr)).trans (spares_unqueue _ id r.id)
  | expired => exact spares_endRoom h (other ha) _
  | @removed r =>
    have hr := other ha
    exact ((spares_drop h hr).trans (spares_unqueue _ id r.id)).trans (spares_announceRemoval _ hr)

/-- A call about another room spares this one. -/
theorem spares_perform (hs : h.Sound) {a : Action} (hf : a.Fresh h) (ha : a.names id = false)
    (hid : id ∈ h.created) (hslot : ∀ r, h.room? id = some r → r.openSlot = false) :
    Spares id h (h.perform a) :=
  spares_outcome (tidy_eq hs) hf ha hid hslot (outcome_perform (tidy_eq hs) a)

end Spares

/-! ## Rows of calls -/

/-- The hubs that calls about other rooms lead to from `h`. -/
inductive Elsewhere (id : MatchId) (h : Hub) : Hub → Prop
  | refl : Elsewhere id h h
  | call {h' : Hub} {a : Action} :
      Elsewhere id h h' → a.Fresh h' → a.names id = false → Elsewhere id h (h'.perform a)

section Elsewhere
variable {id : MatchId} {h h' : Hub}

/-- A row of calls about other rooms, none of which asks for a match. -/
theorem elsewhere_foldl {as : List Action} (ha : ∀ a ∈ as, a.names id = false)
    (hf : ∀ h, ∀ a ∈ as, a.Fresh h) : Elsewhere id h (as.foldl perform h) := by
  suffices hall : ∀ {h'}, Elsewhere id h h' → Elsewhere id h (as.foldl perform h') from hall .refl
  induction as with
  | nil => exact fun hrun => hrun
  | cons a as ih =>
    intro h' hrun
    obtain ⟨ha, has⟩ := List.forall_mem_cons.1 ha
    exact ih has (fun h b hb => hf h b (List.mem_cons_of_mem _ hb))
      (hrun.call (hf h' a List.mem_cons_self) ha)

theorem reachable_of_elsewhere (hr : Reachable h) (hrun : Elsewhere id h h') : Reachable h' := by
  induction hrun with
  | refl => exact hr
  | call _ hf _ ih => exact ih.call hf

/-- Calls about other rooms spare this one. -/
theorem spares_of_elsewhere (hr : Reachable h) (hid : id ∈ h.created)
    (hslot : ∀ r, h.room? id = some r → r.openSlot = false) (hrun : Elsewhere id h h') :
    id ∈ h'.created ∧ Spares id h h' := by
  induction hrun with
  | refl => exact ⟨hid, .of_quiet rfl fun _ => rfl⟩
  | call hrun hf ha ih =>
    obtain ⟨hid', hspares⟩ := ih
    have hs := reachable_sound (reachable_of_elsewhere hr hrun)
    refine ⟨created_subset_perform hs _ hid', hspares.trans ?_⟩
    exact spares_perform hs hf ha hid' fun r hr => hslot r (hspares.room.symm.trans hr)

/-- A listener goes on listening. -/
theorem listens_of_elsewhere (hr : Reachable h) {p : PlayerId} (hl : h.Listens p)
    (hrun : Elsewhere id h h') : h'.Listens p := by
  induction hrun with
  | refl => exact hl
  | call hrun hf _ ih =>
    obtain ⟨_, hnew⟩ := informs_perform (reachable_sound (reachable_of_elsewhere hr hrun)) hf ih
    exact hnew.listens

end Elsewhere

/-! ## Feeds -/

section Feeds
variable {h : Hub} {p : PlayerId}

/-- What a message leaves alone in every feed, no call changes. -/
theorem get_feed_perform {β : Type} (get : Feed MatchNews → β)
    (hget : ∀ f news, get (f.send news) = get f) (ht : h.tidy = h) (a : Action) :
    get ((h.perform a).feed p) = get (h.feed p) := by
  have sent (h : Hub) (q : PlayerId) (news : MatchNews) :
      get ((h.send q news).feed p) = get (h.feed p) := by
    rw [feed_send]
    split
    · exact hget _ _
    · rfl
  have announced (h : Hub) (r : Room) : get ((h.announce r).feed p) = get (h.feed p) :=
    foldl_send_eq (fun h => get (h.feed p)) _ (fun h q => sent h q _) _ h
  have ho := outcome_perform ht a
  generalize h.perform a = h' at ho
  cases ho with
  | refused => rfl
  | listening => rw [feed_subscribe]
  | joined => exact announced _ _
  | opened => exact announced _ _
  | turned => exact announced _ _
  | cancelled => exact announced _ _
  | dismissed => exact sent _ _ _
  | deserted => exact sent _ _ _
  | expired => exact announced _ _
  | removed =>
    exact foldl_send_eq (fun h => get (h.feed p)) (fun _ => .removed _) (fun h q => sent h q _) _ _

theorem notClosed_of_reachable (hr : Reachable h) : (h.feed p).closed = false := by
  induction hr with
  | empty => rfl
  | call hr _ ih =>
    exact (get_feed_perform Feed.closed Feed.closed_send (tidy_eq (reachable_sound hr)) _).trans ih

theorem capacity_of_reachable (hr : Reachable h) : (h.feed p).capacity = feedCapacity := by
  induction hr with
  | empty => rfl
  | call hr _ ih =>
    exact (get_feed_perform Feed.capacity Feed.capacity_send (tidy_eq (reachable_sound hr)) _).trans
      ih

/-- Whoever has subscribed listens. -/
theorem listens_of_subscribe (hr : Reachable h) (p : PlayerId) : (h.subscribe p).Listens p := by
  cases hp : h.listeners.lookup p with
  | none => exact listens_subscribe_self hp
  | some f => exact listens_subscribe ⟨by simp [hp], notClosed_of_reachable hr⟩ p

/-- All news is about rooms that were created. -/
theorem named_of_reachable (hr : Reachable h) : ∀ n ∈ (h.feed p).sent, n.matchId ∈ h.created := by
  induction hr with
  | empty => exact List.forall_mem_nil _
  | @call h a hr hf ih =>
    have hs := reachable_sound hr
    obtain ⟨new, hsent, hnew⟩ := adds_perform (tidy_eq hs) a p
    have hkept := created_subset_perform hs a
    rw [hsent]
    refine List.forall_mem_append.2 ⟨fun n hn => hkept (ih n hn), ?_⟩
    intro n hn
    cases hnew n hn with
    | shown _ hm => exact (sound_perform hs hf).created _ hm
    | removed hm => exact hkept (hs.created _ hm)

end Feeds

end Hub

end TurnRendezvous
