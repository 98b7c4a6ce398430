/-
# `Hub.Lost` — rooms that are lost to a player

A room is lost to a player once it is over or gone, or once the player has turned
away from it; it stays lost then.  Whoever listens is told of it: the loss is news in
the feed after every place at which the room was not lost yet (`Hub.Warned`).  And no
such news comes before the loss.

* `lost_perform`, `enrols_perform`: a call finds nothing again that was lost;
* `warned_perform`: a call that loses a room says so;
* `warned_position`, `warned_caughtUp`: where a reader is warned;
* `lost_of_news`: what is called over is lost.
-/
import TurnRendezvous.Proofs.Hub.Elsewhere
import TurnRendezvous.Proofs.Hub.Holding
import TurnRendezvous.Watch

namespace TurnRendezvous

/-! ## News of an end -/

/-- Whether news says that the match is over or gone. -/
def MatchNews.endsMatch (id : MatchId) : MatchNews → Bool
  | .received m => decide (m.id = id) && !m.status.isLive
  | .removed i => decide (i = id)

/-- Such news ends every watch for a turn. -/
theorem TurnWatch.verdict_of_endsMatch {id : MatchId} {n : MatchNews}
    (h : n.endsMatch id = true) : TurnWatch.verdict id n = some .removed := by
  cases n with
  | received m =>
    obtain ⟨hid, hl⟩ : m.id = id ∧ m.status.isLive = false := by
      simpa [MatchNews.endsMatch] using h
    simp [verdict, hid, hl]
  | removed i =>
    have hid : i = id := by simpa [MatchNews.endsMatch] using h
    simp [verdict, hid]

/-- Nothing else ends a watch for the end. -/
theorem EndWatch.isSome_verdict {id : MatchId} {n : MatchNews} :
    (EndWatch.verdict id n).isSome = n.endsMatch id := by
  cases n with
  | received m =>
    by_cases hid : m.id = id <;> cases hl : m.status.isLive <;>
      simp [verdict, MatchNews.endsMatch, hid, hl]
  | removed i => by_cases hid : i = id <;> simp [verdict, MatchNews.endsMatch, hid]

namespace Room

/-- Nobody leaves a room. -/
theorem Step.mem_participants {r r' : Room} {a : Hub.Action} (hs : r.Step a r') {p : PlayerId}
    (hp : p ∈ r.participants) : p ∈ r'.participants := by
  cases hs with
  | join => exact List.mem_append_left _ hp
  | _ => exact hp

/-- Whoever has turned away does not come back. -/
theorem Step.mem_dismissed {r r' : Room} {a : Hub.Action} (hs : r.Step a r') {p : PlayerId}
    (hp : p ∈ r.dismissed) : p ∈ r'.dismissed := by
  cases hs with
  | dismiss => exact List.mem_append_left _ hp
  | _ => exact hp

end Room

namespace Hub

/-! ## Losing a room -/

/-- The room is over or gone, or the player has turned away from it. -/
def Lost (h : Hub) (p : PlayerId) (id : MatchId) : Prop :=
  ∀ r ∈ h.rooms, r.id = id → r.status.isLive = true → p ∈ r.dismissed

instance (h : Hub) (p : PlayerId) (id : MatchId) : Decidable (h.Lost p id) :=
  inferInstanceAs
    (Decidable (∀ r ∈ h.rooms, r.id = id → r.status.isLive = true → p ∈ r.dismissed))

/-- The room was created, and for as long as it is there the player takes part in it. -/
structure Enrols (h : Hub) (p : PlayerId) (id : MatchId) : Prop where
  created : id ∈ h.created
  takesPart : ∀ r ∈ h.rooms, r.id = id → p ∈ r.participants

section Lost
variable {h : Hub} {p : PlayerId} {id : MatchId}

theorem enrols_of_snapshot (hs : h.Sound) {m : Match} (hm : h.snapshot? id p = some m) :
    h.Enrols p id := by
  obtain ⟨r, hv, -⟩ := Option.map_eq_some_iff.1 hm
  obtain ⟨hmem, rfl, hseen⟩ := mem_of_visible? hv
  refine ⟨hs.created r hmem, ?_⟩
  intro q hq hid
  rw [eq_of_id_eq hs hq hmem hid]
  exact (Room.isSeenBy_iff.1 hseen).1

theorem enrols_perform (hs : h.Sound) {a : Action} (hf : a.Fresh h) (he : h.Enrols p id) :
    (h.perform a).Enrols p id := by
  obtain ⟨hc, hp⟩ := he
  refine ⟨created_subset_perform hs a hc, ?_⟩
  rintro q hq rfl
  rcases step_of_mem hs hf hq hc with hq | ⟨r, hr, hstep⟩
  · exact hp q hq rfl
  · exact hstep.mem_participants (hp r hr hstep.id_eq.symm)

theorem lost_perform (hs : h.Sound) {a : Action} (hf : a.Fresh h) (hc : id ∈ h.created)
    (hl : h.Lost p id) : (h.perform a).Lost p id := by
  rintro q hq rfl hlive
  rcases step_of_mem hs hf hq hc with hq | ⟨r, hr, hstep⟩
  · exact hl q hq rfl hlive
  · exact hstep.mem_dismissed (hl r hr hstep.id_eq.symm (hstep.isLive hlive))

/-- A player sees alive what is not lost. -/
theorem view_of_not_lost (hs : h.Sound) (he : h.Enrols p id) (hl : ¬h.Lost p id) :
    ∃ m, h.view p id = some m ∧ m.status.isLive = true := by
  simp only [Lost, not_forall] at hl
  obtain ⟨r, hr, rfl, hlive, hd⟩ := hl
  have hseen : r.isSeenBy p = true := Room.isSeenBy_iff.2 ⟨he.takesPart r hr rfl, hd⟩
  refine ⟨r.snapshot p, ?_, hlive⟩
  rw [view_of_room? ((room?_eq_some_iff hs).2 ⟨hr, rfl⟩), Room.sight?, if_pos hseen]

/-- And nothing else. -/
theorem lost_of_view (hs : h.Sound) (he : h.Enrols p id)
    (hv : ∀ m, h.view p id = some m → m.status.isLive = false) : h.Lost p id := by
  by_contra hl
  obtain ⟨m, hm, hlive⟩ := view_of_not_lost hs he hl
  exact absurd ((hv m hm).symm.trans hlive) Bool.false_ne_true

theorem isLive_of_lost (hl : h.Lost p id) {m : Match} (hm : h.view p id = some m) :
    m.status.isLive = false := by
  obtain ⟨r, hv, rfl⟩ := Option.map_eq_some_iff.1 (show h.snapshot? id p = some m from hm)
  obtain ⟨hmem, hid, hseen⟩ := mem_of_visible? hv
  cases hlive : r.status.isLive with
  | false => exact hlive
  | true => exact absurd (hl r hmem hid hlive) (Room.isSeenBy_iff.1 hseen).2

end Lost

/-! ## Word of a loss -/

/-- A view from which updates take a live match contains word of its end among them. -/
theorem endsMatch_of_foldl_heed {id : MatchId} {new : List MatchNews} :
    ∀ {view : MatchId → Option Match}, (∃ m, view id = some m ∧ m.status.isLive = true) →
      (∀ m, new.foldl heed view id = some m → m.status.isLive = false) →
      ∃ n ∈ new, n.endsMatch id = true := by
  induction new with
  | nil =>
    rintro view ⟨m, hm, hlive⟩ hdead
    exact absurd ((hdead m hm).symm.trans hlive) Bool.false_ne_true
  | cons n new ih =>
    intro view hview hdead
    cases he : n.endsMatch id with
    | true => exact ⟨n, List.mem_cons_self, he⟩
    | false =>
      suffices hnext : ∃ m, heed view n id = some m ∧ m.status.isLive = true by
        obtain ⟨n', hn', he'⟩ := ih hnext hdead
        exact ⟨n', List.mem_cons_of_mem _ hn', he'⟩
      cases n with
      | removed i =>
        have hi : id ≠ i := fun h => by simp [MatchNews.endsMatch, h] at he
        simpa only [heed, Function.update_of_ne hi] using hview
      | received m =>
        by_cases hi : m.id = id
        · subst hi
          exact ⟨m, by simp [heed], by simpa [MatchNews.endsMatch] using he⟩
        · simpa only [heed, Function.update_of_ne (Ne.symm hi)] using hview

/-- Whoever reads the player's feed on from `n` comes to word of the loss, if the room
is lost. -/
structure Warned (h : Hub) (p : PlayerId) (id : MatchId) (n : Nat) : Prop where
  inFeed : n ≤ (h.feed p).sent.length
  word : h.Lost p id → ∃ news ∈ (h.feed p).sent.drop n, news.endsMatch id = true

section Warned
variable {h : Hub} {p : PlayerId} {id : MatchId} {n : Nat}

theorem warned_of_not_lost (hn : n ≤ (h.feed p).sent.length) (hl : ¬h.Lost p id) :
    h.Warned p id n :=
  ⟨hn, fun h => absurd h hl⟩

/-- A new reader is warned of what is not lost yet. -/
theorem warned_position (hl : ¬h.Lost p id) : h.Warned p id (h.feed p).position :=
  warned_of_not_lost (Nat.le_refl _) hl

/-- The call that loses a room says so. -/
theorem warned_perform (hs : h.Sound) {a : Action} (hf : a.Fresh h) (hl : h.Listens p)
    (he : h.Enrols p id) (hw : h.Warned p id n) : (h.perform a).Warned p id n := by
  obtain ⟨new, hnew⟩ := informs_perform hs hf hl
  have hdrop : ((h.perform a).feed p).sent.drop n = (h.feed p).sent.drop n ++ new := by
    rw [hnew.sent, List.drop_append_of_le_length hw.inFeed]
  refine ⟨?_, ?_⟩
  · rw [hnew.sent, List.length_append]
    exact Nat.le_add_right_of_le hw.inFeed
  · intro hlost
    rw [hdrop]
    by_cases hold : h.Lost p id
    · obtain ⟨news, hn, hend⟩ := hw.word hold
      exact ⟨news, List.mem_append_left _ hn, hend⟩
    · have hdead : ∀ m, new.foldl heed (h.view p) id = some m → m.status.isLive = false := by
        intro m hm
        rw [hnew.replay] at hm
        exact isLive_of_lost hlost hm
      obtain ⟨news, hn, hend⟩ := endsMatch_of_foldl_heed (view_of_not_lost hs he hold) hdead
      exact ⟨news, List.mem_append_right _ hn, hend⟩

/-- A reader who keeps up can still read what it is warned by. -/
theorem Warned.unread (hw : h.Warned p id n) (hc : (h.feed p).capacity = feedCapacity)
    (hup : (h.feed p).sent.length ≤ n + feedCapacity) (hl : h.Lost p id) :
    ∃ news ∈ (h.feed p).unread n, news.endsMatch id = true := by
  have hresume : (h.feed p).resume n = n := by
    simp only [Feed.resume, hc]
    omega
  obtain ⟨news, hn, hend⟩ := hw.word hl
  exact ⟨news, by rw [Feed.unread, hresume]; exact hn, hend⟩

/-- A reader who has found no such word in all there was to read is warned from now on. -/
theorem warned_caughtUp (hw : h.Warned p id n) (hc : (h.feed p).capacity = feedCapacity)
    (hup : (h.feed p).sent.length ≤ n + feedCapacity)
    (hread : ∀ news ∈ (h.feed p).unread n, news.endsMatch id = false) :
    h.Warned p id (h.feed p).position := by
  refine warned_position ?_
  intro hl
  obtain ⟨news, hn, hend⟩ := hw.unread hc hup hl
  exact absurd ((hread news hn).symm.trans hend) Bool.false_ne_true

end Warned

/-! ## No word before the loss -/

/-- Whether a player ever subscribed changes only by a subscription. -/
theorem listed_perform {h : Hub} (ht : h.tidy = h) {a : Action} (ha : ∀ q, a ≠ .subscribe q)
    (p : PlayerId) :
    ((h.perform a).listeners.lookup p).isSome = (h.listeners.lookup p).isSome := by
  have sent (h : Hub) (q : PlayerId) (news : MatchNews) :
      ((h.send q news).listeners.lookup p).isSome = (h.listeners.lookup p).isSome := by
    have hmap := lookup_map_value
      (fun k (f : Feed MatchNews) => if k = q then f.send news else f) p h.listeners
    simp only [send, hmap, Option.isSome_map]
  have announced (h : Hub) (r : Room) :
      ((h.announce r).listeners.lookup p).isSome = (h.listeners.lookup p).isSome :=
    foldl_send_eq (fun h => (h.listeners.lookup p).isSome) _ (fun h q => sent h q _) _ h
  have ho := outcome_perform ht a
  generalize h.perform a = h' at ho
  cases ho with
  | refused => rfl
  | listening => exact absurd rfl (ha _)
  | joined => exact announced _ _
  | opened => exact announced _ _
  | turned => exact announced _ _
  | cancelled => exact announced _ _
  | dismissed => exact sent _ _ _
  | deserted => exact sent _ _ _
  | expired => exact announced _ _
  | removed =>
    exact foldl_send_eq (fun h => (h.listeners.lookup p).isSome) (fun _ => .removed _)
      (fun h q => sent h q _) _ _

/-- Nobody who does not listen is sent anything. -/
theorem sent_perform_of_unlisted {h : Hub} (ht : h.tidy = h) {p : PlayerId}
    (hp : h.listeners.lookup p = none) (a : Action) : ((h.perform a).feed p).sent = [] := by
  have silent {h : Hub} (hp : h.listeners.lookup p = none) : (h.feed p).sent = [] := by
    simp [feed, hp]
  by_cases ha : ∃ q, a = .subscribe q
  · obtain ⟨q, rfl⟩ := ha
    simp only [perform, feed_subscribe, silent hp]
  · have hl := listed_perform ht (fun q hq => ha ⟨q, hq⟩) p
    rw [hp] at hl
    exact silent (Option.not_isSome_iff_eq_none.1 (by simp [hl]))

/-- What a player sees is the player's. -/
theorem enrols_of_view {h : Hub} {p : PlayerId} {id : MatchId} (hs : h.Sound)
    (hv : (h.view p id).isSome = true) : h.Enrols p id := by
  obtain ⟨m, hm⟩ := Option.isSome_iff_exists.1 hv
  exact enrols_of_snapshot hs hm

/-- What news calls over or gone is lost. -/
theorem lost_of_news {h : Hub} {p : PlayerId} (hr : Reachable h) :
    ∀ n ∈ (h.feed p).sent, ∀ id, n.endsMatch id = true → h.Lost p id := by
  induction hr with
  | empty => exact List.forall_mem_nil _
  | @call h a hr hf ih =>
    have hs := reachable_sound hr
    have hs' := sound_perform hs hf
    cases hp : h.listeners.lookup p with
    | none =>
      intro n hn
      simp [sent_perform_of_unlisted (tidy_eq hs) hp] at hn
    | some f =>
      obtain ⟨new, hnew⟩ := informs_perform (p := p) hs hf
        ⟨by simp [hp], notClosed_of_reachable hr⟩
      intro n hn id hend
      rw [hnew.sent] at hn
      rcases List.mem_append.1 hn with hn | hn
      · have hid : n.matchId = id := by
          cases n <;> simp_all [MatchNews.endsMatch, MatchNews.matchId]
        exact lost_perform hs hf (hid ▸ named_of_reachable hr n hn) (ih n hn id hend)
      · cases n with
        | received m =>
          obtain ⟨rfl, hdead⟩ : m.id = id ∧ m.status.isLive = false := by
            simpa [MatchNews.endsMatch] using hend
          have hshown := hnew.shown m hn
          refine lost_of_view hs' (enrols_of_view hs' (by simp [hshown])) ?_
          intro m' hm'
          obtain rfl := Option.some.inj (hshown.symm.trans hm')
          exact hdead
        | removed i =>
          obtain rfl : i = id := by simpa [MatchNews.endsMatch] using hend
          obtain ⟨hseen, hgone⟩ := hnew.hidden i hn
          refine lost_of_view hs' (enrols_perform hs hf (enrols_of_view hs hseen)) ?_
          intro m' hm'
          simp [hgone] at hm'

/-! ## Rows of calls -/

section Onward
variable {h h' : Hub} {p : PlayerId} {id : MatchId} {n : Nat}

theorem reachable_of_onward (hr : Reachable h) (hrun : Onward h h') : Reachable h' := by
  induction hrun with
  | refl => exact hr
  | call _ hf ih => exact ih.call hf

theorem listens_of_onward (hr : Reachable h) (hl : h.Listens p) (hrun : Onward h h') :
    h'.Listens p :=
  (informed_of_onward (reachable_sound hr) hl hrun).2.1

theorem enrols_of_onward (hr : Reachable h) (he : h.Enrols p id) (hrun : Onward h h') :
    h'.Enrols p id := by
  induction hrun with
  | refl => exact he
  | call hrun hf ih => exact enrols_perform (reachable_sound (reachable_of_onward hr hrun)) hf ih

theorem lost_of_onward (hr : Reachable h) (he : h.Enrols p id) (hl : h.Lost p id)
    (hrun : Onward h h') : h'.Lost p id := by
  induction hrun with
  | refl => exact hl
  | call hrun hf ih =>
    have hs := reachable_sound (reachable_of_onward hr hrun)
    exact lost_perform hs hf (enrols_of_onward hr he hrun).created ih

end Onward

end Hub

end TurnRendezvous
