/-
# `World.honest_stepTask` — a task goes on in an honest world

Only the task that hands a turn over changes a room, and what it hands over was
justified when the turn was played, by a snapshot that may be old by now
(`author_of_justified`):

* a host found no data.  So the turn was the first one, which is the creator's,
  and the host's player is the creator;
* a client found no data.  In the same way it is a client of the creator;
* a client found data, and writes it again.  Its author is an author still.

A watch that ends with a turn has read a snapshot in its player's feed.
-/
import TurnRendezvous.Proofs.World.Honest

namespace TurnRendezvous

/-- As long as there is no data, only the creator is to move. -/
theorem Room.creator_of_first_turn {r : Room} (hr : r.Sound) {p : PlayerId}
    (ht : (r.snapshot p).isMyTurn = true) (hd : r.data = none) : p = r.creator := by
  obtain ⟨hlive, hp⟩ := holder_of_isMyTurn ht
  exact Option.some.inj (hp.symm.trans (hr.untouched hd hlive))

namespace World

variable {P : Room → Prop} {w w' : World Lobby}

/-! ## Turns -/

theorem extends_note (w : World Lobby) (c : Caller) (call : Call) : w.Extends (w.note c call) :=
  .of_subset (List.Subset.refl _) (List.subset_append_left _ _) List.prefix_rfl

/-- Bytes that have an author read and write again as they are. -/
theorem Author.encode_decode {r : Room} {b : Bytes} (h : w.Author r b) :
    (Payload.decode (some b)).encode = b := by
  obtain ⟨m, -, -, v, -, -, hwords⟩ := h
  rcases hwords with ⟨invite, hi, -, rfl, -⟩ | ⟨-, rfl⟩
  · rw [Payload.decode_encode]
  · rw [Payload.decode_encode]

/-- Once a turn has landed there is somebody who answers for its bytes. -/
theorem author_of_justified (h : w.Honest P) {m : Member} (hm : m ∈ w.members) {v : Rendezvous}
    (hv : m.agent.rendezvous = some v) {data : Bytes}
    (hj : Justified (Shown P (w.player m.caller)) v.matchId v.role data) {q : Room}
    (hid : q.id = v.matchId) (hcr : ∀ r, P r → r.id = q.id → r.creator = q.creator) :
    (w.note m.caller (.turnLanded v.matchId)).Author q data := by
  cases hj with
  | @offered _ invite hi hrole hS hmid ht hd =>
    obtain ⟨r, hr, rfl⟩ := hS
    have hp := Room.creator_of_first_turn (h.chronicle.past r hr).1 ht hd
    refine ⟨m, hm, hp.trans (hcr r hr (hmid.trans hid.symm)), v, hv, hid.symm, .inl ?_⟩
    refine ⟨invite, hi, hrole, rfl, ?_⟩
    rw [hid]
    exact List.mem_append_right _ (List.mem_singleton_self _)
  | @passedOn _ hrole hS hmid ht =>
    obtain ⟨r, hr, rfl⟩ := hS
    have hcreator := hcr r hr (hmid.trans hid.symm)
    show Author _ q (Payload.decode r.data).encode
    cases hd : r.data with
    | none =>
      have hp := Room.creator_of_first_turn (h.chronicle.past r hr).1 ht hd
      exact ⟨m, hm, hp.trans hcreator, v, hv, hid.symm, .inr ⟨hrole, rfl⟩⟩
    | some b =>
      have ha := h.author r b hr hd
      rw [ha.encode_decode]
      exact ha.mono (extends_note _ _ _) (fun m hm => (h.members m hm).caller)
        (hid.trans hmid.symm) hcreator.symm

/-- A turn of a player who is signed out fails; any other one is the hub's. -/
theorem callTurn_cases (w : World Lobby) (c : Caller) (id : MatchId) (data : Bytes)
    (next : Option PlayerId) :
    (w.callTurn c id data next).1 = w.note c (.turnFailed id) ∨
      ∃ mark, (∀ m, (w.service.hub.takeTurn (w.player c) id data next).2 = .ok m →
          mark = .turnLanded id) ∧
        (w.callTurn c id data next).1 = World.note
          { w with
            service := { w.service with
              hub := (w.service.hub.takeTurn (w.player c) id data next).1 } } c mark := by
  simp only [callTurn, Matchmaker.takeTurn, Lobby.takeTurn, Lobby.act]
  split
  · right
    refine ⟨_, ?_, rfl⟩
    intro m hm
    simp only [player] at hm
    rw [hm]
    rfl
  · exact .inl rfl

/-- A turn that a task hands over. -/
theorem honest_callTurn (h : w.Honest P) {m : Member} (hm : m ∈ w.members) {v : Rendezvous}
    (hv : m.agent.rendezvous = some v) {data : Bytes}
    (hj : Justified (Shown P (w.player m.caller)) v.matchId v.role data)
    (next : Option PlayerId) :
    (w.callTurn m.caller v.matchId data next).1.Honest
      (Hub.With P (w.callTurn m.caller v.matchId data next).1.service.hub) := by
  rcases callTurn_cases w m.caller v.matchId data next with hw | ⟨mark, hmark, hw⟩
  · rw [hw]
    exact (honest_note h _ _).with_now
  · rw [hw]
    have hc := Hub.chronicle_perform h.chronicle
      (a := .takeTurn (w.player m.caller) v.matchId data next) trivial
    refine h.hub_changes (fun _ => .inl) rfl rfl (List.subset_append_left _ _) List.prefix_rfl hc ?_
    intro q b hq hb
    rcases Hub.data_of_turn h.chronicle hq hb with hold | ⟨hid, rfl, ⟨r, hr, hrid, hrcr⟩, m', hok⟩
    · exact .inl hold
    · right
      have hcr : ∀ r', P r' → r'.id = q.id → r'.creator = q.creator := by
        intro r' hr' hid'
        exact (h.chronicle.creator r' r hr' (h.chronicle.rooms r hr) (hid'.trans hrid.symm)).trans
          hrcr
      have ha := author_of_justified h hm hv hj hid hcr
      rw [hmark m' hok]
      exact ha.mono (.of_subset (List.Subset.refl _) (List.Subset.refl _) List.prefix_rfl)
        (fun m hm => (h.members m hm).caller) rfl rfl

/-! ## Tasks -/

section Task
variable {i : Nat} {m : Member} (hm : w.members[i]? = some m) {j : JobId} {t : Task}
  (ht : m.agent.task? j = some t)
include hm ht

theorem honest_goOn (h : w.Honest P) {work : Work} (hb : t.work.MayBecome work) :
    (w.taskProgress i j work).Honest P := by
  refine honest_move h i ?_
  intro m' hm'
  obtain rfl := Option.some.inj (hm.symm.trans hm')
  exact ⟨_, _, .goOn ht hb, trivial⟩

theorem honest_finish (h : w.Honest P) {how : TaskEnd} (he : t.work.MayEnd how)
    (hs : ∀ room, how = .turn (.myTurn room) → Shown P (w.player m.caller) room) :
    (w.taskEnd i j how).Honest P := by
  refine honest_move h i ?_
  intro m' hm'
  obtain rfl := Option.some.inj (hm.symm.trans hm')
  refine ⟨_, _, .finish ht he, ?_⟩
  cases how with
  | turn result =>
    cases result with
    | myTurn room => exact hs room rfl
    | _ => trivial
  | _ => trivial

/-- The service answers a turn that was handed over. -/
theorem honest_landTurn (h : w.Honest P) {v : Rendezvous} (hv : m.agent.rendezvous = some v)
    {data : Bytes} {next : Option PlayerId} (hw : t.work = .submit data next true) :
    (w.landTurn i m.caller v.matchId j data next).Honest
      (Hub.With P (w.landTurn i m.caller v.matchId j data next).service.hub) := by
  have hmem := List.mem_of_getElem? hm
  have hj : Justified (Shown P (w.player m.caller)) v.matchId v.role data := by
    obtain ⟨v', job, hv', hjob, -, rfl⟩ := Agent.exists_of_task? ht
    obtain rfl := Option.some.inj (hv.symm.trans hv')
    have hwork := ((h.members m hmem).faithful.rendezvous v hv).works job
      (List.mem_of_getElem? hjob)
    rw [hw] at hwork
    exact hwork
  have called := honest_callTurn h hmem hv hj next
  refine honest_finish (m := m) (t := t) ?_ ht called ?_ ?_
  · exact hm
  · rw [hw]
    rfl
  · intro room hroom
    cases hroom

theorem honest_stepSubmit (h : w.Honest P) {v : Rendezvous} (hv : m.agent.rendezvous = some v)
    {data : Bytes} {next : Option PlayerId} {issued : Bool}
    (hw : t.work = .submit data next issued)
    (hs : w.stepSubmit? i m.caller v.matchId j data next issued = some w') :
    w'.Honest (Hub.With P w'.service.hub) := by
  cases issued with
  | true =>
    obtain rfl := Option.some.inj hs
    exact honest_landTurn hm ht h hv hw
  | false =>
    obtain rfl := Option.some.inj hs
    have noted := honest_note h m.caller (.takeTurn v.matchId data next)
    have issued : (w.issueTurn i m.caller v.matchId j data next).Honest P :=
      honest_goOn (w := w.note _ _) hm ht noted (by rw [hw]; rfl)
    have hm' : (w.issueTurn i m.caller v.matchId j data next).members[i]? =
        some { m with agent := m.agent.progress j (.submit data next true) } :=
      getElem?_modifyMember hm _
    have ht' := Agent.task?_progress ht (.submit data next true)
    obtain ⟨v', hv', haim⟩ := Agent.heir_of_moves (h.members m (List.mem_of_getElem? hm)).standing
      (.goOn (w := .submit data next true) ht (by rw [hw]; rfl)) hv
    rw [← haim.matchId]
    rw [← haim.matchId] at issued hm'
    exact honest_landTurn hm' ht' issued hv' rfl

theorem honest_hearProbe (h : w.Honest P) {invite localId : String}
    {reply : Option (Instant × ProbeAnswer)} (hw : t.work = .probe invite localId reply)
    (answer : ProbeAnswer) :
    (w.hearProbe i m.caller j invite localId answer).Honest P := by
  refine honest_finish (w := w.note _ _) hm ht (honest_note h _ _) ?_ ?_
  · rw [hw]
    trivial
  · intro room hroom
    cases hroom

theorem honest_stepProbe (h : w.Honest P) {invite localId : String}
    {reply : Option (Instant × ProbeAnswer)} (hw : t.work = .probe invite localId reply)
    (hs : w.stepProbe? i m j invite localId reply = some w') : w'.Honest P := by
  cases reply with
  | some due =>
    simp only [stepProbe?, Option.ite_none_right_eq_some, Option.some.injEq] at hs
    obtain ⟨-, rfl⟩ := hs
    exact honest_hearProbe hm ht h hw _
  | none =>
    have noted := honest_note h m.caller (.probe invite localId)
    simp only [stepProbe?] at hs
    split at hs
    · obtain rfl := Option.some.inj hs
      exact honest_hearProbe (w := w.note _ _) hm ht noted hw _
    · obtain rfl := Option.some.inj hs
      refine honest_goOn (w := w.note _ _) hm ht noted ?_
      rw [hw]
      exact ⟨_, rfl⟩

theorem honest_stepTurnWatch (h : w.Honest P) {watch : TurnWatch}
    (hw : t.work = .awaitTurn watch) (hs : w.stepTurnWatch? i m.caller j watch = some w') :
    w'.Honest P := by
  simp only [stepTurnWatch?] at hs
  split at hs
  next result hr =>
    obtain rfl := Option.some.inj hs
    refine honest_finish hm ht h ?_ ?_
    · rw [hw]
      exact ⟨_, _, hr⟩
    · intro room hroom
      obtain rfl := TaskEnd.turn.inj hroom
      exact Hub.told_feed h.chronicle.told
        (List.mem_of_mem_drop (TurnWatch.received_of_result? hr).1)
  next =>
    split at hs
    · cases hs
    · obtain rfl := Option.some.inj hs
      refine honest_goOn hm ht h ?_
      rw [hw]
      exact ⟨_, rfl⟩

theorem honest_stepEndWatch (h : w.Honest P) {watch : EndWatch}
    (hw : t.work = .awaitEnd watch) (hs : w.stepEndWatch? i m.caller j watch = some w') :
    w'.Honest P := by
  simp only [stepEndWatch?] at hs
  split at hs
  next how hr =>
    obtain rfl := Option.some.inj hs
    refine honest_finish hm ht h ?_ ?_
    · rw [hw]
      exact ⟨_, hr⟩
    · intro room hroom
      cases hroom
  next =>
    split at hs
    · cases hs
    · obtain rfl := Option.some.inj hs
      refine honest_goOn hm ht h ?_
      rw [hw]
      exact ⟨_, rfl⟩

end Task

theorem honest_stepTask (h : w.Honest P) {i : Nat} {j : JobId} (hs : w.stepTask? i j = some w') :
    w'.Honest (Hub.With P w'.service.hub) := by
  simp only [stepTask?, Option.bind_eq_bind, Option.bind_eq_some_iff] at hs
  obtain ⟨m, hm, v, hv, t, ht, hs⟩ := hs
  split at hs
  next hw => exact honest_stepSubmit hm ht h hv hw hs
  next hw => exact (honest_stepTurnWatch hm ht h hw hs).with_now
  next hw => exact (honest_stepEndWatch hm ht h hw hs).with_now
  next hw => exact (honest_stepProbe hm ht h hw hs).with_now
  next hw =>
    simp only [Option.ite_none_right_eq_some, Option.some.injEq] at hs
    obtain ⟨-, rfl⟩ := hs
    refine (honest_finish hm ht h ?_ ?_).with_now
    · rw [hw]
      trivial
    · intro room hroom
      cases hroom

end World

end TurnRendezvous
