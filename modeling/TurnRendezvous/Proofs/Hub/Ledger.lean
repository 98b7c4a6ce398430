/-
# `Hub.ledger` — the turns that were taken on a room

A run of the hub is a row of calls, each with its answer (`Hub.Recorded`).  What it says of
one room can be read off it without looking into the hub: who opened the room, who was let
in through its open slot, and which turns were accepted (`Hub.ledger`).

A room keeps little of that, namely the last data and a number.  `Room.Tallies` says how
they fit the ledger, and that the turn is with somebody who may go on from the last entry:
whoever was named there or, if nobody was, the player who has come through the open slot.
The slot is open only as long as nobody has come, and whoever comes was not there before;
so it does not matter whether somebody comes before or after the turn is left to the slot.

* `enters_call`: what a call enters, and what becomes of the room by it;
* `kept_call`: so ledger and room go on fitting each other;
* `turns_form_a_chain`: what this says about every run.
-/
import Mathlib.Data.List.Chain
import TurnRendezvous.Proofs.Hub.Answers
import TurnRendezvous.Proofs.Hub.Holding

namespace TurnRendezvous

namespace Hub

/-! ## Ledgers -/

/-- A turn that was taken: by whom, what was left, and who is next, if not the open slot. -/
structure Ply where
  player : PlayerId
  data : Bytes
  next : Option PlayerId
deriving DecidableEq

/-- What is written down about a room. -/
inductive Entry
  | opened (p : PlayerId)
  /-- Somebody came through the open slot. -/
  | joined (p : PlayerId)
  | played (m : Ply)
deriving DecidableEq

/-- A call and its answer. -/
abbrev Exchange := Action × Except Failure (Option Match)

/-- What a call and its answer enter in the ledger of a room.  A match that is asked for is
a new one if its name is the one that was brought for it. -/
def entered? (id : MatchId) : Exchange → Option Entry
  | (.create i p _, .ok (some m)) =>
    if m.id = id then some (if i = id then .opened p else .joined p) else none
  | (.takeTurn p i data next, .ok (some _)) =>
    if i = id then some (.played ⟨p, data, next⟩) else none
  | _ => none

def ledger (id : MatchId) (t : List Exchange) : List Entry := t.filterMap (entered? id)

theorem ledger_append (id : MatchId) (t : List Exchange) (d : Exchange) :
    ledger id (t ++ [d]) = ledger id t ++ (entered? id d).toList := by
  cases hd : entered? id d <;> simp [ledger, hd]

def Entry.opener? : Entry → Option PlayerId
  | .opened p => some p
  | _ => none

def Entry.joiner? : Entry → Option PlayerId
  | .joined p => some p
  | _ => none

def Entry.ply? : Entry → Option Ply
  | .played m => some m
  | _ => none

def openers (l : List Entry) : List PlayerId := l.filterMap Entry.opener?

def joiners (l : List Entry) : List PlayerId := l.filterMap Entry.joiner?

/-- The turns that were accepted, in order. -/
def plies (l : List Entry) : List Ply := l.filterMap Entry.ply?

/-- The rows of calls, each with its answer, that lead from the empty hub to `h`. -/
inductive Recorded : List Exchange → Hub → Prop
  | nil : Recorded [] {}
  | call {t : List Exchange} {h : Hub} {a : Action} :
      Recorded t h → a.Fresh h → Recorded (t ++ [(a, h.answer a)]) (h.perform a)

theorem Recorded.reachable {t : List Exchange} {h : Hub} (ht : Recorded t h) : Reachable h := by
  induction ht with
  | nil => exact .empty
  | call _ hf ih => exact ih.call hf

/-- Every hub that calls lead to has a record. -/
theorem exists_recorded {h : Hub} (hr : Reachable h) : ∃ t, Recorded t h := by
  induction hr with
  | empty => exact ⟨[], .nil⟩
  | call _ hf ih =>
    obtain ⟨t, ht⟩ := ih
    exact ⟨_, ht.call hf⟩

/-- After `m`, the turn may go to `p`: to whom it was handed or, if it was left to the open
slot, to the one player who came through it. -/
def Ply.LeadsTo (js : List PlayerId) (m : Ply) (p : PlayerId) : Prop :=
  p ≠ m.player ∧ (m.next = some p ∨ m.next = none ∧ js = [p])

/-- A ledger as it has to be. -/
structure Orderly (l : List Entry) : Prop where
  chain : (plies l).IsChain fun m m' => m.LeadsTo (joiners l) m'.player
  joiners : (joiners l).length ≤ 1
  first : ∀ m ∈ (plies l).head?, openers l = [m.player]

end Hub

/-- How a room fits its ledger. -/
structure Room.Tallies (r : Room) (l : List Hub.Entry) : Prop where
  creator : Hub.openers l = [r.creator]
  version : r.version = (Hub.plies l).length
  data : r.data = (Hub.plies l).getLast?.map Hub.Ply.data
  slot : r.openSlot = true → Hub.joiners l = []
  last : ∀ m ∈ (Hub.plies l).getLast?, m.player ∈ r.participants
  holder : ∀ p, r.holder = some p →
    ∀ m ∈ (Hub.plies l).getLast?, m.LeadsTo (Hub.joiners l) p
  /-- A turn that is with nobody was left to the open slot. -/
  resting : r.status.isLive = true → r.holder = none →
    ∀ m ∈ (Hub.plies l).getLast?, m.next = none

/-- What becomes of a room when nothing is entered. -/
inductive Room.Idles (r : Room) : Room → Prop
  | same : Idles r r
  | dismissed {p : PlayerId} : Idles r (r.dismiss p)
  | ended {status : Status} : status.isLive = false → Idles r (r.ended status)

namespace Hub

/-! ## What an entry changes -/

section Append
variable (l : List Entry) (p : PlayerId) (m : Ply)

@[simp] theorem openers_append_joined : openers (l ++ [.joined p]) = openers l := by
  simp [openers, Entry.opener?]

@[simp] theorem openers_append_played : openers (l ++ [.played m]) = openers l := by
  simp [openers, Entry.opener?]

@[simp] theorem joiners_append_joined : joiners (l ++ [.joined p]) = joiners l ++ [p] := by
  simp [joiners, Entry.joiner?]

@[simp] theorem joiners_append_played : joiners (l ++ [.played m]) = joiners l := by
  simp [joiners, Entry.joiner?]

@[simp] theorem plies_append_joined : plies (l ++ [.joined p]) = plies l := by
  simp [plies, Entry.ply?]

@[simp] theorem plies_append_played : plies (l ++ [.played m]) = plies l ++ [m] := by
  simp [plies, Entry.ply?]

end Append

/-- As long as nobody has come, the turn has only gone to those who were named. -/
theorem Ply.LeadsTo.of_nil {m : Ply} {p : PlayerId} (h : m.LeadsTo [] p) (js : List PlayerId) :
    m.LeadsTo js p := by
  obtain ⟨hne, hnext | ⟨-, hnil⟩⟩ := h
  · exact ⟨hne, .inl hnext⟩
  · cases hnil

section Orderly
variable {l : List Entry} {p : PlayerId}

theorem orderly_nil : Orderly [] := ⟨List.isChain_nil, Nat.zero_le 1, fun _ hm => by cases hm⟩

theorem orderly_opened (p : PlayerId) : Orderly [.opened p] :=
  ⟨List.isChain_nil, Nat.zero_le 1, fun _ hm => by cases hm⟩

/-- Somebody comes through the slot, as the first one. -/
theorem orderly_joined (hl : Orderly l) (hslot : joiners l = []) (p : PlayerId) :
    Orderly (l ++ [.joined p]) := by
  refine { chain := ?_, joiners := by simp [hslot], first := by simpa using hl.first }
  rw [plies_append_joined]
  apply hl.chain.imp
  intro m m' hlead
  rw [hslot] at hlead
  exact hlead.of_nil _

/-- Somebody moves to whom the turn was to go. -/
theorem orderly_played (hl : Orderly l) {m : Ply}
    (hlead : ∀ m₀ ∈ (plies l).getLast?, m₀.LeadsTo (joiners l) m.player)
    (hfirst : plies l = [] → openers l = [m.player]) : Orderly (l ++ [.played m]) := by
  refine { chain := ?_, joiners := by simpa using hl.joiners, first := ?_ }
  · rw [plies_append_played, joiners_append_played]
    refine List.isChain_append.2 ⟨hl.chain, List.isChain_singleton _, ?_⟩
    intro m₀ hm₀ m₁ hm₁
    obtain rfl : m = m₁ := by simpa using hm₁
    exact hlead m₀ hm₀
  · rw [plies_append_played, openers_append_played]
    intro m₁ hm₁
    cases hplies : plies l with
    | nil =>
      rw [hplies] at hm₁
      obtain rfl : m = m₁ := by simpa using hm₁
      exact hfirst hplies
    | cons m₀ ms =>
      rw [hplies] at hm₁
      exact hl.first m₁ (by rw [hplies]; exact hm₁)

end Orderly

section Tallies
variable {r : Room} {l : List Entry} {p : PlayerId}

theorem tallies_opened (id : MatchId) (p : PlayerId) (c : MatchRequest) :
    (Room.ofRequest id p c).Tallies [.opened p] where
  creator := rfl
  version := rfl
  data := rfl
  slot := fun _ => rfl
  last := fun _ hm => by cases hm
  holder := fun _ _ _ hm => by cases hm
  resting := fun _ _ _ hm => by cases hm

theorem tallies_idle {q : Room} (ht : r.Tallies l) (hq : r.Idles q) : q.Tallies l := by
  cases hq with
  | same => exact ht
  | dismissed => exact { ht with }
  | ended hs =>
    exact { ht with
      slot := fun h => by cases h
      holder := fun _ h => by cases h
      resting := fun h => absurd (hs.symm.trans h) Bool.false_ne_true }

/-- Whoever comes through the open slot was not there before, so has not moved, either. -/
theorem tallies_join (ht : r.Tallies l) (ho : r.isOpen = true) (hp : r.includes p = false) :
    (r.join p).Tallies (l ++ [.joined p]) := by
  obtain ⟨hopen, hlive⟩ := Bool.and_eq_true_iff.1 ho
  have hslot := ht.slot hopen
  have hout : p ∉ r.participants := by simpa [Room.includes] using hp
  refine
    { creator := by simp [Room.join, ht.creator]
      version := by simp [Room.join, ht.version]
      data := by simp [Room.join, ht.data]
      slot := fun h => by cases h
      last := fun m hm => List.mem_append_left _ (ht.last m (by simpa using hm))
      holder := ?_
      resting := fun _ h => by cases h }
  intro q hq m hm
  rw [plies_append_joined] at hm
  rw [joiners_append_joined, hslot, List.nil_append]
  -- either the turn stays where it was, or it was left to the slot and comes to `p`
  cases hh : r.holder with
  | some s =>
    obtain rfl : s = q := by simpa [Room.join, hh] using hq
    have hlead := ht.holder s hh m hm
    rw [hslot] at hlead
    exact hlead.of_nil _
  | none =>
    obtain rfl : p = q := by simpa [Room.join, hh] using hq
    exact ⟨fun h => hout (h ▸ ht.last m hm), .inr ⟨ht.resting hlive hh m hm, rfl⟩⟩

theorem tallies_turn {data : Bytes} {next : Option PlayerId} (ht : r.Tallies l)
    (hp : p ∈ r.participants) (hc : r.checkTurn p next = .ok ()) :
    (r.withTurn data next).Tallies (l ++ [.played ⟨p, data, next⟩]) where
  creator := by simp [Room.withTurn, ht.creator]
  version := by simp [Room.withTurn, ht.version]
  data := by simp [Room.withTurn]
  slot := by simpa [Room.withTurn] using ht.slot
  last := by simpa [Room.withTurn] using hp
  holder := by
    intro q hq m hm
    obtain rfl : (⟨p, data, next⟩ : Ply) = m := by simpa using hm
    have hq : next = some q := hq
    rcases (Room.checkTurn_eq_ok_iff.1 hc).2.2 with ⟨s, hs, hne, -⟩ | ⟨hnone, -⟩
    · obtain rfl := Option.some.inj (hs.symm.trans hq)
      exact ⟨hne, .inl hs⟩
    · cases hnone.symm.trans hq
  resting := by
    intro _ hnone m hm
    obtain rfl : (⟨p, data, next⟩ : Ply) = m := by simpa using hm
    exact hnone

end Tallies

/-! ## What a call enters -/

/-- What a call enters in the ledger of a room, and the room after it. -/
inductive Enters (id : MatchId) (h : Hub) (a : Action) : Option Entry → Prop
  | nothing :
      (∀ q ∈ (h.perform a).rooms, q.id = id → ∃ r ∈ h.rooms, r.id = id ∧ r.Idles q) →
      Enters id h a none
  | opened {p : PlayerId} {c : MatchRequest} :
      id ∉ h.created → id ∈ (h.perform a).created →
      (∀ q ∈ (h.perform a).rooms, q.id = id → q = .ofRequest id p c) →
      Enters id h a (some (.opened p))
  | joined {p : PlayerId} {r : Room} :
      r ∈ h.rooms → r.id = id → r.isOpen = true → r.includes p = false →
      (∀ q ∈ (h.perform a).rooms, q.id = id → q = r.join p) →
      Enters id h a (some (.joined p))
  | played {p : PlayerId} {r : Room} {data : Bytes} {next : Option PlayerId} :
      r ∈ h.rooms → r.id = id → p ∈ r.participants → r.checkTurn p next = .ok () →
      (∀ q ∈ (h.perform a).rooms, q.id = id → q = r.withTurn data next) →
      Enters id h a (some (.played ⟨p, data, next⟩))

section Enters
variable {h : Hub} {a : Action} {id : MatchId}

/-- Nothing is entered if the room is left alone. -/
theorem Enters.of_same (hsame : ∀ q ∈ (h.perform a).rooms, q.id = id → q ∈ h.rooms) :
    Enters id h a none :=
  .nothing fun q hq hid => ⟨q, hsame q hq hid, hid, .same⟩

/-- A room that was put in its place is the only one of its name. -/
theorem eq_of_mem_put {g : Hub} {r s q : Room} (hs : (h.perform a).Sound)
    (heq : h.perform a = (g.put r).announce r) (hr : s ∈ g.rooms) (hid : s.id = r.id)
    (hq : q ∈ (h.perform a).rooms) (hid' : q.id = r.id) : q = r := by
  refine eq_of_id_eq hs hq ?_ hid'
  rw [heq, rooms_announce]
  exact mem_rooms_of_put hr hid

/-- All others are left alone. -/
theorem Enters.of_put {g : Hub} {r : Room} (hg : g.rooms = h.rooms)
    (heq : h.perform a = (g.put r).announce r) (hr : r.id ≠ id) : Enters id h a none := by
  apply Enters.of_same
  intro q hq hid
  rw [heq, rooms_announce] at hq
  rcases mem_rooms_put hq with rfl | hq
  · exact absurd hid hr
  · exact hg ▸ hq

/-- A call that is answered with a match enters who came or moved. -/
theorem enters_of_answers (hs : h.Sound) (hf : a.Fresh h) {m : Match} (hm : h.Answers a m)
    (id : MatchId) : Enters id h a (entered? id (a, .ok (some m))) := by
  have hs' := sound_perform hs hf
  cases hm with
  | @joined i p c r hj heq =>
    obtain ⟨-, hroom, hout⟩ := joinable?_eq_some hj
    have hr := (mem_of_room? hroom).1
    by_cases hid : r.id = id
    · have hne : i ≠ id := fun h => hf (h ▸ hid ▸ hs.created r hr)
      have hentry : entered? id (.create i p c, .ok (some ((r.join p).snapshot p))) =
          some (.joined p) := by simp [entered?, Room.snapshot, Room.join, hid, hne]
      rw [hentry]
      refine .joined hr hid (isOpen_of_joinable? (tidy_eq hs) hj) hout ?_
      intro q hq hq'
      exact eq_of_mem_put hs' heq (r := r.join p) hr rfl hq (hq'.trans hid.symm)
    · have hentry : entered? id (.create i p c, .ok (some ((r.join p).snapshot p))) = none := by
        simp [entered?, Room.snapshot, Room.join, hid]
      rw [hentry]
      exact .of_put (g := h.unqueue r.id) rfl heq hid
  | @opened i p c heq =>
    have hrooms : (h.perform (.create i p c)).rooms = h.rooms ++ [.ofRequest i p c] := by
      rw [heq, rooms_announce]
      rfl
    by_cases hid : i = id
    · subst hid
      have hentry : entered? i (.create i p c, .ok (some ((Room.ofRequest i p c).snapshot p))) =
          some (.opened p) := by simp [entered?, Room.snapshot, Room.ofRequest]
      have hnew : Room.ofRequest i p c ∈ (h.perform (.create i p c)).rooms :=
        hrooms ▸ List.mem_append_right _ (List.mem_singleton_self _)
      rw [hentry]
      exact .opened hf (hs'.created _ hnew) fun q hq hq' => eq_of_id_eq hs' hq hnew hq'
    · have hentry : entered? id (.create i p c, .ok (some ((Room.ofRequest i p c).snapshot p))) =
          none := by simp [entered?, Room.snapshot, Room.ofRequest, hid]
      rw [hentry]
      apply Enters.of_same
      intro q hq hq'
      rw [hrooms] at hq
      rcases List.mem_append.1 hq with hq | hnew
      · exact hq
      · rw [List.mem_singleton.1 hnew] at hq'
        exact absurd hq' hid
  | @turned p r data next hv hc heq =>
    obtain ⟨hr, -, hseen⟩ := mem_of_visible? hv
    by_cases hid : r.id = id
    · have hentry : entered? id (.takeTurn p r.id data next,
          .ok (some ((r.withTurn data next).snapshot p))) = some (.played ⟨p, data, next⟩) := by
        simp [entered?, hid]
      rw [hentry]
      refine .played hr hid (Room.isSeenBy_iff.1 hseen).1 hc ?_
      intro q hq hq'
      exact eq_of_mem_put hs' heq (r := r.withTurn data next) hr rfl hq (hq'.trans hid.symm)
    · have hentry : entered? id (.takeTurn p r.id data next,
          .ok (some ((r.withTurn data next).snapshot p))) = none := by simp [entered?, hid]
      rw [hentry]
      exact .of_put rfl heq hid

/-- A call that is just done enters nothing: at most somebody has turned away from the
room, or it is over. -/
theorem enters_of_done (hs : h.Sound) (hdone : h.answer a = .ok none) (id : MatchId) :
    Enters id h a none := by
  apply Enters.nothing
  intro q hq hid
  rcases mem_rooms_perform (tidy_eq hs) hq with hq | ⟨i, p, c, rfl, -⟩ | ⟨r, hr, hstep⟩
  · exact ⟨q, hq, hid, .same⟩
  · obtain ⟨m, -, hm⟩ := exists_of_map_eq_ok hdone
    cases hm
  · refine ⟨r, hr, hstep.id_eq.symm.trans hid, ?_⟩
    cases hstep with
    | join | turn =>
      obtain ⟨m, -, hm⟩ := exists_of_map_eq_ok hdone
      cases hm
    | cancel => exact .ended rfl
    | dismiss => exact .dismissed
    | expire => exact .ended rfl

theorem enters_call (hs : h.Sound) (hf : a.Fresh h) (id : MatchId) :
    Enters id h a (entered? id (a, h.answer a)) := by
  cases hans : h.answer a with
  | error e =>
    have hsame := perform_of_refused (tidy_eq hs) hans
    have hentry : entered? id (a, .error e) = none := by cases a <;> rfl
    rw [hentry]
    exact .of_same fun q hq _ => hsame ▸ hq
  | ok m =>
    cases m with
    | none =>
      have hentry : entered? id (a, .ok none) = none := by cases a <;> rfl
      rw [hentry]
      exact enters_of_done hs hans id
    | some m => exact enters_of_answers hs hf (answers_of_answer (tidy_eq hs) hans) id

end Enters

/-! ## Runs -/

/-- How a hub fits the ledger of a room. -/
structure Kept (id : MatchId) (l : List Entry) (h : Hub) : Prop where
  orderly : Orderly l
  blank : id ∉ h.created → l = []
  rooms : ∀ r ∈ h.rooms, r.id = id → r.Tallies l

section Kept
variable {h : Hub} {a : Action} {id : MatchId} {l : List Entry}

theorem kept_empty (id : MatchId) : Kept id [] {} :=
  ⟨orderly_nil, fun _ => rfl, fun _ hr => absurd hr List.not_mem_nil⟩

theorem kept_enters (hs : h.Sound) (hk : Kept id l h) {e : Option Entry} (he : Enters id h a e) :
    Kept id (l ++ e.toList) (h.perform a) := by
  have hgrows := created_subset_perform hs a
  cases he with
  | nothing hrooms =>
    rw [Option.toList_none, List.append_nil]
    refine ⟨hk.orderly, fun hc => hk.blank fun h => hc (hgrows h), ?_⟩
    intro q hq hid
    obtain ⟨r, hr, hid', hidle⟩ := hrooms q hq hid
    exact tallies_idle (hk.rooms r hr hid') hidle
  | @opened p c hnew hnamed hrooms =>
    obtain rfl := hk.blank hnew
    refine ⟨orderly_opened p, fun hc => absurd hnamed hc, ?_⟩
    intro q hq hid
    rw [hrooms q hq hid]
    exact tallies_opened id p c
  | @joined p r hr hid ho hp hrooms =>
    have ht := hk.rooms r hr hid
    have hslot := ht.slot (Bool.and_eq_true_iff.1 ho).1
    refine ⟨orderly_joined hk.orderly hslot p, ?_, ?_⟩
    · exact fun hc => absurd (hgrows (hid ▸ hs.created r hr)) hc
    · intro q hq hid'
      rw [hrooms q hq hid']
      exact tallies_join ht ho hp
  | @played p r data next hr hid hp hc hrooms =>
    have ht := hk.rooms r hr hid
    obtain ⟨hlive, hholder, -⟩ := Room.checkTurn_eq_ok_iff.1 hc
    refine ⟨orderly_played hk.orderly (ht.holder p hholder) ?_, ?_, ?_⟩
    · -- before the first turn it is the creator who holds it
      intro hnone
      have hdata : r.data = none := by simp [ht.data, hnone]
      have hcreator := (hs.rooms r hr).untouched hdata hlive
      rw [ht.creator, ← Option.some.inj (hholder.symm.trans hcreator)]
    · exact fun hc => absurd (hgrows (hid ▸ hs.created r hr)) hc
    · intro q hq hid'
      rw [hrooms q hq hid']
      exact tallies_turn ht hp hc

theorem kept_of_recorded {t : List Exchange} (ht : Recorded t h) (id : MatchId) :
    Kept id (ledger id t) h := by
  induction ht with
  | nil => exact kept_empty id
  | @call t h a ht hf ih =>
    have hs := reachable_sound ht.reachable
    have hnext := kept_enters hs ih (enters_call hs hf id)
    rw [ledger_append]
    exact hnext

end Kept

/-- In every run of the hub the turns that were accepted on a room form a chain.  The first
one is that of the player who opened the room.  Each one after it is that of the player to
whom the turn was handed or, if it was left to the open slot, of the one player who came
through the slot; and nobody moves twice in a row.  The room, if it is still there, has the
number of these turns and the data of the last one.  And a turn is accepted just from the
player who holds it, if the room is not over and the turn can go on as the player says. -/
theorem turns_form_a_chain {t : List Exchange} {h : Hub} (ht : Recorded t h) (id : MatchId) :
    ((plies (ledger id t)).IsChain fun m m' => m'.player ≠ m.player ∧
        (m.next = some m'.player ∨ m.next = none ∧ joiners (ledger id t) = [m'.player])) ∧
      (joiners (ledger id t)).length ≤ 1 ∧
      (∀ m ∈ (plies (ledger id t)).head?, openers (ledger id t) = [m.player]) ∧
      (∀ r ∈ h.rooms, r.id = id →
        openers (ledger id t) = [r.creator] ∧ r.version = (plies (ledger id t)).length ∧
          r.data = (plies (ledger id t)).getLast?.map Ply.data) ∧
      ∀ p data next, (∃ m, h.answer (.takeTurn p id data next) = .ok (some m)) ↔
        ∃ r ∈ h.rooms, r.id = id ∧ r.isSeenBy p = true ∧ r.status.isLive = true ∧
          r.holder = some p ∧ ((∃ q, next = some q ∧ q ≠ p ∧ q ∈ r.participants) ∨
            (next = none ∧ r.openSlot = true)) := by
  have hs := reachable_sound ht.reachable
  obtain ⟨horderly, -, hrooms⟩ := kept_of_recorded ht id
  refine ⟨horderly.chain, horderly.joiners, horderly.first, ?_, ?_⟩
  · intro r hr hid
    have hr := hrooms r hr hid
    exact ⟨hr.creator, hr.version, hr.data⟩
  · intro p data next
    exact turn_accepted_iff hs

/-- Ann opens a room and leaves the turn to whoever comes.  Bob comes and moves, and Ann
moves twice, which is once too often. -/
theorem turns_form_a_chain_through_the_open_slot :
    ∃ t h, Recorded t h ∧ t.length = 6 ∧ h.rooms.length = 1 ∧
      plies (ledger ⟨"a"⟩ t) = [⟨⟨"ann"⟩, [1], none⟩, ⟨⟨"bob"⟩, [2], some ⟨"ann"⟩⟩,
        ⟨⟨"ann"⟩, [3], some ⟨"bob"⟩⟩] ∧
      (joiners (ledger ⟨"a"⟩ t)).length ≤ 1 ∧
      ∀ r ∈ h.rooms, r.id = ⟨"a"⟩ → r.version = 3 ∧ r.data = some [3] := by
  have opened := Recorded.nil.call (a := .create ⟨"a"⟩ ⟨"ann"⟩ .autoMatching) (by decide)
  have left := opened.call (a := .takeTurn ⟨"ann"⟩ ⟨"a"⟩ [1] none) trivial
  have joined := left.call (a := .create ⟨"b"⟩ ⟨"bob"⟩ .autoMatching) (by decide)
  have second := joined.call (a := .takeTurn ⟨"bob"⟩ ⟨"a"⟩ [2] (some ⟨"ann"⟩)) trivial
  have third := second.call (a := .takeTurn ⟨"ann"⟩ ⟨"a"⟩ [3] (some ⟨"bob"⟩)) trivial
  have refused := third.call (a := .takeTurn ⟨"ann"⟩ ⟨"a"⟩ [4] (some ⟨"bob"⟩)) trivial
  obtain ⟨-, hone, -, hroom, -⟩ := turns_form_a_chain refused ⟨"a"⟩
  refine ⟨_, _, refused, rfl, by decide, by decide, hone, fun r hr hid => ?_⟩
  obtain ⟨-, hversion, hdata⟩ := hroom r hr hid
  exact ⟨hversion.trans (by decide), hdata.trans (by decide)⟩

end Hub

end TurnRendezvous
