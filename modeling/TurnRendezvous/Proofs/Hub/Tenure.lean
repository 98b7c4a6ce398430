/-
# `Tenure` — what a player can be told around a turn

Whoever hands a turn over has begun to listen before, so that no answer to it is
missed, and reads afterwards all that was told in between.  `Tenure` says how far
the player has come with a room, and `Tenure.Apt` which snapshots among that news
can call for another turn.

While a turn is decided there is one thing that has the player told once more that
it is to move: somebody takes the open slot (`Match.Joined`).  What was told then
is old when the turn has been taken, and nothing in it says so but its version.

* `expects_perform`: what others do keeps to what can be expected;
* `taken_of_takeTurn`: and so does the turn, when it is accepted.
-/
import TurnRendezvous.Proofs.Hub.Holding
import TurnRendezvous.Proofs.Hub.Tidings

namespace TurnRendezvous

/-- The same room at the same version, once somebody has taken the open slot. -/
structure Match.Joined (m m' : Match) : Prop where
  slot : m.status = .autoMatching
  id : m'.id = m.id
  version : m'.version = m.version
  data : m'.data = m.data
  party : ∃ q, m'.participants = m.participants ++ [q]

namespace Room

/-! ## Rooms -/

theorem Held.joined_snapshot {p : PlayerId} {r r' : Room} (h : r.Held p r') (hr : r.Sound)
    (hj : r.Joined r') : (r.snapshot p).Joined (r'.snapshot p) :=
  ⟨hr.open_iff.1 hj.1, h.id, h.version, h.data, hj.2.2⟩

/-- A slot that is taken stays taken. -/
theorem Step.closed {r r' : Room} {a : Hub.Action} (hs : r.Step a r')
    (h : r.openSlot = false) : r'.openSlot = false := by
  cases hs with
  | join => rfl
  | turn => exact h
  | cancel => rfl
  | dismiss => exact h
  | expire => rfl

/-- A room that has come to a version, and in which `p` is not to move before the next. -/
structure Beyond (p : PlayerId) (v : Nat) (r : Room) : Prop where
  takesPart : p ∈ r.participants
  version : v ≤ r.version
  later : r.status.isLive = true → r.holder = some p → v < r.version

theorem Step.beyond {p : PlayerId} {v : Nat} {r r' : Room} {a : Hub.Action} (hs : r.Step a r')
    (h : r.Beyond p v) : r'.Beyond p v := by
  cases hs with
  | @join _ q _ ho hq =>
    refine ⟨List.mem_append_left _ h.takesPart, h.version, ?_⟩
    intro _ hh
    cases hr : r.holder with
    | some s =>
      refine h.later (Bool.and_eq_true_iff.1 ho).2 ?_
      simpa [Room.join, hr] using hh
    | none =>
      obtain rfl : q = p := by simpa [Room.join, hr] using hh
      simp [includes, h.takesPart] at hq
  | turn =>
    have hv : v < r.version + 1 := Nat.lt_succ_of_le h.version
    exact ⟨h.takesPart, Nat.le_of_lt hv, fun _ _ => hv⟩
  | cancel => exact ⟨h.takesPart, h.version, fun hl => by cases hl⟩
  | dismiss => exact ⟨h.takesPart, h.version, h.later⟩
  | expire => exact ⟨h.takesPart, h.version, fun hl => by cases hl⟩

end Room

namespace Hub

/-! ## Turns that are still to be taken -/

/-- A snapshot in which `p` is to move, and after which it has taken no turn. -/
def Current (h : Hub) (p : PlayerId) (m : Match) : Prop :=
  ∃ r : Room, r.Sound ∧ r.holder = some p ∧ m = r.snapshot p ∧ StillHeld p r h

theorem current_of_mem {h : Hub} (hs : h.Sound) {r : Room} (hr : r ∈ h.rooms) {p : PlayerId}
    (hm : (r.snapshot p).isMyTurn = true) : h.Current p (r.snapshot p) := by
  have hp := (Room.holder_of_isMyTurn hm).2
  exact ⟨r, hs.rooms r hr, hp, rfl, stillHeld_of_mem hs hr hp⟩

theorem current_perform {h : Hub} (hs : h.Sound) {a : Action} (hf : a.Fresh h) {p : PlayerId}
    {m : Match} (ha : a.isTurnOf p m.id = false) (hc : h.Current p m) :
    (h.perform a).Current p m := by
  obtain ⟨r, hr, hp, rfl, hh⟩ := hc
  exact ⟨r, hr, hp, rfl, stillHeld_perform hs hf ha hh⟩

theorem Current.created {h : Hub} {p : PlayerId} {m : Match} (hc : h.Current p m) :
    m.id ∈ h.created := by
  obtain ⟨r, -, -, rfl, hh⟩ := hc
  exact hh.1

end Hub

/-! ## How far a player has come -/

/-- How far a player has come with a room. -/
inductive Tenure
  /-- It has taken no turn. -/
  | awaiting
  /-- It decides a turn on a snapshot. -/
  | deciding (m : Match)
  /-- The turn that was decided on a snapshot has led to a version. -/
  | taken (m : Match) (version : Nat)

namespace Tenure

section Room
variable (p : PlayerId) (id : MatchId) (h : Hub)

/-- What holds of the room. -/
def Agrees : Tenure → Prop
  | .awaiting => id ∈ h.created
  | .deciding m => m.id = id ∧ h.Current p m
  | .taken _ v => id ∈ h.created ∧ ∀ r ∈ h.rooms, r.id = id → r.Beyond p v

/-- What a snapshot may be that calls for a turn. -/
def Apt (τ : Tenure) (m : Match) : Prop :=
  match τ with
  | .awaiting => h.Current p m
  | .deciding m₀ => m₀.Joined m ∧ ∀ r ∈ h.rooms, r.id = id → r.openSlot = false
  | .taken m₀ v =>
    (h.Current p m ∧ v < m.version) ∨ (m₀.Joined m ∧ v = m.version + 1 ∧ m₀.opponent? ≠ none)

/-- All snapshots that were told after a position and call for a turn are apt. -/
def Expects (τ : Tenure) (position : Nat) : Prop :=
  ∀ m, .received m ∈ (h.feed p).sent.drop position → m.id = id → m.isMyTurn = true → τ.Apt p id h m

end Room

variable {p : PlayerId} {id : MatchId} {h : Hub} {τ : Tenure}

/-- Whoever begins to listen has not been told anything. -/
theorem expects_position (p : PlayerId) (id : MatchId) (h : Hub) (τ : Tenure) :
    τ.Expects p id h (h.feed p).position := by
  intro m hm
  rw [Feed.position, List.drop_length] at hm
  cases hm

theorem Agrees.created (hτ : τ.Agrees p id h) : id ∈ h.created := by
  cases τ with
  | awaiting => exact hτ
  | deciding m => exact hτ.1 ▸ hτ.2.created
  | taken m v => exact hτ.1

/-! ## What others do -/

section Call
variable (hs : h.Sound) {a : Hub.Action} (hf : a.Fresh h)
include hs hf

theorem agrees_perform (ha : a.isTurnOf p id = false) (hτ : τ.Agrees p id h) :
    τ.Agrees p id (h.perform a) := by
  cases τ with
  | awaiting => exact Hub.created_subset_perform hs a hτ
  | deciding m =>
    obtain ⟨rfl, hc⟩ := hτ
    exact ⟨rfl, Hub.current_perform hs hf ha hc⟩
  | taken m v =>
    refine ⟨Hub.created_subset_perform hs a hτ.1, ?_⟩
    rintro q hq rfl
    rcases Hub.step_of_mem hs hf hq hτ.1 with hq | ⟨r, hr, hstep⟩
    · exact hτ.2 q hq rfl
    · exact hstep.beyond (hτ.2 r hr hstep.id_eq.symm)

theorem apt_perform {m : Match} (ha : a.isTurnOf p id = false) (hτ : τ.Agrees p id h)
    (hid : m.id = id) (hm : τ.Apt p id h m) : τ.Apt p id (h.perform a) m := by
  cases τ with
  | awaiting => exact Hub.current_perform hs hf (hid ▸ ha) hm
  | deciding m₀ =>
    refine ⟨hm.1, ?_⟩
    intro q hq hq'
    rcases Hub.step_of_mem hs hf hq (hq' ▸ hτ.created) with hq | ⟨r, hr, hstep⟩
    · exact hm.2 q hq hq'
    · exact hstep.closed (hm.2 r hr (hstep.id_eq.symm.trans hq'))
  | taken m₀ v => exact hm.imp_left fun h => ⟨Hub.current_perform hs hf (hid ▸ ha) h.1, h.2⟩

omit hs in
/-- While a turn is decided, the player is told that it is to move only when somebody
takes the open slot. -/
theorem joined_of_shown {m₀ : Match} {r : Room} (ha : a.isTurnOf p id = false)
    (hτ : (deciding m₀).Agrees p id h) (hshow : h.Shows a r) (hid : r.id = id)
    (hm : (r.snapshot p).isMyTurn = true) : m₀.Joined (r.snapshot p) ∧ r.openSlot = false := by
  obtain ⟨hid₀, r₀, hr₀, -, rfl, hc, hh⟩ := hτ
  have hid₀ : r₀.id = id := hid₀
  cases hshow with
  | opened =>
    have hused : r₀.id ∉ h.created := (hid₀.trans hid.symm) ▸ hf
    exact absurd hc hused
  | @joined _ q _ r hr ho =>
    have hheld := hh r hr (hid.trans hid₀.symm) (Bool.and_eq_true_iff.1 ho).2
    obtain ⟨hheld', hj⟩ := hheld.join (q := q) ho
    exact ⟨hheld'.joined_snapshot hr₀ hj, rfl⟩
  | @turned q r data next hr hc' =>
    obtain ⟨hl, hq, -⟩ := Room.checkTurn_eq_ok_iff.1 hc'
    have hp := (hh r hr (hid.trans hid₀.symm) hl).holder
    obtain rfl := Option.some.inj (hq.symm.trans hp)
    have hid : r.id = id := hid
    simp [Hub.Action.isTurnOf, hid] at ha
  | ended _ hl =>
    have hlive := (Room.holder_of_isMyTurn hm).1
    exact absurd (hl.symm.trans hlive) Bool.false_ne_true

end Call

/-- Once a turn was taken, whatever still calls for one comes after it. -/
theorem apt_of_taken (hs : h.Sound) {m₀ : Match} {v : Nat} (hτ : (taken m₀ v).Agrees p id h)
    {r : Room} (hr : r ∈ h.rooms) (hid : r.id = id) (hm : (r.snapshot p).isMyTurn = true) :
    (taken m₀ v).Apt p id h (r.snapshot p) := by
  obtain ⟨hlive, hp⟩ := Room.holder_of_isMyTurn hm
  exact .inl ⟨Hub.current_of_mem hs hr hm, (hτ.2 r hr hid).later hlive hp⟩

/-- What others do brings the player nothing but what is apt. -/
theorem expects_perform (hs : h.Sound) {a : Hub.Action} (hf : a.Fresh h)
    (ha : a.isTurnOf p id = false) (hτ : τ.Agrees p id h) {position : Nat}
    (he : τ.Expects p id h position) : τ.Expects p id (h.perform a) position := by
  intro m hm hid ht
  rcases (Hub.adds_perform (Hub.tidy_eq hs) a).mem_drop hm with hm | hnew
  · exact apt_perform hs hf ha hτ hid (he m hm hid ht)
  · cases hnew with
    | @shown r hshow hr _ =>
      have hs' := Hub.sound_perform hs hf
      cases τ with
      | awaiting => exact Hub.current_of_mem hs' hr ht
      | deciding m₀ =>
        obtain ⟨hj, hclosed⟩ := joined_of_shown hf ha hτ hshow hid ht
        refine ⟨hj, ?_⟩
        intro q hq hq'
        rw [Hub.eq_of_id_eq hs' hq hr (hq'.trans hid.symm)]
        exact hclosed
      | taken m₀ v => exact apt_of_taken hs' (agrees_perform hs hf ha hτ) hr hid ht

/-- A whole row of calls. -/
theorem follows_since {h' : Hub} (hs : h.Sound) (hrun : Hub.Since p id h h')
    (hτ : τ.Agrees p id h) :
    τ.Agrees p id h' ∧ (∀ position, τ.Expects p id h position → τ.Expects p id h' position) ∧
      ∀ m, m.id = id → τ.Apt p id h m → τ.Apt p id h' m := by
  induction hrun with
  | refl => exact ⟨hτ, fun _ h => h, fun _ _ h => h⟩
  | call hrun hf ha ih =>
    obtain ⟨hτ', he, hm⟩ := ih
    have hs' := Hub.sound_of_since hs hrun
    refine ⟨agrees_perform hs' hf ha hτ', ?_, ?_⟩
    · intro position h
      exact expects_perform hs' hf ha hτ' (he position h)
    · intro m hid h
      exact apt_perform hs' hf ha hτ' hid (hm m hid h)

/-! ## The player's own turn -/

/-- A turn that was decided on a snapshot is accepted at the next version.  What was
told meanwhile is a room that somebody had joined, and then the turn goes to somebody
who was there before. -/
theorem taken_of_takeTurn (hs : h.Sound) {m₀ m : Match} {data : Bytes}
    (hτ : (deciding m₀).Agrees p id h) (ht : (h.takeTurn p id data m₀.opponent?).2 = .ok m) :
    m.version = m₀.version + 1 ∧
      (taken m₀ m.version).Agrees p id (h.takeTurn p id data m₀.opponent?).1 ∧
      ∀ position, (deciding m₀).Expects p id h position →
        (taken m₀ m.version).Expects p id (h.takeTurn p id data m₀.opponent?).1 position := by
  have hf : (Hub.Action.takeTurn p id data m₀.opponent?).Fresh h := trivial
  have hs' : (h.takeTurn p id data m₀.opponent?).1.Sound := Hub.sound_perform hs hf
  have hcreated : id ∈ (h.takeTurn p id data m₀.opponent?).1.created :=
    Hub.created_subset_perform hs (.takeTurn p id data m₀.opponent?) hτ.created
  have hadds := Hub.adds_perform (Hub.tidy_eq hs) (.takeTurn p id data m₀.opponent?)
  simp only [Hub.perform] at hadds
  rcases Hub.takeTurn_cases h p id data m₀.opponent? with ⟨e, heq⟩ | ⟨r, hv, hc, heq⟩
  · rw [heq] at ht
    cases ht
  obtain ⟨hr, hrid, hseen⟩ := Hub.mem_of_visible? hv
  obtain ⟨hlive, -, hnext⟩ := Room.checkTurn_eq_ok_iff.1 hc
  have hversion : m₀.version = r.version := by
    obtain ⟨hid₀, r₀, -, -, rfl, -, hh⟩ := hτ
    exact (hh r hr (hrid.trans hid₀.symm) hlive).version.symm
  have hmem : r.withTurn data m₀.opponent? ∈ (h.takeTurn p id data m₀.opponent?).1.rooms := by
    rw [heq, Hub.rooms_announce]
    exact Hub.mem_rooms_of_put hr rfl
  obtain rfl : (r.withTurn data m₀.opponent?).snapshot p = m := by
    rw [heq] at ht
    exact Except.ok.inj ht
  have hτ' : (taken m₀ (r.version + 1)).Agrees p id (h.takeTurn p id data m₀.opponent?).1 := by
    refine ⟨hcreated, ?_⟩
    intro q hq hqid
    rw [Hub.eq_of_id_eq hs' hq hmem (hqid.trans hrid.symm)]
    refine ⟨(Room.isSeenBy_iff.1 hseen).1, Nat.le_refl _, ?_⟩
    intro _ hholder
    rcases hnext with ⟨s, hs, hne, -⟩ | ⟨hnone, -⟩
    · exact absurd (Option.some.inj (hs.symm.trans hholder)) hne
    · cases hnone.symm.trans hholder
  refine ⟨congrArg (· + 1) hversion.symm, hτ', ?_⟩
  intro position he m hm hid hmine
  rcases hadds.mem_drop hm with hm | hnew
  · obtain ⟨hj, hclosed⟩ := he m hm hid hmine
    refine .inr ⟨hj, by rw [hj.version, hversion]; rfl, ?_⟩
    intro hnone
    rcases hnext with ⟨s, hs, -⟩ | ⟨-, hopen⟩
    · cases hnone.symm.trans hs
    · exact absurd ((hclosed r hr hrid).symm.trans hopen) Bool.false_ne_true
  · cases hnew with
    | shown _ hr' _ => exact apt_of_taken hs' hτ' hr' hid hmine

end Tenure

end TurnRendezvous
