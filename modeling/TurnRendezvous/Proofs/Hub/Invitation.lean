/-
# `Invitation` — the hours of a match with one invited player

One player creates a match for another, leaves an invite in it, the other takes it,
leaves it there again and turns away.  While nobody else names the room it goes through
these hours (`Hour`) one by one, and by a call of one of the two each time:

* `holds_of_create`: it opens at the first one;
* `offered_of_turn`, `taken_of_turn`, `left_of_dismiss`: what the two call next is not
  refused, and leads to the next one;
* `Holds.elsewhere`: all other calls leave it at its hour.

To the host nothing that is told of the room ever means its end (`Holds.quiet`).  The
guest who listens early enough hears the one turn there is (`Awaits`).
-/
import TurnRendezvous.Payload
import TurnRendezvous.Proofs.Hub.Elsewhere
import TurnRendezvous.Watch

namespace TurnRendezvous

/-! ## News of other rooms -/

/-- News of another room means nothing to whoever waits for a turn. -/
theorem TurnWatch.verdict_of_ne {id : MatchId} {n : MatchNews} (hn : n.matchId ≠ id) :
    verdict id n = none := by
  cases n with
  | removed r => exact if_neg hn
  | received m => exact if_pos hn

/-- Nor to whoever watches for the end of a match. -/
theorem EndWatch.verdict_of_ne {id : MatchId} {n : MatchNews} (hn : n.matchId ≠ id) :
    verdict id n = none := by
  cases n with
  | removed r => exact if_neg hn
  | received m =>
    have hm : m.id ≠ id := hn
    simp [verdict, hm]

/-- A match that goes on has not ended. -/
theorem EndWatch.verdict_of_isLive {id : MatchId} {m : Match} (hm : m.status.isLive = true) :
    verdict id (.received m) = none := by
  simp [verdict, hm]

/-! ## The room -/

/-- A match to which one player invites another, and the text that awaits the guest. -/
structure Invitation where
  id : MatchId
  host : PlayerId
  guest : PlayerId
  invite : String
  nonempty : invite ≠ ""
  apart : guest ≠ host

namespace Invitation

/-- How far an invitation has come. -/
inductive Hour
  /-- The room is there. -/
  | opened
  /-- The invite is in the room, and the turn is the guest's. -/
  | offered
  /-- The guest has found the invite and handed the turn back. -/
  | taken
  /-- The guest has told its owner, and is about to turn away. -/
  | leaving
  /-- The guest has turned away. -/
  | left
deriving DecidableEq

section Room
variable (I : Invitation)

def offer : Payload := .invite I.invite I.nonempty

def opened : Room := .ofRequest I.id I.host (.inviting I.guest)

def offered : Room := I.opened.withTurn I.offer.encode (some I.guest)

def taken : Room := I.offered.withTurn I.offer.encode (some I.host)

def left : Room := I.taken.dismiss I.guest

/-- The room at each hour. -/
def room : Hour → Room
  | .opened => I.opened
  | .offered => I.offered
  | .taken => I.taken
  | .leaving => I.taken
  | .left => I.left

variable (t : Hour)

@[simp] theorem id_room : (I.room t).id = I.id := by cases t <;> rfl

@[simp] theorem openSlot_room : (I.room t).openSlot = false := by cases t <;> rfl

@[simp] theorem isLive_room : (I.room t).status.isLive = true := by cases t <;> rfl

@[simp] theorem participants_room : (I.room t).participants = [I.host, I.guest] := by
  have hparty : Room.party I.host [I.guest] = [I.host, I.guest] := by simp [Room.party, I.apart]
  cases t <;> exact hparty

/-- Only the guest turns away, and last. -/
@[simp] theorem dismissed_room :
    (I.room t).dismissed = if t = .left then [I.guest] else [] := by
  cases t <;> rfl

theorem host_sees : (I.room t).isSeenBy I.host = true := by
  refine Room.isSeenBy_iff.2 ⟨by simp, ?_⟩
  rw [dismissed_room]
  split <;> simp [I.apart.symm]

theorem guest_sees_iff : (I.room t).isSeenBy I.guest = true ↔ t ≠ .left := by
  rw [Room.isSeenBy_iff, dismissed_room]
  by_cases ht : t = .left <;> simp [ht]

theorem opponent_of_host : ((I.room t).snapshot I.host).opponent? = some I.guest := by
  simp [Match.opponent?, Room.snapshot, I.apart]

theorem opponent_of_guest : ((I.room t).snapshot I.guest).opponent? = some I.host := by
  simp [Match.opponent?, Room.snapshot, I.apart.symm]

theorem isMyTurn_of_host : (I.opened.snapshot I.host).isMyTurn = true := by
  simp [Match.isMyTurn, Room.snapshot, opened, Room.ofRequest, MatchRequest.inviting,
    Status.isLive]

theorem isMyTurn_of_guest : (I.offered.snapshot I.guest).isMyTurn = true := by
  simp [Match.isMyTurn, Room.snapshot, offered, opened, Room.ofRequest, Room.withTurn,
    MatchRequest.inviting, Status.isLive]

/-- At first the guest is not to move. -/
theorem not_isMyTurn_of_guest : (I.opened.snapshot I.guest).isMyTurn = false := by
  simp [Match.isMyTurn, Room.snapshot, opened, Room.ofRequest, I.apart.symm]

end Room

/-! ## The hours of the room -/

/-- A hub whose room of the invitation is at an hour. -/
structure Holds (I : Invitation) (t : Hour) (h : Hub) : Prop where
  reachable : h.Reachable
  room : h.room? I.id = some (I.room t)
  /-- Nothing that the host was ever told means the end of the match. -/
  quiet : ∀ n ∈ (h.feed I.host).sent, EndWatch.verdict I.id n = none

section Holds
variable {I : Invitation} {t : Hour} {h h' : Hub}

theorem Holds.created (hh : I.Holds t h) : I.id ∈ h.created := by
  obtain ⟨hm, hid⟩ := Hub.mem_of_room? hh.room
  exact hid ▸ (Hub.reachable_sound hh.reachable).created _ hm

/-- What a player sees of the room. -/
theorem Holds.snapshot? (hh : I.Holds t h) {p : PlayerId} (hp : (I.room t).isSeenBy p = true) :
    h.snapshot? I.id p = some ((I.room t).snapshot p) := by
  simp [Hub.snapshot?, Hub.visible?, hh.room, hp]

/-- What is added to the news means no end to the host. -/
theorem quiet_of_adds {N : PlayerId → MatchNews → Prop}
    (hq : ∀ n ∈ (h.feed I.host).sent, EndWatch.verdict I.id n = none) (ha : Hub.Adds N h h')
    (hN : ∀ n, N I.host n → EndWatch.verdict I.id n = none) :
    ∀ n ∈ (h'.feed I.host).sent, EndWatch.verdict I.id n = none := by
  obtain ⟨new, hs, hn⟩ := ha I.host
  rw [hs]
  exact List.forall_mem_append.2 ⟨hq, fun n hmem => hN n (hn n hmem)⟩

theorem Holds.elsewhere (hh : I.Holds t h) (hrun : Hub.Elsewhere I.id h h') : I.Holds t h' := by
  have hspares := (Hub.spares_of_elsewhere hh.reachable hh.created
    (fun r hr => by simp [Option.some.inj (hr.symm.trans hh.room)]) hrun).2
  refine ⟨Hub.reachable_of_elsewhere hh.reachable hrun, hspares.room.trans hh.room, ?_⟩
  exact quiet_of_adds hh.quiet hspares.news fun _ hn => EndWatch.verdict_of_ne hn

/-- The room opens. -/
theorem holds_of_create (hr : h.Reachable) (hid : I.id ∉ h.created) :
    I.Holds .opened (h.perform (.create I.id I.host (.inviting I.guest))) := by
  have hs := Hub.reachable_sound hr
  have hnone : h.room? I.id = none :=
    Hub.room?_eq_none_iff.2 fun r hm hrid => hid (hrid ▸ hs.created r hm)
  have hcall : h.perform (.create I.id I.host (.inviting I.guest)) =
      (h.add I.opened).announce I.opened := by
    have hne : I.host ≠ I.guest := I.apart.symm
    simp [Hub.perform, Hub.createAs, MatchRequest.inviting, hne, Hub.openRoom, opened]
  refine ⟨hr.call hid, ?_, ?_⟩
  · have hroom : ((h.add I.opened).announce I.opened).room? I.id =
        (h.add I.opened).room? I.id := by
      simp only [Hub.room?, Hub.rooms_announce]
    rw [hcall, hroom, Hub.room?_add, hnone]
    exact if_pos rfl
  · rw [hcall]
    refine quiet_of_adds (h := h.add I.opened) ?_
      (Hub.adds_announce (N := fun _ n => EndWatch.verdict I.id n = none) fun p _ => ?_)
      fun _ hn => hn
    · intro n hn
      refine EndWatch.verdict_of_ne fun hnid => hid ?_
      exact hnid ▸ Hub.named_of_reachable hr n hn
    · exact EndWatch.verdict_of_isLive rfl

/-! ## What the two players do -/

/-- A turn that the room allows is taken, and all who see the room are told. -/
theorem takeTurn_of_holds (hh : I.Holds t h) (t' : Hour) {p : PlayerId} {next : Option PlayerId}
    {data : Bytes} (hp : (I.room t).isSeenBy p = true)
    (hc : (I.room t).checkTurn p next = .ok ())
    (ht : (I.room t).withTurn data next = I.room t') :
    h.takeTurn p I.id data next =
      ((h.put (I.room t')).announce (I.room t'), .ok ((I.room t').snapshot p)) := by
  have hv : h.visible? p I.id = some (I.room t) := by simp [Hub.visible?, hh.room, hp]
  simp [Hub.takeTurn, hv, hc, ht]

theorem holds_of_turn (hh : I.Holds t h) {t' : Hour} {p : PlayerId} {next : Option PlayerId}
    {data : Bytes} (hcall : h.takeTurn p I.id data next =
      ((h.put (I.room t')).announce (I.room t'), .ok ((I.room t').snapshot p))) :
    I.Holds t' (h.takeTurn p I.id data next).1 := by
  have hreach := hh.reachable.call (a := .takeTurn p I.id data next) trivial
  refine ⟨hreach, ?_, ?_⟩
  · have hroom : ((h.put (I.room t')).announce (I.room t')).room? I.id =
        (h.put (I.room t')).room? I.id := by
      simp only [Hub.room?, Hub.rooms_announce]
    simp [hcall, hroom, Hub.room?_put, hh.room]
  · rw [hcall]
    refine quiet_of_adds (h := h.put (I.room t')) hh.quiet
      (Hub.adds_announce (N := fun _ n => EndWatch.verdict I.id n = none) fun p _ => ?_)
      fun _ hn => hn
    exact EndWatch.verdict_of_isLive (I.isLive_room t')

/-- The host leaves the invite. -/
theorem takeTurn_host (hh : I.Holds .opened h) :
    h.takeTurn I.host I.id I.offer.encode (some I.guest) =
      ((h.put I.offered).announce I.offered, .ok (I.offered.snapshot I.host)) := by
  refine takeTurn_of_holds hh .offered (I.host_sees _) ?_ rfl
  exact Room.checkTurn_eq_ok_iff.2 ⟨rfl, rfl, .inl ⟨I.guest, rfl, I.apart, by simp⟩⟩

/-- The guest leaves it there again and hands the turn back. -/
theorem takeTurn_guest (hh : I.Holds .offered h) :
    h.takeTurn I.guest I.id I.offer.encode (some I.host) =
      ((h.put I.taken).announce I.taken, .ok (I.taken.snapshot I.guest)) := by
  refine takeTurn_of_holds hh .taken ((I.guest_sees_iff _).2 nofun) ?_ rfl
  exact Room.checkTurn_eq_ok_iff.2 ⟨rfl, rfl, .inl ⟨I.host, rfl, I.apart.symm, by simp⟩⟩

theorem offered_of_turn (hh : I.Holds .opened h) :
    I.Holds .offered (h.takeTurn I.host I.id I.offer.encode (some I.guest)).1 :=
  holds_of_turn hh (takeTurn_host hh)

theorem taken_of_turn (hh : I.Holds .offered h) :
    I.Holds .taken (h.takeTurn I.guest I.id I.offer.encode (some I.host)).1 :=
  holds_of_turn hh (takeTurn_guest hh)

/-- The guest turns away, and the host has not, so that the room stays. -/
theorem left_of_dismiss (hh : I.Holds .leaving h) : I.Holds .left (h.dismiss I.guest I.id).1 := by
  have hroom : h.room? I.id = some I.taken := hh.room
  have hv : h.visible? I.guest I.id = some I.taken := by
    have hseen : I.taken.isSeenBy I.guest = true := (I.guest_sees_iff .taken).2 nofun
    simp [Hub.visible?, hroom, hseen]
  have hstays : (I.taken.dismiss I.guest).isDeserted = false :=
    Room.isDeserted_eq_false_iff.2 ⟨I.host, Room.isSeenBy_iff.1 (I.host_sees .left)⟩
  have hcall : (h.dismiss I.guest I.id).1 = (h.put I.left).send I.guest (.removed I.id) := by
    simp [Hub.dismiss, hv, hstays, left]
  have hreach := hh.reachable.call (a := .dismiss I.guest I.id) trivial
  refine ⟨hreach, ?_, ?_⟩
  · have hput : ((h.put I.left).send I.guest (.removed I.id)).room? I.id =
        (h.put I.left).room? I.id := rfl
    rw [hcall, hput, Hub.room?_put, hroom]
    exact congrArg some (if_pos rfl)
  · rw [hcall]
    refine quiet_of_adds (h := h.put I.left) hh.quiet
      (Hub.adds_send (N := fun p n => p = I.host → EndWatch.verdict I.id n = none) ?_)
      fun _ hn => hn rfl
    exact fun hp => absurd hp I.apart

end Holds

/-! ## The guest's turn -/

/-- What the guest is to hear at an hour. -/
def call? (I : Invitation) : Hour → Option TurnResult
  | .offered => some (.myTurn (I.offered.snapshot I.guest))
  | _ => none

/-- Whoever reads on from this position of the guest's feed comes to the guest's turn, if
it is waiting, and to nothing else that means anything. -/
structure Awaits (I : Invitation) (t : Hour) (h : Hub) (position : Nat) : Prop where
  listens : h.Listens I.guest
  le : position ≤ (h.feed I.guest).sent.length
  call : ((h.feed I.guest).sent.drop position).findSome? (TurnWatch.verdict I.id) = I.call? t

section Awaits
variable {I : Invitation} {t : Hour} {h h' : Hub} {position : Nat}

/-- All the news was read. -/
theorem awaits_position (hl : h.Listens I.guest) (ht : I.call? t = none) :
    I.Awaits t h (h.feed I.guest).position := by
  refine ⟨hl, Nat.le_refl _, ?_⟩
  simp [Feed.position, ht]

theorem Awaits.elsewhere (ha : I.Awaits t h position) (hh : I.Holds t h)
    (hrun : Hub.Elsewhere I.id h h') : I.Awaits t h' position := by
  have hspares := (Hub.spares_of_elsewhere hh.reachable hh.created
    (fun r hr => by simp [Option.some.inj (hr.symm.trans hh.room)]) hrun).2
  obtain ⟨new, hs, hn⟩ := hspares.news I.guest
  have hnew : (new.drop (position - (h.feed I.guest).sent.length)).findSome?
      (TurnWatch.verdict I.id) = none :=
    List.findSome?_eq_none_iff.2 fun n hmem =>
      TurnWatch.verdict_of_ne (hn n (List.mem_of_mem_drop hmem))
  refine ⟨Hub.listens_of_elsewhere hh.reachable ha.listens hrun, ?_, ?_⟩
  · rw [hs, List.length_append]
    exact Nat.le_add_right_of_le ha.le
  · rw [hs, List.drop_append, List.findSome?_append, ha.call, hnew, Option.or_none]

/-- The news that it is the guest's turn. -/
theorem verdict_offered (I : Invitation) :
    TurnWatch.verdict I.id (.received (I.offered.snapshot I.guest)) = I.call? .offered := by
  have hid : (I.offered.snapshot I.guest).id = I.id := rfl
  have hlive : (I.offered.snapshot I.guest).status.isLive = true := rfl
  simp [TurnWatch.verdict, call?, hid, hlive, I.isMyTurn_of_guest]

/-- The guest is told of the turn. -/
theorem Awaits.offered (ha : I.Awaits .opened h position) (hh : I.Holds .opened h) :
    I.Awaits .offered (h.takeTurn I.host I.id I.offer.encode (some I.guest)).1 position := by
  have hroom : h.room? I.offered.id = some I.opened := hh.room
  have hm := (Hub.mem_of_room? hroom).1
  have hseen : I.offered.isSeenBy I.guest = true := (I.guest_sees_iff .offered).2 nofun
  have hinforms := Hub.informs_announce (r := I.offered) (g := h.put I.offered) ha.listens rfl
    ((Hub.reachable_sound hh.reachable).rooms _ hm).nodup (Hub.view_put hroom)
    fun hp => absurd (hp.symm.trans hseen) Bool.false_ne_true
  rw [if_pos hseen] at hinforms
  rw [takeTurn_host hh]
  refine ⟨hinforms.listens, ?_, ?_⟩
  · rw [hinforms.sent, List.length_append]
    exact Nat.le_add_right_of_le ha.le
  · rw [hinforms.sent, List.drop_append_of_le_length ha.le, List.findSome?_append, ha.call]
    simp [call?, verdict_offered]

/-- What a wait from this position ends with, if it reads all that was sent. -/
theorem Awaits.result? (ha : I.Awaits t h position) {v : TurnWatch} (hid : v.matchId = I.id)
    (hv : v.position = position)
    (hup : (h.feed I.guest).resume position = position) (now : Instant) :
    v.result? (h.feed I.guest) now = match I.call? t with
      | some result => some result
      | none => if v.isOverdue now then some .timedOut else none := by
  have hcall : ((h.feed I.guest).unread v.position).findSome? (TurnWatch.verdict v.matchId) =
      I.call? t := by
    rw [hv, hid, Feed.unread, hup, ha.call]
  simp only [TurnWatch.result?, hcall, ha.listens.notClosed]
  cases I.call? t <;> simp

end Awaits

end Invitation

end TurnRendezvous
