/-
# Published connection data arrive

A host writes down where it can be reached, as JSON in the data of a match, and
a client reads it there.  Both writings are undone by their readers: the
text of an invite is never empty, so the payload takes it, and it comes out of
the payload's bytes as it went in.

* `ofJson?_toJson`: an invite is read from the value it is written as;
* `published_reads_back`: and from its text, also out of a payload.
-/
import TurnRendezvous.Invite
import TurnRendezvous.Proofs.Json.Slot
import TurnRendezvous.Proofs.Json.Written
import TurnRendezvous.Proofs.Wire

namespace TurnRendezvous

open Json (Value Record Slot Fits IsWrittenFrom fits_of_written required?_of_given
  orDefault?_of_given)

namespace Invite

theorem isLegible_toJson (i : Invite) : i.toJson.IsLegible := by
  obtain ⟨host, port, playerId⟩ := i
  cases playerId <;> simp [toJson]

/-- What the fields of an invite are read from. -/
def slots (i : Invite) : List Slot :=
  [.required "host" Value.text? i.host,
    .required "port" (Value.natBelow? UInt16.size) i.port.toNat,
    .optional "player_id" (Value.option? Value.text?) none i.playerId]

theorem ofJson?_of_fits (i : Invite) (v : Value) (r : Record)
    (hr : Record.ofValue? fieldNames v = some r) (h : Fits i.slots r) : ofJson? v = some i := by
  simp only [Fits, slots, List.forall_mem_cons] at h
  obtain ⟨hhost, hport, hplayerId, -⟩ := h
  rw [ofJson?, hr]
  simp only [Option.bind_eq_bind, Option.bind_some, required?_of_given hhost,
    required?_of_given hport, orDefault?_of_given hplayerId, UInt16.ofNat_toNat]
  rfl

/-- A missing player id is left out. -/
theorem written (i : Invite) : IsWrittenFrom i.slots i.toJson := by
  obtain ⟨host, port, playerId⟩ := i
  have hport : (Value.nat port.toNat).natBelow? UInt16.size = some port.toNat :=
    Value.natBelow?_nat port.toNat_lt
  cases playerId with
  | none =>
    refine ⟨_, rfl, by simp [slots], by simp, ?_⟩
    simp only [Fits, slots, List.forall_mem_cons]
    exact ⟨.once (Value.text?_text _), .once hport, .missing rfl, List.forall_mem_nil _⟩
  | some p =>
    have hplayer : Value.option? Value.text? (Value.text p) = some (some p) :=
      Value.option?_of_read (v := .text p) nofun (Value.text?_text p)
    refine ⟨_, rfl, by simp [slots], by simp, ?_⟩
    simp only [Fits, slots, List.forall_mem_cons]
    exact ⟨.once (Value.text?_text _), .once hport, .once hplayer, List.forall_mem_nil _⟩

/-- An invite is read from the value it is written as, with or without a player id. -/
theorem ofJson?_toJson (i : Invite) : ofJson? i.toJson = some i := by
  obtain ⟨r, hr, hfits⟩ := fits_of_written i.written
  exact ofJson?_of_fits i _ r hr hfits

theorem parse?_render (i : Invite) : parse? i.render = some i := by
  rw [parse?, render, Json.parse?_render i.isLegible_toJson]
  exact i.ofJson?_toJson

theorem render_ne_empty (i : Invite) : i.render ≠ "" := Json.render_ne_empty i.isLegible_toJson

/-! ## Main statement -/

/-- Whatever the host, the port and the player id are: the text of an invite is not
empty and is read as that invite, and so is the text that a client finds in the bytes
of the payload made of it. -/
theorem published_reads_back (i : Invite) :
    i.render ≠ "" ∧ parse? i.render = some i ∧
      (Payload.decode (some (Payload.withInvite i.render).encode)).inviteText?.bind parse? =
        some i := by
  have hfound :
      (Payload.decode (some (Payload.withInvite i.render).encode)).inviteText? = some i.render :=
    Payload.inviteText?_decode_iff.2 ⟨i.render_ne_empty, rfl⟩
  refine ⟨i.render_ne_empty, i.parse?_render, ?_⟩
  rw [hfound, Option.bind_some, parse?_render]

end Invite

end TurnRendezvous
