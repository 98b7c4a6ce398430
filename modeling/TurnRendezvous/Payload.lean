/-
# The rendezvous payload

What the players of a match leave in its data: nothing yet, an invite, or
something unusable.  On the wire a payload is five fixed bytes, a four-byte
tag in network order, and behind the tag of an invite the four bytes of
`INV:` and the invite's UTF-8.

A match without data is a payload, too: an uninitialized one.
-/
import TurnRendezvous.Text.Utf8

namespace TurnRendezvous

/-- How far a rendezvous has come. -/
inductive PayloadState
  | uninitialized
  | hasInvite
  | invalid
deriving DecidableEq

namespace PayloadState

def tag : PayloadState → Int
  | .uninitialized => 0
  | .hasInvite => 1
  | .invalid => -1

/-- The state that a number stands for; an unknown number stands for an
invalid one. -/
def ofTag (n : Int) : PayloadState :=
  if n = 0 then .uninitialized else if n = 1 then .hasInvite else .invalid

/-- Whether a match may go on from `previous` to `state`.  A match that this
player has not seen before may be in any valid state; later its tag has to
grow by exactly one. -/
def mayFollow (state : PayloadState) (previous : Option PayloadState) : Bool :=
  match state, previous with
  | .invalid, _ => false
  | _, none => true
  | _, some .invalid => false
  | state, some previous => state.tag == previous.tag + 1

end PayloadState

/-- A payload.  An invite is never empty. -/
inductive Payload
  | uninitialized
  | invite (text : String) (nonempty : text ≠ "")
  | invalid
deriving DecidableEq

namespace Payload

/-- A payload with an invite; an empty one is unusable. -/
def withInvite (text : String) : Payload :=
  if h : text = "" then .invalid else .invite text h

def state : Payload → PayloadState
  | .uninitialized => .uninitialized
  | .invite .. => .hasInvite
  | .invalid => .invalid

def inviteText? : Payload → Option String
  | .invite text _ => some text
  | _ => none

/-! ## Wire form -/

/-- The bytes that every payload starts with. -/
def magic : Bytes := [0x4E, 0x52, 0x5A, 0x56, 0x01]

/-- The bytes in front of an invite. -/
def inviteMark : Bytes := [0x49, 0x4E, 0x56, 0x3A]

/-- A tag as four bytes, the highest first; negative ones in two's complement. -/
def tagBytes (n : Int) : Bytes :=
  let m := (n % UInt32.size).toNat
  [UInt8.ofNat (m / 0x1000000), UInt8.ofNat (m / 0x10000), UInt8.ofNat (m / 0x100), UInt8.ofNat m]

/-- The tag that four bytes spell. -/
def tagOfBytes (a b c d : UInt8) : Int :=
  Int.bmod (((a.toNat * 256 + b.toNat) * 256 + c.toNat) * 256 + d.toNat) UInt32.size

def encode (p : Payload) : Bytes :=
  magic ++ tagBytes p.state.tag ++
    match p with
    | .invite text _ => inviteMark ++ Text.utf8 text
    | _ => []

/-- What follows `start` in `bytes`, if they begin with it. -/
def behind? (start bytes : Bytes) : Option Bytes :=
  if start.isPrefixOf bytes then some (bytes.drop start.length) else none

/-- Reads the part behind an invite's tag. -/
def decodeInvite (trailer : Bytes) : Payload :=
  match (behind? inviteMark trailer).bind Text.ofUtf8? with
  | some text => withInvite text
  | none => .invalid

/-- Reads the part behind the tag of a state.  What follows the tag of an
uninitialized payload is ignored. -/
def decodeTrailer (trailer : Bytes) : PayloadState → Payload
  | .uninitialized => .uninitialized
  | .hasInvite => decodeInvite trailer
  | .invalid => .invalid

/-- Reads the part behind the fixed bytes. -/
def decodeTagged : Bytes → Payload
  | a :: b :: c :: d :: trailer => decodeTrailer trailer (PayloadState.ofTag (tagOfBytes a b c d))
  | _ => .invalid

/-- The payload of a match's data. -/
def decode : Option Bytes → Payload
  | none => .uninitialized
  | some bytes =>
    match behind? magic bytes with
    | some rest => decodeTagged rest
    | none => .invalid

/-! ## Building a payload step by step -/

/-- A change of a payload: it is built anew, read from data, or written and read again. -/
inductive Edit
  | uninitialized
  | invalid
  | withInvite (text : String)
  | setInvite (text : String)
  | decode (data : Option Bytes)
  | reencode
deriving DecidableEq

/-- The payload after one change.  Only `reencode` looks at the old one. -/
def edit (p : Payload) : Edit → Payload
  | .uninitialized => .uninitialized
  | .invalid => .invalid
  | .withInvite text => withInvite text
  | .setInvite text => withInvite text
  | .decode data => decode data
  | .reencode => decode (some p.encode)

/-- The payloads after each of a row of changes. -/
def editAll (p : Payload) : List Edit → List Payload
  | [] => []
  | e :: es => p.edit e :: editAll (p.edit e) es

end Payload

end TurnRendezvous
