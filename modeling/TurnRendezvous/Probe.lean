/-
# Probing a peer

How the peer behind an invite is probed: the invite says where the peer
listens (`PeerProbe.address`), and a connection to that place has to come
about in time.  A text that is no invite fails the probe before anything
is connected to.
-/
import TurnRendezvous.Duration
import TurnRendezvous.Failure
import TurnRendezvous.Invite

namespace TurnRendezvous

structure PeerProbe where
  /-- How long the connection may take to come about. -/
  connectTimeout : Duration := .ofMillis 5000
deriving DecidableEq

namespace PeerProbe

/-- A probe with a time limit of its own, or with the usual one. -/
def withLimit : Option Duration → PeerProbe
  | some limit => { connectTimeout := limit }
  | none => {}

/-- Where the peer behind an invite is looked for. -/
def address (invite : String) : Except Failure String :=
  match Invite.parse? invite with
  | some i => .ok i.address
  | none => .error .serialization

end PeerProbe

end TurnRendezvous
