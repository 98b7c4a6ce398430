/-
# Connection data

What a host publishes as its invite and a client connects to.  The text
of an invite is its JSON form.
-/
import TurnRendezvous.Json.Record

namespace TurnRendezvous

open Json (Value Record)

/-- Where a host can be reached. -/
structure Invite where
  host : String
  port : UInt16
  playerId : Option String := none
deriving DecidableEq

namespace Invite

/-- Host and port, a colon between them. -/
def address (i : Invite) : String := i.host ++ ":" ++ i.port.toNat.repr

/-- The written names of the fields, in declaration order. -/
def fieldNames : List String := ["host", "port", "player_id"]

/-- A missing player id is left out. -/
def toJson (i : Invite) : Value :=
  .ofMembers ([("host", .text i.host), ("port", .nat i.port.toNat)] ++
    match i.playerId with
    | some p => [("player_id", .text p)]
    | none => [])

def ofJson? (v : Value) : Option Invite := do
  let r ← Record.ofValue? fieldNames v
  let host ← r.required? "host" Value.text?
  let port ← r.required? "port" (Value.natBelow? UInt16.size)
  let playerId ← r.orDefault? "player_id" (Value.option? Value.text?) none
  return { host, port := UInt16.ofNat port, playerId }

/-- The text that is published. -/
def render (i : Invite) : String := i.toJson.render

/-- Reads a published text. -/
def parse? (text : String) : Option Invite := (Json.parse? text).bind ofJson?

end Invite

end TurnRendezvous
