/-
# Matches as JSON

The written form of the types in `Match.Basic`: names of enumerations in
lower case with underscores, records as objects with their fields in
declaration order, match data as an array of numbers.
-/
import TurnRendezvous.Match.Basic
import TurnRendezvous.Json.Record

namespace TurnRendezvous

open Json (Value Record)

/-! ## Names -/

namespace Status

def name : Status → String
  | .autoMatching => "auto_matching"
  | .active => "active"
  | .cancelled => "cancelled"
  | .completed => "completed"
  | .expired => "expired"

def all : List Status := [.autoMatching, .active, .cancelled, .completed, .expired]

def ofName? (s : String) : Option Status := all.find? (·.name == s)

def toJson (s : Status) : Value := .text s.name

def ofJson? (v : Value) : Option Status := v.variant?.bind ofName?

end Status

namespace Turn

def name : Turn → String
  | .mine => "my_turn"
  | .theirs => "their_turn"

def ofName? (s : String) : Option Turn := [mine, theirs].find? (·.name == s)

def toJson (s : Turn) : Value := .text s.name

def ofJson? (v : Value) : Option Turn := v.variant?.bind ofName?

end Turn

namespace MatchId

def toJson (id : MatchId) : Value := .text id.text

def ofJson? (v : Value) : Option MatchId := v.text?.map MatchId.mk

end MatchId

namespace PlayerId

def toJson (p : PlayerId) : Value := .text p.text

def ofJson? (v : Value) : Option PlayerId := v.text?.map PlayerId.mk

end PlayerId

/-! ## Records -/

namespace Match

/-- The written names of the fields, in declaration order. -/
def fieldNames : List String :=
  ["id", "status", "turn_status", "participants", "creator", "local", "data", "version"]

def toJson (m : Match) : Value :=
  .ofMembers
    [("id", m.id.toJson),
      ("status", m.status.toJson),
      ("turn_status", m.turn.toJson),
      ("participants", .array (m.participants.map PlayerId.toJson)),
      ("creator", m.creator.toJson),
      ("local", m.viewer.toJson),
      ("data", .option (fun b : Bytes => .array (b.map fun x => .nat x.toNat)) m.data),
      ("version", .nat m.version)]

/-- Versions fit 64 bits.  A match without data and version has neither. -/
def ofJson? (v : Value) : Option Match := do
  let r ← Record.ofValue? fieldNames v
  let id ← r.required? "id" MatchId.ofJson?
  let status ← r.required? "status" Status.ofJson?
  let turn ← r.required? "turn_status" Turn.ofJson?
  let participants ← r.required? "participants" (Value.list? PlayerId.ofJson?)
  let creator ← r.required? "creator" PlayerId.ofJson?
  let viewer ← r.required? "local" PlayerId.ofJson?
  let data ← r.orDefault? "data" (Value.option? Value.bytes?) none
  let version ← r.orDefault? "version" (Value.natBelow? UInt64.size) 0
  return { id, status, turn, participants, creator, viewer, data, version }

end Match

namespace MatchRequest

/-- The written names of the fields, in declaration order. -/
def fieldNames : List String := ["invitees", "auto_match"]

def toJson (c : MatchRequest) : Value :=
  .ofMembers
    [("invitees", .array (c.invitees.map PlayerId.toJson)), ("auto_match", .bool c.autoMatch)]

def ofJson? (v : Value) : Option MatchRequest := do
  let r ← Record.ofValue? fieldNames v
  let invitees ← r.orDefault? "invitees" (Value.list? PlayerId.ofJson?) []
  let autoMatch ← r.orDefault? "auto_match" Value.bool? false
  return { invitees, autoMatch }

end MatchRequest

end TurnRendezvous
