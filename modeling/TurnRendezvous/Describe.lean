/-
# Descriptions

Agents, sessions and their settings as one line of text each, for a
reader who looks for what is wrong.  A description names the type and its
fields; fields that have nothing to show are stood for by two dots.
-/
import TurnRendezvous.Agent.Basic
import TurnRendezvous.Text.Quoted
import TurnRendezvous.Session

namespace TurnRendezvous.Describe

/-! ## Shapes -/

/-- A name in front of a row of parts. -/
def row (name : String) (parts : List String) : String :=
  name ++ " \x7b " ++ ", ".intercalate parts ++ " \x7d"

def field (f : String × String) : String := f.1 ++ ": " ++ f.2

def record (name : String) (fields : List (String × String)) : String :=
  row name (fields.map field)

/-- A named row of fields that are not all. -/
def openRecord (name : String) (fields : List (String × String)) : String :=
  row name (fields.map field ++ [".."])

/-- A name around one value. -/
def wrapped (name value : String) : String := name ++ "(" ++ value ++ ")"

def option {α : Type} (describe : α → String) : Option α → String
  | none => "None"
  | some a => wrapped "Some" (describe a)

def bool (b : Bool) : String := if b then "true" else "false"

/-! ## Durations -/

/-- `whole` and `part` of `unit`, as a decimal without zeros at its end; `unit`
is a power of ten. -/
def decimal (whole part unit : Nat) : String :=
  let digits := (unit + part).repr.toList.drop 1
  let kept := (digits.reverse.dropWhile (· == '0')).reverse
  whole.repr ++ if kept.isEmpty then "" else "." ++ String.ofList kept

/-- `nanos` in the unit that has `size` nanoseconds. -/
def inUnit (nanos size : Nat) (unit : String) : String :=
  decimal (nanos / size) (nanos % size) size ++ unit

/-- A span of time in the largest unit that it fills. -/
def duration (d : Duration) : String :=
  if nanosPerSecond ≤ d.nanos then inUnit d.nanos nanosPerSecond "s"
  else if nanosPerMilli ≤ d.nanos then inUnit d.nanos nanosPerMilli "ms"
  else if 1000 ≤ d.nanos then inUnit d.nanos 1000 "µs"
  else inUnit d.nanos 1 "ns"

/-! ## Settings -/

def timing (c : Timing) : String :=
  record "HandlerConfig"
    [("first_turn_wait", duration c.firstTurnWait),
      ("default_turn_wait", duration c.defaultTurnWait),
      ("jitter_max", duration c.jitterMax),
      ("p2p_test_timeout", duration c.probeTimeout),
      ("dismiss_on_finish", option bool c.dismissOnFinish)]

def searchConfig (c : SearchConfig) : String :=
  record "AutoMatchConfig"
    [("handler", timing c.agent),
      ("max_attempts", option (fun n => n.toNat.repr) c.maxAttempts)]

/-! ## Players -/

def client (found : Option String) : String :=
  record "ClientRole" [("invite_data", option Text.quoted found)]

def role : Role → String
  | .host invite =>
    wrapped "Host" (record "HostRole" [("invite_data", Text.quoted invite)])
  | .client found => wrapped "Client" (client found)
  | .autoClient localId found =>
    wrapped "AutoMatchClient"
      (openRecord "AutoMatchClientRole"
        [("client", client found), ("local_id", Text.quoted localId)])

def side : Side → String
  | .host invite => record "Host" [("invite_data", Text.quoted invite)]
  | .client localId => openRecord "Client" [("local_id", Text.quoted localId)]

def matchId (id : MatchId) : String := wrapped "MatchId" (Text.quoted id.text)

def phase : Phase → String
  | .idle => "Idle"
  | .waitingForTurn => "WaitingForTurn"
  | .processingTurn => "ProcessingTurn"
  | .verifying => "Verifying"
  | .monitoring => "Monitoring"
  | .finished => "Finished"

def agent (a : Agent) : String :=
  record "MatchHandler"
    [("match_id", option matchId a.matchId), ("phase", phase a.phase),
      ("config", timing a.timing)]

def session (s : Side) (c : SearchConfig) : String :=
  openRecord "AutoMatchSession" [("side", side s), ("config", searchConfig c)]

end TurnRendezvous.Describe
