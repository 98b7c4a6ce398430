/-
# What goes on by itself

Everything that happens in a world without a call from outside is a step
of one of its parts (`Part`): a rendezvous takes a notice, a background
task goes on, a dismissal is carried out, a session moves to its next
stage.  The step functions are total and say by `none` that there is
nothing to do.
-/
import TurnRendezvous.World.Basic

namespace TurnRendezvous

/-- A part of a world that can make a step. -/
inductive Part
  | rendezvous (member : Nat)
  | task (member : Nat) (job : JobId)
  /-- A dismissal that was started, by its place among those not carried out. -/
  | dismissal (k : Nat)
  | session (quest : Nat)
deriving DecidableEq

namespace World

variable {σ : Type} [Matchmaker σ]

/-! ## Agents -/

/-- What a step of a caller's rendezvous sees; `words` is the randomness. -/
def surroundings (w : World σ) (c : Caller) (words : List UInt64) : Surroundings :=
  { now := w.now, position := (Matchmaker.feed w.service c).position, words }

/-- Carries out an effect of a step of the member `m`, which stands at `i`. -/
def effect (w : World σ) (i : Nat) (m : Member) : Effect → World σ
  | .subscribed => w.subscribe m.caller
  | .submitted .. => w
  | .dismissed =>
    match m.agent.rendezvous with
    | some r => { w with dismissals := w.dismissals ++ [(m.caller, r.matchId)] }
    | none => w
  | .delivered r => w.modifyMember i fun m => { m with delivered := m.delivered ++ [r] }

def stepRendezvous? (w : World σ) (i : Nat) (words : List UInt64) : Option (World σ) := do
  let m ← w.members[i]?
  let (agent, effects) ← m.agent.step? (w.surroundings m.caller words)
  return effects.foldl (fun w e => w.effect i m e) (w.modifyAgent i fun _ => agent)

/-! ## Background tasks -/

/-- A task goes on with other work. -/
def taskProgress (w : World σ) (i : Nat) (j : JobId) (work : Work) : World σ :=
  w.modifyAgent i (·.progress j work)

def taskEnd (w : World σ) (i : Nat) (j : JobId) (how : TaskEnd) : World σ :=
  w.modifyAgent i (·.complete j how)

/-- The service is called with a turn. -/
def issueTurn (w : World σ) (i : Nat) (c : Caller) (id : MatchId) (j : JobId) (data : Bytes)
    (next : Option PlayerId) : World σ :=
  (w.note c (.takeTurn id data next)).taskProgress i j (.submit data next true)

/-- The service answers a turn. -/
def landTurn (w : World σ) (i : Nat) (c : Caller) (id : MatchId) (j : JobId) (data : Bytes)
    (next : Option PlayerId) : World σ :=
  let (w, answer) := w.callTurn c id data next
  w.taskEnd i j (.submitted answer)

/-- A turn is handed to the service, which may hold it back. -/
def stepSubmit? (w : World σ) (i : Nat) (c : Caller) (id : MatchId) (j : JobId) (data : Bytes)
    (next : Option PlayerId) (issued : Bool) : Option (World σ) :=
  match issued, Matchmaker.holdsTurns w.service with
  | false, true => some (w.issueTurn i c id j data next)
  | false, false => some ((w.issueTurn i c id j data next).landTurn i c id j data next)
  | true, true => none
  | true, false => some (w.landTurn i c id j data next)

def hearProbe (w : World σ) (i : Nat) (c : Caller) (j : JobId) (invite localId : String)
    (answer : ProbeAnswer) : World σ :=
  (w.note c (.probeDone invite localId)).taskEnd i j (.probed answer)

/-- A probe asks its peer, or hears from it. -/
def stepProbe? (w : World σ) (i : Nat) (m : Member) (j : JobId) (invite localId : String)
    (reply : Option (Instant × ProbeAnswer)) : Option (World σ) :=
  match reply with
  | some (due, answer) =>
    if due ≤ w.now then some (w.hearProbe i m.caller j invite localId answer) else none
  | none =>
    let r := m.probes.reply invite
    let w := w.note m.caller (.probe invite localId)
    if r.delay.isZero then some (w.hearProbe i m.caller j invite localId r.answer)
    else some (w.taskProgress i j (.probe invite localId (some (w.now + r.delay.nanos, r.answer))))

def stepTurnWatch? (w : World σ) (i : Nat) (c : Caller) (j : JobId) (watch : TurnWatch) :
    Option (World σ) :=
  let feed := Matchmaker.feed w.service c
  match watch.result? feed w.now with
  | some result => some (w.taskEnd i j (.turn result))
  | none =>
    if watch.position = feed.position then none
    else some (w.taskProgress i j (.awaitTurn (watch.caughtUp feed)))

def stepEndWatch? (w : World σ) (i : Nat) (c : Caller) (j : JobId) (watch : EndWatch) :
    Option (World σ) :=
  let feed := Matchmaker.feed w.service c
  match watch.result? feed with
  | some how => some (w.taskEnd i j (.ended how))
  | none =>
    if watch.position = feed.position then none
    else some (w.taskProgress i j (.awaitEnd (watch.caughtUp feed)))

def stepTask? (w : World σ) (i : Nat) (j : JobId) : Option (World σ) := do
  let m ← w.members[i]?
  let r ← m.agent.rendezvous
  let t ← m.agent.task? j
  match t.work with
  | .submit data next issued => w.stepSubmit? i m.caller r.matchId j data next issued
  | .awaitTurn watch => w.stepTurnWatch? i m.caller j watch
  | .awaitEnd watch => w.stepEndWatch? i m.caller j watch
  | .probe invite localId reply => w.stepProbe? i m j invite localId reply
  | .timer due => if due ≤ w.now then w.taskEnd i j .timeUp else none

/-- Carries out a dismissal that was started. -/
def stepDismissal? (w : World σ) (k : Nat) : Option (World σ) :=
  (w.dismissals[k]?).map fun (c, id) =>
    { w with dismissals := w.dismissals.eraseIdx k }.callDismiss c id

/-! ## Sessions -/

/-- A session begins an attempt and asks for a room, or ends. -/
def questBegin (w : World σ) (k : Nat) (q : Quest) : World σ :=
  let session := q.session.begin (Matchmaker.isSignedIn w.service q.caller)
  if session.isOver then w.modifyQuest k fun q => { q with session }
  else
    let (service, creation) := Matchmaker.createMatch w.service q.caller .autoMatching
    let due := w.now + (creation.delay.map Duration.nanos).getD 0
    ({ w with service }.note q.caller (.createMatch .autoMatching)).modifyQuest k fun q =>
      { q with session, answer := some (due, creation) }

/-- A session hears about its room, if the answer has come. -/
def questJoin? (w : World σ) (k : Nat) (q : Quest) : Option (World σ) := do
  let (due, creation) ← q.answer
  if due ≤ w.now then
    let w :=
      if creation.signsOut then { w with service := Matchmaker.signOut w.service q.caller }
      else w
    return w.tellSession k (.answered creation.result)
  else none

/-- A session starts an agent on its room. -/
def questStart (w : World σ) (k : Nat) (q : Quest) (room : Match) : World σ :=
  let agent := Agent.ofRole q.session.side.role q.timing
  let (i, w) := w.addMember { caller := q.caller, probes := q.probes, agent }
  let (started, w) := w.start i room
  (w.tellSession k (.started started)).modifyQuest k fun q => { q with member := some i }

def sessionStage? (w : World σ) (k : Nat) : Option SessionStage :=
  (w.quests[k]?).map fun q => q.session.stage

/-- A session that has judged its room lets go of the agent, unless the agent
goes on watching the room. -/
def questSettle (w : World σ) (k i : Nat) (input : SessionInput) : World σ :=
  let w := w.tellSession k input
  match w.sessionStage? k with
  | some (.ended (.ok m)) => if m.hosted then w else w.detach i
  | some (.cancelling ..) => w.modifyAgent i .abandonMatch
  | _ => w.detach i

/-- A session looks at what its agent has to say. -/
def questListen? (w : World σ) (k : Nat) (q : Quest) : Option (World σ) := do
  let i ← q.member
  let m ← w.members[i]?
  match m.delivered[m.taken]? with
  | some r =>
    let signedIn := Matchmaker.isSignedIn w.service q.caller
    (w.modifyMember i fun m => { m with taken := m.taken + 1 }).questSettle k i
      (.heard r signedIn)
  | none => if m.agent.isFinished then w.questSettle k i .silenced else none

def stepSession? (w : World σ) (k : Nat) : Option (World σ) := do
  let q ← w.quests[k]?
  match q.session.stage with
  | .ready => w.questBegin k q
  | .joining => w.questJoin? k q
  | .starting room => w.questStart k q room
  | .playing _ => w.questListen? k q
  | .cancelling id _ => (w.callCancel q.caller id).tellSession k .cancelled
  | .dismissing id _ => (w.callDismiss q.caller id).tellSession k .dismissed
  | .ended _ => none
  | .aborted => none

/-! ## Steps -/

def step? (w : World σ) (words : List UInt64) : Part → Option (World σ)
  | .rendezvous i => w.stepRendezvous? i words
  | .task i j => w.stepTask? i j
  | .dismissal k => w.stepDismissal? k
  | .session k => w.stepSession? k

end World

end TurnRendezvous
