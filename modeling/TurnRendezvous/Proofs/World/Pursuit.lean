/-
# `World.Pursues` — one session, and whatever else goes on

A session is followed through its steps.  Each step tells it one thing, makes the calls
that its stage asks for, and changes the world in the one way that its stage allows
(`Advances`, `advances_of_stepSession`).  In between other things happen; which ones is a
parameter of the run (`Pursues`).
-/
import TurnRendezvous.Proofs.Search
import TurnRendezvous.Proofs.World.Agreement
import TurnRendezvous.Proofs.World.Deeds

namespace TurnRendezvous

namespace World

variable {σ : Type} [Matchmaker σ]

/-! ## Steps -/

/-- The calls that were noted between `w` and `w'`. -/
def callsSince (w w' : World σ) : List Call := (w'.log.drop w.log.length).map LogEntry.call

/-- What a session comes upon in its next step: the player's sign-in, the answer of the
service, or the first report of its agent. -/
def comesUpon (w : World σ) (k : Nat) : Option SessionInput := do
  let q ← w.quests[k]?
  let signedIn := Matchmaker.isSignedIn w.service q.caller
  match q.session.stage with
  | .ready => some (.checked signedIn)
  | .joining => do
    let (due, creation) ← q.answer
    if due ≤ w.now then some (.answered creation.result) else none
  | .starting _ => some (.started signedIn)
  | .playing _ => do
    let i ← q.member
    let m ← w.members[i]?
    match m.delivered.head? with
    | some r => some (.heard r signedIn)
    | none => if m.agent.isFinished then some .silenced else none
  | .cancelling .. => some .cancelled
  | .dismissing .. => some .dismissed
  | .ended _ => none
  | .aborted => none

/-- The request of a session for a room: the service answers it, and the session hears of
the answer when it comes. -/
def questAsk (w : World σ) (k : Nat) (c : Caller) : World σ :=
  let (service, creation) := Matchmaker.createMatch w.service c .autoMatching
  let due := w.now + (creation.delay.map Duration.nanos).getD 0
  ({ w with service }.note c (.createMatch .autoMatching)).modifyQuest k fun q =>
    { q with session := q.session.advance (.checked true), answer := some (due, creation) }

/-- How the session at `k` of the quest `q` makes a step: what it is told, which calls it
makes, and what becomes of the world. -/
inductive Advances (k : Nat) (w : World σ) (q : Quest) :
    SessionInput → List Call → World σ → Prop
  | exhausted : q.session.stage = .ready → q.session.isExhausted = true →
      Advances k w q (.checked (Matchmaker.isSignedIn w.service q.caller)) []
        (w.tellSession k (.checked (Matchmaker.isSignedIn w.service q.caller)))
  | signedOut : q.session.stage = .ready → q.session.isExhausted = false →
      Matchmaker.isSignedIn w.service q.caller = false →
      Advances k w q (.checked false) [] (w.tellSession k (.checked false))
  | ask : q.session.stage = .ready → q.session.isExhausted = false →
      Matchmaker.isSignedIn w.service q.caller = true →
      Advances k w q (.checked true) [.createMatch .autoMatching] (w.questAsk k q.caller)
  | join {due : Instant} {creation : Creation} :
      q.session.stage = .joining → q.answer = some (due, creation) → due ≤ w.now →
      Advances k w q (.answered creation.result) []
        ((if creation.signsOut then { w with service := Matchmaker.signOut w.service q.caller }
          else w).tellSession k (.answered creation.result))
  | start {room : Match} : q.session.stage = .starting room →
      Advances k w q (.started (Matchmaker.isSignedIn w.service q.caller)) []
        (w.questStart k q room)
  | hear {id : MatchId} {i : Nat} {m : Member} {r : Report} :
      q.session.stage = .playing id → q.member = some i → w.members[i]? = some m →
      m.delivered[m.taken]? = some r →
      Advances k w q (.heard r (Matchmaker.isSignedIn w.service q.caller)) []
        ((w.modifyMember i fun m => { m with taken := m.taken + 1 }).questSettle k i
          (.heard r (Matchmaker.isSignedIn w.service q.caller)))
  | silence {id : MatchId} {i : Nat} {m : Member} :
      q.session.stage = .playing id → q.member = some i → w.members[i]? = some m →
      m.delivered[m.taken]? = none → m.agent.isFinished = true →
      Advances k w q .silenced [] (w.questSettle k i .silenced)
  | cancel {id : MatchId} {why : Failure} : q.session.stage = .cancelling id why →
      Advances k w q .cancelled [.cancelMatch id]
        ((w.callCancel q.caller id).tellSession k .cancelled)
  | dismiss {id : MatchId} {why : Failure} : q.session.stage = .dismissing id why →
      Advances k w q .dismissed [.dismissMatch id]
        ((w.callDismiss q.caller id).tellSession k .dismissed)

section Advances
variable {k : Nat} {w w' : World σ} {q : Quest} {input : SessionInput} {calls : List Call}

omit [Matchmaker σ] in
/-- A change of a quest is the change of what it is. -/
theorem modifyQuest_congr (hq : w.quests[k]? = some q) {f g : Quest → Quest} (h : f q = g q) :
    w.modifyQuest k f = w.modifyQuest k g := by
  simp only [modifyQuest]
  congr 1
  refine List.ext_getElem? fun x => ?_
  by_cases hx : k = x
  · subst hx
    simp [hq, h]
  · simp [hx]

omit [Matchmaker σ] in
theorem getElem?_modifyQuest (hq : w.quests[k]? = some q) (f : Quest → Quest) :
    (w.modifyQuest k f).quests[k]? = some (f q) := by
  simp [modifyQuest, hq]

theorem begin_eq_advance {s : Session} (hst : s.stage = .ready) (signedIn : Bool) :
    s.begin signedIn = s.advance (.checked signedIn) := by
  simp only [Session.advance, hst]

theorem advances_of_questBegin (hst : q.session.stage = .ready) (hq : w.quests[k]? = some q) :
    ∃ input calls, Advances k w q input calls (w.questBegin k q) := by
  have told (b : Bool) : (w.modifyQuest k fun q' => { q' with session := q.session.begin b }) =
      w.tellSession k (.checked b) := by
    refine modifyQuest_congr hq ?_
    rw [begin_eq_advance hst]
  cases hex : q.session.isExhausted with
  | true =>
    have hover : ∀ b, (q.session.begin b).isOver = true := fun b => by
      simp [Session.begin, hex, Session.finish, Session.isOver]
    simp only [questBegin, hover, if_true, told]
    exact ⟨_, _, .exhausted hst hex⟩
  | false =>
    cases hsigned : Matchmaker.isSignedIn w.service q.caller with
    | false =>
      have hover : (q.session.begin false).isOver = true := by
        simp [Session.begin, hex, Session.finish, Session.isOver]
      simp only [questBegin, hsigned, hover, if_true, told]
      exact ⟨_, _, .signedOut hst hex hsigned⟩
    | true =>
      have hover : (q.session.begin true).isOver = false := by
        simp [Session.begin, hex, Session.isOver]
      have hasked : w.questBegin k q = w.questAsk k q.caller := by
        simp only [questBegin, hsigned, hover, Bool.false_eq_true, if_false, questAsk]
        refine modifyQuest_congr (q := q) ?_ ?_
        · exact hq
        · rw [begin_eq_advance hst]
      rw [hasked]
      exact ⟨_, _, .ask hst hex hsigned⟩

/-- A session makes its steps in no other way. -/
theorem advances_of_stepSession (hb : w.stepSession? k = some w') :
    ∃ q input calls, w.quests[k]? = some q ∧ Advances k w q input calls w' := by
  simp only [stepSession?, Option.bind_eq_bind, Option.bind_eq_some_iff] at hb
  obtain ⟨q, hq, hb⟩ := hb
  refine ⟨q, ?_⟩
  split at hb
  next hst =>
    obtain rfl := Option.some.inj hb
    obtain ⟨input, calls, h⟩ := advances_of_questBegin hst hq
    exact ⟨input, calls, hq, h⟩
  next hst =>
    simp only [questJoin?, Option.bind_eq_bind, Option.bind_eq_some_iff, Option.pure_def,
      Option.ite_none_right_eq_some, Option.some.injEq] at hb
    obtain ⟨⟨due, creation⟩, ha, hdue, rfl⟩ := hb
    exact ⟨_, _, hq, .join hst ha hdue⟩
  next room hst =>
    obtain rfl := Option.some.inj hb
    exact ⟨_, _, hq, .start hst⟩
  next id hst =>
    simp only [questListen?, Option.bind_eq_bind, Option.bind_eq_some_iff] at hb
    obtain ⟨i, hi, m, hm, hb⟩ := hb
    split at hb
    next r hr =>
      obtain rfl := Option.some.inj hb
      exact ⟨_, _, hq, .hear hst hi hm hr⟩
    next hr =>
      simp only [Option.ite_none_right_eq_some, Option.some.injEq] at hb
      obtain ⟨hf, rfl⟩ := hb
      exact ⟨_, _, hq, .silence hst hi hm hr hf⟩
  next id why hst =>
    obtain rfl := Option.some.inj hb
    exact ⟨_, _, hq, .cancel hst⟩
  next id why hst =>
    obtain rfl := Option.some.inj hb
    exact ⟨_, _, hq, .dismiss hst⟩
  next => cases hb
  next => cases hb

/-! ## What a step does to the session -/

omit [Matchmaker σ] in
theorem quest_questSettle {i : Nat} (hq : w.quests[k]? = some q) (input : SessionInput) :
    (w.questSettle k i input).quests[k]? =
      some { q with session := q.session.advance input } := by
  have told : (w.tellSession k input).quests[k]? =
      some { q with session := q.session.advance input } := getElem?_modifyQuest hq _
  simp only [questSettle]
  split
  · split <;> exact told
  · exact told
  · exact told

omit [Matchmaker σ] in
theorem log_questSettle {i : Nat} (input : SessionInput) :
    (w.questSettle k i input).log = w.log := by
  simp only [questSettle]
  split
  · split <;> rfl
  · rfl
  · rfl

/-- The agent that a session plays its room with. -/
def recruit (q : Quest) : Member :=
  { caller := q.caller, probes := q.probes, agent := Agent.ofRole q.session.side.role q.timing }

/-- The world in which a session was told whether its agent was started; `agent` is the
agent now. -/
def enlist (w : World σ) (k : Nat) (q : Quest) (agent : Agent) (ok : Bool) : World σ :=
  { w with
    members := w.members ++ [{ recruit q with agent }]
    quests := w.quests.modify k fun q =>
      { q with session := q.session.advance (.started ok), member := some w.members.length } }

theorem questStart_of_signedOut (hs : Matchmaker.isSignedIn w.service q.caller = false)
    (room : Match) : w.questStart k q room = w.enlist k q (recruit q).agent false := by
  simp [questStart, addMember, start, hs, enlist, recruit, tellSession, modifyQuest,
    Agent.start?, List.modify_modify_eq]
  rfl

theorem questStart_of_signedIn (hs : Matchmaker.isSignedIn w.service q.caller = true)
    (room : Match) :
    ∃ agent, (recruit q).agent.start? true room (Matchmaker.feed w.service q.caller).position =
        some agent ∧
      w.questStart k q room = (w.subscribe q.caller).enlist k q agent true := by
  refine ⟨_, rfl, ?_⟩
  have last (m : Member) (f : Member → Member) :
      (w.members ++ [m]).modify w.members.length f = w.members ++ [f m] := by
    simp [List.modify_eq_take_drop]
  simp [questStart, addMember, start, hs, enlist, recruit, tellSession, modifyQuest,
    Agent.start?, List.modify_modify_eq, Agent.ofRole, subscribe, modifyAgent, modifyMember, last]
  rfl

/-- Whether the agent was started or not, it is there and has told nothing yet. -/
theorem questStart_eq (room : Match) :
    ∃ agent, (w.questStart k q room).members = w.members ++ [{ recruit q with agent }] ∧
      (w.questStart k q room).quests = (w.quests.modify k fun q' =>
        { q' with
          session := q'.session.advance (.started (Matchmaker.isSignedIn w.service q.caller))
          member := some w.members.length }) ∧
      (w.questStart k q room).log = w.log := by
  cases hs : Matchmaker.isSignedIn w.service q.caller with
  | false =>
    rw [questStart_of_signedOut hs]
    exact ⟨_, rfl, rfl, rfl⟩
  | true =>
    obtain ⟨agent, -, heq⟩ := questStart_of_signedIn (k := k) hs room
    rw [heq]
    exact ⟨agent, rfl, rfl, rfl⟩

/-- A step tells the session what it waits for. -/
theorem Advances.awaits (hp : Advances k w q input calls w') :
    Session.Awaits q.session.stage input := by
  cases hp with
  | exhausted hst => exact hst ▸ .checked _
  | signedOut hst => exact hst ▸ .checked _
  | ask hst => exact hst ▸ .checked _
  | join hst => exact hst ▸ .answered _
  | start hst => exact hst ▸ .started _ _
  | hear hst => exact hst ▸ .heard _ _ _
  | silence hst => exact hst ▸ .silenced _
  | cancel hst => exact hst ▸ .cancelled _ _
  | dismiss hst => exact hst ▸ .dismissed _ _

/-- And the session takes it in. -/
theorem Advances.quest (hp : Advances k w q input calls w') (hq : w.quests[k]? = some q) :
    ∃ q', w'.quests[k]? = some q' ∧ q'.session = q.session.advance input ∧
      q'.caller = q.caller ∧ q'.probes = q.probes ∧ q'.timing = q.timing := by
  have told {w₁ : World σ} (hq : w₁.quests[k]? = some q) (input : SessionInput) :
      ∃ q', (w₁.tellSession k input).quests[k]? = some q' ∧
        q'.session = q.session.advance input ∧
        q'.caller = q.caller ∧ q'.probes = q.probes ∧ q'.timing = q.timing :=
    ⟨_, getElem?_modifyQuest hq _, rfl, rfl, rfl, rfl⟩
  cases hp with
  | exhausted => exact told hq _
  | signedOut => exact told hq _
  | ask => exact ⟨_, getElem?_modifyQuest (by exact hq) _, rfl, rfl, rfl, rfl⟩
  | join => exact told (by split <;> exact hq) _
  | start =>
    obtain ⟨agent, -, hquests, -⟩ := questStart_eq (w := w) (k := k) (q := q) _
    rw [hquests, List.getElem?_modify_eq, hq]
    exact ⟨_, rfl, rfl, rfl, rfl, rfl⟩
  | hear => exact ⟨_, quest_questSettle (by exact hq) _, rfl, rfl, rfl, rfl⟩
  | silence => exact ⟨_, quest_questSettle hq _, rfl, rfl, rfl, rfl⟩
  | cancel => exact told (by exact hq) _
  | dismiss => exact told (by exact hq) _

/-- A step notes the calls that it makes, and nothing else. -/
theorem Advances.log (hp : Advances k w q input calls w') :
    w'.log = w.log ++ calls.map fun call => { caller := q.caller, call } := by
  cases hp with
  | exhausted => exact (List.append_nil _).symm
  | signedOut => exact (List.append_nil _).symm
  | ask => rfl
  | join =>
    refine Eq.trans ?_ (List.append_nil _).symm
    simp only [tellSession, modifyQuest]
    split <;> rfl
  | start =>
    obtain ⟨agent, -, -, hlog⟩ := questStart_eq (w := w) (k := k) (q := q) _
    exact hlog.trans (List.append_nil _).symm
  | hear => exact (log_questSettle _).trans (List.append_nil _).symm
  | silence => exact (log_questSettle _).trans (List.append_nil _).symm
  | cancel => rfl
  | dismiss => rfl

theorem Advances.callsSince (hp : Advances k w q input calls w') : w.callsSince w' = calls := by
  simp [World.callsSince, hp.log, Function.comp_def]

/-- What the session is told is what it comes upon, if nobody else has heard its agent. -/
theorem Advances.comesUpon (hp : Advances k w q input calls w') (hq : w.quests[k]? = some q)
    (hfirst : ∀ id, q.session.stage = .playing id → ∀ i m, q.member = some i →
      w.members[i]? = some m → m.taken = 0) : w.comesUpon k = some input := by
  simp only [World.comesUpon, hq, Option.bind_eq_bind, Option.bind_some]
  cases hp with
  | exhausted hst => simp only [hst]
  | signedOut hst _ hs => simp only [hst, hs]
  | ask hst _ hs => simp only [hst, hs]
  | join hst ha hdue => simp [hst, ha, hdue]
  | start hst => simp only [hst]
  | hear hst hi hm hr =>
    rw [hfirst _ hst _ _ hi hm, ← List.head?_eq_getElem?] at hr
    simp [hst, hi, hm, hr]
  | silence hst hi hm hr hf =>
    rw [hfirst _ hst _ _ hi hm, ← List.head?_eq_getElem?] at hr
    simp [hst, hi, hm, hr, hf]
  | cancel hst => simp only [hst]
  | dismiss hst => simp only [hst]

end Advances

/-! ## Runs -/

/-- Follows the session at `k` from `w₀` on: what it comes upon, the calls that it makes,
and the world that this leads to.  In between the world changes as `other` allows. -/
inductive Pursues (other : World σ → World σ → Prop) (k : Nat) (w₀ : World σ) :
    List SessionInput → List Call → World σ → Prop
  | nil : Pursues other k w₀ [] [] w₀
  /-- The session makes a step. -/
  | own {inputs : List SessionInput} {calls : List Call} {w w' : World σ} :
      Pursues other k w₀ inputs calls w → w.stepSession? k = some w' →
      Pursues other k w₀ (inputs ++ (w.comesUpon k).toList) (calls ++ w.callsSince w') w'
  /-- Anything else happens. -/
  | other {inputs : List SessionInput} {calls : List Call} {w w' : World σ} :
      Pursues other k w₀ inputs calls w → other w w' → Pursues other k w₀ inputs calls w'

/-! ## Over a lobby -/

section Lobby
variable {k : Nat} {w w' : World Lobby} {q : Quest} {input : SessionInput} {calls : List Call}

/-- Whoever is signed in asks the hub, and has the answer at once. -/
theorem questAsk_of_signedIn {c : Caller} (hs : Matchmaker.isSignedIn w.service c = true) :
    w.questAsk k c =
      ({ w with service :=
          { w.service with
            hub := (w.service.hub.create (w.player c) .autoMatching).1 } }.note c
        (.createMatch .autoMatching)).modifyQuest k fun q =>
          { q with
            session := q.session.advance (.checked true)
            answer := some (w.now,
              { result := (w.service.hub.create (w.player c) .autoMatching).2 }) } := by
  have hcreate : Matchmaker.createMatch w.service c .autoMatching =
      ({ w.service with hub := (w.service.hub.create (w.player c) .autoMatching).1 },
        { result := (w.service.hub.create (w.player c) .autoMatching).2 }) := by
    have hs : w.service.isSignedIn c = true := hs
    simp [Matchmaker.createMatch, Lobby.create, Lobby.act, hs, World.player]
  simp only [questAsk, hcreate]
  rfl

/-- A change of one agent and of a session leaves the service alone. -/
theorem service_questSettle {i : Nat} (w : World Lobby) (input : SessionInput) :
    (w.questSettle k i input).service = w.service := by
  simp only [questSettle]
  split
  · split <;> rfl
  · rfl
  · rfl

/-- A step of a session changes the hub by calls only, and all handles stay. -/
theorem Advances.service (hp : Advances k w q input calls w') :
    Hub.Later w.service.hub w'.service.hub ∧ w'.service.handles = w.service.handles := by
  cases hp with
  | exhausted => exact ⟨.refl, rfl⟩
  | signedOut => exact ⟨.refl, rfl⟩
  | ask =>
    have acts := Lobby.acts_create w.service q.caller .autoMatching
    exact ⟨later_of_acts acts, acts.handles_eq⟩
  | @join due creation =>
    cases creation.signsOut with
    | true => exact ⟨.refl, rfl⟩
    | false => exact ⟨.refl, rfl⟩
  | @start room =>
    cases hs : Matchmaker.isSignedIn w.service q.caller with
    | false =>
      rw [questStart_of_signedOut hs]
      exact ⟨.refl, rfl⟩
    | true =>
      obtain ⟨agent, -, heq⟩ := questStart_of_signedIn (k := k) hs room
      rw [heq]
      exact ⟨.one (a := .subscribe _) trivial, rfl⟩
  | hear =>
    rw [service_questSettle]
    exact ⟨.refl, rfl⟩
  | silence =>
    rw [service_questSettle]
    exact ⟨.refl, rfl⟩
  | @cancel id =>
    have acts := Lobby.acts_cancel w.service q.caller id
    exact ⟨later_of_acts acts, acts.handles_eq⟩
  | @dismiss id =>
    have acts := Lobby.acts_dismiss w.service q.caller id
    exact ⟨later_of_acts acts, acts.handles_eq⟩

theorem Advances.player (hp : Advances k w q input calls w') (c : Caller) :
    w'.player c = w.player c :=
  player_congr hp.service.2 c

/-- And who is signed in, unless the service signs the player out. -/
theorem Advances.isSignedIn_eq (hp : Advances k w q input calls w')
    (hout : ∀ due creation, q.session.stage = .joining → q.answer = some (due, creation) →
      creation.signsOut = false) (c : Caller) :
    Matchmaker.isSignedIn w'.service c = Matchmaker.isSignedIn w.service c := by
  cases hp with
  | exhausted => rfl
  | signedOut => rfl
  | ask => exact isSignedIn_of_acts (Lobby.acts_create w.service q.caller .autoMatching) c
  | join hst ha =>
    rw [if_neg (by simp [hout _ _ hst ha])]
    rfl
  | @start room =>
    cases hs : Matchmaker.isSignedIn w.service q.caller with
    | false =>
      rw [questStart_of_signedOut hs]
      rfl
    | true =>
      obtain ⟨agent, -, heq⟩ := questStart_of_signedIn (k := k) hs room
      rw [heq]
      rfl
  | hear =>
    rw [service_questSettle]
    rfl
  | silence => rw [service_questSettle]
  | @cancel id => exact isSignedIn_of_acts (Lobby.acts_cancel w.service q.caller id) c
  | @dismiss id => exact isSignedIn_of_acts (Lobby.acts_dismiss w.service q.caller id) c

/-- A session that is signed in cancels the room on the hub. -/
theorem hub_callCancel {c : Caller} (hs : Matchmaker.isSignedIn w.service c = true)
    (id : MatchId) :
    (w.callCancel c id).service.hub = (w.service.hub.cancel (w.player c) id).1 := by
  have hs : w.service.isSignedIn c = true := hs
  simp [callCancel, note, Matchmaker.cancelMatch, Lobby.cancel, Lobby.act, hs, World.player]

theorem hub_callDismiss {c : Caller} (hs : Matchmaker.isSignedIn w.service c = true)
    (id : MatchId) :
    (w.callDismiss c id).service.hub = (w.service.hub.dismiss (w.player c) id).1 := by
  have hs : w.service.isSignedIn c = true := hs
  simp [callDismiss, note, Matchmaker.dismissMatch, Lobby.dismiss, Lobby.act, hs, World.player]

/-- What the session at `k` is told while the parts of a row move, and what it calls, if no
other session has a part. -/
def followed (k : Nat) : World Lobby → List Part → List SessionInput × List Call
  | _, [] => ([], [])
  | w, part :: parts =>
    match w.step? [] part with
    | none => followed k w parts
    | some w' =>
      let (inputs, calls) := followed k w' parts
      match part with
      | .session _ => ((w.comesUpon k).toList ++ inputs, w.callsSince w' ++ calls)
      | _ => (inputs, calls)

/-- A row of moves follows the session. -/
theorem pursues_moves {other : World Lobby → World Lobby → Prop} {w₀ : World Lobby}
    (parts : List Part) (hparts : ∀ part ∈ parts, ∀ k', part = .session k' → k' = k)
    (hother : ∀ part ∈ parts, (∀ k', part ≠ .session k') → ∀ w w' : World Lobby,
      w.step? [] part = some w' → other w w') :
    ∀ {inputs : List SessionInput} {calls : List Call} {w : World Lobby},
      Pursues other k w₀ inputs calls w →
      Pursues other k w₀ (inputs ++ (followed k w parts).1) (calls ++ (followed k w parts).2)
        (w.moves parts) := by
  induction parts with
  | nil =>
    intro inputs calls w h
    simpa [followed, moves] using h
  | cons part parts ih =>
    intro inputs calls w h
    replace ih := @ih (fun p hp => hparts p (List.mem_cons_of_mem _ hp))
      fun p hp => hother p (List.mem_cons_of_mem _ hp)
    cases hb : w.step? [] part with
    | none => simpa [followed, moves, hb] using ih h
    | some w' =>
      have aside (hpart : ∀ k', part ≠ .session k') : Pursues other k w₀ inputs calls w' :=
        h.other (hother part List.mem_cons_self hpart w w' hb)
      cases part with
      | session k' =>
        obtain rfl := hparts _ List.mem_cons_self k' rfl
        simpa [followed, moves, hb] using ih (h.own hb)
      | _ => simpa [followed, moves, hb] using ih (aside (by simp))

end Lobby

end World

end TurnRendezvous
