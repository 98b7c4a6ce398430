/-
# `Side.search` — what a search comes to

The search for somebody to meet, written as a recursion on the attempts that are left
(`Side.search`) over all that is come upon on the way.  A `Session` is told the same
things one by one and keeps no more of them than a stage, a counter and the last failure.

* `leads_advance`: what a session makes of what it is told, case by case;
* `Midway`, `midway_leads`: where it stands in its search, and that it gets on with it;
* `result?_of_midway`: so it returns what the search comes to.
-/
import TurnRendezvous.Session

namespace TurnRendezvous

/-- A report that amounts to no failure is one of success. -/
theorem Report.isComplete_of_toResult {r : Report} {invite : Option String}
    (h : r.toResult = .ok invite) : r.isComplete = true := by
  cases ho : r.outcome with
  | complete => simp [isComplete, ho]
  | _ => simp [toResult, ho] at h

/-- And one that amounts to a failure is not. -/
theorem Report.isComplete_eq_false_of_toResult {r : Report} {why : Failure}
    (h : r.toResult = .error why) : r.isComplete = false := by
  cases ho : r.outcome with
  | complete => simp [toResult, ho] at h
  | _ => simp [isComplete, ho]

/-! ## The search -/

/-- What comes of a single room. -/
inductive Trial
  /-- Somebody was met in it. -/
  | met (id : MatchId) (invite : Option String)
  /-- The attempt has failed. -/
  | failed (why : Failure)
  /-- The search cannot go on. -/
  | lost (why : Failure)

/-- Whether another room may help after this one failed: always if the room is to
blame, and otherwise if the player is still signed in. -/
def Failure.allowsRetry (why : Failure) (signedIn : Bool) : Bool :=
  match why with
  | .protocolViolation _ => true
  | .timeout => true
  | .matchRemoved => true
  | _ => signedIn

theorem Failure.allowsRetry_of_signedIn (why : Failure) : why.allowsRetry true = true := by
  cases why <;> rfl

/-- What comes of the next room, and what is come upon after it.  A room that has failed
is left behind once it was cancelled and dismissed. -/
def Trial.next : List SessionInput → Option (Trial × List SessionInput)
  | .answered (.error e) :: rest => some (if e.isTransient then .failed e else .lost e, rest)
  | .answered (.ok _) :: .started false :: rest => some (.lost .notSignedIn, rest)
  | .answered (.ok _) :: .started true :: .silenced :: rest => some (.lost .serviceClosed, rest)
  | .answered (.ok room) :: .started true :: .heard r signedIn :: rest =>
    match r.toResult, rest with
    | .ok invite, rest => some (.met room.id invite, rest)
    | .error why, rest =>
      if why.allowsRetry signedIn then
        match rest with
        | .cancelled :: .dismissed :: rest => some (.failed why, rest)
        | _ => none
      else some (.lost why, rest)
  | _ => none

/-- What a search comes to that has `left` attempts left after `made` of them, the last of
which failed for `last`; nothing, if what it comes upon does not decide that yet. -/
def Side.search (side : Side) :
    Nat → Nat → Option Failure → List SessionInput → Option (Except Failure Meeting)
  | 0, made, last, .checked _ :: _ => some (.error (.exhausted made last))
  | _ + 1, _, _, .checked false :: _ => some (.error .notSignedIn)
  | left + 1, made, _, .checked true :: rest =>
    match Trial.next rest with
    | some (.met id invite, _) =>
      some (.ok { matchId := id, invite, attempts := made + 1, hosted := side.isHost })
    | some (.failed why, rest) => side.search left (made + 1) (some why) rest
    | some (.lost why, _) => some (.error why)
    | none => none
  | _, _, _, _ => none

namespace Session

/-- The end of a session that was not dropped. -/
def result? (s : Session) : Option (Except Failure Meeting) :=
  match s.stage with
  | .ended result => some result
  | _ => none

theorem result?_eq_some_iff {s : Session} {result : Except Failure Meeting} :
    s.result? = some result ↔ s.stage = .ended result := by
  rw [result?]
  constructor
  · intro h
    split at h
    next hst =>
      obtain rfl := Option.some.inj h
      exact hst
    next => cases h
  · intro h
    rw [h]

/-! ## Within an attempt -/

/-- `Attempts stage left made trail`: a session at this stage has `left` attempts left
after `made` of them, but for the one it is in, which has left `trail` behind. -/
inductive Attempts : SessionStage → Nat → Nat → List SessionInput → Prop
  | ready {left made : Nat} : Attempts .ready left made []
  | joining {left made : Nat} : Attempts .joining (left + 1) made [.checked true]
  | starting {left made : Nat} (room : Match) :
      Attempts (.starting room) (left + 1) made [.checked true, .answered (.ok room)]
  | playing {left made : Nat} (room : Match) :
      Attempts (.playing room.id) (left + 1) made
        [.checked true, .answered (.ok room), .started true]
  | cancelling {left made : Nat} (room : Match) {r : Report} {signedIn : Bool} {why : Failure} :
      r.toResult = .error why → why.allowsRetry signedIn = true →
      Attempts (.cancelling room.id why) (left + 1) made
        [.checked true, .answered (.ok room), .started true, .heard r signedIn]
  | dismissing {left made : Nat} (room : Match) {r : Report} {signedIn : Bool} {why : Failure} :
      r.toResult = .error why → why.allowsRetry signedIn = true →
      Attempts (.dismissing room.id why) (left + 1) made
        [.checked true, .answered (.ok room), .started true, .heard r signedIn, .cancelled]

/-- How many attempts were begun at a stage, after `made` of them. -/
def begun (stage : SessionStage) (made : Nat) : Nat :=
  match stage with
  | .ready => made
  | _ => made + 1

/-- Where a session stands that has come upon `inputs` in a search with `n` attempts. -/
inductive Midway (n : Nat) (inputs : List SessionInput) (s : Session) : Prop
  /-- What it comes to is left to a shorter search. -/
  | within {left made : Nat} {trail : List SessionInput} :
      Attempts s.stage left made trail → left + made = n → s.attempts = begun s.stage made →
      (∀ rest, s.side.search n 0 none (inputs ++ rest) =
        s.side.search left made s.lastFailure (trail ++ rest)) →
      Midway n inputs s
  | ended {result : Except Failure Meeting} :
      s.stage = .ended result → s.attempts ≤ n →
      (∀ rest, s.side.search n 0 none (inputs ++ rest) = some result) →
      (∀ m, result = .ok m → m.attempts = s.attempts) → Midway n inputs s

/-- What a stage waits for. -/
inductive Awaits : SessionStage → SessionInput → Prop
  | checked (signedIn : Bool) : Awaits .ready (.checked signedIn)
  | answered (room : Except Failure Match) : Awaits .joining (.answered room)
  | started (room : Match) (ok : Bool) : Awaits (.starting room) (.started ok)
  | heard (id : MatchId) (r : Report) (signedIn : Bool) : Awaits (.playing id) (.heard r signedIn)
  | silenced (id : MatchId) : Awaits (.playing id) .silenced
  | cancelled (id : MatchId) (why : Failure) : Awaits (.cancelling id why) .cancelled
  | dismissed (id : MatchId) (why : Failure) : Awaits (.dismissing id why) .dismissed

theorem isRoomFailure_or (why : Failure) (signedIn : Bool) :
    (isRoomFailure why || signedIn) = why.allowsRetry signedIn := by
  cases why <;> simp [isRoomFailure, Failure.allowsRetry]

/-- `Leads s i s'`: the session `s` is told `i`, which it waits for, and goes on as `s'`. -/
inductive Leads (s : Session) : SessionInput → Session → Prop
  | exhausted (signedIn : Bool) : s.stage = .ready → s.isExhausted = true →
      Leads s (.checked signedIn) (s.finish (.error (.exhausted s.attempts s.lastFailure)))
  | signedOut : s.stage = .ready → s.isExhausted = false →
      Leads s (.checked false) (s.finish (.error .notSignedIn))
  | ask : s.stage = .ready → s.isExhausted = false →
      Leads s (.checked true) { s with attempts := s.attempts + 1, stage := .joining }
  | join (room : Match) : s.stage = .joining →
      Leads s (.answered (.ok room)) { s with stage := .starting room }
  | refused {e : Failure} : s.stage = .joining → e.isTransient = true →
      Leads s (.answered (.error e)) (s.retry e)
  | rejected {e : Failure} : s.stage = .joining → e.isTransient = false →
      Leads s (.answered (.error e)) (s.finish (.error e))
  | play {room : Match} : s.stage = .starting room →
      Leads s (.started true) { s with stage := .playing room.id }
  | unable {room : Match} : s.stage = .starting room →
      Leads s (.started false) (s.finish (.error .notSignedIn))
  | meet {id : MatchId} {r : Report} {invite : Option String} (signedIn : Bool) :
      s.stage = .playing id → r.toResult = .ok invite →
      Leads s (.heard r signedIn)
        (s.finish (.ok { matchId := id, invite, attempts := s.attempts, hosted := s.side.isHost }))
  | giveUp {id : MatchId} {r : Report} {signedIn : Bool} {why : Failure} :
      s.stage = .playing id → r.toResult = .error why → why.allowsRetry signedIn = true →
      Leads s (.heard r signedIn) { s with stage := .cancelling id why }
  | lose {id : MatchId} {r : Report} {signedIn : Bool} {why : Failure} :
      s.stage = .playing id → r.toResult = .error why → why.allowsRetry signedIn = false →
      Leads s (.heard r signedIn) (s.finish (.error why))
  | silenced {id : MatchId} : s.stage = .playing id →
      Leads s .silenced (s.finish (.error .serviceClosed))
  | cancelled {id : MatchId} {why : Failure} : s.stage = .cancelling id why →
      Leads s .cancelled { s with stage := .dismissing id why }
  | dismissed {id : MatchId} {why : Failure} : s.stage = .dismissing id why →
      Leads s .dismissed (s.retry why)

theorem leads_begin {s : Session} (hst : s.stage = .ready) (signedIn : Bool) :
    Leads s (.checked signedIn) (s.begin signedIn) := by
  cases hex : s.isExhausted with
  | true =>
    rw [begin, if_pos hex]
    exact .exhausted signedIn hst hex
  | false =>
    rw [begin, if_neg (Bool.eq_false_iff.1 hex)]
    cases signedIn with
    | true => exact .ask hst hex
    | false => exact .signedOut hst hex

theorem leads_judge {s : Session} {id : MatchId} (hst : s.stage = .playing id) (r : Report)
    (signedIn : Bool) : Leads s (.heard r signedIn) (s.judge id r signedIn) := by
  rw [judge]
  cases hr : r.toResult with
  | ok invite => exact .meet signedIn hst hr
  | error why =>
    simp only [isRoomFailure_or]
    split
    next hwhy => exact .giveUp hst hr hwhy
    next hwhy => exact .lose hst hr (Bool.eq_false_iff.2 hwhy)

theorem leads_advance {s : Session} {i : SessionInput} (hi : Awaits s.stage i) :
    Leads s i (s.advance i) := by
  generalize hst : s.stage = stage at hi
  cases hi with
  | checked signedIn =>
    simp only [advance, hst]
    exact leads_begin hst signedIn
  | answered answer =>
    simp only [advance, hst]
    cases answer with
    | ok room => exact .join room hst
    | error e =>
      simp only [join]
      split
      next he => exact .refused hst he
      next he => exact .rejected hst (Bool.eq_false_iff.2 he)
  | started room ok =>
    simp only [advance, hst]
    cases ok with
    | true => exact .play hst
    | false => exact .unable hst
  | heard id r signedIn =>
    simp only [advance, hst]
    exact leads_judge hst r signedIn
  | silenced =>
    simp only [advance, hst]
    exact .silenced hst
  | cancelled =>
    simp only [advance, hst]
    exact .cancelled hst
  | dismissed =>
    simp only [advance, hst]
    exact .dismissed hst

section Leads
variable {s s' : Session} {i : SessionInput}

theorem Leads.side (h : Leads s i s') : s'.side = s.side := by cases h <;> rfl

theorem Leads.maxAttempts (h : Leads s i s') : s'.maxAttempts = s.maxAttempts := by
  cases h <;> rfl

/-- An attempt is counted when a room is asked for. -/
theorem Leads.attempts (h : Leads s i s') :
    i = .checked true ∧ s.isExhausted = false ∧ s'.attempts = s.attempts + 1 ∨
      (i = .checked true → s.isExhausted = true) ∧ s'.attempts = s.attempts := by
  cases h with
  | exhausted _ _ hex => exact .inr ⟨fun _ => hex, rfl⟩
  | ask _ hex => exact .inl ⟨rfl, hex, rfl⟩
  | _ => exact .inr ⟨nofun, rfl⟩

/-- A session waits for a room once it has asked for one. -/
theorem Leads.of_joining (h : Leads s i s') (hj : s'.stage = .joining) :
    i = .checked true ∧ s.isExhausted = false := by
  cases h with
  | ask _ hex => exact ⟨rfl, hex⟩
  | _ => cases hj

/-- And an agent plays for it once that was started. -/
theorem Leads.of_playing (h : Leads s i s') {id : MatchId} (hp : s'.stage = .playing id) :
    i = .started true := by
  cases h with
  | play => rfl
  | _ => cases hp

end Leads

section Midway
variable {s : Session} {n left made : Nat} {inputs trail : List SessionInput}

theorem midway_fresh (hst : s.stage = .ready) (ha : s.attempts = 0)
    (hl : s.lastFailure = none) : Midway n [] s := by
  have hat : Attempts s.stage n 0 [] := hst ▸ .ready
  refine .within hat rfl ?_ ?_
  · rw [hst, ha]
    rfl
  · intro rest
    rw [hl, List.nil_append]

theorem attempts_le_of_midway (hs : Midway n inputs s) : s.attempts ≤ n := by
  cases hs with
  | ended _ ha => exact ha
  | within hat hsum ha =>
    generalize s.stage = stage at hat ha
    cases hat <;> simp only [begun] at ha <;> omega

section Within
variable (hsum : left + made = n)
  (hrest : ∀ rest, s.side.search n 0 none (inputs ++ rest) =
    s.side.search left made s.lastFailure (trail ++ rest))
include hrest

/-- What comes after the next input is all that is left to come upon. -/
theorem search_append (i : SessionInput) (rest : List SessionInput) :
    s.side.search n 0 none (inputs ++ [i] ++ rest) =
      s.side.search left made s.lastFailure (trail ++ i :: rest) := by
  rw [List.append_assoc, List.singleton_append, hrest]

/-- The session ends with what the search comes to. -/
theorem midway_finish {i : SessionInput} {result : Except Failure Meeting} (ha : s.attempts ≤ n)
    (hresult : ∀ rest, s.side.search left made s.lastFailure (trail ++ i :: rest) = some result)
    (hm : ∀ m, result = .ok m → m.attempts = s.attempts) :
    Midway n (inputs ++ [i]) (s.finish result) :=
  .ended rfl ha (fun rest => (search_append hrest i rest).trans (hresult rest)) hm

include hsum

/-- The session goes on within its attempt. -/
theorem midway_goOn {i : SessionInput} {s' : Session} (hside : s'.side = s.side)
    (hlast : s'.lastFailure = s.lastFailure) (hs : Attempts s'.stage left made (trail ++ [i]))
    (ha : s'.attempts = begun s'.stage made) : Midway n (inputs ++ [i]) s' := by
  refine .within hs hsum ha ?_
  intro rest
  rw [hside, hlast, search_append hrest, List.append_assoc, List.singleton_append]

end Within

/-- An attempt has failed, and the session is ready for the next one. -/
theorem midway_retry {i : SessionInput} {why : Failure} (hsum : left + 1 + made = n)
    (hrest : ∀ rest, s.side.search n 0 none (inputs ++ rest) =
      s.side.search (left + 1) made s.lastFailure (trail ++ rest))
    (ha : s.attempts = made + 1)
    (hfailed : ∀ rest, s.side.search (left + 1) made s.lastFailure (trail ++ i :: rest) =
      s.side.search left (made + 1) (some why) rest) :
    Midway n (inputs ++ [i]) (s.retry why) :=
  .within .ready (by omega) ha fun rest => (search_append hrest i rest).trans (hfailed rest)

/-- Whatever a session is told that it waits for takes it on in its search. -/
theorem midway_leads {s' : Session} {N : UInt32} (hN : s.maxAttempts = some N)
    (hs : Midway N.toNat inputs s) {i : SessionInput} (h : Leads s i s') :
    Midway N.toNat (inputs ++ [i]) s' := by
  have hle : s.attempts ≤ N.toNat := attempts_le_of_midway hs
  have hex : s.isExhausted = decide (N.toNat ≤ s.attempts) := by rw [isExhausted, hN]
  cases hs with
  | ended hst =>
    cases h <;> simp_all
  | @within left made _ hat hsum ha hrest =>
    have more (ha : s.attempts = made) (hx : s.isExhausted = false) : ∃ n, left = n + 1 := by
      rw [hex, decide_eq_false_iff_not] at hx
      exact Nat.exists_eq_add_one.2 (by omega)
    cases h with
    | exhausted signedIn hst hx =>
      rw [hst] at hat ha
      cases hat
      replace ha : s.attempts = made := ha
      obtain rfl : left = 0 := by
        rw [hex, decide_eq_true_eq] at hx
        omega
      refine midway_finish hrest hle ?_ (by simp)
      intro rest
      rw [ha]
      rfl
    | signedOut hst hx =>
      rw [hst] at hat ha
      cases hat
      replace ha : s.attempts = made := ha
      obtain ⟨left, rfl⟩ := more ha hx
      exact midway_finish hrest hle (fun _ => rfl) (by simp)
    | ask hst hx =>
      rw [hst] at hat ha
      cases hat
      replace ha : s.attempts = made := ha
      obtain ⟨left, rfl⟩ := more ha hx
      exact midway_goOn hsum hrest rfl rfl .joining (by rw [ha]; rfl)
    | join room hst =>
      rw [hst] at hat ha
      cases hat
      exact midway_goOn hsum hrest rfl rfl (.starting room) ha
    | refused hst he =>
      rw [hst] at hat ha
      cases hat
      exact midway_retry hsum hrest ha fun _ => by simp [Side.search, Trial.next, he]
    | rejected hst he =>
      rw [hst] at hat
      cases hat
      exact midway_finish hrest hle (fun _ => by simp [Side.search, Trial.next, he]) (by simp)
    | play hst =>
      rw [hst] at hat ha
      cases hat
      exact midway_goOn hsum hrest rfl rfl (.playing _) ha
    | unable hst =>
      rw [hst] at hat
      cases hat
      exact midway_finish hrest hle (fun _ => rfl) (by simp)
    | meet signedIn hst hr =>
      rw [hst] at hat ha
      cases hat
      refine midway_finish hrest hle ?_ (by simp)
      intro rest
      simp [Side.search, Trial.next, hr, show s.attempts = made + 1 from ha]
    | giveUp hst hr hwhy =>
      rw [hst] at hat ha
      cases hat
      exact midway_goOn hsum hrest rfl rfl (.cancelling _ hr hwhy) ha
    | lose hst hr hwhy =>
      rw [hst] at hat
      cases hat
      exact midway_finish hrest hle (fun _ => by simp [Side.search, Trial.next, hr, hwhy]) (by simp)
    | silenced hst =>
      rw [hst] at hat
      cases hat
      exact midway_finish hrest hle (fun _ => rfl) (by simp)
    | cancelled hst =>
      rw [hst] at hat ha
      cases hat with
      | cancelling room hr hwhy =>
        exact midway_goOn hsum hrest rfl rfl (.dismissing room hr hwhy) ha
    | dismissed hst =>
      rw [hst] at hat ha
      cases hat with
      | dismissing room hr hwhy =>
        exact midway_retry hsum hrest ha fun _ => by simp [Side.search, Trial.next, hr, hwhy]

/-- What a session returns is what its search comes to. -/
theorem result?_of_midway (hs : Midway n inputs s) : s.result? = s.side.search n 0 none inputs := by
  cases hs with
  | ended hst _ hresult =>
    have h := hresult []
    rw [List.append_nil] at h
    rw [result?, hst, h]
  | @within left _ _ hat _ _ hrest =>
    have h := hrest []
    rw [List.append_nil, List.append_nil] at h
    rw [h, result?]
    generalize s.stage = stage at hat
    cases hat with
    | ready => cases left <;> rfl
    | joining => rfl
    | starting => rfl
    | playing => rfl
    | cancelling room hr hwhy => simp [Side.search, Trial.next, hr, hwhy]
    | dismissing room hr hwhy => simp [Side.search, Trial.next, hr, hwhy]

theorem attempts_of_midway (hs : Midway n inputs s) {m : Meeting}
    (hm : s.result? = some (.ok m)) : m.attempts = s.attempts := by
  cases hs with
  | ended hst _ _ hattempts =>
    rw [result?, hst] at hm
    exact hattempts m (Option.some.inj hm)
  | within hat =>
    rw [result?] at hm
    generalize s.stage = stage at hat hm
    cases hat <;> cases hm

end Midway

end Session

end TurnRendezvous
