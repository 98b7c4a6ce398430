/-
# `World.search_is_followed` — the policy of a session

A session is followed over any match service.  Anything may happen in between, as long as
it is the session that first hears what its agent tells (`World.LeavesReports`).  It then
tries its rooms as a search does that is written down as a recursion (`Side.search`), and
asks for no more rooms than it may.

* `pursued_of_pursues`: how a session stands in the world;
* `search_is_followed`: it returns what its search comes to, and waits for nothing but the
  answer of the service and the first report of its agent.
-/
import TurnRendezvous.Proofs.World.Pursuit

namespace TurnRendezvous

namespace World

variable {σ : Type} [Matchmaker σ]

/-- Nothing happens to the session at `k`, and nobody takes the reports of its agent. -/
structure LeavesReports (k : Nat) (w w' : World σ) : Prop where
  quest : w'.quests[k]? = w.quests[k]?
  reports : ∀ q i m, w.quests[k]? = some q → q.member = some i → w.members[i]? = some m →
    ∃ m', w'.members[i]? = some m' ∧ m'.taken = m.taken

/-- What there is for a session in the world, where it waits for something. -/
structure Equipped (w : World σ) (q : Quest) : Prop where
  answer : q.session.stage = .joining → q.answer ≠ none
  member : ∀ id, q.session.stage = .playing id →
    ∃ i m, q.member = some i ∧ w.members[i]? = some m ∧ m.taken = 0

section Equipped
variable {k : Nat} {w w' : World σ} {q q' : Quest} {input : SessionInput} {calls : List Call}

omit [Matchmaker σ] in
theorem Equipped.other (he : Equipped w q) (hq : w.quests[k]? = some q)
    (ho : LeavesReports k w w') : Equipped w' q := by
  refine ⟨he.answer, ?_⟩
  intro id hst
  obtain ⟨i, m, hi, hm, ht⟩ := he.member id hst
  obtain ⟨m', hm', ht'⟩ := ho.reports q i m hq hi hm
  exact ⟨i, m', hi, hm', ht'.trans ht⟩

theorem equipped_of_advances (hp : Advances k w q input calls w') (hq : w.quests[k]? = some q)
    (hq' : w'.quests[k]? = some q') (hs : q'.session = q.session.advance input) :
    Equipped w' q' := by
  have hl := Session.leads_advance hp.awaits
  rw [← hs] at hl
  constructor
  · intro hj
    obtain ⟨hi, hex⟩ := hl.of_joining hj
    cases hp with
    | ask =>
      obtain rfl := Option.some.inj (hq'.symm.trans (getElem?_modifyQuest (by exact hq) _))
      simp
    | exhausted _ hex' => exact absurd (hex.symm.trans hex') Bool.false_ne_true
    | _ => cases hi
  · intro id hplay
    have hi := hl.of_playing hplay
    cases hp with
    | start =>
      obtain ⟨agent, hmembers, hquests, -⟩ := questStart_eq (w := w) (k := k) (q := q) _
      rw [hquests, List.getElem?_modify_eq, hq] at hq'
      obtain rfl := Option.some.inj hq'
      exact ⟨_, { recruit q with agent }, rfl, by simp [hmembers], rfl⟩
    | _ => cases hi

end Equipped

/-! ## The run -/

/-- How a session stands that began with `q₀` and has come upon `inputs` with these calls. -/
structure Pursued (k : Nat) (q₀ : Quest) (N : UInt32) (inputs : List SessionInput)
    (calls : List Call) (w : World σ) (q : Quest) : Prop where
  here : w.quests[k]? = some q
  side : q.session.side = q₀.session.side
  maxAttempts : q.session.maxAttempts = some N
  midway : Session.Midway N.toNat inputs q.session
  equipped : Equipped w q
  requests : calls.count (.createMatch .autoMatching) = q.session.attempts

section Pursued
variable {k : Nat} {w w' w₀ : World σ} {q q₀ : Quest} {N : UInt32} {inputs : List SessionInput}
  {calls : List Call}

/-- A step asks for a room if it begins an attempt. -/
theorem count_of_advances {input : SessionInput} (hp : Advances k w q input calls w') :
    (q.session.advance input).attempts =
      q.session.attempts + calls.count (.createMatch .autoMatching) := by
  rcases (Session.leads_advance hp.awaits).attempts with ⟨hi, hex, ha⟩ | ⟨hi, ha⟩
  · rw [ha]
    cases hp with
    | ask => rfl
    | exhausted _ hex' => exact absurd (hex.symm.trans hex') Bool.false_ne_true
    | _ => cases hi
  · rw [ha]
    cases hp with
    | ask _ hex => exact absurd (hex.symm.trans (hi rfl)) Bool.false_ne_true
    | _ => rfl

theorem Pursued.own (h : Pursued k q₀ N inputs calls w q) (hb : w.stepSession? k = some w') :
    ∃ q', Pursued k q₀ N (inputs ++ (w.comesUpon k).toList) (calls ++ w.callsSince w') w' q' := by
  obtain ⟨q₁, input, new, hq₁, hp⟩ := advances_of_stepSession hb
  obtain rfl := Option.some.inj (hq₁.symm.trans h.here)
  have hl := Session.leads_advance hp.awaits
  obtain ⟨q', hq', hs, -⟩ := hp.quest h.here
  have hfirst : w.comesUpon k = some input := by
    refine hp.comesUpon h.here ?_
    intro id hst i m hi hm
    obtain ⟨i', m', hi', hm', ht⟩ := h.equipped.member id hst
    obtain rfl := Option.some.inj (hi'.symm.trans hi)
    obtain rfl := Option.some.inj (hm'.symm.trans hm)
    exact ht
  refine ⟨q', hq', ?_, ?_, ?_, equipped_of_advances hp h.here hq' hs, ?_⟩
  · rw [hs, hl.side, h.side]
  · rw [hs, hl.maxAttempts, h.maxAttempts]
  · rw [hs, hfirst]
    exact Session.midway_leads h.maxAttempts h.midway hl
  · rw [hs, hp.callsSince, List.count_append, h.requests, count_of_advances hp]

omit [Matchmaker σ] in
theorem Pursued.other (h : Pursued k q₀ N inputs calls w q) (ho : LeavesReports k w w') :
    Pursued k q₀ N inputs calls w' q :=
  ⟨ho.quest.trans h.here, h.side, h.maxAttempts, h.midway, h.equipped.other h.here ho,
    h.requests⟩

theorem pursued_of_pursues (hq₀ : w₀.quests[k]? = some q₀)
    (hfresh : q₀.session = { side := q₀.session.side, maxAttempts := some N })
    (hrun : Pursues (LeavesReports k) k w₀ inputs calls w) :
    ∃ q, Pursued k q₀ N inputs calls w q := by
  induction hrun with
  | nil =>
    refine ⟨q₀, hq₀, rfl, ?_, ?_, ?_, ?_⟩
    · rw [hfresh]
    · rw [hfresh]
      exact Session.midway_fresh rfl rfl rfl
    · constructor <;> rw [hfresh] <;> simp
    · rw [hfresh]
      rfl
  | own _ hb ih =>
    obtain ⟨q, h⟩ := ih
    exact h.own hb
  | other _ ho ih =>
    obtain ⟨q, h⟩ := ih
    exact ⟨q, h.other ho⟩

/-- What a session waits for that cannot make a step. -/
inductive Idle (w : World σ) (q : Quest) : Prop
  | over : q.session.isOver = true → Idle w q
  /-- The answer of the service has not come. -/
  | answer {due : Instant} {creation : Creation} :
      q.session.stage = .joining → q.answer = some (due, creation) → w.now < due → Idle w q
  /-- The agent plays and has told nothing. -/
  | report {id : MatchId} {i : Nat} {m : Member} :
      q.session.stage = .playing id → q.member = some i → w.members[i]? = some m →
      m.delivered = [] → m.agent.isFinished = false → Idle w q

theorem Pursued.idle (h : Pursued k q₀ N inputs calls w q) (hb : w.stepSession? k = none) :
    Idle w q := by
  simp only [stepSession?, h.here, Option.bind_eq_bind, Option.bind_some] at hb
  split at hb
  next => cases hb
  next hst =>
    obtain ⟨⟨due, creation⟩, ha⟩ := Option.ne_none_iff_exists'.1 (h.equipped.answer hst)
    refine .answer hst ha ?_
    simpa [questJoin?, ha] using hb
  next => cases hb
  next id hst =>
    obtain ⟨i, m, hi, hm, ht⟩ := h.equipped.member id hst
    simp only [questListen?, hi, hm, ht, Option.bind_eq_bind, Option.bind_some] at hb
    split at hb
    next => cases hb
    next hd => exact .report hst hi hm (by simpa using hd) (by simpa using hb)
  next => cases hb
  next => cases hb
  next hst => exact .over (by simp [Session.isOver, hst])
  next hst => exact .over (by simp [Session.isOver, hst])

/-- A session with at most `N` rooms to try is run, over any service and whatever happens
around it.  It asks for no more than `N` rooms.  It has returned what its search comes to
that comes upon the same things, and nothing as long as they do not decide that; the
attempts that it tells are the rooms that it asked for.  And it never stops but at its end,
for the answer of the service, or for the first report of its agent. -/
theorem search_is_followed (hq₀ : w₀.quests[k]? = some q₀)
    (hfresh : q₀.session = { side := q₀.session.side, maxAttempts := some N })
    (hrun : Pursues (LeavesReports k) k w₀ inputs calls w) :
    ∃ q, w.quests[k]? = some q ∧
      calls.count (.createMatch .autoMatching) ≤ N.toNat ∧
      q.session.result? = q₀.session.side.search N.toNat 0 none inputs ∧
      (∀ m, q.session.result? = some (.ok m) →
        m.attempts = calls.count (.createMatch .autoMatching)) ∧
      (w.stepSession? k = none → Idle w q) := by
  obtain ⟨q, h⟩ := pursued_of_pursues hq₀ hfresh hrun
  refine ⟨q, h.here, ?_, ?_, ?_, h.idle⟩
  · rw [h.requests]
    exact Session.attempts_le_of_midway h.midway
  · rw [Session.result?_of_midway h.midway, h.side]
  · intro m hm
    rw [h.requests]
    exact Session.attempts_of_midway h.midway hm

end Pursued

/-! ## A host without an invite -/

/-- What the agents, their tasks and the dismissals do is among what may happen. -/
theorem leavesReports_of_step {k : Nat} {w w' : World Lobby} {words : List UInt64} {part : Part}
    (hpart : ∀ k', part ≠ .session k') (hb : w.step? words part = some w') :
    LeavesReports k w w' := by
  have member {i : Nat} {m m' : Member} {ds : List (Caller × MatchId)}
      (hm : w.members[i]? = some m) (ht : Tends i m' ds w w') (htaken : m'.taken = m.taken) :
      LeavesReports k w w' := by
    refine ⟨by rw [ht.quests], ?_⟩
    intro _ y m₁ _ _ hm₁
    by_cases hy : i = y
    · subst hy
      obtain rfl := Option.some.inj (hm.symm.trans hm₁)
      exact ⟨m', ht.here, htaken⟩
    · exact ⟨m₁, (ht.others y hy).trans hm₁, rfl⟩
  cases part with
  | rendezvous i =>
    obtain ⟨m, agent, marks, hm, -, rfl⟩ := carryOut_of_stepRendezvous hb
    exact member hm (tends_carryOut hm agent _).1 rfl
  | task i j =>
    obtain ⟨m, hm, agent, -, ht⟩ := toiled_stepTask hb
    exact member hm ht rfl
  | dismissal d =>
    obtain ⟨_, -, rfl⟩ := Option.map_eq_some_iff.1 hb
    exact ⟨rfl, fun _ _ m _ _ hm => ⟨m, hm, rfl⟩⟩
  | session k' => exact absurd rfl (hpart k')

/-- Ann looks for somebody, for two rooms at most, and has nothing to offer. -/
def vainQuest : Quest :=
  { caller := 0
    probes := { usual := ⟨.reachable, .zero⟩ }
    timing := {}
    session := { side := .host "", maxAttempts := some 2 } }

def vainWorld : World Lobby :=
  { service := (({} : Lobby).connect "ann" ⟨"ann"⟩).1, quests := [vainQuest] }

/-- All that happens in one of ann's rooms, which the agent at `i` plays. -/
def vainAttempt (i : Nat) : List Part :=
  List.replicate 3 (.session 0) ++ [.rendezvous i] ++ List.replicate 3 (.session 0)

theorem search_is_followed_by_a_host_without_invite :
    let w := vainWorld.moves (vainAttempt 0 ++ vainAttempt 1 ++ [.session 0])
    ∃ inputs calls q, Pursues (LeavesReports 0) 0 vainWorld inputs calls w ∧
      w.quests[0]? = some q ∧
      q.session.result? = some (.error (.attemptsFailed 2
        (.protocolViolation "match #2 broke the rendezvous protocol"))) ∧
      (Side.host "").search 2 0 none inputs = q.session.result? ∧
      calls.count (.createMatch .autoMatching) ≤ 2 := by
  intro w
  have start : Pursues (LeavesReports 0) 0 vainWorld [] [] vainWorld := .nil
  have hrun := pursues_moves (vainAttempt 0 ++ vainAttempt 1 ++ [.session 0])
    (by simp [vainAttempt]) (fun _ _ hpart _ _ => leavesReports_of_step hpart) start
  obtain ⟨q, hq, hcount, hresult, -⟩ := search_is_followed rfl rfl hrun
  have hout : (w.quests[0]?.bind fun q => q.session.result?) = some (.error (.attemptsFailed 2
      (.protocolViolation "match #2 broke the rendezvous protocol"))) := by
    decide +kernel
  rw [hq, Option.bind_some] at hout
  exact ⟨_, _, q, hrun, hq, hout, hresult.symm, hcount⟩

end World

end TurnRendezvous
