/-
# `Agent.start?` — what the owner may expect of an agent that it started

An agent is started once, for a player who is signed in; every other call of
`start?` is refused and leaves the agent as it is, so it is no move.  What a start
does not look at is the gate.  As long as nobody let go of the agent before, the
gate is open and the last outcome gets through; if somebody did, the agent is
driven all the same, and its owner waits in vain (`start_behind_closed_gate`).

* `closed_at_start_iff`: when the gate is closed at the start;
* `last_of_attended`: the end of an agent that nobody lets go of is told;
* `outcome_reaches_owner_after_start`: what a start leads to.
-/
import TurnRendezvous.Proofs.Agent.Farewell

namespace TurnRendezvous

namespace Agent

theorem callbacks_append (t t' : List Stage) : callbacks (t ++ t') = callbacks t ++ callbacks t' :=
  List.flatMap_append

/-- A start finds an agent that was not started, and leaves its gate alone. -/
theorem start_of_moves {a b : Agent} {signedIn : Bool} {m : Match} {position : Nat}
    {marks : List Mark} (h : a.Standing) (hm : a.Moves (.start signedIn m position) marks b) :
    a.rendezvous = none ∧ b.gate = a.gate ∧ marks = [] ∧
      ∃ r, b.rendezvous = some r ∧ r.matchId = m.id ∧ r.progress = .fresh m position := by
  cases hm with
  | start hs =>
    obtain ⟨hr, -, role, -, rfl⟩ := start_of_standing h hs
    exact ⟨hr, rfl, rfl, _, rfl, rfl, rfl⟩

/-- Before it is started only its owner closes the gate of an agent. -/
theorem closed_at_start_iff {role : Role} {timing : Timing} {t : List Stage} {a : Agent}
    (h : Run (ofRole role timing) t a) (hr : a.rendezvous = none) :
    a.gate.closed = true ↔ ∃ st ∈ t, st.letsGo = true := by
  refine ⟨fun hg => ?_, h.closed⟩
  by_contra hl
  have hl : ∀ st ∈ t, st.letsGo = false := by simpa using hl
  have hopen := (h.attended hl).gate (by simp [mode, hr])
  simp [hg] at hopen

/-- What is told last by an agent that has told a last outcome. -/
theorem Trace.exists_last {role : Role} {timing : Timing} {cs : List Callback}
    (h : Trace role timing cs) (hc : ∃ c ∈ cs, c.final = true) :
    ∃ before c, cs = before ++ [c] ∧ c.final = true ∧ ∀ c' ∈ before, c'.final = false := by
  cases h with
  | silent => simp at hc
  | @told c h => exact ⟨[], c, rfl, h, List.forall_mem_nil _⟩
  | success h => simp [h] at hc
  | @gone c c' _ h₁ _ _ h₂ => exact ⟨[c], c', rfl, h₂, List.forall_mem_singleton.2 h₁⟩

/-- The end of an agent that nobody lets go of is told, as the last thing. -/
theorem last_of_attended {role : Role} {timing : Timing} {t : List Stage} {b : Agent}
    (h : Run (ofRole role timing) t b) (hl : ∀ st ∈ t, st.letsGo = false)
    (hb : b.isFinished = true) :
    ∃ before c, callbacks t = before ++ [c] ∧ c.final = true ∧
      ∀ c' ∈ before, c'.final = false := by
  have hend := (isFinished_iff h.aimed.1).1 hb
  exact h.telling.trace.exists_last ((h.attended hl).told hend)

/-- If nobody has let go of an agent, its owner hears of the end in the very move that
brings it. -/
theorem told_of_end {a b : Agent} {t : List Stage} {mv : Move} {marks : List Mark}
    (h : a.Standing) (ha : Attended t a) (hm : a.Moves mv marks b) (hlive : a.mode ≠ .ended)
    (hend : b.mode = .ended) :
    ∃ c r, marks.filterMap Mark.callback? = [c] ∧ c.final = true ∧ b.rendezvous = some r ∧
      c.report.matchId = r.matchId := by
  have hh := heard_of_moves h hm
  generalize marks.filterMap Mark.callback? = cs at hh
  cases hh with
  | nothing hmode => exact absurd (hmode ▸ hend) hlive
  | left hd => exact absurd hd ha.queue
  | success _ hw => simp [hend] at hw
  | @last c _ _ hf _ _ hid =>
    obtain ⟨r, hr, hid⟩ := hid
    exact ⟨c, r, by simp [hears, ha.gate hlive], hf, hr, hid⟩

/-- Every rendezvous of an agent that was started is about the match of that start. -/
theorem matchId_of_started {role : Role} {timing : Timing} {t : List Stage} {b : Agent}
    (h : Run (ofRole role timing) t b) {st : Stage} (hst : st ∈ t) {id : MatchId}
    (hid : st.move.startedOn? = some id) {r : Rendezvous} (hr : b.rendezvous = some r) :
    r.matchId = id := by
  have hmem : id ∈ startedOn t := List.mem_filterMap.2 ⟨st, hst, hid⟩
  rw [(h.aimed.2.started r hr).1, List.mem_singleton] at hmem
  exact hmem.symm

/-- A start that succeeds finds the gate open if and only if nobody let go of the agent
before it, whatever else the owner tried in between.  If the gate is open and nobody
lets go afterwards, it stays open until the end, and the end comes with a last outcome
for the owner, about the match of that start; the move that ends the agent is the
one in which the owner hears it.  If the gate is closed the owner hears nothing,
whatever happens. -/
theorem outcome_reaches_owner_after_start {role : Role} {timing : Timing}
    {t t₁ t₂ : List Stage} {st : Stage} {b : Agent} {signedIn : Bool} {m : Match}
    {position : Nat} (h : Run (ofRole role timing) t b) (ht : t = t₁ ++ st :: t₂)
    (hst : st.move = .start signedIn m position) :
    (st.after.gate.closed = false ↔ ∀ st' ∈ t₁, st'.letsGo = false) ∧
      (st.after.gate.closed = false → (∀ st' ∈ t₂, st'.letsGo = false) →
        (b.isFinished = false → b.gate.closed = false) ∧
        (b.isFinished = true →
          ∃ before c, callbacks t₂ = before ++ [c] ∧ c.final = true ∧
            c.report.matchId = m.id ∧ ∀ c' ∈ before, c'.final = false) ∧
        ∀ st' ∈ t₂, st'.before.isFinished = false → st'.after.isFinished = true →
          ∃ c, callbacks [st'] = [c] ∧ c.final = true ∧ c.report.matchId = m.id) ∧
      (st.after.gate.closed = true → callbacks t = []) := by
  subst ht
  obtain ⟨hbefore, hm, hafter⟩ := h.split
  have hstand := hbefore.aimed.1
  obtain ⟨hr, hgate, hmarks, -⟩ := start_of_moves hstand (hst ▸ hm)
  have hclosed := closed_at_start_iff hbefore hr
  -- nothing was told before the start, and the start tells nothing
  have hearlier : callbacks t₁ = [] := hbefore.telling.before (by simp [mode, hr])
  have hlater : callbacks (t₁ ++ st :: t₂) = callbacks t₂ := by
    rw [callbacks_append, hearlier, List.nil_append, callbacks, List.flatMap_cons, hmarks]
    rfl
  have hopen : st.after.gate.closed = false ↔ ∀ st' ∈ t₁, st'.letsGo = false := by
    rw [hgate, ← Bool.not_eq_true, hclosed]
    simp
  refine ⟨hopen, ?_, ?_⟩
  · intro hg hl
    have hall : ∀ st' ∈ t₁ ++ st :: t₂, st'.letsGo = false := by
      refine List.forall_mem_append.2 ⟨hopen.1 hg, List.forall_mem_cons.2 ⟨?_, hl⟩⟩
      simp [Stage.letsGo, hst]
    have hid : st.move.startedOn? = some m.id := by rw [hst]; rfl
    refine ⟨?_, ?_, ?_⟩
    · intro hb
      exact (h.attended hall).gate (mt (isFinished_iff h.aimed.1).2 (by simp [hb]))
    · intro hb
      obtain ⟨before, c, hcs, hfin, hbef⟩ := last_of_attended h hall hb
      obtain ⟨r, hr', hcid⟩ := h.telling.ids c (by simp [hcs])
      refine ⟨before, c, hlater ▸ hcs, hfin, ?_, hbef⟩
      rw [hcid, matchId_of_started h (List.mem_append_right _ List.mem_cons_self) hid hr']
    · intro st' hmem hlive hend
      obtain ⟨pre, post, rfl⟩ := List.append_of_mem hmem
      have hassoc : t₁ ++ st :: (pre ++ st' :: post) = (t₁ ++ st :: pre) ++ st' :: post := by simp
      obtain ⟨hpre, hm', -⟩ := (hassoc ▸ h).split
      have hrun := hpre.snoc hm'
      obtain ⟨c, r, hc, hfin, hr', hcid⟩ := told_of_end hpre.aimed.1
        (hpre.attended fun q hq => hall q (hassoc ▸ List.mem_append_left _ hq)) hm'
        (mt (isFinished_iff hpre.aimed.1).2 (by simp [hlive]))
        ((isFinished_iff hrun.aimed.1).1 hend)
      refine ⟨c, by simp [callbacks, hc], hfin, ?_⟩
      have hmem : st ∈ t₁ ++ st :: pre ++ [st'] := by simp
      rw [hcid, matchId_of_started hrun hmem hid hr']
  · intro hg
    rw [hlater]
    exact (hafter.silent (standing_of_moves hstand hm) hg).2

/-- A client that is started on a match that is over hears so. -/
theorem outcome_reaches_owner_after_start_of_a_client :
    ∃ t t₁ st t₂ b m, Run (ofRole (.client none) {}) t b ∧ t = t₁ ++ st :: t₂ ∧
      st.move = .start true m 0 ∧ st.after.gate.closed = false ∧ b.isFinished = true ∧
      ∃ before c, callbacks t₂ = before ++ [c] ∧ c.final = true ∧ c.report.matchId = m.id := by
  let m : Match :=
    { id := ⟨"m"⟩, status := .cancelled, turn := .mine, participants := [⟨"ann"⟩, ⟨"bob"⟩]
      creator := ⟨"bob"⟩, viewer := ⟨"ann"⟩, data := none, version := 0 }
  have started := Run.nil.snoc (.start (a := ofRole (.client none) {}) (s := true)
    (m := m) (n := 0) rfl)
  have run := started.snoc (.step (s := { now := 0, position := 0 }) (w := []) rfl)
  obtain ⟨-, hopen, -⟩ := outcome_reaches_owner_after_start run (List.nil_append _).symm rfl
  obtain ⟨-, hlast, -⟩ := hopen rfl (by decide)
  obtain ⟨before, c, hcs, hfin, hid, -⟩ := hlast rfl
  exact ⟨_, [], _, _, _, m, run, rfl, rfl, rfl, rfl, before, c, hcs, hfin, hid⟩

/-- An agent that its owner lets go of first can be started: the start succeeds behind
a closed gate, the agent comes to its end, and its owner, who did nothing since,
hears nothing of it. -/
theorem start_behind_closed_gate :
    ∃ t t₁ st t₂ b m, Run (ofRole (.client none) {}) t b ∧ t = t₁ ++ st :: t₂ ∧
      st.move = .start true m 0 ∧ st.after.gate.closed = true ∧
      (∀ st' ∈ t₂, st'.letsGo = false) ∧ b.isFinished = true ∧ callbacks t = [] := by
  let m : Match :=
    { id := ⟨"m"⟩, status := .cancelled, turn := .mine, participants := [⟨"ann"⟩, ⟨"bob"⟩]
      creator := ⟨"bob"⟩, viewer := ⟨"ann"⟩, data := none, version := 0 }
  have detached := (Run.nil (a := ofRole (.client none) {})).snoc (.owner .detach)
  have started := detached.snoc (.start (s := true) (m := m) (n := 0) rfl)
  have run := started.snoc (.step (s := { now := 0, position := 0 }) (w := []) rfl)
  exact ⟨_, [_], _, _, _, m, run, rfl, rfl, rfl, by decide, rfl, rfl⟩

end Agent

end TurnRendezvous
