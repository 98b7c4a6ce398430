/-
# `World.Dealings` — what an owner does with an agent

The owner of an agent starts it, detaches it and stops it, in any order and as often as it
likes.  What such a call does depends on two things alone that the agent keeps, a role until it
is taken and a match until it is given up, and a call that is refused touches neither.

Between two calls anything may happen: players sign in and out, services fail, other owners
make calls, and the agent itself is driven.  All that is asked of it is that it leaves the role
and the match of this agent to its owner (`Spares`), and whatever goes on by itself does so
(`spares_of_step?`), unless a session owns the agent.

* `issued_of_taken`: what the owner of a started agent makes the service do;
* `contract_of_fresh`: the same from the beginning;
* `started_once_given_up_once`: what all of this comes to.
-/
import TurnRendezvous.Matchmaker.Scripted
import TurnRendezvous.World.Step

namespace TurnRendezvous

/-- A step of a rendezvous takes no role and gives up no match. -/
theorem Agent.kept_of_step? {a b : Agent} {s : Surroundings} {es : List Effect}
    (h : a.step? s = some (b, es)) : b.role = a.role ∧ b.matchId = a.matchId := by
  obtain ⟨⟨c, step⟩, hn, hb⟩ := Option.map_eq_some_iff.1 h
  obtain ⟨rfl, -⟩ := Prod.ext_iff.1 hb
  unfold next? at hn
  split at hn
  · cases hn
  · split at hn
    · cases hn
      exact ⟨rfl, rfl⟩
    · cases hn
      exact ⟨rfl, rfl⟩
    · cases hn

namespace World

variable {σ : Type}

/-! ## Calls of an owner -/

/-- A call of an owner. -/
inductive Command
  | start (room : Match)
  | detach
  | stop

def Command.isStop : Command → Bool
  | .stop => true
  | _ => false

/-- A call that was made. -/
structure Deal (σ : Type) where
  before : World σ
  command : Command
  /-- Whether the agent was started by it. -/
  started : Bool
  after : World σ

/-- The calls of the service that a deal made. -/
def Deal.calls (d : Deal σ) : List LogEntry := d.after.log.drop d.before.log.length

theorem Deal.calls_eq {d : Deal σ} {es : List LogEntry} (h : d.after.log = d.before.log ++ es) :
    d.calls = es := by
  rw [Deal.calls, h, List.drop_left]

/-- The calls of the service that a row of deals made, oldest first. -/
def issued (t : List (Deal σ)) : List LogEntry := t.flatMap Deal.calls

theorem issued_cons {d : Deal σ} {es : List LogEntry} (h : d.after.log = d.before.log ++ es)
    (t : List (Deal σ)) : issued (d :: t) = es ++ issued t := by
  rw [issued, List.flatMap_cons, Deal.calls_eq h, issued]

/-- How a match is given up to the service. -/
def surrender (c : Caller) : Option MatchId → List LogEntry
  | none => []
  | some id => [⟨c, .cancelMatch id⟩, ⟨c, .dismissMatch id⟩]

/-! ## What an agent keeps for its owner -/

/-- A world later on, in which only the owner of the member at `i` might have started or given
up its agent, and has not. -/
structure Spares (i : Nat) (w w' : World σ) : Prop where
  kept : ∀ m, w.members[i]? = some m → ∃ m', w'.members[i]? = some m' ∧ m'.caller = m.caller ∧
    m'.agent.role = m.agent.role ∧ m'.agent.matchId = m.agent.matchId

/-- The agent at `i` is its player's, its role is `role` if it was not taken, and its match
`id` if it was not given up. -/
def Held (i : Nat) (c : Caller) (role : Option Role) (id : Option MatchId) (w : World σ) : Prop :=
  ∃ m, w.members[i]? = some m ∧ m.caller = c ∧ m.agent.role = role ∧ m.agent.matchId = id

section Held
variable {i : Nat} {c : Caller} {role : Option Role} {id : Option MatchId} {w w' : World σ}

theorem held_of_spares (h : Held i c role id w) (hs : Spares i w w') : Held i c role id w' := by
  obtain ⟨m, hm, rfl, rfl, rfl⟩ := h
  obtain ⟨m', hm', hc, hrole, hid⟩ := hs.kept m hm
  exact ⟨m', hm', hc, hrole, hid⟩

theorem held_modifyAgent (h : Held i c role id w) {f : Agent → Agent} {role' : Option Role}
    {id' : Option MatchId}
    (hf : ∀ a : Agent, a.role = role → a.matchId = id → (f a).role = role' ∧ (f a).matchId = id') :
    Held i c role' id' (w.modifyAgent i f) := by
  obtain ⟨m, hm, hc, hrole, hid⟩ := h
  obtain ⟨hrole', hid'⟩ := hf m.agent hrole hid
  exact ⟨{ m with agent := f m.agent }, by simp [modifyAgent, modifyMember, hm], hc, hrole', hid'⟩

/-- To detach an agent takes nothing from its owner. -/
theorem held_detach (h : Held i c role id w) : Held i c role id (w.detach i) :=
  held_modifyAgent h fun _ hrole hid => ⟨hrole, hid⟩

end Held

/-! ## What one call does -/

section Call
variable [Matchmaker σ] {i : Nat} {c : Caller} {role : Option Role} {id : Option MatchId}
  {w : World σ}

/-- Makes a call for the owner of the member at `i`; answers whether the agent was started. -/
def command (w : World σ) (i : Nat) : Command → Bool × World σ
  | .start room => w.start i room
  | .detach => (false, w.detach i)
  | .stop => (false, w.stop i)

/-- The service after a call that was logged. -/
def serve (s : σ) (e : LogEntry) : σ :=
  match e.call with
  | .cancelMatch id => (Matchmaker.cancelMatch s e.caller id).1
  | .dismissMatch id => (Matchmaker.dismissMatch s e.caller id).1
  | _ => s

/-- A start is refused for a player who is not signed in, and to an agent without a role. -/
theorem start_of_refused (h : Held i c role id w)
    (hr : Matchmaker.isSignedIn w.service c = false ∨ role = none) (room : Match) :
    w.start i room = (false, w) := by
  obtain ⟨m, hm, rfl, hrole, -⟩ := h
  have hnone : m.agent.start? (Matchmaker.isSignedIn w.service m.caller) room
      (Matchmaker.feed w.service m.caller).position = none := by
    rcases hr with hout | rfl
    · simp [Agent.start?, hout]
    · simp [Agent.start?, hrole]
  simp only [start, hm, hnone]

/-- Otherwise it takes the role, and the player listens from then on. -/
theorem start_of_fresh {role : Role} (h : Held i c (some role) id w)
    (hs : Matchmaker.isSignedIn w.service c = true) (room : Match) :
    (w.start i room).1 = true ∧ Held i c none (some room.id) (w.start i room).2 ∧
      (w.start i room).2.log = w.log ∧
      (w.start i room).2.subscriptions = w.subscriptions + 1 := by
  obtain ⟨m, hm, rfl, hrole, -⟩ := h
  obtain ⟨a, ha, hnone, hid⟩ : ∃ a, m.agent.start? (Matchmaker.isSignedIn w.service m.caller) room
      (Matchmaker.feed w.service m.caller).position = some a ∧ a.role = none ∧
      a.matchId = some room.id := by
    simp [Agent.start?, hs, hrole]
  simp only [start, hm, ha]
  refine ⟨trivial, ?_, rfl, rfl⟩
  exact ⟨{ m with agent := a }, by simp [modifyAgent, modifyMember, subscribe, hm], rfl, hnone, hid⟩

/-- To stop an agent is to give its match up, once. -/
theorem stop_of_held (h : Held i c role id w) :
    Held i c role none (w.stop i) ∧ (w.stop i).log = w.log ++ surrender c id ∧
      (w.stop i).service = (surrender c id).foldl serve w.service := by
  have hgone : Held i c role none (w.modifyAgent i .abandonMatch) :=
    held_modifyAgent h fun _ hrole _ => ⟨hrole, rfl⟩
  obtain ⟨m, hm, rfl, -, rfl⟩ := h
  simp only [stop, hm]
  cases m.agent.matchId with
  | none => exact ⟨hgone, (List.append_nil _).symm, rfl⟩
  | some id =>
    refine ⟨hgone, ?_, rfl⟩
    simp [callDismiss, callCancel, note, modifyAgent, modifyMember, surrender]

/-- A call that starts no agent: a refused start, or a detach, or a stop. -/
theorem command_of_held (h : Held i c role id w) (cmd : Command)
    (hcmd : ∀ room, cmd = .start room → Matchmaker.isSignedIn w.service c = false ∨ role = none) :
    (w.command i cmd).1 = false ∧
      Held i c role (if cmd.isStop then none else id) (w.command i cmd).2 ∧
      (w.command i cmd).2.log = w.log ++ if cmd.isStop then surrender c id else [] := by
  cases cmd with
  | start room =>
    have hsame : w.command i (.start room) = (false, w) :=
      start_of_refused h (hcmd room rfl) room
    rw [hsame]
    exact ⟨rfl, h, (List.append_nil _).symm⟩
  | detach => exact ⟨rfl, held_detach h, (List.append_nil _).symm⟩
  | stop =>
    obtain ⟨hgone, hlog, -⟩ := stop_of_held h
    exact ⟨rfl, hgone, hlog⟩

end Call

/-! ## What a row of calls does -/

/-- The deals of an owner, and what goes on between them. -/
inductive Dealings [Matchmaker σ] (i : Nat) : World σ → List (Deal σ) → World σ → Prop
  | nil (w : World σ) : Dealings i w [] w
  | meanwhile {w w₁ w' : World σ} {t : List (Deal σ)} :
      Spares i w w₁ → Dealings i w₁ t w' → Dealings i w t w'
  | deal {w w' : World σ} {t : List (Deal σ)} (c : Command) :
      Dealings i (w.command i c).2 t w' →
      Dealings i w (⟨w, c, (w.command i c).1, (w.command i c).2⟩ :: t) w'

/-- What an owner has come to: the agent was never started, or just once, and its match was
given up to the service if a stop came after that, in the first one. -/
inductive Contract (c : Caller) (t : List (Deal σ)) : Prop
  | unstarted : (∀ d ∈ t, d.started = false) → issued t = [] → Contract c t
  | started {t₁ t₂ : List (Deal σ)} {d : Deal σ} {room : Match} :
      t = t₁ ++ d :: t₂ → d.command = .start room → d.started = true →
      (∀ d' ∈ t₁ ++ t₂, d'.started = false) →
      issued t = (if t₂.any (·.command.isStop) then
        [⟨c, .cancelMatch room.id⟩, ⟨c, .dismissMatch room.id⟩] else []) →
      Contract c t

/-- A call before that started nothing and issued nothing. -/
theorem Contract.cons {c : Caller} {t : List (Deal σ)} (h : Contract c t) {d : Deal σ}
    (hd : d.started = false) (hlog : d.after.log = d.before.log ++ []) : Contract c (d :: t) := by
  have hissued : issued (d :: t) = issued t := issued_cons hlog t
  cases h with
  | unstarted hall hnone =>
    exact .unstarted (List.forall_mem_cons.2 ⟨hd, hall⟩) (hissued.trans hnone)
  | @started t₁ _ _ _ ht hcmd hyes hall hgiven =>
    have hsplit : d :: t = (d :: t₁) ++ _ := congrArg (d :: ·) ht
    exact .started hsplit hcmd hyes (List.forall_mem_cons.2 ⟨hd, hall⟩) (hissued.trans hgiven)

section Row
variable [Matchmaker σ] {i : Nat} {c : Caller} {w w' : World σ} {t : List (Deal σ)}

theorem Dealings.split {t₁ t₂ : List (Deal σ)} {d : Deal σ}
    (h : Dealings i w (t₁ ++ d :: t₂) w') :
    Dealings i w t₁ d.before ∧ d.before.command i d.command = (d.started, d.after) ∧
      Dealings i d.after t₂ w' := by
  generalize ht : t₁ ++ d :: t₂ = t at h
  induction h generalizing t₁ with
  | nil => simp at ht
  | meanwhile hs _ ih =>
    obtain ⟨h₁, hd, h₂⟩ := ih ht
    exact ⟨.meanwhile hs h₁, hd, h₂⟩
  | @deal w w' t cmd h ih =>
    cases t₁ with
    | nil =>
      obtain ⟨rfl, rfl⟩ := List.cons.inj ht
      exact ⟨.nil w, rfl, h⟩
    | cons d' t₁ =>
      obtain ⟨rfl, hrest⟩ := List.cons.inj ht
      obtain ⟨h₁, hd, h₂⟩ := ih hrest
      exact ⟨.deal cmd h₁, hd, h₂⟩

/-- An agent whose role is taken is not started again, and its match is given up with the
first stop. -/
theorem issued_of_taken (h : Dealings i w t w') :
    ∀ {id : Option MatchId}, Held i c none id w →
      (∀ d ∈ t, d.started = false) ∧ (∃ id', Held i c none id' w') ∧
        issued t = if t.any (·.command.isStop) then surrender c id else [] := by
  induction h with
  | nil w => exact fun hh => ⟨List.forall_mem_nil _, ⟨_, hh⟩, rfl⟩
  | meanwhile hs _ ih => exact fun hh => ih (held_of_spares hh hs)
  | @deal w w' t cmd h ih =>
    intro id hh
    obtain ⟨hno, hheld, hlog⟩ := command_of_held hh cmd fun _ _ => .inr rfl
    obtain ⟨hall, hend, hissued⟩ := ih hheld
    refine ⟨List.forall_mem_cons.2 ⟨hno, hall⟩, hend, ?_⟩
    rw [issued_cons hlog, hissued, List.any_cons]
    by_cases hstop : cmd.isStop = true
    · simp [hstop, surrender]
    · simp [hstop]

/-- From the beginning: the agent is not started, and then nothing is issued; or it is, and
then it was the first time. -/
theorem contract_of_fresh {role : Role} (h : Dealings i w t w') :
    Held i c (some role) none w →
      ((∀ d ∈ t, d.started = false) ∧ Held i c (some role) none w' ∧ issued t = []) ∨
        ((∃ d ∈ t, d.started = true) ∧ (∃ id, Held i c none id w') ∧ Contract c t) := by
  induction h with
  | nil w => exact fun hh => .inl ⟨List.forall_mem_nil _, hh, rfl⟩
  | meanwhile hs _ ih => exact fun hh => ih (held_of_spares hh hs)
  | @deal w w' t cmd h ih =>
    intro hh
    by_cases hstart : ∃ room, cmd = .start room ∧ Matchmaker.isSignedIn w.service c = true
    · obtain ⟨room, rfl, hs⟩ := hstart
      obtain ⟨hyes, hheld, hlog, -⟩ := start_of_fresh hh hs room
      obtain ⟨hall, hend, hissued⟩ := issued_of_taken h hheld
      refine .inr ⟨⟨_, List.mem_cons_self, hyes⟩, hend,
        .started (List.nil_append _).symm rfl hyes hall ?_⟩
      exact (issued_cons (hlog.trans (List.append_nil _).symm) t).trans hissued
    · obtain ⟨hno, hheld, hlog⟩ := command_of_held hh cmd fun room hroom =>
        .inl (Bool.eq_false_iff.2 fun hs => hstart ⟨room, hroom, hs⟩)
      have hnothing : (if cmd.isStop then surrender c none else []) = [] := ite_self []
      rw [hnothing] at hlog
      rw [ite_self] at hheld
      rw [issued_cons hlog, List.nil_append]
      rcases ih hheld with ⟨hall, hend, hissued⟩ | ⟨⟨d, hd, hyes⟩, hend, hcontract⟩
      · exact .inl ⟨List.forall_mem_cons.2 ⟨hno, hall⟩, hend, hissued⟩
      · exact .inr ⟨⟨d, List.mem_cons_of_mem _ hd, hyes⟩, hend, hcontract.cons hno hlog⟩

/-- A start later on does what the first one would, until one of them did it. -/
theorem start_after {role : Role} (hheld : Held i c (some role) none w)
    (h : Dealings i w t w') (room : Match) :
    ((w'.start i room).1 = true ↔
        Matchmaker.isSignedIn w'.service c = true ∧ ∀ d ∈ t, d.started = false) ∧
      ((w'.start i room).1 = true →
        (w'.start i room).2.subscriptions = w'.subscriptions + 1) ∧
      ((w'.start i room).1 = false → (w'.start i room).2 = w') := by
  rcases contract_of_fresh h hheld with ⟨hall, hfresh, -⟩ | ⟨⟨d, hd, hyes⟩, ⟨id, htaken⟩, -⟩
  · cases hs : Matchmaker.isSignedIn w'.service c with
    | true =>
      obtain ⟨hstarted, -, -, hsub⟩ := start_of_fresh hfresh hs room
      simpa [hstarted, hsub] using hall
    | false => simp [start_of_refused hfresh (.inl hs) room]
  · have hrefused : ¬ ∀ d ∈ t, d.started = false := by
      intro hall
      rw [hall d hd] at hyes
      cases hyes
    simp [start_of_refused htaken (.inr rfl) room, hrefused]

/-- A stop later on gives up what there is to be given up then. -/
theorem stop_after {role : Role} (hheld : Held i c (some role) none w) (h : Dealings i w t w') :
    ∃ id, (w'.stop i).log = w'.log ++ surrender c id ∧
      (w'.stop i).service = (surrender c id).foldl serve w'.service := by
  rcases contract_of_fresh h hheld with ⟨-, hfresh, -⟩ | ⟨-, ⟨id, htaken⟩, -⟩
  · exact ⟨none, (stop_of_held hfresh).2⟩
  · exact ⟨id, (stop_of_held htaken).2⟩

end Row

/-- Whatever an owner does with a new agent, and whatever goes on meanwhile, the agent is started
once at most: by the first start while the player is signed in, from which on the player
listens.  A start that is refused changes nothing.  The stops together cancel and then dismiss
the match that the agent was started on, once each, if one of them comes after the start, and
else call nothing; and what they call is called, whatever the service answers. -/
theorem started_once_given_up_once [Matchmaker σ] {i : Nat} {w w' : World σ} {t : List (Deal σ)}
    {m : Member} {role : Role} {timing : Timing} (hm : w.members[i]? = some m)
    (hnew : m.agent = .ofRole role timing) (h : Dealings i w t w') :
    Contract m.caller t ∧
      (∀ t₁ d t₂ room, t = t₁ ++ d :: t₂ → d.command = .start room →
        (d.started = true ↔
          Matchmaker.isSignedIn d.before.service m.caller = true ∧
            ∀ d' ∈ t₁, d'.started = false) ∧
        (d.started = true → d.after.subscriptions = d.before.subscriptions + 1) ∧
        (d.started = false → d.after = d.before)) ∧
      (∀ d ∈ t, d.command = .stop →
        d.after.log = d.before.log ++ d.calls ∧
          d.after.service = d.calls.foldl serve d.before.service) := by
  have hheld : Held i m.caller (some role) none w :=
    ⟨m, hm, rfl, by rw [hnew]; rfl, by rw [hnew]; rfl⟩
  refine ⟨?_, ?_, ?_⟩
  · rcases contract_of_fresh h hheld with ⟨hall, -, hnone⟩ | ⟨-, -, hcontract⟩
    · exact .unstarted hall hnone
    · exact hcontract
  · rintro t₁ d t₂ room rfl hcmd
    obtain ⟨hbefore, hd, -⟩ := h.split
    rw [hcmd] at hd
    have hstart : d.before.start i room = (d.started, d.after) := hd
    simpa only [hstart] using start_after hheld hbefore room
  · intro d hd hcmd
    obtain ⟨t₁, t₂, rfl⟩ := List.append_of_mem hd
    obtain ⟨hbefore, hd, -⟩ := h.split
    rw [hcmd] at hd
    have hstop : d.before.stop i = d.after := (Prod.ext_iff.1 hd).2
    obtain ⟨id, hlog, hservice⟩ := stop_after hheld hbefore
    rw [hstop] at hlog hservice
    rw [Deal.calls_eq hlog]
    exact ⟨hlog, hservice⟩

/-- A player who signs in late: the first start is refused, the second is not, and the match is
given up once, though the service fails to cancel it. -/
theorem started_once_given_up_once_signed_in_late :
    ∃ (w w' : World Scripted) (t : List (Deal Scripted)), Dealings 0 w t w' ∧
      t.map (·.started) = [false, false, true, false, false, false, false] ∧
      issued t = [⟨0, .cancelMatch ⟨"m"⟩⟩, ⟨0, .dismissMatch ⟨"m"⟩⟩] ∧ Contract 0 t := by
  let room : Match :=
    { id := ⟨"m"⟩, status := .active, turn := .mine, participants := [⟨"ann"⟩, ⟨"bob"⟩]
      creator := ⟨"ann"⟩, viewer := ⟨"ann"⟩, version := 0, data := none }
  let w : World Scripted :=
    { service :=
        { signedIn := false
          news := .withCapacity 64
          cancelFailure := some { error := .refused .serviceUnavailable "busy" } }
      members :=
        [{ caller := 0, probes := { usual := { answer := .reachable } }
           agent := .ofRole (.client none) {} }] }
  let late : World Scripted := { w with service := { w.service with signedIn := true } }
  have signsIn : Spares 0 w late := ⟨fun m hm => ⟨m, hm, rfl, rfl, rfl⟩⟩
  have h : Dealings 0 w _ _ :=
    .deal (.start room) <| .meanwhile signsIn <| .deal .stop <| .deal (.start room) <|
      .deal (.start room) <| .deal .detach <| .deal .stop <| .deal .stop <| .nil _
  obtain ⟨hcontract, -, -⟩ := started_once_given_up_once (m := w.members[0]) rfl rfl h
  exact ⟨w, _, _, h, rfl, rfl, hcontract⟩

/-! ## What goes on meanwhile -/

section Meanwhile
variable {i j : Nat} {w w' w'' : World σ}

theorem Spares.refl (w : World σ) : Spares i w w := ⟨fun m hm => ⟨m, hm, rfl, rfl, rfl⟩⟩

theorem Spares.trans (h : Spares i w w') (h' : Spares i w' w'') : Spares i w w'' := by
  refine ⟨fun m hm => ?_⟩
  obtain ⟨m', hm', hc, hrole, hid⟩ := h.kept m hm
  obtain ⟨m'', hm'', hc', hrole', hid'⟩ := h'.kept m' hm'
  exact ⟨m'', hm'', hc'.trans hc, hrole'.trans hrole, hid'.trans hid⟩

/-- Sign-ins, the service and the clock have nothing to do with it. -/
theorem spares_of_members (h : w'.members = w.members) : Spares i w w' :=
  ⟨fun m hm => ⟨m, by rw [h, hm], rfl, rfl, rfl⟩⟩

theorem spares_modifyMember {f : Member → Member}
    (hf : ∀ m, w.members[j]? = some m → (f m).caller = m.caller ∧
      (f m).agent.role = m.agent.role ∧ (f m).agent.matchId = m.agent.matchId) :
    Spares i w (w.modifyMember j f) := by
  refine ⟨fun m hm => ?_⟩
  by_cases hij : j = i
  · subst hij
    exact ⟨f m, by simp [modifyMember, hm], hf m hm⟩
  · exact ⟨m, by simp [modifyMember, hij, hm], rfl, rfl, rfl⟩

theorem spares_modifyMember_of_ne (h : j ≠ i) (f : Member → Member) :
    Spares i w (w.modifyMember j f) :=
  ⟨fun m hm => ⟨m, by simp [modifyMember, h, hm], rfl, rfl, rfl⟩⟩

/-- A change of an agent that leaves its role and its match to the owner. -/
theorem spares_modifyAgent {f : Agent → Agent}
    (hf : ∀ a : Agent, (f a).role = a.role ∧ (f a).matchId = a.matchId) :
    Spares i w (w.modifyAgent j f) :=
  spares_modifyMember fun m _ => ⟨rfl, hf m.agent⟩

theorem spares_addMember (hi : i < w.members.length) (m : Member) :
    Spares i w (w.addMember m).2 :=
  ⟨fun m hm => ⟨m, (List.getElem?_append_left hi).trans hm, rfl, rfl, rfl⟩⟩

/-- To drop a session detaches its agent at most. -/
theorem spares_abort (k : Nat) : Spares i w (w.abort k) := by
  have detached : ∀ j, Spares i w (w.detach j) := fun j => spares_modifyAgent fun _ => ⟨rfl, rfl⟩
  simp only [abort]
  split
  · exact .refl w
  · split
    · exact .refl w
    · split
      · exact (detached _).trans (spares_of_members rfl)
      · exact spares_of_members rfl

theorem spares_taskProgress (k : JobId) (work : Work) : Spares i w (w.taskProgress j k work) :=
  spares_modifyAgent fun _ => ⟨rfl, rfl⟩

theorem spares_taskEnd (k : JobId) (how : TaskEnd) : Spares i w (w.taskEnd j k how) := by
  refine spares_modifyAgent fun a => ?_
  unfold Agent.complete
  split <;> exact ⟨rfl, rfl⟩

theorem spares_note (c : Caller) (call : Call) : Spares i w (w.note c call) :=
  spares_of_members rfl

theorem spares_issueTurn (c : Caller) (id : MatchId) (k : JobId) (data : Bytes)
    (next : Option PlayerId) : Spares i w (w.issueTurn j c id k data next) :=
  (spares_note c _).trans (spares_taskProgress k _)

theorem spares_hearProbe (c : Caller) (k : JobId) (invite localId : String)
    (answer : ProbeAnswer) : Spares i w (w.hearProbe j c k invite localId answer) :=
  (spares_note c _).trans (spares_taskEnd k _)

theorem spares_questSettle (h : j ≠ i) (k : Nat) (input : SessionInput) :
    Spares i w (w.questSettle k j input) := by
  have told : Spares i w (w.tellSession k input) := spares_of_members rfl
  simp only [questSettle]
  split
  · split
    · exact told
    · exact told.trans (spares_modifyMember_of_ne h _)
  · exact told.trans (spares_modifyMember_of_ne h _)
  · exact told.trans (spares_modifyMember_of_ne h _)

variable [Matchmaker σ]

theorem spares_landTurn (c : Caller) (id : MatchId) (k : JobId) (data : Bytes)
    (next : Option PlayerId) : Spares i w (w.landTurn j c id k data next) := by
  have called : Spares i w (w.callTurn c id data next).1 := spares_of_members rfl
  exact called.trans (spares_taskEnd k _)

theorem spares_effect (m : Member) (e : Effect) : Spares i w (w.effect j m e) := by
  cases e with
  | subscribed => exact spares_of_members rfl
  | submitted => exact .refl w
  | dismissed =>
    simp only [effect]
    split
    · exact spares_of_members rfl
    · exact .refl w
  | delivered => exact spares_modifyMember fun _ _ => ⟨rfl, rfl, rfl⟩

theorem spares_effects (m : Member) (es : List Effect) :
    ∀ w : World σ, Spares i w (es.foldl (fun w e => w.effect j m e) w) := by
  induction es with
  | nil => exact .refl
  | cons e es ih => exact fun w => (spares_effect m e).trans (ih _)

theorem spares_stepRendezvous? {words : List UInt64}
    (h : w.stepRendezvous? j words = some w') : Spares i w w' := by
  simp only [stepRendezvous?, Option.bind_eq_bind, Option.bind_eq_some_iff, Option.pure_def,
    Option.some.injEq] at h
  obtain ⟨m, hm, ⟨agent, effects⟩, hstep, rfl⟩ := h
  refine Spares.trans (spares_modifyMember fun m' hm' => ?_) (spares_effects m effects _)
  obtain rfl := Option.some.inj (hm.symm.trans hm')
  exact ⟨rfl, Agent.kept_of_step? hstep⟩

theorem spares_stepTask? {k : JobId} (h : w.stepTask? j k = some w') : Spares i w w' := by
  simp only [stepTask?, Option.bind_eq_bind, Option.bind_eq_some_iff] at h
  obtain ⟨m, -, r, -, t, -, h⟩ := h
  cases hw : t.work with
  | submit data next issued =>
    simp only [hw, stepSubmit?] at h
    split at h
    · cases h
      exact spares_issueTurn ..
    · cases h
      exact (spares_issueTurn ..).trans (spares_landTurn ..)
    · cases h
    · cases h
      exact spares_landTurn ..
  | awaitTurn watch =>
    simp only [hw, stepTurnWatch?] at h
    split at h
    · cases h
      exact spares_taskEnd ..
    · split at h
      · cases h
      · cases h
        exact spares_taskProgress ..
  | awaitEnd watch =>
    simp only [hw, stepEndWatch?] at h
    split at h
    · cases h
      exact spares_taskEnd ..
    · split at h
      · cases h
      · cases h
        exact spares_taskProgress ..
  | probe invite localId reply =>
    simp only [hw, stepProbe?] at h
    split at h
    · split at h
      · cases h
        exact spares_hearProbe ..
      · cases h
    · split at h
      · cases h
        exact (spares_note ..).trans (spares_hearProbe ..)
      · cases h
        exact (spares_note ..).trans (spares_taskProgress ..)
  | timer due =>
    simp only [hw] at h
    split at h
    · cases h
      exact spares_taskEnd ..
    · cases h

/-- What owners do with other agents. -/
theorem spares_command (h : j ≠ i) (cmd : Command) : Spares i w (w.command j cmd).2 := by
  cases cmd with
  | start room =>
    simp only [command, start]
    split
    · exact .refl w
    next m _ =>
      split
      · exact .refl w
      · have listening : Spares i w (w.subscribe m.caller) := spares_of_members rfl
        exact listening.trans (spares_modifyMember_of_ne h _)
  | detach => exact spares_modifyMember_of_ne h _
  | stop =>
    simp only [command, stop]
    have hagent : Spares i w (w.modifyAgent j .abandonMatch) := spares_modifyMember_of_ne h _
    split
    · exact .refl w
    · split
      · exact hagent
      · exact hagent.trans (spares_of_members rfl)

theorem spares_stepDismissal? {k : Nat} (h : w.stepDismissal? k = some w') : Spares i w w' := by
  obtain ⟨d, -, rfl⟩ := Option.map_eq_some_iff.1 h
  exact spares_of_members rfl

/-! Sessions own the agents that play for them, and no others. -/

theorem spares_questStart (hi : i < w.members.length) (k : Nat) (q : Quest) (room : Match) :
    Spares i w (w.questStart k q room) := by
  let new : Member :=
    { caller := q.caller, probes := q.probes, agent := .ofRole q.session.side.role q.timing }
  have added : Spares i w (w.addMember new).2 := spares_addMember hi new
  have started : Spares i (w.addMember new).2
      ((w.addMember new).2.command w.members.length (.start room)).2 :=
    spares_command (Nat.ne_of_gt hi) _
  exact (added.trans started).trans (spares_of_members rfl)

theorem spares_questListen? {k : Nat} {q : Quest} (hq : q.member ≠ some i)
    (h : w.questListen? k q = some w') : Spares i w w' := by
  simp only [questListen?, Option.bind_eq_bind, Option.bind_eq_some_iff] at h
  obtain ⟨j, hj, m, -, h⟩ := h
  have hne : j ≠ i := by
    rintro rfl
    exact hq hj
  split at h
  · cases h
    exact (spares_modifyMember_of_ne hne _).trans (spares_questSettle hne ..)
  · split at h
    · cases h
      exact spares_questSettle hne ..
    · cases h

theorem spares_stepSession? {k : Nat} (hi : i < w.members.length)
    (hq : ∀ q ∈ w.quests, q.member ≠ some i) (h : w.stepSession? k = some w') :
    Spares i w w' := by
  simp only [stepSession?, Option.bind_eq_bind, Option.bind_eq_some_iff] at h
  obtain ⟨q, hk, h⟩ := h
  split at h
  · cases h
    simp only [questBegin]
    split <;> exact spares_of_members rfl
  · simp only [questJoin?, Option.bind_eq_bind, Option.bind_eq_some_iff] at h
    obtain ⟨⟨due, creation⟩, -, h⟩ := h
    split at h
    · cases h
      split <;> exact spares_of_members rfl
    · cases h
  · cases h
    exact spares_questStart hi k q _
  · exact spares_questListen? (hq q (List.mem_of_getElem? hk)) h
  · cases h
    exact spares_of_members rfl
  · cases h
    exact spares_of_members rfl
  · cases h
  · cases h

/-- Whatever goes on by itself leaves the role and the match of an agent to its owner, if no
session owns it. -/
theorem spares_of_step? {words : List UInt64} {p : Part} (hi : i < w.members.length)
    (hq : ∀ q ∈ w.quests, q.member ≠ some i) (h : w.step? words p = some w') :
    Spares i w w' := by
  cases p with
  | rendezvous => exact spares_stepRendezvous? h
  | task => exact spares_stepTask? h
  | dismissal => exact spares_stepDismissal? h
  | session => exact spares_stepSession? hi hq h

end Meanwhile

end World

end TurnRendezvous
