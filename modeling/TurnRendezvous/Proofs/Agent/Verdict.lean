/-
# `Role.Verdict` — what a role can make of a turn

Five things, and no others: it gives the match up, it offers its own invite,
it passes an empty match on, or it has found an invite and believes in it or
has its peer verified.  Which payload may follow which decides the rest: an
empty payload comes only at the first turn, and an invite only there or
right after an empty one.
-/
import TurnRendezvous.Role

namespace TurnRendezvous

namespace PayloadState

@[simp] theorem uninitialized_mayFollow_iff {previous : Option PayloadState} :
    uninitialized.mayFollow previous = true ↔ previous = none := by
  rcases previous with _ | _ | _ | _ <;> decide

@[simp] theorem hasInvite_mayFollow_iff {previous : Option PayloadState} :
    hasInvite.mayFollow previous = true ↔ previous = none ∨ previous = some uninitialized := by
  rcases previous with _ | _ | _ | _ <;> decide

@[simp] theorem invalid_mayFollow (previous : Option PayloadState) :
    invalid.mayFollow previous = false := rfl

end PayloadState

namespace Payload

@[simp] theorem state_uninitialized : uninitialized.state = .uninitialized := rfl

@[simp] theorem state_invite (text : String) (h : text ≠ "") :
    (invite text h).state = .hasInvite := rfl

@[simp] theorem state_invalid : invalid.state = .invalid := rfl

@[simp] theorem state_eq_uninitialized_iff {p : Payload} :
    p.state = .uninitialized ↔ p = .uninitialized := by
  cases p <;> simp [state]

theorem withInvite_of_ne {text : String} (h : text ≠ "") : withInvite text = .invite text h :=
  dif_neg h

end Payload

namespace Role

/-- Whether a role publishes an invite. -/
def isHost : Role → Bool
  | .host _ => true
  | _ => false

/-- Whether a role has its peer verified. -/
def verifies : Role → Bool
  | .autoClient .. => true
  | _ => false

/-- A role without what it has found. -/
def blank : Role → Role
  | .host invite => .host invite
  | .client _ => .client none
  | .autoClient localId _ => .autoClient localId none

@[simp] theorem isHost_blank (role : Role) : role.blank.isHost = role.isHost := by
  cases role <;> rfl

@[simp] theorem verifies_blank (role : Role) : role.blank.verifies = role.verifies := by
  cases role <;> rfl

theorem blank_eq_host_iff {role : Role} {invite : String} :
    role.blank = .host invite ↔ role = .host invite := by
  cases role <;> simp [blank]

/-- What a role, whose last payload was `old`, makes of its turn on `m`. -/
inductive Verdict (m : Match) (wait : Duration) : Role → Option Payload → Decision → Prop
  | refused {role : Role} {old : Option Payload} (data : Payload) :
      Verdict m wait role old (role.refuse data)
  | offered {invite : String} (h : invite ≠ "") :
      m.data = none →
      Verdict m wait (.host invite) none
        { role := .host invite, data := .invite invite h, nextWait := .finished,
          signal := some (.complete none) }
  | passed {role : Role} :
      role.isHost = false → Payload.decode m.data = .uninitialized →
      Verdict m wait role none
        { role, data := .uninitialized, nextWait := .after wait, signal := none }
  | found {known : Option String} {old : Option Payload} {text : String} (h : text ≠ "") :
      Payload.decode m.data = .invite text h → (old = none ∨ old = some .uninitialized) →
      Verdict m wait (.client known) old
        { role := .client (some text), data := .invite text h, nextWait := .finished,
          signal := some (.complete (some text)) }
  | suspected {localId : String} {known : Option String} {old : Option Payload} {text : String}
      (h : text ≠ "") :
      Payload.decode m.data = .invite text h → (old = none ∨ old = some .uninitialized) →
      Verdict m wait (.autoClient localId known) old
        { role := .autoClient localId (some text), data := .invite text h, nextWait := .finished,
          signal := some (.verifyPeer text) }

/-- A turn changes a role only in what it has found. -/
theorem Verdict.blank_eq {m : Match} {wait : Duration} {role : Role} {old : Option Payload}
    {d : Decision} (h : Verdict m wait role old d) : d.role.blank = role.blank := by
  cases h <;> rfl

variable {m : Match} {old : Option Payload}

theorem hostTurn_verdict (invite : String) (wait : Duration)
    (hf : (Payload.decode m.data).state.mayFollow (old.map Payload.state) = true) :
    Verdict m wait (.host invite) old (hostTurn invite m (Payload.decode m.data) old) := by
  unfold hostTurn
  by_cases hd : (old.isNone && m.data.isSome) = true
  · simp only [hd, if_true]
    exact .refused _
  by_cases hu : Payload.decode m.data = .uninitialized
  · rw [hu] at hf ⊢
    have hold : old = none := by simpa using hf
    have hm : m.data = none := by simpa [hold] using hd
    subst hold
    by_cases hi : invite = ""
    · rw [if_neg hd]
      simp only [hi, Payload.withInvite]
      exact .refused _
    · rw [if_neg hd]
      simp only [Payload.withInvite_of_ne hi]
      exact .offered hi hm
  · have hs : (Payload.decode m.data).state ≠ .uninitialized := by simpa using hu
    rw [if_neg hd, if_pos hs]
    exact .refused _

theorem onTurn_verdict (role : Role) (wait : Duration)
    (hf : (Payload.decode m.data).state.mayFollow (old.map Payload.state) = true) :
    Verdict m wait role old (role.onTurn m (Payload.decode m.data) old wait) := by
  cases role with
  | host invite => exact hostTurn_verdict invite wait hf
  | client known =>
    cases hd : Payload.decode m.data with
    | uninitialized =>
      obtain rfl : old = none := by simpa [hd] using hf
      exact .passed rfl hd
    | invite text h => exact .found h hd (by simpa [hd] using hf)
    | invalid => exact .refused _
  | autoClient localId known =>
    cases hd : Payload.decode m.data with
    | uninitialized =>
      obtain rfl : old = none := by simpa [hd] using hf
      exact .passed rfl hd
    | invite text h => exact .suspected h hd (by simpa [hd] using hf)
    | invalid => exact .refused _

end Role

end TurnRendezvous
