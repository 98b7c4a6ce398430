/-
# A gate is closed once

A body that is delivered may use the gate that delivers it, so that what one
use finds may be the doing of another one deep inside it.  Here a program of
uses is laid out flat: `momentsAll` lists what happens, in the order in which it
happens, each event with the gate before and after it, and what a body does
follows on its start.

* `passes_momentsAll`, `tellsAll_momentsAll`: the list leads from the gate at the
  start to the one that the program leaves, and it is what the answers tell;
* `closed_once`: one event closes the gate, the first that tries to, and everything after it
  finds the gate closed.

The trees are gone after the first two: what is said of the list is said by
induction on the list, from what a single event does (`Happens`).
-/
import TurnRendezvous.Gate

namespace TurnRendezvous

namespace Gate

/-! ## Events -/

/-- What a use of a gate comes to. -/
inductive Event
  /-- The gate is closed; `won` says that it was open before. -/
  | close (won : Bool)
  | isClosed (answer : Bool)
  /-- A body starts; a `final` one closes the gate first. -/
  | start (final : Bool)
  | skip (final : Bool)
deriving DecidableEq

namespace Event

/-- Whether the gate is closed by this. -/
def closes : Event → Bool
  | .close won => won
  | .start final => final
  | _ => false

/-- Whether this is a close or a final delivery, be it too late or not. -/
def triesToClose : Event → Bool
  | .close _ => true
  | .start final => final
  | .skip final => final
  | .isClosed _ => false

/-- Whether a body starts with this. -/
def starts : Event → Bool
  | .start _ => true
  | _ => false

end Event

/-- What an event does to the gate, and when it can take place. -/
inductive Happens (g : Gate) : Event → Gate → Prop
  | close : Happens g (.close g.close.1) g.close.2
  | isClosed : Happens g (.isClosed g.closed) g
  | start : g.closed = false → Happens g (.start false) g
  | startFinal : g.closed = false → Happens g (.start true) ⟨true⟩
  | skip (final : Bool) : g.closed = true → Happens g (.skip final) g

/-- An event with the gate before and after it. -/
structure Moment where
  before : Gate
  event : Event
  after : Gate
deriving DecidableEq

/-- Moments without a gap, from the gate `g` to the gate `g'`. -/
inductive Passes : Gate → List Moment → Gate → Prop
  | nil {g : Gate} : Passes g [] g
  | cons {g g₁ g' : Gate} {e : Event} {ms : List Moment} :
      Happens g e g₁ → Passes g₁ ms g' → Passes g (⟨g, e, g₁⟩ :: ms) g'

theorem Passes.append {g g₁ g' : Gate} {ms ms' : List Moment} (h : Passes g ms g₁)
    (h' : Passes g₁ ms' g') : Passes g (ms ++ ms') g' := by
  induction h with
  | nil => exact h'
  | cons hm _ ih => exact .cons hm (ih h')

/-! ## A program, laid out flat -/

mutual

/-- What happens in one use of a gate. -/
def moments (g : Gate) : Action → List Moment
  | .close => [⟨g, .close g.close.1, g.close.2⟩]
  | .isClosed => [⟨g, .isClosed g.closed, g⟩]
  | .deliver body =>
    if g.closed then [⟨g, .skip false, g⟩] else ⟨g, .start false, g⟩ :: momentsAll g body
  | .deliverFinal body =>
    if g.closed then [⟨g, .skip true, g⟩]
    else ⟨g, .start true, ⟨true⟩⟩ :: momentsAll ⟨true⟩ body

/-- What happens in a program of uses. -/
def momentsAll (g : Gate) : List Action → List Moment
  | [] => []
  | a :: rest => moments g a ++ momentsAll (run g a).2 rest

end

mutual

/-- What the answer to a use says has happened.  A body that ran has an answer to each of
its uses. -/
inductive Tells : Action → Answer → List Event → Prop
  | close (won : Bool) : Tells .close (.flag won) [.close won]
  | isClosed (b : Bool) : Tells .isClosed (.flag b) [.isClosed b]
  | deliver {body : List Action} {answers : List Answer} {es : List Event} :
      TellsAll body answers es → Tells (.deliver body) (.ran answers) (.start false :: es)
  | skip (body : List Action) : Tells (.deliver body) .skipped [.skip false]
  | deliverFinal {body : List Action} {answers : List Answer} {es : List Event} :
      TellsAll body answers es → Tells (.deliverFinal body) (.ran answers) (.start true :: es)
  | skipFinal (body : List Action) : Tells (.deliverFinal body) .skipped [.skip true]

/-- What the answers to all uses of a program say has happened. -/
inductive TellsAll : List Action → List Answer → List Event → Prop
  | nil : TellsAll [] [] []
  | cons {a : Action} {rest : List Action} {x : Answer} {answers : List Answer}
      {es more : List Event} :
      Tells a x es → TellsAll rest answers more → TellsAll (a :: rest) (x :: answers) (es ++ more)

end

mutual

theorem passes_moments (g : Gate) : (a : Action) → Passes g (moments g a) (run g a).2
  | .close => .cons .close .nil
  | .isClosed => .cons .isClosed .nil
  | .deliver body => by
    cases hg : g.closed with
    | true => simpa [moments, run, hg] using Passes.cons (.skip false hg) .nil
    | false => simpa [moments, run, hg] using Passes.cons (.start hg) (passes_momentsAll g body)
  | .deliverFinal body => by
    cases hg : g.closed with
    | true => simpa [moments, run, hg] using Passes.cons (.skip true hg) .nil
    | false =>
      simpa [moments, run, hg] using Passes.cons (.startFinal hg) (passes_momentsAll ⟨true⟩ body)

/-- The moments of a program lead to the gate that it leaves. -/
theorem passes_momentsAll (g : Gate) :
    (as : List Action) → Passes g (momentsAll g as) (runAll g as).2
  | [] => .nil
  | a :: rest => by
    rw [momentsAll, runAll]
    exact (passes_moments g a).append (passes_momentsAll (run g a).2 rest)

end

mutual

theorem tells_moments (g : Gate) :
    (a : Action) → Tells a (run g a).1 ((moments g a).map Moment.event)
  | .close => .close _
  | .isClosed => .isClosed _
  | .deliver body => by
    cases hg : g.closed with
    | true => simpa [moments, run, hg] using Tells.skip body
    | false => simpa [moments, run, hg] using Tells.deliver (tellsAll_momentsAll g body)
  | .deliverFinal body => by
    cases hg : g.closed with
    | true => simpa [moments, run, hg] using Tells.skipFinal body
    | false => simpa [moments, run, hg] using Tells.deliverFinal (tellsAll_momentsAll ⟨true⟩ body)

/-- The moments of a program are what its answers tell. -/
theorem tellsAll_momentsAll (g : Gate) :
    (as : List Action) → TellsAll as (runAll g as).1 ((momentsAll g as).map Moment.event)
  | [] => .nil
  | a :: rest => by
    rw [momentsAll, runAll, List.map_append]
    exact .cons (tells_moments g a) (tellsAll_momentsAll (run g a).2 rest)

end

/-! ## What an event leaves behind -/

section Happens
variable {g g' : Gate} {e : Event}

/-- A gate is closed after an event if it was before, or if the event closes it. -/
theorem Happens.closed_iff (h : Happens g e g') :
    g'.closed = true ↔ g.closed = true ∨ e.closes = true := by
  cases h with
  | close => cases hg : g.closed <;> simp [Gate.close, Event.closes, hg]
  | isClosed => simp [Event.closes]
  | start hg => simp [Event.closes, hg]
  | startFinal hg => simp [Event.closes]
  | skip final hg => simp [Event.closes]

/-- What tries to close a gate does so if the gate is open, and nothing else does. -/
theorem Happens.closes_iff (h : Happens g e g') :
    e.closes = true ↔ e.triesToClose = true ∧ g.closed = false := by
  cases h with
  | close => simp [Gate.close, Event.closes, Event.triesToClose]
  | isClosed => simp [Event.closes, Event.triesToClose]
  | start hg => simp [Event.closes, Event.triesToClose]
  | startFinal hg => simp [Event.closes, Event.triesToClose, hg]
  | skip final hg => simp [Event.closes, hg]

/-- No body starts on a gate that is closed. -/
theorem Happens.open_of_starts (h : Happens g e g') (he : e.starts = true) : g.closed = false := by
  cases h with
  | start hg => exact hg
  | startFinal hg => exact hg
  | _ => cases he

theorem Happens.eq_closed (h : Happens g e g') {b : Bool} (he : e = .isClosed b) :
    b = g.closed := by
  cases h with
  | isClosed => exact (Event.isClosed.inj he).symm
  | _ => cases he

end Happens

/-! ## What a row of events leaves behind -/

section Passes
variable {g g' : Gate} {ms : List Moment}

theorem Passes.split {earlier later : List Moment} {m : Moment}
    (h : Passes g (earlier ++ m :: later) g') :
    Passes g earlier m.before ∧ Happens m.before m.event m.after ∧ Passes m.after later g' := by
  induction earlier generalizing g with
  | nil =>
    cases h with
    | cons hm hrest => exact ⟨.nil, hm, hrest⟩
  | cons m' earlier ih =>
    cases h with
    | cons hm hrest =>
      obtain ⟨hearlier, hevent, hlater⟩ := ih hrest
      exact ⟨.cons hm hearlier, hevent, hlater⟩

/-- A gate is closed in the end if it was at the start, or if something has closed it. -/
theorem Passes.closed_iff (h : Passes g ms g') :
    g'.closed = true ↔ g.closed = true ∨ ∃ m ∈ ms, m.event.closes = true := by
  induction h with
  | nil => simp
  | cons hm _ ih => simp [ih, hm.closed_iff, or_assoc]

/-- Nothing that tries to close a gate leaves it open. -/
theorem Passes.closed_iff_tried (h : Passes g ms g') :
    g'.closed = true ↔ g.closed = true ∨ ∃ m ∈ ms, m.event.triesToClose = true := by
  induction h with
  | nil => simp
  | @cons g g₁ g' e ms hm _ ih =>
    have hnext : g₁.closed = true ↔ g.closed = true ∨ e.triesToClose = true := by
      rw [hm.closed_iff, hm.closes_iff]
      cases g.closed <;> simp
    simp [ih, hnext, or_assoc]

/-- A gate that is closed is found and left closed from then on, and is not closed again. -/
theorem Passes.of_closed (h : Passes g ms g') (hg : g.closed = true) :
    g'.closed = true ∧ ∀ m ∈ ms, m.before.closed = true ∧ m.after.closed = true ∧
      m.event.closes = false ∧ m.event.starts = false := by
  induction h with
  | nil => exact ⟨hg, nofun⟩
  | @cons g g₁ g' e ms hm _ ih =>
    have hg₁ : g₁.closed = true := hm.closed_iff.2 (.inl hg)
    obtain ⟨hend, hall⟩ := ih hg₁
    refine ⟨hend, List.forall_mem_cons.2 ⟨⟨hg, hg₁, ?_, ?_⟩, hall⟩⟩
    · cases he : e.closes with
      | false => rfl
      | true => exact absurd (hm.closes_iff.1 he).2 (by simp [hg])
    · cases he : e.starts with
      | false => rfl
      | true => exact absurd (hm.open_of_starts he) (by simp [hg])

/-- Of a gate that is open, the events that close it number one or none, as the gate is
closed in the end or not. -/
theorem Passes.countP_closes (h : Passes g ms g') (hg : g.closed = false) :
    ms.countP (fun m => m.event.closes) = if g'.closed then 1 else 0 := by
  induction h with
  | nil => simp [hg]
  | @cons g g₁ g' e ms hm hrest ih =>
    cases he : e.closes with
    | false =>
      have hg₁ : g₁.closed = false := by
        rw [Bool.eq_false_iff, ne_eq, hm.closed_iff]
        simp [hg, he]
      rw [List.countP_cons_of_neg (by simp [he]), ih hg₁]
    | true =>
      obtain ⟨hend, hall⟩ := hrest.of_closed (hm.closed_iff.2 (.inr he))
      have hnone : ms.countP (fun m => m.event.closes) = 0 :=
        List.countP_eq_zero.2 fun m hm' => by simp [(hall m hm').2.2.1]
      rw [List.countP_cons_of_pos (by simp [he]), hnone, if_pos hend]

end Passes

/-! ## Main statement -/

/-- Whatever program of uses is run on a new gate, bodies within bodies to any depth: its
moments follow on each other without a gap and are what the answers tell, where a body that
started has an answer to each of its uses.  At most one of them closes the gate, and one
does just if the gate is closed in the end; it is the first close or final delivery of all.
From then on the gate stays closed, and no body starts; and the gate is said to be closed just
if it has been closed before. -/
theorem closed_once (program : List Action) :
    let (answers, gate) := opened.runAll program
    let ms := opened.momentsAll program
    TellsAll program answers (ms.map Moment.event) ∧ Passes opened ms gate ∧
      ms.countP (fun m => m.event.closes) ≤ 1 ∧
      (ms.countP (fun m => m.event.closes) = 1 ↔ gate.closed = true) ∧
      ∀ earlier m later, ms = earlier ++ m :: later →
        (m.after.closed = true → gate.closed = true ∧
          ∀ m' ∈ later, m'.before.closed = true ∧ m'.after.closed = true) ∧
        (m.event.closes = true ↔
          m.event.triesToClose = true ∧ ∀ m' ∈ earlier, m'.event.triesToClose = false) ∧
        (m.event.closes = true → m.after.closed = true ∧ ∀ m' ∈ later, m'.event.starts = false) ∧
        ∀ b, m.event = .isClosed b → (b = true ↔ ∃ m' ∈ earlier, m'.event.closes = true) := by
  have hpass := passes_momentsAll opened program
  have hcount := hpass.countP_closes rfl
  refine ⟨tellsAll_momentsAll opened program, hpass, ?_, ?_, ?_⟩
  · rw [hcount]
    split <;> simp
  · rw [hcount]
    split <;> simp_all
  intro earlier m later hms
  rw [hms] at hpass
  obtain ⟨hearlier, hm, hlater⟩ := hpass.split
  refine ⟨?_, ?_, ?_, ?_⟩
  · intro hclosed
    obtain ⟨hend, hall⟩ := hlater.of_closed hclosed
    exact ⟨hend, fun m' hm' => ⟨(hall m' hm').1, (hall m' hm').2.1⟩⟩
  · have hbefore : m.before.closed = false ↔
        ∀ m' ∈ earlier, m'.event.triesToClose = false := by
      rw [← Bool.not_eq_true, hearlier.closed_iff_tried]
      simp [opened]
    rw [hm.closes_iff, hbefore]
  · intro hcloses
    have hclosed : m.after.closed = true := hm.closed_iff.2 (.inr hcloses)
    exact ⟨hclosed, fun m' hm' => ((hlater.of_closed hclosed).2 m' hm').2.2.2⟩
  · intro b hb
    rw [hm.eq_closed hb, hearlier.closed_iff]
    simp [opened]

/-- A delivery inside which the gate is closed for good: the final body still runs, and then
nothing else starts. -/
theorem closed_once_inside_a_delivery :
    let program : List Action :=
      [.deliver [.isClosed, .deliverFinal [.close, .deliver []], .isClosed], .deliver []]
    let earlier : List Moment :=
      [⟨⟨false⟩, .start false, ⟨false⟩⟩, ⟨⟨false⟩, .isClosed false, ⟨false⟩⟩]
    let later : List Moment :=
      [⟨⟨true⟩, .close false, ⟨true⟩⟩, ⟨⟨true⟩, .skip false, ⟨true⟩⟩,
        ⟨⟨true⟩, .isClosed true, ⟨true⟩⟩, ⟨⟨true⟩, .skip false, ⟨true⟩⟩]
    opened.momentsAll program = earlier ++ ⟨⟨false⟩, .start true, ⟨true⟩⟩ :: later ∧
      ∀ m ∈ later, m.event.starts = false := by
  intro program earlier later
  have hmoments :
      opened.momentsAll program = earlier ++ ⟨⟨false⟩, .start true, ⟨true⟩⟩ :: later := by
    decide
  obtain ⟨-, -, -, -, hsplit⟩ := closed_once program
  obtain ⟨-, -, hclosing, -⟩ := hsplit earlier _ later hmoments
  exact ⟨hmoments, (hclosing rfl).2⟩

end Gate

end TurnRendezvous
