/-
# `Agent.Run` — what an agent can go through

An agent moves when it is started, when its owner detaches it or gives its
match up, when its rendezvous makes a step, and when a background task goes
on or comes to its end (`Move`).  A task may end only as its own work can
(`Work.MayEnd`): a turn watch with what some feed says at some time, a turn
that was handed over with whatever the service answers, and so on.  Nothing
else is assumed of the service, the peers or the clock.

An owner may use its agent inside a callback.  A step therefore lets its
outputs out one by one (`emitAll`), and in each callback the owner makes a
row of calls, before anything that comes after it.  With no such calls this
is the step that runs, `Agent.step?`, which is what `stepWithin?_nil` says.

A run is the row of its stages, so that whatever is asked of a run, which
callbacks there were, on which snapshots a turn was played or what was
submitted, is read off that row.
-/
import TurnRendezvous.Agent.Basic

namespace TurnRendezvous

/-! ## What tasks can do -/

/-- How work can go on. -/
def Work.MayBecome : Work → Work → Prop
  | .submit data next false, w => w = .submit data next true
  | .awaitTurn v, w => ∃ feed, w = .awaitTurn (v.caughtUp feed)
  | .awaitEnd v, w => ∃ feed, w = .awaitEnd (v.caughtUp feed)
  | .probe invite localId none, w => ∃ reply, w = .probe invite localId (some reply)
  | _, _ => False

/-- What is the same of every kind of work before and after it goes on. -/
theorem Work.MayBecome.get_eq {β : Type} {get : Work → β} {w w' : Work} (h : w.MayBecome w')
    (hsubmit : ∀ data next, get (.submit data next true) = get (.submit data next false))
    (hturn : ∀ v feed, get (.awaitTurn (v.caughtUp feed)) = get (.awaitTurn v))
    (hend : ∀ v feed, get (.awaitEnd (v.caughtUp feed)) = get (.awaitEnd v))
    (hprobe : ∀ invite localId reply,
      get (.probe invite localId (some reply)) = get (.probe invite localId none)) :
    get w' = get w := by
  unfold Work.MayBecome at h
  split at h
  next data next =>
    subst h
    exact hsubmit data next
  next v =>
    obtain ⟨feed, rfl⟩ := h
    exact hturn v feed
  next v =>
    obtain ⟨feed, rfl⟩ := h
    exact hend v feed
  next invite localId =>
    obtain ⟨reply, rfl⟩ := h
    exact hprobe invite localId reply
  next => exact h.elim

/-- How work can end. -/
def Work.MayEnd : Work → TaskEnd → Prop
  | .submit _ _ issued, .submitted _ => issued = true
  | .awaitTurn v, .turn result => ∃ feed now, v.result? feed now = some result
  | .awaitEnd v, .ended how => ∃ feed, v.result? feed = some how
  | .probe .., .probed _ => True
  | .timer _, .timeUp => True
  | _, _ => False

/-- What the owner of an agent may do with it at any time. -/
inductive OwnerCall
  /-- Also what happens to an agent that is dropped. -/
  | detach
  /-- What stopping an agent does to the agent itself. -/
  | giveUp
deriving DecidableEq

/-- Whether an output is an outcome that nothing comes after. -/
def Output.isFinal : Output → Bool
  | .concluded _ => true
  | _ => false

/-- Whether an effect is a callback. -/
def Effect.isCallback : Effect → Bool
  | .delivered _ => true
  | _ => false

namespace Agent

/-- The agent after a call of its owner. -/
def call (a : Agent) : OwnerCall → Agent
  | .detach => a.detach
  | .giveUp => a.abandonMatch

/-! ## Callbacks -/

/-- An outcome that reaches the owner. -/
structure Callback where
  report : Report
  /-- Whether it is an outcome that nothing comes after. -/
  final : Bool
  /-- The agent when the callback begins; if more is to come, the rendezvous has
  gone on already. -/
  scene : Agent

/-- What a step leaves behind in the world outside. -/
inductive Mark
  | subscribed
  | submitted (data : Bytes) (next : Option PlayerId)
  | dismissed
  | called (c : Callback)

/-- The mark of an effect on an agent that is `a` by then. -/
def Mark.ofEffect (a : Agent) (final : Bool) : Effect → Mark
  | .subscribed => .subscribed
  | .submitted data next => .submitted data next
  | .dismissed => .dismissed
  | .delivered report => .called { report, final, scene := a }

/-- The effect that left a mark. -/
def Mark.effect : Mark → Effect
  | .subscribed => .subscribed
  | .submitted data next => .submitted data next
  | .dismissed => .dismissed
  | .called c => .delivered c.report

/-- The callback that left a mark. -/
def Mark.callback? : Mark → Option Callback
  | .called c => some c
  | _ => none

/-- The bytes that a mark says were handed over. -/
def Mark.submitted? : Mark → Option Bytes
  | .submitted data _ => some data
  | _ => none

/-- Lets an output out; in a callback the owner makes the calls `within`. -/
def emit (within : List OwnerCall) (id : MatchId) (a : Agent) (o : Output) : Agent × List Mark :=
  let (effects, gate) := output id a.gate o
  let b := { a with gate }
  (if effects.any Effect.isCallback then within.foldl call b else b,
    effects.map (Mark.ofEffect b o.isFinal))

/-- Lets a row of outputs out. -/
def emitAll (within : List OwnerCall) (id : MatchId) (a : Agent) :
    List Output → Agent × List Mark
  | [] => (a, [])
  | o :: rest =>
    let (a, marks) := emit within id a o
    let (a, more) := emitAll within id a rest
    (a, marks ++ more)

/-- The agent after a step of its rendezvous and the calls inside its callbacks. -/
def absorbWithin (within : List OwnerCall) (a : Agent) (step : Rendezvous × List Output) :
    Agent × List Mark :=
  let (r, out) := step
  let (a, marks) := emitAll within r.matchId { a with rendezvous := some r } out
  ({ a with gate := if r.progress = .ended then a.gate.close.2 else a.gate }, marks)

/-- Makes the next step of the rendezvous; in callbacks the owner makes the
calls `within`. -/
def stepWithin? (a : Agent) (s : Surroundings) (within : List OwnerCall) :
    Option (Agent × List Mark) :=
  (a.next? s).map fun (a, step) => a.absorbWithin within step

theorem emit_of_silent {within : List OwnerCall} {id : MatchId} {a : Agent} {o : Output}
    (h : within = [] ∨ ∀ m ∈ (a.emit within id o).2, m.callback? = none) :
    (a.emit within id o).1 = { a with gate := (output id a.gate o).2 } := by
  simp only [emit] at h ⊢
  split
  next hc =>
    rcases h with rfl | h
    · rfl
    · obtain ⟨e, he, hc⟩ := List.any_eq_true.1 hc
      cases e with
      | delivered report => simpa [Mark.callback?, Mark.ofEffect] using h _ (List.mem_map_of_mem he)
      | _ => simp [Effect.isCallback] at hc
  next => rfl

/-- If the owner makes no calls, outputs only touch the gate. -/
theorem fst_emitAll {within : List OwnerCall} {id : MatchId} {out : List Output} :
    ∀ {a : Agent}, (within = [] ∨ ∀ m ∈ (a.emitAll within id out).2, m.callback? = none) →
      (a.emitAll within id out).1 = { a with gate := (outputs id a.gate out).2 } := by
  induction out with
  | nil => exact fun _ => rfl
  | cons o rest ih =>
    intro a h
    simp only [emitAll, outputs, List.forall_mem_append] at h ⊢
    have he := emit_of_silent (h.imp_right fun h => h.1)
    rw [ih (h.imp_right fun h => h.2), he]

theorem effect_emitAll (id : MatchId) (out : List Output) :
    ∀ a : Agent, (a.emitAll [] id out).2.map Mark.effect = (outputs id a.gate out).1 := by
  induction out with
  | nil => exact fun _ => rfl
  | cons o rest ih =>
    intro a
    have hm : ∀ (b : Agent) (final : Bool) (es : List Effect),
        (es.map (Mark.ofEffect b final)).map Mark.effect = es := by
      intro b final es
      rw [List.map_map]
      exact (List.map_congr_left fun e _ => by cases e <;> rfl).trans (List.map_id es)
    simp only [emitAll, outputs, List.map_append, ih, emit_of_silent (a := a) (o := o) (.inl rfl)]
    simp only [emit, hm]

/-- Without calls in its callbacks a step is the one that runs. -/
theorem stepWithin?_nil (a : Agent) (s : Surroundings) :
    (a.stepWithin? s []).map (fun (b, marks) => (b, marks.map Mark.effect)) = a.step? s := by
  unfold stepWithin? step?
  cases a.next? s with
  | none => rfl
  | some q =>
    obtain ⟨b, r, out⟩ := q
    simp only [Option.map_some, absorbWithin, absorb, effect_emitAll, fst_emitAll (.inl rfl)]

/-! ## Moves -/

/-- One move of an agent. -/
inductive Move
  | start (signedIn : Bool) (m : Match) (position : Nat)
  | owner (c : OwnerCall)
  /-- A step of the rendezvous, with the owner's calls in its callbacks. -/
  | step (s : Surroundings) (within : List OwnerCall)
  | goOn (i : JobId) (work : Work)
  | finish (i : JobId) (how : TaskEnd)

/-- What a move leads to, and the marks that it leaves. -/
inductive Moves (a : Agent) : Move → List Mark → Agent → Prop
  | start {b : Agent} {s : Bool} {m : Match} {n : Nat} :
      a.start? s m n = some b → Moves a (.start s m n) [] b
  | owner (c : OwnerCall) : Moves a (.owner c) [] (a.call c)
  | step {b : Agent} {marks : List Mark} {s : Surroundings} {w : List OwnerCall} :
      a.stepWithin? s w = some (b, marks) → Moves a (.step s w) marks b
  | goOn {i : JobId} {t : Task} {w : Work} :
      a.task? i = some t → t.work.MayBecome w → Moves a (.goOn i w) [] (a.progress i w)
  | finish {i : JobId} {t : Task} {e : TaskEnd} :
      a.task? i = some t → t.work.MayEnd e → Moves a (.finish i e) [] (a.complete i e)

/-- A move with what was before and after it. -/
structure Stage where
  before : Agent
  move : Move
  marks : List Mark
  after : Agent

/-- The stages that an agent goes through. -/
inductive Run (a : Agent) : List Stage → Agent → Prop
  | nil : Run a [] a
  | snoc {t : List Stage} {b c : Agent} {mv : Move} {marks : List Mark} :
      Run a t b → b.Moves mv marks c → Run a (t ++ [⟨b, mv, marks, c⟩]) c

/-- A run up to one of its stages, that stage, and the run from there on. -/
theorem Run.split {a b : Agent} {t₁ t₂ : List Stage} {st : Stage}
    (h : Run a (t₁ ++ st :: t₂) b) :
    Run a t₁ st.before ∧ st.before.Moves st.move st.marks st.after ∧ Run st.after t₂ b := by
  generalize ht : t₁ ++ st :: t₂ = t at h
  induction h generalizing t₂ with
  | nil => simp at ht
  | @snoc t b c mv marks hrun hm ih =>
    rcases List.eq_nil_or_concat t₂ with rfl | ⟨t₂, last, rfl⟩
    · obtain ⟨rfl, hst⟩ := List.append_inj' ht rfl
      obtain rfl := List.singleton_inj.1 hst
      exact ⟨hrun, hm, .nil⟩
    · rw [List.concat_eq_append, ← List.cons_append, ← List.append_assoc] at ht
      obtain ⟨rfl, hlast⟩ := List.append_inj' ht rfl
      obtain rfl := List.singleton_inj.1 hlast
      obtain ⟨h₁, h₂, h₃⟩ := ih rfl
      exact ⟨h₁, h₂, List.concat_eq_append ▸ h₃.snoc hm⟩

theorem Run.append {a b c : Agent} {t₁ t₂ : List Stage} (h₁ : Run a t₁ b) (h₂ : Run b t₂ c) :
    Run a (t₁ ++ t₂) c := by
  induction h₂ with
  | nil => exact (List.append_nil t₁).symm ▸ h₁
  | snoc _ hm ih => exact List.append_assoc .. ▸ ih.snoc hm

/-! ## What is read off a run -/

/-- The callbacks of a run, oldest first. -/
def callbacks (t : List Stage) : List Callback := t.flatMap (·.marks.filterMap Mark.callback?)

/-- What was handed to the service in a run, oldest first. -/
def submissions (t : List Stage) : List Bytes := t.flatMap (·.marks.filterMap Mark.submitted?)

/-- The match that a move starts an agent on. -/
def Move.startedOn? : Move → Option MatchId
  | .start _ m _ => some m.id
  | _ => none

/-- The matches that an agent was started on in a run. -/
def startedOn (t : List Stage) : List MatchId := t.filterMap (·.move.startedOn?)

/-- Whether the owner lets go of the agent in a stage, be it in a callback. -/
def Stage.letsGo (st : Stage) : Bool :=
  match st.move with
  | .owner _ => true
  | .step _ within => !within.isEmpty && st.marks.any (·.callback?.isSome)
  | _ => false

/-- The snapshot on which the next step of the rendezvous plays a turn. -/
def toPlay? (a : Agent) : Option Match :=
  match a.rendezvous with
  | none => none
  | some r =>
    match r.progress, a.queue with
    | .fresh m _, _ => if m.isMyTurn then some m else none
    | .underway, .done generation (.turn (.myTurn m)) :: _ =>
      if generation = r.generation then some m else none
    | _, _ => none

/-- A turn that was played: the snapshot, and what was submitted. -/
structure Play where
  snapshot : Match
  submitted : List Bytes
deriving DecidableEq

/-- The turn that is played in a stage. -/
def Stage.play? (st : Stage) : Option Play :=
  match st.move with
  | .step .. =>
    st.before.toPlay?.map fun m => ⟨m, st.marks.filterMap Mark.submitted?⟩
  | _ => none

/-- The turns that were played in a run, oldest first. -/
def plays (t : List Stage) : List Play := t.filterMap Stage.play?

/-- The notice that a stage handles, if it is a step on one. -/
def Stage.handles? (st : Stage) : Option Notice :=
  match st.move, st.before.rendezvous with
  | .step .., some r => if r.progress = .underway then st.before.queue.head? else none
  | _, _ => none

section Append
variable (t : List Stage) (st : Stage)

@[simp] theorem callbacks_snoc :
    callbacks (t ++ [st]) = callbacks t ++ st.marks.filterMap Mark.callback? := by
  simp [callbacks]

@[simp] theorem submissions_snoc :
    submissions (t ++ [st]) = submissions t ++ st.marks.filterMap Mark.submitted? := by
  simp [submissions]

@[simp] theorem startedOn_snoc :
    startedOn (t ++ [st]) = startedOn t ++ st.move.startedOn?.toList := by
  cases h : st.move.startedOn? <;> simp [startedOn, h]

@[simp] theorem plays_snoc : plays (t ++ [st]) = plays t ++ st.play?.toList := by
  cases h : st.play? <;> simp [plays, h]

end Append

end Agent

end TurnRendezvous
