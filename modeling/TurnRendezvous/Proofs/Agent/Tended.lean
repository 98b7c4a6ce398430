/-
# `Agent.Tended` — an agent that nobody lets go of, over a hub

What such an agent tells its owner is known from `callbacks_in_order`: nothing, a single
outcome, or a success and later an end.  Over a hub more can be said.  The hub never ends
a feed, and its news of an end are true (`Hub.lost_of_news`), so what comes after a success
is that the match was removed, and by then the room is lost to the player.  And whether a
success is the last outcome depends on the dismissal alone, if no peer is verified.

* `Rendezvous.Informed`: what a rendezvous knows of the end of its room is so;
* `tended_toils`, `tended_step`: whatever goes on, a tended agent stays one;
* `Tended.dismisses`: if it dismisses its match, then together with the word of a success;
* `Tended.parted`: how it stands after a success, and what it has told since.
-/
import TurnRendezvous.Proofs.Agent.Callbacks
import TurnRendezvous.Proofs.Agent.Labour

namespace TurnRendezvous

/-- A watch for the end ends over a hub with word of a loss. -/
theorem EndWatch.lost_of_result? {h : Hub} (hr : h.Reachable) {p : PlayerId} {v : EndWatch}
    {how : Departure} (hw : v.result? (h.feed p) = some how) :
    how ≠ .serviceClosed ∧ h.Lost p v.matchId := by
  unfold EndWatch.result? at hw
  split at hw
  next how' hv =>
    obtain rfl := Option.some.inj hw
    obtain ⟨n, hn, hn'⟩ := List.exists_of_findSome?_eq_some hv
    have hsent : n ∈ (h.feed p).sent := List.mem_of_mem_drop hn
    refine ⟨?_, Hub.lost_of_news hr n hsent _ ?_⟩
    · rintro rfl
      cases n with
      | received m => simp [verdict] at hn'
      | removed i => simp [verdict] at hn'
    · rw [← EndWatch.isSome_verdict, hn']
      rfl
  next => simp [Hub.notClosed_of_reachable hr] at hw

/-- The match whose end some work watches for. -/
def Work.ending? : Work → Option MatchId
  | .awaitEnd v => some v.matchId
  | _ => none

theorem Work.MayBecome.ending?_eq {w w' : Work} (h : w.MayBecome w') : w'.ending? = w.ending? :=
  h.get_eq (fun _ _ => rfl) (fun _ _ => rfl) (fun _ _ => rfl) fun _ _ _ => rfl

namespace Rendezvous

/-- A rendezvous watches no end but that of its own match, and what it is told of an end
is so: the room is lost to the player. -/
structure Informed (p : PlayerId) (h : Hub) (r : Rendezvous) (queue : List Notice) : Prop where
  watches : ∀ t ∈ r.jobs.running, ∀ i, t.work.ending? = some i → i = r.matchId
  news : ∀ g how, (g, .ended how) ∈ noticed queue → how ≠ .serviceClosed ∧ h.Lost p r.matchId

variable {p : PlayerId} {h : Hub} {r r' : Rendezvous} {queue : List Notice}

theorem Informed.tail {n : Notice} (hi : r.Informed p h (n :: queue)) : r.Informed p h queue := by
  refine ⟨hi.watches, fun g how hn => hi.news g how ?_⟩
  cases n with
  | done g' how' => exact List.mem_cons_of_mem _ hn
  | detach => exact hn

theorem Informed.enter (hi : r.Informed p h queue) (phase : Phase) :
    (r.enter phase).Informed p h queue :=
  ⟨hi.watches, hi.news⟩

/-- New work may be any but a watch for the end of another match. -/
theorem Informed.watch (hi : r.Informed p h queue) {work : Work}
    (hw : ∀ i, work.ending? = some i → i = r.matchId) :
    (r.watch work).Informed p h queue := by
  refine ⟨?_, hi.news⟩
  intro t ht i hid
  simp only [Rendezvous.watch, Registry.running_spawn, List.mem_append, List.mem_singleton] at ht
  rcases ht with ht | rfl
  · exact hi.watches t ht i hid
  · exact hw i hid

theorem informed_of_played {m : Match} {n : Nat} {out : List Output} (hi : r.Informed p h queue)
    (hplay : r.Played m n r' out) : r'.progress = .ended ∨ r'.Informed p h queue := by
  cases hplay with
  | refused => exact .inl rfl
  | handed =>
    refine .inr ⟨?_, hi.news⟩
    intro t ht i hid
    simp only [submit, Registry.running_spawn, List.mem_append, List.mem_singleton] at ht
    rcases ht with ht | rfl
    · exact hi.watches t ht i hid
    · cases hid

theorem informed_of_passage {s : Surroundings} {cause : Cause} {out : List Output}
    (hi : r.Informed p h queue) (hpass : r.Passage s cause r' out) :
    r'.progress = .ended ∨ r'.Informed p h queue := by
  -- a rendezvous with the same jobs and match
  have same {q : Rendezvous} (hj : q.jobs = r.jobs) (hid : q.matchId = r.matchId) :
      q.Informed p h queue :=
    ⟨by rw [hj, hid]; exact hi.watches, by rw [hid]; exact hi.news⟩
  cases hpass with
  | firstTurn _ hplay =>
    exact informed_of_played (r := { r with progress := .underway }) (same rfl rfl) hplay
  | firstWait =>
    exact .inr (((same (q := { r with progress := .underway }) rfl rfl).enter _).watch
      (by simp [Work.ending?]))
  | laterTurn _ hplay => exact informed_of_played hi hplay
  | passedOn =>
    exact .inr (((same (q := { r with submission := none, pending := none }) rfl rfl).enter
      _).watch (by simp [Work.ending?]))
  | stayed =>
    refine .inr (((same (q := { r with submission := none, pending := none }) rfl rfl).enter
      _).watch ?_)
    rintro i ⟨⟩
    rfl
  | @verifies _ localId text _ _ _ hrole =>
    let q : Rendezvous := { r with submission := none, pending := none }
    have begun : (((q.enter .verifying).watch (.probe text localId none)).watch
        (.timer (s.now + r.timing.probeTimeout.nanos))).Informed p h queue :=
      (((same (q := q) rfl rfl).enter _).watch (by simp [Work.ending?])).watch
        (by simp [Work.ending?])
    refine .inr ?_
    simp only [verify, hrole]
    exact ⟨begun.watches, begun.news⟩
  | _ => exact .inl rfl

/-- A match is over for a rendezvous that watches it when it is told so. -/
theorem outputs_of_monitoring {s : Surroundings} {n : Notice} {out : List Output}
    (hpass : r.Passage s (.notice n) r' out) (hp : r.phase = .monitoring) (hn : n ≠ .detach) :
    ∃ g how, n = .done g (.ended how) ∧ r' = r.leave ∧ out = [.concluded how.outcome] := by
  cases hpass with
  | gone => exact ⟨_, _, rfl, rfl, rfl⟩
  | detached => exact absurd rfl hn
  | laterTurn h => simp [hp] at h
  | waitEnded h => simp [hp] at h
  | turnRefused h => simp [hp] at h
  | passedOn h => simp [hp] at h
  | succeeded h => simp [hp] at h
  | stayed h => simp [hp] at h
  | verifies h => simp [hp] at h
  | reachable h => simp [hp] at h
  | unreachable h => simp [hp] at h
  | tooSlow h => simp [hp] at h

/-- A success is the last outcome if the match is dismissed or the peer was verified. -/
theorem dismisses_of_concluded {s : Surroundings} {cause : Cause} {out : List Output}
    (hpass : r.Passage s cause r' out) (hc : r.phase = .verifying → r.role.verifies = true)
    {invite : Option String} (ho : .concluded (.complete invite) ∈ out) :
    r.dismisses = true ∨ r.role.verifies = true := by
  cases hpass with
  | succeeded _ _ _ _ hd => exact .inl hd
  | reachable hp => exact .inr (hc hp)
  | firstTurn _ hplay => cases hplay <;> simp at ho
  | laterTurn _ hplay => cases hplay <;> simp at ho
  | @waitEnded result _ _ hr =>
    obtain rfl := Output.concluded.inj (List.mem_singleton.1 ho)
    cases result <;> simp [TurnResult.outcome?] at hr
  | @gone how => cases how <;> simp [Departure.outcome] at ho
  | _ => simp at ho

/-- A match is dismissed by whoever dismisses what is done, with a success that is the
last outcome. -/
theorem dismisses_of_dismissed {s : Surroundings} {cause : Cause} {out : List Output}
    (hpass : r.Passage s cause r' out) (hd : .dismissed ∈ out) :
    r.dismisses = true ∧ r.phase ≠ .monitoring ∧ r'.progress = .ended ∧
      ∀ o ∈ out, ∀ x, o.outcome? = some x → ∃ invite, x = .complete invite := by
  cases hpass with
  | succeeded hp _ _ _ hdis =>
    refine ⟨hdis, by simp [hp], rfl, ?_⟩
    simp [Output.outcome?]
  | reachable hp =>
    cases hdis : r.dismisses with
    | true =>
      refine ⟨rfl, by simp [hp], rfl, ?_⟩
      simp [Output.outcome?]
    | false => simp [hdis] at hd
  | firstTurn _ hplay => cases hplay <;> simp at hd
  | laterTurn _ hplay => cases hplay <;> simp at hd
  | _ => simp at hd

end Rendezvous

namespace Agent

/-- What is dismissed was put out to be. -/
theorem put_out_of_dismissed {within : List OwnerCall} {id : MatchId} {out : List Output} :
    ∀ {a : Agent}, .dismissed ∈ (a.emitAll within id out).2.map Mark.effect →
      .dismissed ∈ out := by
  induction out with
  | nil => simp [emitAll]
  | cons o out ih =>
    intro a hd
    simp only [emitAll, List.map_append, List.mem_append] at hd
    rcases hd with hd | hd
    · have ho : o = .dismissed := by
        cases o <;> cases hg : a.gate.closed <;>
          simp [emit, output, Mark.ofEffect, Mark.effect, hg] at hd ⊢
      exact ho ▸ List.mem_cons_self
    · exact List.mem_cons_of_mem _ (ih hd)

/-- A move tells the owner one thing at most. -/
theorem Heard.length_le_one {a b : Agent} {cs : List Callback} (h : Heard a b cs) :
    cs.length ≤ 1 := by
  have hears (c : Callback) : (a.hears c).length ≤ 1 := by
    simp only [Agent.hears]
    split <;> simp
  cases h with
  | nothing => exact Nat.zero_le 1
  | left => exact Nat.zero_le 1
  | success => exact hears _
  | last => exact hears _

theorem monitoring_of_watching {a : Agent} {r : Rendezvous} (hm : a.mode = .watching)
    (hr : a.rendezvous = some r) : r.phase = .monitoring := by
  rw [mode_of_some hr, modeOf] at hm
  split at hm
  · cases hm
  · split at hm
    · assumption
    · cases hm

/-- An agent whose rendezvous is over makes no steps. -/
theorem stepWithin?_of_ended {a : Agent} (hm : a.mode = .ended) (s : Surroundings) :
    a.stepWithin? s [] = none := by
  obtain ⟨r, hr, hp⟩ := mode_eq_over_iff.1 hm
  simp [stepWithin?, next?, hr, hp]

/-- What there is to a step of an agent: its rendezvous passes on for some cause and puts out
`out`, and what is marked comes from that. -/
structure Pace (s : Surroundings) (a b : Agent) (marks : List Mark) (r : Rendezvous)
    (cause : Rendezvous.Cause) (r' : Rendezvous) (out : List Output) : Prop where
  before : a.rendezvous = some r
  after : b.rendezvous = some r'
  passage : r.Passage s cause r' out
  live : r.progress ≠ .ended
  verifies : r.phase = .verifying → r.role.verifies = true
  monitors : r.phase = .monitoring → ∃ n, cause = .notice n ∧ n ∈ a.queue
  informed : ∀ p h, r.Informed p h a.queue → r.Informed p h b.queue
  told : ∀ c ∈ marks.filterMap Mark.callback?,
    ∃ o ∈ out, o.outcome? = some c.report.outcome ∧ o.isFinal = c.final
  dismissed : .dismissed ∈ marks.map Mark.effect → .dismissed ∈ out

/-- A standing agent makes a step on its snapshot or on the first of its notices. -/
theorem pace_of_step {a b : Agent} {s : Surroundings} {marks : List Mark} (hst : a.Standing)
    (hb : a.stepWithin? s [] = some (b, marks)) :
    ∃ r cause r' out, Pace s a b marks r cause r' out := by
  obtain ⟨a', r', out, hstride, habsorb⟩ := stride_of_stepWithin? hst hb
  obtain ⟨rfl, rfl⟩ := Prod.ext_iff.1 habsorb
  obtain ⟨hr', -, -, hq⟩ := sameWork_absorbWithin [] a' r' out
  have told : ∀ c ∈ (a'.absorbWithin [] (r', out)).2.filterMap Mark.callback?,
      ∃ o ∈ out, o.outcome? = some c.report.outcome ∧ o.isFinal = c.final :=
    fun _ hc => put_out_of_callback hc
  cases hstride with
  | @first r r' m position out hr _ hp hphase _ _ hpass =>
    exact ⟨r, _, r', out, hr, hr', hpass, by simp [hp], by simp [hphase], by simp [hphase],
      fun _ _ hi => ⟨hi.watches, hq ▸ hi.news⟩, told, put_out_of_dismissed⟩
  | @later r r' n queue out hr _ hp hqueue hd hpass =>
    refine ⟨r, _, r', out, hr, hr', hpass, by simp [hp], ?_, fun _ => ⟨n, rfl, by simp [hqueue]⟩,
      ?_, told, put_out_of_dismissed⟩
    · intro hv
      have hc := hd.course
      simp only [Rendezvous.Course, hv] at hc
      obtain ⟨localId, text, hrole, -⟩ := hc
      rw [hrole]
      rfl
    · intro p h hi
      rw [hqueue] at hi
      exact ⟨hi.watches, hq ▸ hi.tail.news⟩

/-- An agent of the player `p` that was made with a role, may have been started on the match
`id`, and that its owner never let go of. -/
structure Tended (role : Role) (timing : Timing) (p : PlayerId) (id : MatchId) (h : Hub)
    (t : List Stage) (a : Agent) : Prop where
  run : Run (ofRole role timing) t a
  kept : ∀ st ∈ t, st.letsGo = false
  informed : ∀ r, a.rendezvous = some r →
    r.matchId = id ∧ (r.progress = .ended ∨ r.Informed p h a.queue)
  /-- What comes after a success is the loss of the room. -/
  parting : ∀ c c', callbacks t = [c, c'] → c'.report.outcome = .matchRemoved ∧ h.Lost p id
  dismissing : ∀ c ∈ callbacks t, c.final = true → ∀ invite, c.report.outcome = .complete invite →
    timing.dismissOnFinish.getD role.leavesByDefault = true ∨ role.verifies = true

section Tended
variable {role : Role} {timing : Timing} {p : PlayerId} {id : MatchId} {h h' : Hub}
  {t : List Stage} {a b : Agent} {now : Instant}

theorem Tended.standing (ht : a.Tended role timing p id h t) : a.Standing := ht.run.aimed.1

theorem tended_ofRole : (ofRole role timing).Tended role timing p id h [] where
  run := .nil
  kept := List.forall_mem_nil _
  informed r hr := by cases hr
  parting c c' hc := by cases hc
  dismissing := List.forall_mem_nil _

/-- Calls of anybody. -/
theorem Tended.later (ht : a.Tended role timing p id h t) (hr : h.Regular)
    (he : h.Enrols p id) (hrun : Hub.Later h h') : a.Tended role timing p id h' t where
  run := ht.run
  kept := ht.kept
  informed r hr' := by
    obtain ⟨rfl, hi⟩ := ht.informed r hr'
    refine ⟨rfl, hi.imp_right fun hi => ⟨hi.watches, fun g how hn => ?_⟩⟩
    exact (hi.news g how hn).imp_right fun hl => hr.lost he hl hrun
  parting c c' hc := (ht.parting c c' hc).imp_right fun hl => hr.lost he hl hrun
  dismissing := ht.dismissing

/-- A move that tells the owner nothing. -/
theorem Tended.silent (ht : a.Tended role timing p id h t) {mv : Move} (hm : a.Moves mv [] b)
    (hkept : Stage.letsGo ⟨a, mv, [], b⟩ = false)
    (hi : ∀ r, b.rendezvous = some r →
      r.matchId = id ∧ (r.progress = .ended ∨ r.Informed p h b.queue)) :
    b.Tended role timing p id h (t ++ [⟨a, mv, [], b⟩]) where
  run := ht.run.snoc hm
  kept := List.forall_mem_append.2 ⟨ht.kept, by simpa using hkept⟩
  informed := hi
  parting := by simpa using ht.parting
  dismissing := by simpa using ht.dismissing

theorem tended_start (ht : a.Tended role timing p id h t) {signedIn : Bool} {m : Match}
    {position : Nat} (hb : a.start? signedIn m position = some b) (hid : m.id = id) :
    b.Tended role timing p id h (t ++ [⟨a, .start signedIn m position, [], b⟩]) := by
  refine ht.silent (.start hb) rfl ?_
  obtain ⟨-, hq, role', -, rfl⟩ := start_of_standing ht.standing hb
  intro r hr
  obtain rfl := Option.some.inj hr
  exact ⟨hid, .inr ⟨List.forall_mem_nil _, by simp [hq]⟩⟩

/-! ## Tasks -/

theorem tended_progress (ht : a.Tended role timing p id h t) {j : JobId} {task : Task}
    (htask : a.task? j = some task) {work : Work} (hg : task.work.GoesOn (h.feed p) now work) :
    (a.progress j work).Tended role timing p id h
      (t ++ [⟨a, .goOn j work, [], a.progress j work⟩]) := by
  obtain ⟨r, job, hr, hj, -, rfl⟩ := exists_of_task? htask
  refine ht.silent (.goOn htask hg.mayBecome) rfl ?_
  intro r' hr'
  obtain rfl := Option.some.inj ((rendezvous_progress hr j work).symm.trans hr')
  refine (ht.informed r hr).imp_right fun hi => hi.imp_right fun hi => ⟨?_, hi.news⟩
  intro task' htask' i hid
  rcases Registry.mem_running_of_progress htask' with hrun | ⟨job', hj', hrun, rfl⟩
  · exact hi.watches task' hrun i hid
  · obtain rfl := Option.some.inj (hj.symm.trans hj')
    exact hi.watches job.work hrun i (hg.mayBecome.ending?_eq.symm.trans hid)

/-- A task ends; if it was a watch, then with word of a loss. -/
theorem tended_complete (ht : a.Tended role timing p id h t) {j : JobId} {task : Task}
    (htask : a.task? j = some task) {how : TaskEnd} (hm : task.work.MayEnd how)
    (hend : ∀ way, how = .ended way →
      ∃ i, task.work.ending? = some i ∧ way ≠ .serviceClosed ∧ h.Lost p i) :
    (a.complete j how).Tended role timing p id h
      (t ++ [⟨a, .finish j how, [], a.complete j how⟩]) := by
  obtain ⟨r, job, hr, hj, -, rfl⟩ := exists_of_task? htask
  refine ht.silent (.finish htask hm) rfl ?_
  rw [complete_eq hr htask how]
  intro r' hr'
  obtain rfl := Option.some.inj hr'
  refine (ht.informed r hr).imp_right fun hi => hi.imp_right fun hi => ⟨?_, ?_⟩
  · intro task' htask'
    exact hi.watches task' (Registry.running_modify_subset r.jobs j (by simp) (by simp) htask')
  · intro g way hn
    split at hn
    next hdelivered =>
      rw [noticed_append] at hn
      rcases List.mem_append.1 hn with hn | hn
      · exact hi.news g way hn
      · obtain ⟨-, rfl⟩ := Prod.ext_iff.1 (List.mem_singleton.1 hn)
        have hrun : job.work ∈ r.jobs.running := by
          refine Registry.mem_running.2 ⟨j, job, hj, ?_, rfl⟩
          simpa [Registry.complete, hj, Job.fst_complete] using hdelivered
        obtain ⟨i, hid, hway, hl⟩ := hend way rfl
        exact ⟨hway, hi.watches job.work hrun i hid ▸ hl⟩
    next => exact hi.news g way hn

/-- What a task does is no word to the owner. -/
theorem tended_labours (ht : a.Tended role timing p id h t) (hr : h.Regular) (he : h.Enrols p id)
    (hl : Labours p now h a h' b) :
    ∃ t', b.Tended role timing p id h' t' ∧ callbacks t' = callbacks t := by
  cases hl with
  | goOn htask hg => exact ⟨_, tended_progress ht htask hg, by simp⟩
  | @finish j task how htask hend =>
    refine ⟨_, tended_complete ht htask hend.mayEnd ?_, by simp⟩
    rintro way rfl
    cases hw : task.work with
    | awaitEnd v =>
      rw [hw] at hend
      exact ⟨v.matchId, rfl, EndWatch.lost_of_result? hr.reachable hend⟩
    | submit data next issued =>
      rw [hw] at hend
      cases issued <;> cases hend
    | _ =>
      rw [hw] at hend
      cases hend
  | @land j task r data next room htask hw hrv hok =>
    have later := ht.later hr he (.one (a := .takeTurn p r.matchId data next) trivial)
    have accepted : task.work.MayEnd (.submitted (.ok ())) := by
      rw [hw]
      rfl
    exact ⟨_, tended_complete later htask accepted (by simp), by simp⟩

theorem tended_toils (ht : a.Tended role timing p id h t) (hr : h.Regular) (he : h.Enrols p id)
    (hl : Toils p now h a h' b) :
    ∃ t', b.Tended role timing p id h' t' ∧ callbacks t' = callbacks t := by
  have kept := hl.keeps (P := fun h a => h.Regular ∧ h.Enrols p id ∧
    ∃ t', a.Tended role timing p id h t' ∧ callbacks t' = callbacks t) ?_ ⟨hr, he, t, ht, rfl⟩
  · exact kept.2.2
  · rintro h h' a a' ⟨hr, he, t', ht', hcalls⟩ hl
    obtain ⟨t'', ht'', hcalls'⟩ := tended_labours ht' hr he hl
    exact ⟨hr.later hl.later, hr.enrols he hl.later, t'', ht'', hcalls'.trans hcalls⟩

/-! ## Steps -/

theorem Tended.informed_step (ht : a.Tended role timing p id h t) {s : Surroundings}
    {marks : List Mark} (hb : a.stepWithin? s [] = some (b, marks)) :
    ∀ r, b.rendezvous = some r →
      r.matchId = id ∧ (r.progress = .ended ∨ r.Informed p h b.queue) := by
  obtain ⟨r, cause, r', out, hpace⟩ := pace_of_step ht.standing hb
  obtain ⟨rfl, hi⟩ := ht.informed r hpace.before
  have hi := hpace.informed p h (hi.resolve_left hpace.live)
  intro r'' hr''
  obtain rfl := Option.some.inj (hpace.after.symm.trans hr'')
  exact ⟨(Rendezvous.sameAim_of_passage hpace.passage).matchId,
    Rendezvous.informed_of_passage hi hpace.passage⟩

/-- All that is told by an agent that watches its room is the loss of it. -/
theorem Tended.told_of_watching (ht : a.Tended role timing p id h t) {s : Surroundings}
    {marks : List Mark} (hb : a.stepWithin? s [] = some (b, marks)) (hm : a.mode = .watching) :
    ∀ c ∈ marks.filterMap Mark.callback?, c.report.outcome = .matchRemoved ∧ h.Lost p id := by
  obtain ⟨r, cause, r', out, hpace⟩ := pace_of_step ht.standing hb
  obtain ⟨rfl, hi⟩ := ht.informed r hpace.before
  have hi := hi.resolve_left hpace.live
  have hphase : r.phase = .monitoring := monitoring_of_watching hm hpace.before
  obtain ⟨n, rfl, hn⟩ := hpace.monitors hphase
  obtain ⟨g, how, rfl, -, rfl⟩ := Rendezvous.outputs_of_monitoring hpace.passage hphase
    fun hd => (ht.run.attended ht.kept).queue (hd ▸ hn)
  obtain ⟨hhow, hlost⟩ := hi.news g how (mem_noticed_iff.2 hn)
  intro c hc
  obtain ⟨o, ho, hout, -⟩ := hpace.told c hc
  obtain rfl := List.mem_singleton.1 ho
  refine ⟨(Option.some.inj hout).symm.trans ?_, hlost⟩
  cases how with
  | serviceClosed => exact absurd rfl hhow
  | _ => rfl

/-- What follows upon a success is the loss of the room. -/
theorem Tended.parting_step (ht : a.Tended role timing p id h t) {s : Surroundings}
    {marks : List Mark} (hb : a.stepWithin? s [] = some (b, marks)) {c c' : Callback}
    (hcs : callbacks t ++ marks.filterMap Mark.callback? = [c, c']) :
    c'.report.outcome = .matchRemoved ∧ h.Lost p id := by
  have hh := heard_of_moves ht.standing (.step hb)
  have hwatching := ht.told_of_watching hb
  generalize marks.filterMap Mark.callback? = new at hcs hh hwatching
  cases hmode : a.mode with
  | before =>
    rw [ht.run.telling.before hmode, List.nil_append] at hcs
    exact absurd (congrArg List.length hcs) (by have := hh.length_le_one; simp; omega)
  | ended =>
    rw [stepWithin?_of_ended hmode] at hb
    cases hb
  | watching =>
    rcases List.eq_nil_or_concat new with rfl | ⟨before, x, rfl⟩
    · exact ht.parting c c' (by simpa using hcs)
    · rw [List.concat_eq_append, ← List.append_assoc] at hcs
      obtain ⟨-, hx⟩ := List.append_inj' (hcs.trans (List.append_cons [] c [c'])) rfl
      obtain rfl := List.singleton_inj.1 hx
      exact hwatching hmode x (by simp)

/-- A success that is told in a step is the last word of an agent only if it dismisses the
match or has the peer verified. -/
theorem Tended.dismissing_step (ht : a.Tended role timing p id h t) {s : Surroundings}
    {marks : List Mark} (hb : a.stepWithin? s [] = some (b, marks)) {c : Callback}
    (hc : c ∈ marks.filterMap Mark.callback?) (hfinal : c.final = true) {invite : Option String}
    (hout : c.report.outcome = .complete invite) :
    timing.dismissOnFinish.getD role.leavesByDefault = true ∨ role.verifies = true := by
  obtain ⟨r, cause, r', out, hpace⟩ := pace_of_step ht.standing hb
  obtain ⟨o, ho, hoc, hof⟩ := hpace.told c hc
  obtain rfl : o = .concluded (.complete invite) := by
    cases o <;> simp_all [Output.isFinal, Output.outcome?]
  obtain ⟨-, -, hdis, hblank⟩ := ht.run.aimed.2.started r hpace.before
  rw [← hdis, ← Role.verifies_blank role, ← hblank, Role.verifies_blank]
  exact Rendezvous.dismisses_of_concluded hpace.passage hpace.verifies ho

theorem tended_step (ht : a.Tended role timing p id h t) {s : Surroundings} {marks : List Mark}
    (hb : a.stepWithin? s [] = some (b, marks)) :
    b.Tended role timing p id h (t ++ [⟨a, .step s [], marks, b⟩]) where
  run := ht.run.snoc (.step hb)
  kept := List.forall_mem_append.2 ⟨ht.kept, by simp [Stage.letsGo]⟩
  informed := ht.informed_step hb
  parting c c' hcs := by
    rw [callbacks_snoc] at hcs
    exact ht.parting_step hb hcs
  dismissing c hc hfinal invite hout := by
    rw [callbacks_snoc] at hc
    rcases List.mem_append.1 hc with hc | hc
    · exact ht.dismissing c hc hfinal invite hout
    · exact ht.dismissing_step hb hc hfinal hout

/-- The agent dismisses its match if it is to do so after a success, and it has told of
one then. -/
theorem Tended.dismisses (ht : a.Tended role timing p id h t) {s : Surroundings}
    {marks : List Mark} (hb : a.stepWithin? s [] = some (b, marks))
    (hd : .dismissed ∈ marks.map Mark.effect) :
    timing.dismissOnFinish.getD role.leavesByDefault = true ∧
      ∃ c, callbacks (t ++ [⟨a, .step s [], marks, b⟩]) = [c] ∧ c.report.isComplete = true := by
  have ht' := tended_step ht hb
  obtain ⟨r, cause, r', out, hpace⟩ := pace_of_step ht.standing hb
  obtain ⟨-, -, hdis, -⟩ := ht.run.aimed.2.started r hpace.before
  obtain ⟨hdismisses, hphase, hended, hsuccess⟩ :=
    Rendezvous.dismisses_of_dismissed hpace.passage (hpace.dismissed hd)
  refine ⟨hdis.symm.trans hdismisses, ?_⟩
  -- nothing was told before, and something is now
  have hbefore : a.mode = .before := by
    simp [mode_of_some hpace.before, modeOf, hpace.live, hphase]
  obtain ⟨c, hc, -⟩ :=
    (ht'.run.attended ht'.kept).told (mode_eq_over_iff.2 ⟨r', hpace.after, hended⟩)
  rw [callbacks_snoc, ht.run.telling.before hbefore, List.nil_append] at hc ⊢
  have hlength := (heard_of_moves ht.standing (.step hb)).length_le_one
  obtain ⟨c', hc'⟩ := List.length_eq_one_iff.1 (Nat.le_antisymm hlength (List.length_pos_of_mem hc))
  obtain rfl := List.mem_singleton.1 (hc' ▸ hc)
  refine ⟨c, hc', ?_⟩
  obtain ⟨o, ho, hoc, -⟩ := hpace.told c hc
  obtain ⟨invite, hinvite⟩ := hsuccess o ho _ hoc
  simp [Report.isComplete, hinvite]

/-! ## Before a success -/

/-- An agent that has told of a failure first is done. -/
theorem Tended.ended_of_failure (ht : a.Tended role timing p id h t) {first : Report}
    {rest : List Report} (hd : (callbacks t).map Callback.report = first :: rest)
    (hfirst : first.isComplete = false) : a.mode = .ended := by
  have htell := ht.run.telling
  have htrace := htell.trace
  generalize hcs : callbacks t = cs at hd htrace
  cases hm : a.mode with
  | ended => rfl
  | before =>
    rw [← hcs, htell.before hm] at hd
    cases hd
  | watching =>
    have hopen := htell.watching hm
    rw [hcs] at hopen
    cases htrace with
    | silent => cases hd
    | told hc => simp [hc] at hopen
    | success _ hc =>
      obtain ⟨rfl, -⟩ := List.cons.inj hd
      simp [Report.isComplete, hc] at hfirst
    | gone _ hc =>
      obtain ⟨rfl, -⟩ := List.cons.inj hd
      simp [Report.isComplete, hc] at hfirst

/-- An agent does not finish in silence. -/
theorem Tended.told_of_finished (ht : a.Tended role timing p id h t)
    (hp : a.phase = .finished) : callbacks t ≠ [] := by
  obtain ⟨c, hc, -⟩ := (ht.run.attended ht.kept).told ((finished_iff ht.standing).1 hp)
  exact List.ne_nil_of_mem hc

/-! ## After a success -/

/-- How an agent stands that has told its owner of a success, and `rest` after it. -/
inductive Parted (timing : Timing) (role : Role) (p : PlayerId) (id : MatchId) (h : Hub)
    (a : Agent) : List Report → Prop
  /-- It watches the match. -/
  | watching : timing.dismissOnFinish.getD role.leavesByDefault = false →
      a.phase = .monitoring → Parted timing role p id h a []
  /-- It has seen the match go away. -/
  | gone : timing.dismissOnFinish.getD role.leavesByDefault = false → h.Lost p id →
      Parted timing role p id h a [⟨id, .matchRemoved⟩]
  /-- It has left the match. -/
  | left : timing.dismissOnFinish.getD role.leavesByDefault = true → a.phase = .finished →
      Parted timing role p id h a []

theorem phase_of_watching (hm : a.mode = .watching) : a.phase = .monitoring := by
  cases hr : a.rendezvous with
  | none => simp [mode, hr] at hm
  | some r => simp only [phase, hr, monitoring_of_watching hm hr]

/-- An agent that has no peer verified and has told of a success watches its match or has
left it; and what it tells later is that the match was removed, when the room is lost. -/
theorem Tended.parted (ht : a.Tended role timing p id h t) (hv : role.verifies = false)
    {first : Report} {rest : List Report} (hd : (callbacks t).map Callback.report = first :: rest)
    (hfirst : first.isComplete = true) : Parted timing role p id h a rest := by
  have htell := ht.run.telling
  have hatt := ht.run.attended ht.kept
  have htrace := htell.trace
  generalize hcs : callbacks t = cs at hd htrace
  have hbefore : a.mode ≠ .before := by
    intro hm
    rw [← hcs, htell.before hm] at hd
    cases hd
  cases htrace with
  | silent => cases hd
  | @told c hc =>
    obtain ⟨rfl, rfl⟩ := List.cons.inj hd
    have hmem : c ∈ callbacks t := by simp [hcs]
    refine .left ?_ ((finished_iff ht.standing).2 ?_)
    · cases ho : c.report.outcome with
      | complete invite => simpa [hv] using ht.dismissing c hmem hc invite ho
      | _ => simp [Report.isComplete, ho] at hfirst
    · cases hm : a.mode with
      | before => exact absurd hm hbefore
      | watching => simp [htell.watching hm c hmem] at hc
      | ended => rfl
  | @success c invite hc _ hstays =>
    obtain ⟨rfl, rfl⟩ := List.cons.inj hd
    refine .watching hstays.1 (phase_of_watching ?_)
    cases hm : a.mode with
    | before => exact absurd hm hbefore
    | watching => rfl
    | ended =>
      obtain ⟨c', hc', hfinal⟩ := hatt.told hm
      rw [hcs, List.mem_singleton] at hc'
      simp [hc', hc] at hfinal
  | @gone c c' invite _ _ hstays hc' =>
    obtain ⟨rfl, rfl⟩ := List.cons.inj hd
    obtain ⟨hout, hlost⟩ := ht.parting c c' hcs
    obtain ⟨r, hr, hid⟩ := htell.ids c' (by simp [hcs])
    have hreport : c'.report = ⟨id, .matchRemoved⟩ := by
      rw [← hout, ← (ht.informed r hr).1, ← hid]
    rw [List.map_singleton, hreport]
    exact .gone hstays.1 hlost

end Tended

end Agent

end TurnRendezvous
