/-
# `Vigil` — which news ends a wait for the turn, and when

A wait for the turn ends with the first news that means something to it, with the end of
the feed, or at its deadline.  What it comes to is known beforehand from the news that lie
unread when it is armed and from what happens afterwards, each at its time (`Vigil.fate?`):
of the news that are unread at arming, or come before the deadline, the first one that
matters decides; without one the end of the feed does, if the feed ends in time; else the
deadline.

Against this stands a `Lookout`, on which a row of happenings is played.  It looks at its
feed before the clock moves on and as soon as it has, and in between whenever it is made to;
news may come in heaps between two looks.  While it waits nothing may happen at the very
instant of the deadline, the clock stops there, and no more is sent between two looks than
the feed keeps (`Lookout.isRegular`).

A wait that goes on is at any time as good as armed anew, with what it has read behind it
and its deadline as it was (`Vigil`); `outcome_eq_fate` is by induction on the row.

* `TurnWatch.result?_eq_readOn`: to look is to read item by item, and only then to look at
  the clock;
* `outcome_eq_fate`: a wait comes to what its happenings make of it;
* `first_news_that_matters_decides`: that, and that all other news leave it as it is.
-/
import TurnRendezvous.Proofs.Feed
import TurnRendezvous.Scenario.Lookout

namespace TurnRendezvous

/-! ## A look, item by item -/

namespace Feed

variable {α : Type}

theorem read_item {f : Feed α} {position p : Nat} {a : α}
    (h : f.read position = (.item a, p)) :
    position < p ∧ p ≤ f.sent.length ∧ f.unread position = a :: f.unread p := by
  cases hs : f.sent[f.resume position]? with
  | none =>
    rw [read_of_empty hs] at h
    cases hc : f.closed <;> simp [hc] at h
  | some b =>
    rw [read_of_item hs] at h
    cases h
    obtain ⟨hlt, rfl⟩ := List.getElem?_eq_some_iff.1 hs
    have hle : position ≤ f.resume position := Nat.le_max_left _ _
    have hkept : f.resume (f.resume position + 1) = f.resume position + 1 :=
      Nat.max_eq_left (Nat.le_succ_of_le (Nat.le_max_right _ _))
    refine ⟨Nat.lt_succ_of_le hle, hlt, ?_⟩
    rw [unread, unread, hkept, List.drop_eq_getElem_cons hlt]

theorem unread_of_read {f : Feed α} {position p : Nat} {r : Reading α}
    (h : f.read position = (r, p)) (hr : ∀ a, r ≠ .item a) :
    f.unread position = [] ∧ r = if f.closed then .ended else .pending := by
  unfold read at h
  split at h
  next a _ _ => exact absurd (Prod.ext_iff.1 h).1.symm (hr a)
  next hu => exact ⟨hu, (Prod.ext_iff.1 h).1.symm⟩

end Feed

namespace TurnWatch

/-- Reads one item after the other until one of them means something or there is none. -/
def readOn (id : MatchId) (feed : Feed MatchNews) (position : Nat) : Option TurnResult :=
  match h : feed.read position with
  | (.item n, p) =>
    match verdict id n with
    | some r => some r
    | none =>
      have := Feed.read_item h
      readOn id feed p
  | (.ended, _) => some .serviceClosed
  | (.pending, _) => none
termination_by feed.sent.length - position
decreasing_by omega

theorem readOn_eq (id : MatchId) (feed : Feed MatchNews) (position : Nat) :
    readOn id feed position = ((feed.unread position).findSome? (verdict id)).or
      (if feed.closed then some .serviceClosed else none) := by
  fun_induction readOn id feed position with
  | case1 position n p h r hr => simp [(Feed.read_item h).2.2, hr]
  | case2 position n p h hr _ ih => simp [(Feed.read_item h).2.2, hr, ih]
  | case3 position p h =>
    obtain ⟨hu, hclosed⟩ := Feed.unread_of_read h (by simp)
    rw [hu]
    cases hc : feed.closed with
    | true => rfl
    | false => simp [hc] at hclosed
  | case4 position p h =>
    obtain ⟨hu, hclosed⟩ := Feed.unread_of_read h (by simp)
    rw [hu]
    cases hc : feed.closed with
    | true => simp [hc] at hclosed
    | false => rfl

/-- A look is reading item by item, and only then looking at the clock. -/
theorem result?_eq_readOn (w : TurnWatch) (feed : Feed MatchNews) (now : Instant) :
    w.result? feed now = (readOn w.matchId feed w.position).or
      (if w.isOverdue now then some .timedOut else none) := by
  rw [readOn_eq, result?]
  cases (feed.unread w.position).findSome? (verdict w.matchId) with
  | some r => rfl
  | none => cases feed.closed <;> rfl

end TurnWatch

/-! ## News that matters -/

namespace MatchNews

/-- Whether news matters to a wait for the turn in the match `id`: the match is removed, or
a snapshot of it is over or shows that it is the viewer's turn. -/
def matters (id : MatchId) : MatchNews → Bool
  | .removed r => r == id
  | .received m => m.id == id && (!m.status.isLive || m.isMyTurn)

/-- What news that matters means. -/
def meaning : MatchNews → TurnResult
  | .removed _ => .removed
  | .received m => if m.status.isLive then .myTurn m else .removed

theorem verdict_eq (id : MatchId) (n : MatchNews) :
    TurnWatch.verdict id n = if n.matters id then some n.meaning else none := by
  cases n with
  | removed r => simp [TurnWatch.verdict, matters, meaning]
  | received m =>
    by_cases hid : m.id = id
    · cases hl : m.status.isLive <;> simp [TurnWatch.verdict, matters, meaning, hid, hl]
    · simp [TurnWatch.verdict, matters, hid]

theorem findSome?_verdict (id : MatchId) (ns : List MatchNews) :
    ns.findSome? (TurnWatch.verdict id) = (ns.find? (matters id)).map meaning := by
  induction ns with
  | nil => rfl
  | cons n ns ih => cases hn : n.matters id <;> simp [verdict_eq, hn, ih]

end MatchNews

/-! ## What happens -/

/-- What happens around a wait. -/
inductive Happening
  | sent (n : MatchNews)
  | closed
  /-- The wait looks at its feed. -/
  | looked
  | passed (d : Duration)

namespace Happening

/-- The news of a row and their times, as long as the feed is open. -/
def arrivals (t : Instant) : List Happening → List (Instant × MatchNews)
  | [] => []
  | .sent n :: row => (t, n) :: arrivals t row
  | .closed :: _ => []
  | .looked :: row => arrivals t row
  | .passed d :: row => arrivals (t + d.nanos) row

/-- When the feed is closed, if it is. -/
def closing? (t : Instant) : List Happening → Option Instant
  | [] => none
  | .sent _ :: row => closing? t row
  | .closed :: _ => some t
  | .looked :: row => closing? t row
  | .passed d :: row => closing? (t + d.nanos) row

/-- How late it is in the end. -/
def clock (t : Instant) : List Happening → Instant
  | [] => t
  | .passed d :: row => clock (t + d.nanos) row
  | _ :: row => clock t row

theorem le_of_mem_arrivals {t : Instant} {row : List Happening} {p : Instant × MatchNews}
    (h : p ∈ arrivals t row) : t ≤ p.1 := by
  fun_induction arrivals t row with
  | case1 => cases h
  | case2 t n row ih =>
    rcases List.mem_cons.1 h with rfl | h
    · exact Nat.le_refl _
    · exact ih h
  | case3 => cases h
  | case4 t row ih => exact ih h
  | case5 t d row ih => exact Nat.le_trans (Nat.le_add_right _ _) (ih h)

theorem le_of_closing? {t u : Instant} {row : List Happening} (h : closing? t row = some u) :
    t ≤ u := by
  fun_induction closing? t row with
  | case1 => cases h
  | case2 t n row ih => exact ih h
  | case3 => exact Nat.le_of_eq (Option.some.inj h)
  | case4 t row ih => exact ih h
  | case5 t d row ih => exact Nat.le_trans (Nat.le_add_right _ _) (ih h)

theorem le_clock (t : Instant) (row : List Happening) : t ≤ clock t row := by
  fun_induction clock t row with
  | case1 => exact Nat.le_refl _
  | case2 t d row ih => exact Nat.le_trans (Nat.le_add_right _ _) ih
  | case3 t h row _ ih => exact ih

/-- What a happening is to the wait.  Before the clock moves on the wait has looked. -/
def acts : Happening → List Lookout.Action
  | .sent n => [.push [n]]
  | .closed => [.closeFeed]
  | .looked => [.settle]
  | .passed d => [.settle, .advance d]

/-- Two rows that differ in nothing that matters to a wait in the match `id`. -/
structure Alike (id : MatchId) (t : Instant) (row row' : List Happening) : Prop where
  news : (arrivals t row).filter (fun p => p.2.matters id) =
    (arrivals t row').filter (fun p => p.2.matters id)
  closing : closing? t row = closing? t row'
  clock : clock t row = clock t row'

end Happening

namespace Lookout

/-- The turn watch of a wait that goes on. -/
def turnWatch? (w : Lookout) : Option TurnWatch :=
  if w.job.isWorking then
    match w.job.work with
    | .turn v => some v
    | .ending _ => none
  else none

def happen (w : Lookout) (h : Happening) : Lookout := h.acts.foldl act w

/-- The first result of a wait and when it was delivered, if one was. -/
def resolution? (w : Lookout) : List Action → Option (Result × Instant)
  | [] => none
  | a :: rest =>
    match (w.act a).results with
    | r :: _ => some (r, (w.act a).now)
    | [] => (w.act a).resolution? rest

theorem resolution?_quiet {w : Lookout} {a : Action} (h : (w.act a).results = [])
    {rest : List Action} : w.resolution? (a :: rest) = (w.act a).resolution? rest := by
  rw [resolution?, h]

/-- The same for a row of happenings that the wait has seen. -/
def outcome? (w : Lookout) (row : List Happening) : Option (Result × Instant) :=
  w.resolution? ((row ++ [Happening.looked]).flatMap Happening.acts)

/-- Whether a happening may befall a wait that goes on. -/
def allows (w : Lookout) (v : TurnWatch) : Happening → Bool
  | .sent _ =>
    v.deadline != some w.now && decide (w.feed.sent.length < v.position + w.feed.capacity)
  | .closed => v.deadline != some w.now
  | .looked => true
  | .passed d =>
    match v.deadline with
    | none => true
    | some due => decide (w.now < due → w.now + d.nanos ≤ due)

/-- Whether as long as the wait goes on the feed keeps what it has not seen, the clock stops
at its deadline, and nothing is sent or closed at that instant. -/
def isRegular (w : Lookout) : List Happening → Bool
  | [] => true
  | h :: row =>
    (match w.turnWatch? with
      | some v => w.allows v h
      | none => true) && (w.happen h).isRegular row

end Lookout

/-! ## What a wait comes to -/

/-- A wait for the turn that goes on. -/
structure Vigil where
  id : MatchId
  now : Instant
  deadline : Option Instant
  capacity : Nat
  /-- What was sent before the wait saw any, or what it has seen. -/
  read : List MatchNews
  unread : List MatchNews
  closed : Bool

namespace Vigil

/-- A wait when it is armed. -/
def arm (id : MatchId) (now : Instant) (timeout : Option Duration) (capacity : Nat)
    (read unread : List MatchNews) (closed : Bool) : Vigil :=
  { id, now, capacity, read, unread, closed
    deadline := (TurnWatch.arm now id read.length timeout).deadline }

def watch (v : Vigil) : TurnWatch :=
  { matchId := v.id, position := v.read.length, deadline := v.deadline }

def lookout (v : Vigil) : Lookout :=
  { now := v.now
    feed := { capacity := v.capacity, sent := v.read ++ v.unread, closed := v.closed }
    job := { work := .turn v.watch } }

/-- Whether an instant is before the deadline. -/
def isInTime (v : Vigil) (t : Instant) : Bool :=
  match v.deadline with
  | none => true
  | some due => decide (t < due)

/-- The news that come before the deadline, and their times. -/
def coming (v : Vigil) (row : List Happening) : List (Instant × MatchNews) :=
  if v.closed then [] else (Happening.arrivals v.now row).filter fun p => v.isInTime p.1

/-- All news that count: those that are unread and those that come in time. -/
def news (v : Vigil) (row : List Happening) : List (Instant × MatchNews) :=
  v.unread.map (v.now, ·) ++ v.coming row

/-- When the feed ends, if it does before the deadline or has ended already. -/
def end? (v : Vigil) (row : List Happening) : Option Instant :=
  if v.closed then some v.now else (Happening.closing? v.now row).filter v.isInTime

/-- What a wait comes to in the course of `row`, and when. -/
def fate? (v : Vigil) (row : List Happening) : Option (TurnResult × Instant) :=
  match (v.news row).find? fun p => p.2.matters v.id with
  | some (t, n) => some (n.meaning, t)
  | none =>
    match v.end? row with
    | some t => some (.serviceClosed, t)
    | none => (v.deadline.filter (· ≤ Happening.clock v.now row)).map (.timedOut, ·)

/-! ## A wait that looks -/

/-- What a wait comes to that looks now, if it comes to anything. -/
def verdict? (v : Vigil) : Option TurnResult :=
  match v.unread.find? (MatchNews.matters v.id) with
  | some n => some n.meaning
  | none =>
    if v.closed then some .serviceClosed
    else if v.watch.isOverdue v.now then some .timedOut
    else none

/-- A wait that has looked. -/
def looked (v : Vigil) : Vigil := { v with read := v.read ++ v.unread, unread := [] }

/-- A wait some time later. -/
def passed (v : Vigil) (d : Duration) : Vigil := { v with now := v.now + d.nanos }

/-- A wait to whose feed more is sent. -/
def sent (v : Vigil) (n : MatchNews) : Vigil :=
  if v.closed then v else { v with unread := v.unread ++ [n] }

/-- The feed keeps what is unread, and the deadline is not past. -/
structure Timely (v : Vigil) : Prop where
  fits : v.unread.length ≤ v.capacity
  due : ∀ due, v.deadline = some due → v.now ≤ due

section Look
variable {v : Vigil}

theorem looked_of_unread (h : v.unread = []) : v.looked = v := by
  cases v
  cases h
  simp [looked]

theorem unread_eq (h : v.unread.length ≤ v.capacity) :
    v.lookout.feed.unread v.watch.position = v.unread := by
  have hlen : (v.read ++ v.unread).length - v.capacity ≤ v.read.length := by
    rw [List.length_append]
    omega
  have hresume : v.lookout.feed.resume v.watch.position = v.read.length := Nat.max_eq_left hlen
  rw [Feed.unread, hresume]
  exact List.drop_left

theorem result?_eq (h : v.unread.length ≤ v.capacity) :
    v.lookout.result? = v.verdict?.map .turn := by
  have hread : TurnWatch.readOn v.watch.matchId v.lookout.feed v.watch.position =
      ((v.unread.find? (MatchNews.matters v.id)).map MatchNews.meaning).or
        (if v.closed then some .serviceClosed else none) := by
    rw [TurnWatch.readOn_eq, unread_eq h, MatchNews.findSome?_verdict]
    rfl
  have hlook : v.watch.result? v.lookout.feed v.now = v.verdict? := by
    rw [TurnWatch.result?_eq_readOn, hread, verdict?]
    cases v.unread.find? (MatchNews.matters v.id) with
    | some n => rfl
    | none => cases v.closed <;> rfl
  exact congrArg (Option.map Lookout.Result.turn) hlook

theorem settle_of_pending (h : v.unread.length ≤ v.capacity) (hv : v.verdict? = none) :
    v.lookout.settle = v.looked.lookout := by
  have hres : v.lookout.result? = none := by rw [result?_eq h, hv]; rfl
  have hworking : v.lookout.job.isWorking = true := rfl
  rw [Lookout.settle, if_pos hworking, hres]
  simp [Job.progress, lookout, looked, watch, Lookout.caughtUp, TurnWatch.caughtUp, Feed.position]

theorem settle_of_verdict (h : v.unread.length ≤ v.capacity) {r : TurnResult}
    (hv : v.verdict? = some r) :
    v.lookout.settle.results = [.turn r] ∧ v.lookout.settle.now = v.now := by
  have hres : v.lookout.result? = some (.turn r) := by rw [result?_eq h, hv]; rfl
  have hworking : v.lookout.job.isWorking = true := rfl
  rw [Lookout.settle, if_pos hworking, hres]
  exact ⟨rfl, rfl⟩

theorem lookout_sent (n : MatchNews) : v.lookout.act (.push [n]) = (v.sent n).lookout := by
  cases hc : v.closed <;> simp [Lookout.act, sent, lookout, watch, Feed.send, hc]

/-- Of a wait that goes on nothing is unread that matters, and neither the feed nor the time
is over. -/
theorem of_pending (hv : v.verdict? = none) :
    v.unread.find? (MatchNews.matters v.id) = none ∧ v.closed = false ∧
      ∀ due, v.deadline = some due → v.now < due := by
  unfold verdict? at hv
  split at hv
  · cases hv
  next hf =>
    split at hv
    · cases hv
    next hc =>
      split at hv
      · cases hv
      next hdue =>
        refine ⟨hf, by simpa using hc, ?_⟩
        intro due hd
        simpa [TurnWatch.isOverdue, watch, hd] using hdue

theorem verdict?_looked (hv : v.verdict? = none) : v.looked.verdict? = none := by
  obtain ⟨-, hc, hdue⟩ := of_pending hv
  have hover : v.watch.isOverdue v.now = false := by
    cases hd : v.deadline with
    | none => simp [TurnWatch.isOverdue, watch, hd]
    | some due => simpa [TurnWatch.isOverdue, watch, hd] using hdue due hd
  have hlooked : v.looked.watch.isOverdue v.looked.now = false := hover
  have hclosed : v.looked.closed = false := hc
  have hread : v.looked.unread = [] := rfl
  simp [verdict?, hlooked, hclosed, hread]

theorem act_advance (hv : v.verdict? = none) (d : Duration) :
    v.looked.lookout.act (.advance d) = (v.looked.passed d).lookout.settle := by
  have hsettled : v.looked.lookout.settle = v.looked.lookout := by
    rw [settle_of_pending (Nat.zero_le _) (verdict?_looked hv),
      looked_of_unread (v := v.looked) rfl]
  rw [Lookout.act, hsettled]
  rfl

end Look

/-! ## What it comes to, step by step -/

section Fate
variable {v : Vigil} {row : List Happening}

theorem find?_news (v : Vigil) (row : List Happening) :
    (v.news row).find? (fun p => p.2.matters v.id) =
      ((v.unread.find? (MatchNews.matters v.id)).map (v.now, ·)).or
        ((v.coming row).find? fun p => p.2.matters v.id) := by
  rw [news, List.find?_append, List.find?_map]
  rfl

/-- Nothing that is still to come is in time when the deadline has come. -/
theorem isInTime_of_due {due t : Instant} (hd : v.deadline = some due) (ht : due ≤ t) :
    v.isInTime t = false := by
  simp [isInTime, hd, ht]

/-- What a wait comes to now is not changed by what follows. -/
theorem fate?_of_verdict (hv : v.Timely) {r : TurnResult} (hr : v.verdict? = some r) :
    v.fate? row = some (r, v.now) := by
  rw [fate?, find?_news]
  unfold verdict? at hr
  split at hr
  next n hf =>
    obtain rfl := Option.some.inj hr
    rw [hf]
    rfl
  next hf =>
    rw [hf]
    split at hr
    next hc =>
      obtain rfl := Option.some.inj hr
      simp [coming, end?, hc]
    next hc =>
      split at hr
      next hover =>
        obtain rfl := Option.some.inj hr
        have ⟨due, hd, hle⟩ : ∃ due, v.deadline = some due ∧ due ≤ v.now := by
          cases hd : v.deadline with
          | none => simp [TurnWatch.isOverdue, watch, hd] at hover
          | some due => exact ⟨due, rfl, by simpa [TurnWatch.isOverdue, watch, hd] using hover⟩
        obtain rfl := Nat.le_antisymm hle (hv.due due hd)
        have hcoming : v.coming row = [] := by
          rw [coming, if_neg hc]
          refine List.filter_eq_nil_iff.2 fun p hp => ?_
          simp [isInTime_of_due hd (Happening.le_of_mem_arrivals hp)]
        have hend : v.end? row = none := by
          rw [end?, if_neg hc]
          refine Option.filter_eq_none_iff.2 fun t ht => ?_
          simp [isInTime_of_due hd (Happening.le_of_closing? ht)]
        simp [hcoming, hend, hd, Happening.le_clock]
      · cases hr

theorem fate?_nil (hr : v.verdict? = none) : v.fate? [] = none := by
  obtain ⟨hf, hc, hdue⟩ := of_pending hr
  have hcoming : v.coming [] = [] := by simp [coming, hc, Happening.arrivals]
  have hend : v.end? [] = none := by simp [end?, hc, Happening.closing?]
  have hlate : v.deadline.filter (· ≤ Happening.clock v.now []) = none := by
    refine Option.filter_eq_none_iff.2 fun due hd hle => ?_
    exact Nat.not_le.2 (hdue due hd) (of_decide_eq_true hle)
  rw [fate?, find?_news, hf, hcoming]
  simp only [hend, hlate]
  rfl

/-- What is sent in time is as good as unread. -/
theorem fate?_sent (hin : v.isInTime v.now = true) (n : MatchNews) :
    v.fate? (.sent n :: row) = (v.sent n).fate? row := by
  cases hc : v.closed with
  | true => simp [fate?, news, coming, end?, sent, hc]
  | false =>
    have hsent : v.sent n = { v with unread := v.unread ++ [n] } := by simp [sent, hc]
    have hcoming : v.coming (.sent n :: row) = (v.now, n) :: (v.sent n).coming row := by
      rw [hsent, coming, coming, if_neg (by simp [hc]), if_neg (by simp [hc]), Happening.arrivals,
        List.filter_cons, if_pos hin]
      rfl
    have hnews : v.news (.sent n :: row) = (v.sent n).news row := by
      rw [news, news, hcoming, hsent]
      simp
    have hend : v.end? (.sent n :: row) = (v.sent n).end? row := by
      rw [hsent]
      rfl
    rw [fate?, fate?, hnews, hend, hsent]
    rfl

/-- A feed that is closed in time is as good as one that was closed before. -/
theorem fate?_closed (hin : v.isInTime v.now = true) :
    v.fate? (.closed :: row) = { v with closed := true }.fate? row := by
  have hnews : v.news (.closed :: row) = { v with closed := true }.news row := by
    cases hc : v.closed <;> simp [news, coming, hc, Happening.arrivals]
  have hend : v.end? (.closed :: row) = { v with closed := true }.end? row := by
    cases hc : v.closed <;> simp [end?, hc, Happening.closing?, hin]
  simp only [fate?, hnews, hend]
  rfl

/-- A look that comes to nothing. -/
theorem fate?_looked (hr : v.verdict? = none) : v.fate? (.looked :: row) = v.looked.fate? row := by
  obtain ⟨hf, -, -⟩ := of_pending hr
  simp only [fate?, find?_news, hf]
  rfl

theorem fate?_passed (hr : v.verdict? = none) (d : Duration) :
    v.fate? (.passed d :: row) = (v.looked.passed d).fate? row := by
  obtain ⟨hf, hc, -⟩ := of_pending hr
  have hcoming : v.coming (.passed d :: row) = (v.looked.passed d).coming row := by
    rw [coming, coming, if_neg (by simp [hc]), if_neg (by simp [looked, passed, hc])]
    rfl
  have hend : v.end? (.passed d :: row) = (v.looked.passed d).end? row := by
    rw [end?, end?, if_neg (by simp [hc]), if_neg (by simp [looked, passed, hc])]
    rfl
  simp only [fate?, find?_news, hf, hcoming, hend]
  rfl

end Fate

/-! ## Through a row of happenings -/

section Course
variable {v : Vigil}

theorem Timely.looked (h : v.Timely) : v.looked.Timely := ⟨Nat.zero_le _, h.due⟩

theorem Timely.sent (h : v.Timely)
    (hroom : v.lookout.feed.sent.length < v.watch.position + v.lookout.feed.capacity)
    (n : MatchNews) : (v.sent n).Timely := by
  have hlen : v.unread.length < v.capacity := by
    simpa [lookout, watch, Nat.add_lt_add_iff_left] using hroom
  unfold Vigil.sent
  split
  · exact h
  · refine ⟨?_, h.due⟩
    rw [List.length_append]
    exact hlen

theorem timely_passed (hr : v.verdict? = none) {d : Duration}
    (hallowed : v.lookout.allows v.watch (.passed d) = true) : (v.looked.passed d).Timely := by
  refine ⟨Nat.zero_le _, fun due hd => ?_⟩
  obtain ⟨-, -, hdue⟩ := of_pending hr
  have hd : v.deadline = some due := hd
  simp only [Lookout.allows, watch, hd] at hallowed
  exact of_decide_eq_true hallowed (hdue due hd)

theorem isInTime_now (h : v.Timely) (hd : v.deadline ≠ some v.now) : v.isInTime v.now = true := by
  cases hdl : v.deadline with
  | none => simp [isInTime, hdl]
  | some due =>
    have hle := h.due due hdl
    have hne : v.now ≠ due := fun heq => hd (heq ▸ hdl)
    simpa [isInTime, hdl] using Nat.lt_of_le_of_ne hle hne

/-- A look, at the end of which the wait is over or goes on. -/
theorem resolution?_looked (hv : v.Timely) {w : Lookout} {a : Lookout.Action}
    (hw : w.act a = v.lookout.settle) {rest : List Lookout.Action} :
    w.resolution? (a :: rest) =
      match v.verdict? with
      | some r => some (.turn r, v.now)
      | none => v.looked.lookout.resolution? rest := by
  rw [Lookout.resolution?, hw]
  cases hr : v.verdict? with
  | some r =>
    obtain ⟨hres, hnow⟩ := settle_of_verdict hv.fits hr
    rw [hres, hnow]
  | none =>
    rw [settle_of_pending hv.fits hr]
    rfl

/-- A wait for the turn comes to what the happenings make of it. -/
theorem outcome_eq_fate (row : List Happening) (hv : v.Timely)
    (hrow : v.lookout.isRegular row = true) :
    v.lookout.outcome? row = (v.fate? row).map fun f => (.turn f.1, f.2) := by
  unfold Lookout.outcome?
  induction row generalizing v with
  | nil =>
    rw [List.nil_append, List.flatMap_singleton, Happening.acts, resolution?_looked hv rfl]
    cases hr : v.verdict? with
    | some r => rw [fate?_of_verdict hv hr]; rfl
    | none => rw [fate?_nil hr]; rfl
  | cons h row ih =>
    rw [Lookout.isRegular, Bool.and_eq_true] at hrow
    obtain ⟨hallowed, hlater⟩ := hrow
    have hallows : v.lookout.allows v.watch h = true := hallowed
    rw [List.cons_append, List.flatMap_cons]
    cases h with
    | sent n =>
      obtain ⟨hnot, hroom⟩ := Bool.and_eq_true_iff.1 hallows
      rw [fate?_sent (isInTime_now hv (bne_iff_ne.1 hnot)),
        ← ih (hv.sent (of_decide_eq_true hroom) n) (lookout_sent n ▸ hlater), ← lookout_sent]
      exact Lookout.resolution?_quiet rfl
    | closed =>
      rw [fate?_closed (isInTime_now hv (bne_iff_ne.1 hallows)),
        ← ih (v := { v with closed := true }) ⟨hv.fits, hv.due⟩ hlater]
      rfl
    | looked =>
      rw [Happening.acts, List.singleton_append, resolution?_looked hv rfl]
      cases hr : v.verdict? with
      | some r => rw [fate?_of_verdict hv hr]; rfl
      | none =>
        have hnext : v.lookout.happen .looked = v.looked.lookout := settle_of_pending hv.fits hr
        rw [fate?_looked hr, ← ih hv.looked (hnext ▸ hlater)]
    | passed d =>
      rw [Happening.acts, List.cons_append, List.singleton_append, resolution?_looked hv rfl]
      cases hr : v.verdict? with
      | some r => rw [fate?_of_verdict hv hr]; rfl
      | none =>
        have hv' : (v.looked.passed d).Timely := timely_passed hr hallows
        rw [fate?_passed hr]
        simp only [resolution?_looked hv' (act_advance hr d)]
        cases hr' : (v.looked.passed d).verdict? with
        | some r => rw [fate?_of_verdict hv' hr']; rfl
        | none =>
          have hsame : (v.looked.passed d).looked = v.looked.passed d := looked_of_unread rfl
          have hnext : v.lookout.happen (.passed d) = (v.looked.passed d).lookout := calc
            v.lookout.happen (.passed d) = v.lookout.settle.act (.advance d) := rfl
            _ = (v.looked.passed d).lookout.settle := by
              rw [settle_of_pending hv.fits hr, act_advance hr]
            _ = (v.looked.passed d).lookout := by rw [settle_of_pending hv'.fits hr', hsame]
          rw [hsame, ih hv' (hnext ▸ hlater)]

end Course

/-! ## News that does not matter -/

/-- What does not matter makes no difference to what a wait comes to. -/
theorem fate?_congr {v v' : Vigil} {row row' : List Happening} (hid : v.id = v'.id)
    (hnow : v.now = v'.now) (hdeadline : v.deadline = v'.deadline) (hclosed : v.closed = v'.closed)
    (hunread : v.unread.filter (MatchNews.matters v.id) =
      v'.unread.filter (MatchNews.matters v.id))
    (hrow : Happening.Alike v.id v.now row row') : v.fate? row = v'.fate? row' := by
  have hin : v.isInTime = v'.isInTime := by
    funext t
    rw [isInTime, isInTime, hdeadline]
  have hfirst : (v.unread.find? (MatchNews.matters v.id)) =
      v'.unread.find? (MatchNews.matters v'.id) := by
    rw [← List.head?_filter, hunread, List.head?_filter, hid]
  have hcoming : (v.coming row).find? (fun p => p.2.matters v.id) =
      (v'.coming row').find? (fun p => p.2.matters v'.id) := by
    rw [← List.head?_filter, ← List.head?_filter, ← hid, coming, coming, ← hclosed, ← hin, ← hnow]
    cases v.closed with
    | true => rfl
    | false =>
      have comm : ∀ (p q : Instant × MatchNews → Bool) (l : List (Instant × MatchNews)),
          (l.filter p).filter q = (l.filter q).filter p := by
        intro p q l
        simp only [List.filter_filter, Bool.and_comm]
      simp only [Bool.false_eq_true, if_false]
      rw [comm, hrow.news, comm]
  have hend : v.end? row = v'.end? row' := by
    rw [end?, end?, ← hclosed, ← hnow, ← hin, hrow.closing]
  rw [fate?, fate?, find?_news, find?_news, hfirst, hcoming, hend, hnow, hdeadline,
    ← hnow, hrow.clock]

end Vigil

/-- News that does not matter may come at any time, or not come. -/
theorem Happening.alike_insert {id : MatchId} {n : MatchNews} (hn : n.matters id = false)
    (t : Instant) (row₁ row₂ : List Happening) :
    Alike id t (row₁ ++ .sent n :: row₂) (row₁ ++ row₂) := by
  induction row₁ generalizing t with
  | nil => exact ⟨by simp [arrivals, hn], rfl, rfl⟩
  | cons h row₁ ih =>
    cases h with
    | sent m =>
      obtain ⟨hnews, hclosing, hclock⟩ := ih t
      refine ⟨?_, hclosing, hclock⟩
      cases hm : m.matters id <;> simpa [arrivals, hm] using hnews
    | closed => exact ⟨rfl, rfl, (ih t).clock⟩
    | looked => exact ⟨(ih t).news, (ih t).closing, (ih t).clock⟩
    | passed d =>
      obtain ⟨hnews, hclosing, hclock⟩ := ih (t + d.nanos)
      exact ⟨hnews, hclosing, hclock⟩

/-- A wait for the turn comes to what the first news that matters means, if that was unread
when the wait was armed or comes before the deadline, and at the time at which it comes; else
to the end of the feed, if that has ended before or ends before the deadline; else to its
deadline, or to nothing without one.  Another wait on the same match, armed at the same time
and for as long, comes to the same and at the same time, if all that matters is the same,
whatever else was unread and comes in between. -/
theorem first_news_that_matters_decides {id : MatchId} {now : Instant}
    {timeout : Option Duration} {closed : Bool} {capacity : Nat} {read unread : List MatchNews}
    {row : List Happening} (hfits : unread.length ≤ capacity)
    (hrow : (Vigil.arm id now timeout capacity read unread closed).lookout.isRegular row = true) :
    let v := Vigil.arm id now timeout capacity read unread closed
    v.lookout.outcome? row = (v.fate? row).map (fun f => (.turn f.1, f.2)) ∧
      ∀ (capacity' : Nat) (read' unread' : List MatchNews) (row' : List Happening),
        let v' := Vigil.arm id now timeout capacity' read' unread' closed
        unread'.length ≤ capacity' → v'.lookout.isRegular row' = true →
        unread.filter (MatchNews.matters id) = unread'.filter (MatchNews.matters id) →
        Happening.Alike id now row row' → v'.lookout.outcome? row' = v.lookout.outcome? row := by
  have timely : ∀ {c : Nat} {r u : List MatchNews}, u.length ≤ c →
      (Vigil.arm id now timeout c r u closed).Timely := by
    intro c r u hu
    refine ⟨hu, fun due hdue => ?_⟩
    obtain ⟨d, -, rfl⟩ := Option.map_eq_some_iff.1 hdue
    exact Nat.le_add_right _ _
  intro v
  have hv := Vigil.outcome_eq_fate row (timely hfits) hrow
  refine ⟨hv, ?_⟩
  intro capacity' read' unread' row' v' hfits' hrow' hunread halike
  have hv' := Vigil.outcome_eq_fate row' (timely hfits') hrow'
  have hfate : v.fate? row = v'.fate? row' := Vigil.fate?_congr rfl rfl rfl rfl hunread halike
  rw [hv, hv', hfate]

/-- A match that is over counts as removed, though it shows that it is the viewer's turn; it
is decided at once and not at the deadline, and the other traffic is as good as none. -/
theorem first_news_that_matters_decides_of_cancelled :
    let m : Match := ⟨⟨"m"⟩, .active, .theirs, [⟨"ann"⟩, ⟨"bob"⟩], ⟨"ann"⟩, ⟨"ann"⟩, none, 1⟩
    let cancelled : Match := { m with status := .cancelled, turn := .mine }
    let other : MatchNews := .received { m with id := ⟨"n"⟩, turn := .mine }
    let before := [Happening.passed ⟨2, by decide⟩]
    let after := [Happening.sent (.received m), .looked, .sent (.received cancelled)]
    let v := Vigil.arm ⟨"m"⟩ 5 (some ⟨3, by decide⟩) 2 [.removed ⟨"m"⟩] [.removed ⟨"n"⟩] false
    let v' := Vigil.arm ⟨"m"⟩ 5 (some ⟨3, by decide⟩) 1 [] [] false
    v.lookout.isRegular (before ++ .sent other :: after) = true ∧
      v.lookout.outcome? (before ++ .sent other :: after) = some (.turn .removed, 7) ∧
      v'.lookout.outcome? (before ++ after) = some (.turn .removed, 7) := by
  intro m cancelled other before after v v'
  have hfits : [MatchNews.removed ⟨"n"⟩].length ≤ 2 := by decide
  have hrow : v.lookout.isRegular (before ++ .sent other :: after) = true := by decide
  obtain ⟨decided, alike⟩ := first_news_that_matters_decides hfits hrow
  refine ⟨hrow, decided, ?_⟩
  exact (alike 1 [] [] (before ++ after) (by decide) (by decide) (by decide)
    (Happening.alike_insert (n := other) (by decide) 5 before after)).trans decided

end TurnRendezvous
