/-
# `Flow` — two ways of watching see the same end

A turn watch and an end watch on the same match judge news by rules of their own
(`TurnWatch.verdict`, `EndWatch.verdict`).  They differ in one kind of news only, the snapshots
of a match that goes on and in which it is the viewer's turn (`MatchNews.showsTurn`): one is
settled by these, and the other does not see them.  What remains of a stream of news without
them is to a turn watch that has no deadline what the stream is to an end watch.

A watch is followed through a row of happenings on its feed, between which it looks whenever it
is made to (`EndWatch.course?`, `TurnWatch.course?`).  What it comes to, and which one of all news
that it has got settles it, depends on nothing but the stream that it gets (`Happening.flow`), in
however many heaps this comes (`EndWatch.course?_eq`, `TurnWatch.course?_eq`).  So two watches are
compared by their streams, and need not look at the same time.
-/
import TurnRendezvous.Proofs.Watch

namespace TurnRendezvous

/-! ## Streams -/

/-- What a reader of a feed gets: some items, and whether the feed has ended after them. -/
structure Flow (α : Type) where
  items : List α
  ended : Bool

namespace Flow

variable {α β γ : Type}

/-- What a stream comes to, and how many items come before the one that decides it. -/
def outcome? (verdict : α → Option β) (last : β) (s : Flow α) : Option (β × Nat) :=
  ((s.items.findSome? verdict).or (if s.ended then some last else none)).map
    (·, s.items.findIdx fun a => (verdict a).isSome)

/-- A stream before which other items come. -/
def after (items : List α) (s : Flow α) : Flow α := { s with items := items ++ s.items }

/-- A stream comes to something by one of its items, or by its end. -/
theorem item_of_outcome? {verdict : α → Option β} {last r : β} {s : Flow α} {k : Nat}
    (h : s.outcome? verdict last = some (r, k)) :
    (∃ a, s.items[k]? = some a ∧ verdict a = some r) ∨ r = last := by
  obtain ⟨r', hr', hk⟩ := Option.map_eq_some_iff.1 h
  obtain ⟨rfl, rfl⟩ := Prod.mk.inj hk
  rcases Option.or_eq_some_iff.1 hr' with hf | ⟨-, hlast⟩
  · obtain ⟨before, a, rest, hitems, ha, hbefore⟩ := List.findSome?_eq_some_iff.1 hf
    have hidx : (s.items.findIdx fun a => (verdict a).isSome) = before.length := by
      have hno : (before.findIdx fun a => (verdict a).isSome) = before.length :=
        List.findIdx_eq_length_of_false fun b hb => by simp [hbefore b hb]
      simp [hitems, List.findIdx_append, hno, List.findIdx_cons, ha]
    refine .inl ⟨a, ?_, ha⟩
    rw [hidx, hitems]
    simp
  · obtain ⟨-, hlast⟩ := Option.ite_none_right_eq_some.1 hlast
    exact .inr (Option.some.inj hlast).symm

theorem findIdx_lt_length_iff {verdict : α → Option β} {items : List α} :
    (items.findIdx fun a => (verdict a).isSome) < items.length ↔
      items.findSome? verdict ≠ none := by
  simp [List.findIdx_lt_length, List.findSome?_eq_none_iff, Option.isSome_iff_ne_none]

theorem outcome?_after_of_some {verdict : α → Option β} {last r : β} {items : List α}
    (h : items.findSome? verdict = some r) (s : Flow α) :
    (s.after items).outcome? verdict last =
      some (r, items.findIdx fun a => (verdict a).isSome) := by
  have hlt : (items.findIdx fun a => (verdict a).isSome) < items.length :=
    findIdx_lt_length_iff.2 (by simp [h])
  simp [outcome?, after, List.findSome?_append, h, List.findIdx_append, hlt]

theorem outcome?_after_of_none {verdict : α → Option β} {last : β} {items : List α}
    (h : items.findSome? verdict = none) (s : Flow α) :
    (s.after items).outcome? verdict last =
      (s.outcome? verdict last).map fun o => (o.1, items.length + o.2) := by
  have hnot : ¬ (items.findIdx fun a => (verdict a).isSome) < items.length :=
    findIdx_lt_length_iff.not.2 (by simp [h])
  simp only [outcome?, after, List.findSome?_append, h, Option.none_or, List.findIdx_append,
    if_neg hnot, Option.map_map, Nat.add_comm items.length]
  rfl

/-- What a look comes to, and what is still to come if it comes to nothing. -/
theorem outcome?_look (verdict : α → Option β) (last : β) (closed : Bool) (unread : List α)
    (s : Flow α) :
    ((if closed then ⟨[], true⟩ else s).after unread).outcome? verdict last =
      match (unread.findSome? verdict).or (if closed then some last else none) with
      | some r => some (r, unread.findIdx fun a => (verdict a).isSome)
      | none => (s.outcome? verdict last).map fun o => (o.1, unread.length + o.2) := by
  cases hf : unread.findSome? verdict with
  | some r => rw [outcome?_after_of_some hf, Option.some_or]
  | none =>
    rw [outcome?_after_of_none hf, Option.none_or]
    cases closed with
    | true =>
      have hidx : (unread.findIdx fun a => (verdict a).isSome) = unread.length :=
        Nat.le_antisymm List.findIdx_le_length
          (Nat.not_lt.1 (findIdx_lt_length_iff.not.2 (by simp [hf])))
      simp [outcome?, hidx]
    | false => rfl

/-! ### Leaving items out -/

/-- A stream without some of its items. -/
def keeping (keep : α → Bool) (s : Flow α) : Flow α := { s with items := s.items.filter keep }

/-- How many of the first `k` items are kept, which is the place of the next one in what is
kept. -/
def placeKeeping (keep : α → Bool) (s : Flow α) (k : Nat) : Nat :=
  ((s.items.take k).filter keep).length

theorem getElem?_keeping {keep : α → Bool} {s : Flow α} {k : Nat} {a : α}
    (h : s.items[k]? = some a) (ha : keep a = true) :
    (s.keeping keep).items[s.placeKeeping keep k]? = some a := by
  obtain ⟨hk, rfl⟩ := List.getElem?_eq_some_iff.1 h
  have hsplit : s.items.filter keep =
      (s.items.take k).filter keep ++ s.items[k] :: (s.items.drop (k + 1)).filter keep := by
    rw [← List.filter_cons_of_pos ha, ← List.filter_append, List.getElem_cons_drop,
      List.take_append_drop]
  simp [keeping, placeKeeping, hsplit]

theorem keeping_after (keep : α → Bool) (s : Flow α) (items : List α) :
    (s.after items).keeping keep = (s.keeping keep).after (items.filter keep) := by
  simp [keeping, after]

theorem placeKeeping_after (keep : α → Bool) (s : Flow α) (items : List α) (k : Nat) :
    (s.after items).placeKeeping keep (items.length + k) =
      (items.filter keep).length + s.placeKeeping keep k := by
  have hall : items.take (items.length + k) = items := List.take_of_length_le (Nat.le_add_right _ _)
  simp [placeKeeping, after, List.take_append, hall]

/-- Where of two verdicts one sees nothing in what is left out, and both see the same in what
is kept, there the one comes to the same as the other does with what is kept, and at the same
item. -/
theorem outcome?_keeping {keep : α → Bool} {verdict : α → Option β} {verdict' : α → Option γ}
    {g : β → γ} (hleft : ∀ a, keep a = false → verdict a = none)
    (hkept : ∀ a, keep a = true → verdict' a = (verdict a).map g) (last : β) (s : Flow α) :
    (s.keeping keep).outcome? verdict' (g last) =
      (s.outcome? verdict last).map fun o => (g o.1, s.placeKeeping keep o.2) := by
  obtain ⟨items, ended⟩ := s
  induction items with
  | nil => cases ended <;> rfl
  | cons a items ih =>
    have hcons : (⟨a :: items, ended⟩ : Flow α) = (⟨items, ended⟩ : Flow α).after [a] := rfl
    generalize (⟨items, ended⟩ : Flow α) = s at ih hcons
    rw [hcons, keeping_after]
    cases hv : verdict a with
    | some r =>
      have ha : keep a = true := by
        by_contra hno
        simp [hleft a (by simpa using hno)] at hv
      have hsome : ([a].filter keep).findSome? verdict' = some (g r) := by
        simp [ha, hkept a ha, hv]
      rw [outcome?_after_of_some hsome, outcome?_after_of_some (r := r) (by simp [hv])]
      simp [placeKeeping, ha, hv, hkept a ha, List.findIdx_cons]
    | none =>
      have hnone : ([a].filter keep).findSome? verdict' = none := by
        cases ha : keep a with
        | true => simp [ha, hkept a ha, hv]
        | false => simp [ha]
      have hnone' : [a].findSome? verdict = none := by simp [hv]
      rw [outcome?_after_of_none hnone, outcome?_after_of_none hnone', ih, Option.map_map,
        Option.map_map]
      simp only [Function.comp_def, placeKeeping_after]

end Flow

/-! ## Watches that look from time to time -/

/-- What a reader of a feed gets in the course of a row. -/
def Happening.flow (feed : Feed MatchNews) (position : Nat) : List Happening → Flow MatchNews
  | [] => ⟨[], false⟩
  | .sent n :: row => flow (feed.send n) position row
  | .closed :: row => flow feed.close position row
  | .looked :: row =>
    (if feed.closed then ⟨[], true⟩ else flow feed feed.position row).after (feed.unread position)
  | .passed _ :: row => flow feed position row

/-- How a watch ends in the course of a row, if it ends, and how many news it has got before
those that settle it; `seen` of them it has got already. -/
def EndWatch.course? (w : EndWatch) (feed : Feed MatchNews) (seen : Nat) :
    List Happening → Option (Departure × Nat)
  | [] => none
  | .sent n :: row => w.course? (feed.send n) seen row
  | .closed :: row => w.course? feed.close seen row
  | .looked :: row =>
    match w.result? feed with
    | some r =>
      some (r, seen + (feed.unread w.position).findIdx fun n => (verdict w.matchId n).isSome)
    | none => (w.caughtUp feed).course? feed (seen + (feed.unread w.position).length) row
  | .passed _ :: row => w.course? feed seen row

@[inherit_doc EndWatch.course?]
def TurnWatch.course? (w : TurnWatch) (now : Instant) (feed : Feed MatchNews) (seen : Nat) :
    List Happening → Option (TurnResult × Nat)
  | [] => none
  | .sent n :: row => w.course? now (feed.send n) seen row
  | .closed :: row => w.course? now feed.close seen row
  | .looked :: row =>
    match w.result? feed now with
    | some r =>
      some (r, seen + (feed.unread w.position).findIdx fun n => (verdict w.matchId n).isSome)
    | none => (w.caughtUp feed).course? now feed (seen + (feed.unread w.position).length) row
  | .passed d :: row => w.course? (now + d.nanos) feed seen row

theorem EndWatch.result?_eq_or (w : EndWatch) (feed : Feed MatchNews) :
    w.result? feed = ((feed.unread w.position).findSome? (verdict w.matchId)).or
      (if feed.closed then some .serviceClosed else none) := by
  unfold result?
  cases (feed.unread w.position).findSome? (verdict w.matchId) <;> rfl

/-- What an end watch comes to is what its stream comes to. -/
theorem EndWatch.course?_eq (w : EndWatch) (feed : Feed MatchNews) (seen : Nat)
    (row : List Happening) :
    w.course? feed seen row =
      ((Happening.flow feed w.position row).outcome? (verdict w.matchId) .serviceClosed).map
        fun o => (o.1, seen + o.2) := by
  induction row generalizing w feed seen with
  | nil => rfl
  | cons h row ih =>
    cases h with
    | sent | closed | passed => exact ih ..
    | looked =>
      rw [course?, Happening.flow, Flow.outcome?_look, ← result?_eq_or]
      cases w.result? feed with
      | some r => rfl
      | none =>
        simp only [ih, Option.map_map, Function.comp_def, Nat.add_assoc]
        rfl

theorem TurnWatch.result?_eq_or {w : TurnWatch} (hw : w.deadline = none) (feed : Feed MatchNews)
    (now : Instant) :
    w.result? feed now = ((feed.unread w.position).findSome? (verdict w.matchId)).or
      (if feed.closed then some .serviceClosed else none) := by
  have hnever : w.isOverdue now = false := by simp [isOverdue, hw]
  unfold result?
  rw [hnever]
  cases (feed.unread w.position).findSome? (verdict w.matchId) <;> rfl

/-- What a turn watch without a deadline comes to is what its stream comes to. -/
theorem TurnWatch.course?_eq {w : TurnWatch} (hw : w.deadline = none) (now : Instant)
    (feed : Feed MatchNews) (seen : Nat) (row : List Happening) :
    w.course? now feed seen row =
      ((Happening.flow feed w.position row).outcome? (verdict w.matchId) .serviceClosed).map
        fun o => (o.1, seen + o.2) := by
  induction row generalizing w now feed seen with
  | nil => rfl
  | cons h row ih =>
    cases h with
    | sent | closed | passed => exact ih hw ..
    | looked =>
      rw [course?, Happening.flow, Flow.outcome?_look, ← result?_eq_or hw feed now]
      cases w.result? feed now with
      | some r => rfl
      | none =>
        have hw' : (w.caughtUp feed).deadline = none := hw
        simp only [ih hw', Option.map_map, Function.comp_def, Nat.add_assoc]
        rfl

/-! ## The two verdicts -/

/-- Whether news is a snapshot of the match `id` that goes on, with the viewer to move. -/
def MatchNews.showsTurn (id : MatchId) : MatchNews → Bool
  | .removed _ => false
  | .received m => m.id == id && m.status.isLive && m.turn == .mine

/-- A stream of news without the snapshots that show the viewer's turn in the match `id`. -/
def Flow.withoutTurns (id : MatchId) (s : Flow MatchNews) : Flow MatchNews :=
  s.keeping fun n => !n.showsTurn id

/-- What the end of a match is to one who waits for a turn. -/
def Departure.asTurn : Departure → TurnResult
  | .removed => .removed
  | .ended _ => .removed
  | .serviceClosed => .serviceClosed

theorem EndWatch.verdict_of_showsTurn {id : MatchId} {n : MatchNews} (h : n.showsTurn id = true) :
    verdict id n = none := by
  cases n with
  | removed => cases h
  | received m =>
    obtain ⟨⟨-, hlive⟩, -⟩ : (m.id = id ∧ m.status.isLive = true) ∧ m.turn = .mine := by
      simpa [MatchNews.showsTurn] using h
    simp [verdict, hlive]

theorem TurnWatch.verdict_of_not_showsTurn {id : MatchId} {n : MatchNews}
    (h : n.showsTurn id = false) :
    verdict id n = (EndWatch.verdict id n).map Departure.asTurn := by
  cases n with
  | removed r => by_cases hr : r = id <;> simp [verdict, EndWatch.verdict, hr, Departure.asTurn]
  | received m =>
    by_cases hid : m.id = id
    · cases hl : m.status.isLive with
      | false => simp [verdict, EndWatch.verdict, hid, hl, Departure.asTurn]
      | true =>
        have hturn : m.turn ≠ .mine := by simpa [MatchNews.showsTurn, hid, hl] using h
        simp [verdict, EndWatch.verdict, hid, hl, Match.isMyTurn, hturn]
    · simp [verdict, EndWatch.verdict, hid]

/-- How many come in `s.withoutTurns id` before what has `k` before it in `s`. -/
def Flow.placeWithoutTurns (id : MatchId) (s : Flow MatchNews) (k : Nat) : Nat :=
  s.placeKeeping (fun n => !n.showsTurn id) k

/-- Without the snapshots that show a turn a stream is to one who waits for a turn what it is
to one who watches for the end. -/
theorem Flow.outcome?_withoutTurns (id : MatchId) (s : Flow MatchNews) :
    (s.withoutTurns id).outcome? (TurnWatch.verdict id) .serviceClosed =
      (s.outcome? (EndWatch.verdict id) .serviceClosed).map
        fun o => (o.1.asTurn, s.placeWithoutTurns id o.2) :=
  s.outcome?_keeping
    (fun n hn => EndWatch.verdict_of_showsTurn (by simpa using hn))
    (fun n hn => TurnWatch.verdict_of_not_showsTurn (by simpa using hn)) Departure.serviceClosed

/-! ## Main statement -/

section Watches
variable {id : MatchId} {feed feed' : Feed MatchNews} {position position' : Nat}
  {row row' : List Happening} {now : Instant}

theorem TurnWatch.course?_withoutTurns
    (hstream : Happening.flow feed' position' row' =
      (Happening.flow feed position row).withoutTurns id) :
    (TurnWatch.arm now id position' none).course? now feed' 0 row' =
      (EndWatch.course? ⟨id, position⟩ feed 0 row).map
        fun o => (o.1.asTurn, (Happening.flow feed position row).placeWithoutTurns id o.2) := by
  have hwait := course?_eq (w := .arm now id position' none) rfl now feed' 0 row'
  have hmonitor := EndWatch.course?_eq ⟨id, position⟩ feed 0 row
  simp only [Nat.zero_add] at hwait hmonitor
  rw [hwait, hmonitor]
  simp only [Option.map_id']
  exact (congrArg _ hstream).trans (Flow.outcome?_withoutTurns id _)

/-- A turn watch and an end watch agree on what ends a match.  Two readers of feeds are given,
and what the one gets is what the other gets without the snapshots that show the viewer's turn
in the match `id` while it goes on.  There a turn watch without a deadline ends with the match
being removed just if an end watch here ends with the match being removed or over, and it is
the same news that settles both; the one is told of the end of its feed just if the other is;
and the one goes on waiting just if the other does. -/
theorem both_watches_see_the_same_end
    (hstream : Happening.flow feed' position' row' =
      (Happening.flow feed position row).withoutTurns id) :
    let stream := Happening.flow feed position row
    let monitor := EndWatch.course? ⟨id, position⟩ feed 0 row
    let wait := (TurnWatch.arm now id position' none).course? now feed' 0 row'
    ((∃ k, monitor = some (.removed, k) ∨ ∃ status, monitor = some (.ended status, k)) ↔
        ∃ k, wait = some (.removed, k)) ∧
      (∀ d k, monitor = some (d, k) → d ≠ .serviceClosed →
        wait = some (.removed, stream.placeWithoutTurns id k) ∧
          ∃ n, stream.items[k]? = some n ∧ n.showsTurn id = false ∧
            (stream.withoutTurns id).items[stream.placeWithoutTurns id k]? = some n) ∧
      ((∃ k, monitor = some (.serviceClosed, k)) ↔ ∃ k, wait = some (.serviceClosed, k)) ∧
      (monitor = none ↔ wait = none) := by
  intro stream monitor wait
  have hwait : wait = monitor.map fun o => (o.1.asTurn, stream.placeWithoutTurns id o.2) :=
    TurnWatch.course?_withoutTurns hstream
  have hmonitor : monitor = stream.outcome? (EndWatch.verdict id) .serviceClosed := by
    simpa using EndWatch.course?_eq ⟨id, position⟩ feed 0 row
  refine ⟨?_, ?_, ?_, ?_⟩
  · rw [hwait]
    cases monitor with
    | none => simp
    | some o => obtain ⟨d, k⟩ := o; cases d <;> simp [Departure.asTurn]
  · intro d k hd hne
    refine ⟨?_, ?_⟩
    · rw [hwait, hd]
      cases d with
      | removed | ended => rfl
      | serviceClosed => exact absurd rfl hne
    · obtain ⟨n, hn, hv⟩ := (Flow.item_of_outcome? (hmonitor ▸ hd)).resolve_right hne
      have hshows : n.showsTurn id = false := by
        by_contra hturn
        simp [EndWatch.verdict_of_showsTurn (by simpa using hturn)] at hv
      exact ⟨n, hn, hshows, Flow.getElem?_keeping hn (by simp [hshows])⟩
  · rw [hwait]
    cases monitor with
    | none => simp
    | some o => obtain ⟨d, k⟩ := o; cases d <;> simp [Departure.asTurn]
  · rw [hwait, Option.map_eq_none_iff]

end Watches

/-- The end watch looks twice and has lost a snapshot in between; the turn watch gets what is
left in a single heap.  Both are settled by the snapshot that shows that the match was
cancelled, though it shows that it is the viewer's turn. -/
theorem both_watches_see_the_same_end_of_a_cancelled_match :
    let m : Match := ⟨⟨"m"⟩, .active, .theirs, [⟨"ann"⟩, ⟨"bob"⟩], ⟨"ann"⟩, ⟨"ann"⟩, none, 1⟩
    let turn : MatchNews := .received { m with turn := .mine }
    let cancelled : MatchNews := .received { m with status := .cancelled, turn := .mine }
    let feed : Feed MatchNews := { capacity := 2 }
    let row : List Happening :=
      [.sent turn, .sent (.received m), .looked, .sent (.removed ⟨"n"⟩), .sent turn,
        .sent cancelled, .passed ⟨1, by decide⟩, .looked]
    let row' : List Happening := [.sent (.received m), .sent cancelled, .looked]
    Happening.flow feed 0 row' = (Happening.flow feed 0 row).withoutTurns ⟨"m"⟩ ∧
      EndWatch.course? ⟨⟨"m"⟩, 0⟩ feed 0 row = some (.ended .cancelled, 3) ∧
      (TurnWatch.arm 5 ⟨"m"⟩ 0 none).course? 5 feed 0 row' = some (.removed, 1) := by
  intro m turn cancelled feed row row'
  have hstream : Happening.flow feed 0 row' = (Happening.flow feed 0 row).withoutTurns ⟨"m"⟩ := rfl
  have hmonitor : EndWatch.course? ⟨⟨"m"⟩, 0⟩ feed 0 row = some (.ended .cancelled, 3) := rfl
  have hwait : (TurnWatch.arm 5 ⟨"m"⟩ 0 none).course? 5 feed 0 row' = some (.removed, 1) :=
    ((both_watches_see_the_same_end hstream).2.1 _ _ hmonitor (by decide)).1
  exact ⟨hstream, hmonitor, hwait⟩

end TurnRendezvous
