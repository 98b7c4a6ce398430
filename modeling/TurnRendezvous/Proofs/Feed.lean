/-
# `Feed.Listener` — what a reader who falls behind still gets

A reader of a feed asks for one item at a time.  One who has fallen behind further than the
feed keeps is told so (`Reply.lagged`) and stands at the oldest item that is kept, and has
to ask once more; `Feed.read` is asking until told something else (`insist_eq_read`).  In
between, more may be sent, so here each asking is a step of its own.

The row of events of a listener is judged by itself (`Faithful`), without a look at where
the listener stands.  Of all items, each in its place of the row of what was sent since the
listener came, some have been returned, some are still kept (`Awaits`), and the others have
seen as many further ones sent as the feed keeps before they were read (`Lost`).

* `Tracks`: where the listener stands, told by the row of events; `Tracks.step` is one step;
* `Tracks.faithful`: the verdict on the row;
* `Tracks.drained`: whoever asks on gets all that can still be got;
* `lag_loses_only_oldest`: what this says of all listeners.
-/
import TurnRendezvous.Feed
import Mathlib.Data.List.Induction

namespace TurnRendezvous

namespace Feed

variable {α : Type}

/-! ## Asking -/

/-- What asking once yields. -/
inductive Reply (α : Type)
  | item (a : α)
  /-- So many items that were not read are gone. -/
  | lagged (missed : Nat)
  /-- Nothing yet. -/
  | pending
  /-- Nothing, ever. -/
  | ended

/-- How many items are not kept any more. -/
def dropped (f : Feed α) : Nat := f.sent.length - f.capacity

/-- Asks once at `position`; answers the reader's position afterwards, too. -/
def ask (f : Feed α) (position : Nat) : Reply α × Nat :=
  if position < f.dropped then (.lagged (f.dropped - position), f.dropped)
  else
    match f.sent[position]? with
    | some a => (.item a, position + 1)
    | none => (if f.closed then .ended else .pending, position)

/-- Goes on asking for as long as it has fallen behind. -/
def insist (f : Feed α) (position : Nat) : Reading α × Nat :=
  if position < f.dropped then f.insist f.dropped
  else
    match f.ask position with
    | (.item a, p) => (.item a, p)
    | (.ended, p) => (.ended, p)
    | (_, p) => (.pending, p)
termination_by f.dropped - position

theorem ask_of_lagging {f : Feed α} {position : Nat} (h : position < f.dropped) :
    f.ask position = (.lagged (f.dropped - position), f.dropped) := by
  simp [ask, h]

theorem ask_of_item {f : Feed α} {position : Nat} {a : α} (h : f.dropped ≤ position)
    (ha : f.sent[position]? = some a) : f.ask position = (.item a, position + 1) := by
  simp [ask, Nat.not_lt.2 h, ha]

theorem ask_of_empty {f : Feed α} {position : Nat} (h : f.dropped ≤ position)
    (hn : f.sent[position]? = none) :
    f.ask position = (if f.closed then .ended else .pending, position) := by
  simp [ask, Nat.not_lt.2 h, hn]

theorem read_of_item {f : Feed α} {position : Nat} {a : α}
    (ha : f.sent[f.resume position]? = some a) :
    f.read position = (.item a, f.resume position + 1) := by
  obtain ⟨hlt, rfl⟩ := List.getElem?_eq_some_iff.1 ha
  rw [read, unread, List.drop_eq_getElem_cons hlt]

theorem read_of_empty {f : Feed α} {position : Nat} (hn : f.sent[f.resume position]? = none) :
    f.read position = (if f.closed then .ended else .pending, position) := by
  simp [read, unread, List.drop_eq_nil_of_le (List.getElem?_eq_none_iff.1 hn)]

theorem insist_of_caughtUp {f : Feed α} {position : Nat} (h : f.dropped ≤ position) :
    f.insist position = f.read position := by
  have hresume : f.resume position = position := Nat.max_eq_left h
  rw [insist, if_neg (Nat.not_lt.2 h)]
  cases hs : f.sent[position]? with
  | some a => rw [ask_of_item h hs, read_of_item (by rw [hresume]; exact hs), hresume]
  | none =>
    rw [ask_of_empty h hs, read_of_empty (by rw [hresume]; exact hs)]
    cases f.closed <;> rfl

/-- Reading an item is asking until told something else than having fallen behind. -/
theorem insist_eq_read {f : Feed α} (hc : 0 < f.capacity) (position : Nat) :
    f.insist position = f.read position := by
  by_cases h : position < f.dropped
  · -- the feed keeps something, so the one who lags finds an item at once
    have hlt : f.dropped < f.sent.length := by
      unfold dropped at h ⊢
      omega
    have hresume : f.resume position = f.dropped := Nat.max_eq_right (Nat.le_of_lt h)
    have hagain : f.resume f.dropped = f.dropped := Nat.max_eq_left (Nat.le_refl _)
    have hs : f.sent[f.dropped]? = some f.sent[f.dropped] := List.getElem?_eq_getElem hlt
    rw [insist, if_pos h, insist_of_caughtUp (Nat.le_refl _),
      read_of_item (by rw [hagain]; exact hs), read_of_item (by rw [hresume]; exact hs),
      hresume, hagain]
  · exact insist_of_caughtUp (Nat.not_lt.1 h)

/-! ## Listeners -/

/-- What is done on the two sides of a feed. -/
inductive Call (α : Type)
  | send (a : α)
  | close
  | ask

/-- What is seen of it.  An item comes with its place in the row of all that were sent since
the listener came. -/
inductive Event (α : Type)
  | sent (a : α)
  | closed
  | got (place : Nat) (a : α)
  | lagged (missed : Nat)
  | pending
  | ended
deriving DecidableEq

/-- A feed and a reader of it. -/
structure Listener (α : Type) where
  feed : Feed α
  /-- Where the reader came. -/
  start : Nat
  position : Nat

namespace Listener

def subscribe (f : Feed α) : Listener α :=
  { feed := f, start := f.position, position := f.position }

/-- How far the reader has come. -/
def reached (l : Listener α) : Nat := l.position - l.start

def step (l : Listener α) : Call α → List (Event α) × Listener α
  | .send a => (if l.feed.closed then [] else [.sent a], { l with feed := l.feed.send a })
  | .close => ([.closed], { l with feed := l.feed.close })
  | .ask =>
    match l.feed.ask l.position with
    | (.item a, p) => ([.got l.reached a], { l with position := p })
    | (.lagged n, p) => ([.lagged n], { l with position := p })
    | (.pending, p) => ([.pending], { l with position := p })
    | (.ended, p) => ([.ended], { l with position := p })

/-- The events of a row of calls. -/
def history (l : Listener α) : List (Call α) → List (Event α)
  | [] => []
  | c :: cs => (l.step c).1 ++ (l.step c).2.history cs

/-- The listener after a row of calls. -/
def after (l : Listener α) (cs : List (Call α)) : Listener α :=
  cs.foldl (fun l c => (l.step c).2) l

theorem after_append (l : Listener α) (cs ds : List (Call α)) :
    l.after (cs ++ ds) = (l.after cs).after ds :=
  List.foldl_append

theorem history_append (l : Listener α) (cs ds : List (Call α)) :
    l.history (cs ++ ds) = l.history cs ++ (l.after cs).history ds := by
  induction cs generalizing l with
  | nil => rfl
  | cons c cs ih =>
    rw [List.cons_append, history, history, ih, List.append_assoc]
    rfl

end Listener

/-! ## Rows of events -/

namespace Event

def sent? : Event α → Option α
  | .sent a => some a
  | _ => none

def place? : Event α → Option Nat
  | .got place _ => some place
  | _ => none

/-- All that was sent. -/
def sentIn (t : List (Event α)) : List α := t.filterMap sent?

/-- The places of what was returned, in the order in which it was. -/
def returned (t : List (Event α)) : List Nat := t.filterMap place?

@[simp] theorem sentIn_append (t u : List (Event α)) : sentIn (t ++ u) = sentIn t ++ sentIn u :=
  List.filterMap_append

@[simp] theorem returned_append (t u : List (Event α)) :
    returned (t ++ u) = returned t ++ returned u :=
  List.filterMap_append

theorem mem_returned {t : List (Event α)} {k : Nat} :
    k ∈ returned t ↔ ∃ a, .got k a ∈ t := by
  simp only [returned, List.mem_filterMap]
  constructor
  · rintro ⟨e, he, hk⟩
    cases e with
    | got place a => exact ⟨a, Option.some.inj hk ▸ he⟩
    | _ => cases hk
  · rintro ⟨a, ha⟩
    exact ⟨_, ha, rfl⟩

section Verdict
variable (c : Nat) (t : List (Event α))

/-- The item at place `k` was sent, is not read, and is among the last `c` ones. -/
structure Awaits (k : Nat) : Prop where
  sent : k < (sentIn t).length
  unread : k ∉ returned t
  kept : (sentIn t).length ≤ k + c

/-- As many as `c` further items were sent before the one at place `k` was read. -/
def Lost (k : Nat) : Prop :=
  ∃ t₁, t₁ <+: t ∧ k ∉ returned t₁ ∧ k + c < (sentIn t₁).length

/-- What may be seen after the events `t`. -/
def Right : Event α → Prop
  | .sent _ => .closed ∉ t
  | .closed => True
  /- the oldest one of those that are kept and unread -/
  | .got k a => (sentIn t)[k]? = some a ∧ Awaits c t k ∧ ∀ i, Awaits c t i → k ≤ i
  | .lagged _ => ∃ k, Awaits c t k
  | .pending => .closed ∉ t ∧ ∀ k, ¬ Awaits c t k
  | .ended => .closed ∈ t ∧ ∀ k, ¬ Awaits c t k

/-- What a feed that keeps `c` items shows to a listener. -/
structure Faithful : Prop where
  each : ∀ t₁ e t₂, t = t₁ ++ e :: t₂ → Right c t₁ e
  /-- Items are returned in the order in which they were sent, and none of them twice. -/
  inOrder : (returned t).Pairwise (· < ·)
  /-- An item is lost, or returned, or waits to be read. -/
  accounted : ∀ k < (sentIn t).length, Lost c t k ↔ ¬ (k ∈ returned t ∨ Awaits c t k)

end Verdict

/-- One event more, after those that were right. -/
theorem right_snoc {c : Nat} {t : List (Event α)} {e : Event α}
    (h : ∀ t₁ e t₂, t = t₁ ++ e :: t₂ → Right c t₁ e) (he : Right c t e) :
    ∀ t₁ e' t₂, t ++ [e] = t₁ ++ e' :: t₂ → Right c t₁ e' := by
  intro t₁ e' t₂ heq
  cases t₂ using List.reverseRecOn with
  | nil =>
    obtain ⟨rfl, hlast⟩ := List.append_inj' heq rfl
    obtain rfl := List.singleton_inj.1 hlast
    exact he
  | append_singleton t₂ last _ =>
    rw [← List.cons_append, ← List.append_assoc] at heq
    exact h t₁ e' t₂ (List.append_inj' heq rfl).1

/-- What was returned was kept until then, and so is not lost. -/
theorem not_lost_of_returned {c : Nat} {t : List (Event α)}
    (h : ∀ t₁ e t₂, t = t₁ ++ e :: t₂ → Right c t₁ e) {k : Nat} (hk : k ∈ returned t) :
    ¬ Lost c t k := by
  rintro ⟨t₁, ⟨t₂, rfl⟩, hunread, hlate⟩
  rw [returned_append, List.mem_append] at hk
  obtain ⟨a, ha⟩ := mem_returned.1 (hk.resolve_left hunread)
  obtain ⟨u, v, rfl⟩ := List.append_of_mem ha
  obtain ⟨-, hawaits, -⟩ := h (t₁ ++ u) (.got k a) v (by rw [List.append_assoc])
  have hkept := hawaits.kept
  simp only [sentIn_append, List.length_append] at hkept
  omega

theorem lost_iff {c : Nat} {t : List (Event α)}
    (h : ∀ t₁ e t₂, t = t₁ ++ e :: t₂ → Right c t₁ e) {k : Nat} (hk : k < (sentIn t).length) :
    Lost c t k ↔ ¬ (k ∈ returned t ∨ Awaits c t k) := by
  constructor
  · rintro hlost (hret | hawaits)
    · exact not_lost_of_returned h hret hlost
    · obtain ⟨t₁, ⟨t₂, rfl⟩, -, hlate⟩ := hlost
      have hkept := hawaits.kept
      simp only [sentIn_append, List.length_append] at hkept
      omega
  · intro hno
    have hunread : k ∉ returned t := fun hret => hno (.inl hret)
    refine ⟨t, List.prefix_rfl, hunread, Nat.lt_of_not_le fun hkept => ?_⟩
    exact hno (.inr ⟨hk, hunread, hkept⟩)

end Event

/-! ## Through a row of calls -/

open Event

/-- Where a listener stands after the events `t`, on a feed that had sent `before` when it
came and keeps `c` items. -/
structure Tracks (before : List α) (c : Nat) (t : List (Event α)) (l : Listener α) : Prop where
  capacity : l.feed.capacity = c
  sent : l.feed.sent = before ++ sentIn t
  closed : l.feed.closed = true ↔ .closed ∈ t
  start : l.start = before.length
  came : l.start ≤ l.position
  inTime : l.reached ≤ (sentIn t).length
  /-- Nothing that lies ahead was returned. -/
  ahead : ∀ k ∈ returned t, k < l.reached
  /-- What lies behind was returned or is not kept any more. -/
  behind : ∀ k < l.reached, k ∈ returned t ∨ k + c < (sentIn t).length
  right : ∀ t₁ e t₂, t = t₁ ++ e :: t₂ → Right c t₁ e
  ordered : (returned t).Pairwise (· < ·)

namespace Tracks

variable {before : List α} {c : Nat} {t : List (Event α)} {l : Listener α}

theorem subscribe {f : Feed α} (hclosed : f.closed = false) :
    Tracks f.sent f.capacity [] (Listener.subscribe f) where
  capacity := rfl
  sent := (List.append_nil _).symm
  closed := by simp [Listener.subscribe, hclosed]
  start := rfl
  came := Nat.le_refl _
  inTime := by simp [Listener.reached, Listener.subscribe]
  ahead := by simp [returned]
  behind := by simp [Listener.reached, Listener.subscribe]
  right := by simp
  ordered := .nil

theorem position_eq (h : Tracks before c t l) : l.position = before.length + l.reached := by
  have hstart := h.start
  have hcame := h.came
  unfold Listener.reached
  omega

theorem dropped_eq (h : Tracks before c t l) :
    l.feed.dropped = before.length + (sentIn t).length - c := by
  rw [dropped, h.sent, h.capacity, List.length_append]

/-- What is still to be read lies ahead. -/
theorem le_of_awaits (h : Tracks before c t l) {k : Nat} (hk : Awaits c t k) : l.reached ≤ k := by
  refine Nat.le_of_not_lt fun hlt => ?_
  rcases h.behind k hlt with hret | hgone
  · exact hk.unread hret
  · exact absurd hk.kept (Nat.not_le.2 hgone)

theorem awaits_of_le (h : Tracks before c t l) {k : Nat} (hle : l.reached ≤ k)
    (hk : k < (sentIn t).length) (hkept : (sentIn t).length ≤ k + c) : Awaits c t k where
  sent := hk
  unread := fun hret => absurd (h.ahead k hret) (Nat.not_lt.2 hle)
  kept := hkept

theorem not_awaits (h : Tracks before c t l) (hall : (sentIn t).length ≤ l.reached) (k : Nat) :
    ¬ Awaits c t k := fun hk =>
  absurd hk.sent (Nat.not_lt.2 (Nat.le_trans hall (h.le_of_awaits hk)))

theorem getElem?_sent (h : Tracks before c t l) :
    l.feed.sent[l.position]? = (sentIn t)[l.reached]? := by
  rw [h.sent, h.position_eq, List.getElem?_append_right (Nat.le_add_right _ _),
    Nat.add_sub_cancel_left]

/-- An event that neither sends nor returns anything. -/
theorem quiet (h : Tracks before c t l) {e : Event α} (hright : Right c t e)
    (hs : e.sent? = none) (hp : e.place? = none) {l' : Listener α}
    (hsent : l'.feed.sent = l.feed.sent) (hcapacity : l'.feed.capacity = l.feed.capacity)
    (hclosed : l'.feed.closed = true ↔ l.feed.closed = true ∨ .closed = e)
    (hstart : l'.start = l.start) (hle : l.position ≤ l'.position)
    (hin : l'.reached ≤ (sentIn t).length)
    (hgone : ∀ k < l'.reached, l.reached ≤ k → k + c < (sentIn t).length) :
    Tracks before c (t ++ [e]) l' := by
  have hall : sentIn (t ++ [e]) = sentIn t := by simp [sentIn, hs]
  have hret : returned (t ++ [e]) = returned t := by simp [returned, hp]
  have hmono : l.reached ≤ l'.reached := by
    unfold Listener.reached
    rw [hstart]
    exact Nat.sub_le_sub_right hle _
  exact
    { capacity := hcapacity.trans h.capacity
      sent := by rw [hall, hsent]; exact h.sent
      closed := by rw [hclosed, h.closed, List.mem_append, List.mem_singleton]
      start := hstart.trans h.start
      came := by rw [hstart]; exact Nat.le_trans h.came hle
      inTime := by rw [hall]; exact hin
      ahead := by
        rw [hret]
        exact fun k hk => Nat.lt_of_lt_of_le (h.ahead k hk) hmono
      behind := by
        rw [hall, hret]
        intro k hk
        rcases Nat.lt_or_ge k l.reached with hlt | hge
        · exact h.behind k hlt
        · exact .inr (hgone k hk hge)
      right := right_snoc h.right hright
      ordered := by rw [hret]; exact h.ordered }

/-- An event that leaves the reader where it is. -/
theorem still (h : Tracks before c t l) {e : Event α} (hright : Right c t e)
    (hs : e.sent? = none) (hp : e.place? = none) {f : Feed α}
    (hsent : f.sent = l.feed.sent) (hcapacity : f.capacity = l.feed.capacity)
    (hclosed : f.closed = true ↔ l.feed.closed = true ∨ .closed = e) :
    Tracks before c (t ++ [e]) { l with feed := f } := by
  refine h.quiet hright hs hp hsent hcapacity hclosed rfl (Nat.le_refl _) h.inTime ?_
  intro k hk hle
  exact absurd hk (Nat.not_lt.2 hle)

theorem send (h : Tracks before c t l) (hopen : l.feed.closed = false) (a : α) :
    Tracks before c (t ++ [.sent a]) { l with feed := l.feed.send a } := by
  have hsent : sentIn (t ++ [.sent a]) = sentIn t ++ [a] := by simp [sentIn, sent?]
  have hret : returned (t ++ [.sent a]) = returned t := by simp [returned, place?]
  have hnot : .closed ∉ t := fun hc => by simp [h.closed.2 hc] at hopen
  exact
    { capacity := by rw [capacity_send]; exact h.capacity
      sent := by rw [sent_send hopen, h.sent, hsent, List.append_assoc]
      closed := by simpa using h.closed
      start := h.start
      came := h.came
      inTime := by
        rw [hsent, List.length_append]
        exact Nat.le_add_right_of_le h.inTime
      ahead := by rw [hret]; exact h.ahead
      behind := by
        rw [hsent, hret, List.length_append]
        exact fun k hk => (h.behind k hk).imp_right (Nat.lt_add_right _)
      right := right_snoc h.right hnot
      ordered := by rw [hret]; exact h.ordered }

theorem close (h : Tracks before c t l) :
    Tracks before c (t ++ [.closed]) { l with feed := l.feed.close } :=
  h.still (e := .closed) trivial rfl rfl rfl rfl (by simp [Feed.close])

/-- The item ahead is returned. -/
theorem got (h : Tracks before c t l) {a : α} (ha : (sentIn t)[l.reached]? = some a)
    (hkept : (sentIn t).length ≤ l.reached + c) :
    Tracks before c (t ++ [.got l.reached a]) { l with position := l.position + 1 } := by
  have hsent : sentIn (t ++ [.got l.reached a]) = sentIn t := by simp [sentIn, sent?]
  have hret : returned (t ++ [.got l.reached a]) = returned t ++ [l.reached] := by
    simp [returned, place?]
  have hreached : ({ l with position := l.position + 1 } : Listener α).reached = l.reached + 1 :=
    Nat.succ_sub h.came
  have hlt : l.reached < (sentIn t).length := (List.getElem?_eq_some_iff.1 ha).1
  exact
    { capacity := h.capacity
      sent := by rw [hsent]; exact h.sent
      closed := by simpa using h.closed
      start := h.start
      came := Nat.le_succ_of_le h.came
      inTime := by rw [hsent, hreached]; exact hlt
      ahead := by
        rw [hret, hreached]
        intro k hk
        rcases List.mem_append.1 hk with hk | hk
        · exact Nat.lt_succ_of_lt (h.ahead k hk)
        · exact Nat.lt_succ_of_le (Nat.le_of_eq (List.mem_singleton.1 hk))
      behind := by
        rw [hsent, hret, hreached]
        intro k hk
        rcases Nat.lt_succ_iff_lt_or_eq.1 hk with hk | rfl
        · exact (h.behind k hk).imp_left (List.mem_append_left _)
        · exact .inl (List.mem_append_right _ (List.mem_singleton_self _))
      right := right_snoc h.right
        ⟨ha, h.awaits_of_le (Nat.le_refl _) hlt hkept, fun _ => h.le_of_awaits⟩
      ordered := by
        rw [hret]
        refine List.pairwise_append.2 ⟨h.ordered, List.pairwise_singleton _ _, ?_⟩
        intro i hi j hj
        obtain rfl := List.mem_singleton.1 hj
        exact h.ahead i hi }

/-- The listener is told that it has fallen behind. -/
theorem lagged (h : Tracks before c t l) (hc : 0 < c) (hlag : l.position < l.feed.dropped)
    (missed : Nat) :
    Tracks before c (t ++ [.lagged missed]) { l with position := l.feed.dropped } := by
  have hpos := h.position_eq
  have hstart := h.start
  have hdropped := h.dropped_eq
  have hlast : Awaits c t ((sentIn t).length - 1) :=
    h.awaits_of_le (by omega) (by omega) (by omega)
  refine h.quiet (e := .lagged missed) ⟨_, hlast⟩ rfl rfl rfl rfl (by simp) rfl
    (Nat.le_of_lt hlag) ?_ ?_
  · show l.feed.dropped - l.start ≤ (sentIn t).length
    omega
  · show ∀ k < l.feed.dropped - l.start, l.reached ≤ k → k + c < (sentIn t).length
    intro k hk _
    omega

/-- Nothing is left to read. -/
theorem none_left (h : Tracks before c t l) (hnone : (sentIn t)[l.reached]? = none) :
    Tracks before c (t ++ [if l.feed.closed then .ended else .pending]) l := by
  have hread : ∀ k, ¬ Awaits c t k := h.not_awaits (List.getElem?_eq_none_iff.1 hnone)
  cases hc : l.feed.closed with
  | true => exact h.still (e := .ended) ⟨h.closed.1 hc, hread⟩ rfl rfl rfl rfl (by simp)
  | false =>
    have hnot : .closed ∉ t := fun hmem => by simp [h.closed.2 hmem] at hc
    exact h.still (e := .pending) ⟨hnot, hread⟩ rfl rfl rfl rfl (by simp)

theorem step (h : Tracks before c t l) (hc : 0 < c) (call : Call α) :
    Tracks before c (t ++ (l.step call).1) (l.step call).2 := by
  cases call with
  | send a =>
    cases hclosed : l.feed.closed with
    | true => simpa [Listener.step, hclosed, send_of_closed hclosed] using h
    | false => simpa [Listener.step, hclosed] using h.send hclosed a
  | close => exact h.close
  | ask =>
    by_cases hlag : l.position < l.feed.dropped
    · simp only [Listener.step, ask_of_lagging hlag]
      exact h.lagged hc hlag _
    · have hkept := Nat.not_lt.1 hlag
      cases hs : l.feed.sent[l.position]? with
      | some a =>
        simp only [Listener.step, ask_of_item hkept hs]
        rw [h.dropped_eq, h.position_eq] at hkept
        exact h.got (h.getElem?_sent ▸ hs) (by omega)
      | none =>
        have htold := h.none_left (h.getElem?_sent ▸ hs)
        simp only [Listener.step, ask_of_empty hkept hs]
        cases hclosed : l.feed.closed with
        | true => simpa [hclosed] using htold
        | false => simpa [hclosed] using htold

theorem history (hc : 0 < c) (calls : List (Call α)) (h : Tracks before c t l) :
    Tracks before c (t ++ l.history calls) (l.after calls) := by
  induction calls generalizing t l with
  | nil => simpa [Listener.history, Listener.after] using h
  | cons call calls ih =>
    rw [Listener.history, ← List.append_assoc]
    exact ih (h.step hc call)

theorem faithful (h : Tracks before c t l) : Faithful c t where
  each := h.right
  inOrder := h.ordered
  accounted := fun _ => lost_iff h.right

end Tracks

/-! ## Reading on -/

/-- One who has asked does not lag any more, and has gone on if there was an item. -/
theorem ask_advances (f : Feed α) (position : Nat) :
    f.dropped ≤ (f.ask position).2 ∧
      (f.dropped ≤ position → min f.sent.length (position + 1) ≤ (f.ask position).2) := by
  by_cases hlag : position < f.dropped
  · rw [ask_of_lagging hlag]
    exact ⟨Nat.le_refl _, fun h => absurd hlag (Nat.not_lt.2 h)⟩
  · have hkept := Nat.not_lt.1 hlag
    cases hs : f.sent[position]? with
    | some a =>
      rw [ask_of_item hkept hs]
      exact ⟨Nat.le_succ_of_le hkept, fun _ => Nat.min_le_right _ _⟩
    | none =>
      rw [ask_of_empty hkept hs]
      have hall : f.sent.length ≤ position := List.getElem?_eq_none_iff.1 hs
      exact ⟨hkept, fun _ => Nat.le_trans (Nat.min_le_left _ _) hall⟩

namespace Listener

theorem step_ask (l : Listener α) :
    (l.step .ask).2 = { l with position := (l.feed.ask l.position).2 } := by
  simp only [step]
  split <;> simp_all

/-- Asking again and again, with nothing sent in between, gets as far as all that was kept. -/
theorem after_asks (l : Listener α) (m : Nat) :
    let l' := l.after (.replicate (m + 1) .ask)
    l'.feed = l.feed ∧ l.feed.dropped ≤ l'.position ∧
      min l.feed.sent.length (l.feed.dropped + m) ≤ l'.position := by
  induction m with
  | zero =>
    have hone : l.after (.replicate 1 .ask) = (l.step .ask).2 := rfl
    rw [hone, step_ask]
    have hasked := (ask_advances l.feed l.position).1
    exact ⟨rfl, hasked, Nat.le_trans (Nat.min_le_right _ _) hasked⟩
  | succ m ih =>
    obtain ⟨hfeed, hkept, hfar⟩ := ih
    rw [List.replicate_succ', after_append]
    generalize l.after (.replicate (m + 1) .ask) = l' at hfeed hkept hfar ⊢
    have hone : l'.after [.ask] = (l'.step .ask).2 := rfl
    obtain ⟨hasked, hon⟩ := ask_advances l.feed l'.position
    have hnext := hon hkept
    rw [hone, step_ask, hfeed]
    refine ⟨rfl, hasked, ?_⟩
    show min l.feed.sent.length (l.feed.dropped + (m + 1)) ≤ (l.feed.ask l'.position).2
    omega

@[simp] theorem capacity_step (l : Listener α) (call : Call α) :
    (l.step call).2.feed.capacity = l.feed.capacity := by
  cases call with
  | send a => exact capacity_send _ _
  | close => rfl
  | ask => rw [step_ask]

@[simp] theorem capacity_after (l : Listener α) (calls : List (Call α)) :
    (l.after calls).feed.capacity = l.feed.capacity := by
  induction calls generalizing l with
  | nil => rfl
  | cons call calls ih => exact (ih _).trans (capacity_step l call)

end Listener

theorem nextPowerOfTwo_pos (n : Nat) : 0 < n.nextPowerOfTwo :=
  Nat.pos_of_isPowerOfTwo (Nat.isPowerOfTwo_nextPowerOfTwo n)

/-- One who asks more often than the feed keeps items, with nothing sent in between, has read
all that can be read. -/
theorem Tracks.drained {before : List α} {c : Nat} {t : List (Event α)} {l : Listener α}
    (h : Tracks before c t l) (hc : 0 < c) (m k : Nat) :
    ¬ Awaits c (t ++ l.history (.replicate (c + m + 1) .ask)) k := by
  have hlater := h.history hc (.replicate (c + m + 1) .ask)
  refine hlater.not_awaits ?_ k
  obtain ⟨hfeed, -, hfar⟩ := l.after_asks (c + m)
  have hlength := congrArg List.length hlater.sent
  have hpos := hlater.position_eq
  rw [hfeed, List.length_append] at hlength
  rw [dropped, h.capacity] at hfar
  omega

/-- A listener who falls behind loses only the oldest items.  Whatever is sent before and
after it comes, however that and its asking are mixed and whenever the feed is closed:

* what it is told each time is right, above all it gets the oldest item that is kept and
  unread, and the end only when the feed is closed and no such item is left; items come in
  the order in which they were sent and none of them twice; and an item that it neither got
  nor can still get has seen as many further ones sent as the feed keeps;
* it has all it can get after that many askings and one, or more, with nothing sent in between;
* to read is to go on asking after having fallen behind. -/
theorem lag_loses_only_oldest (n : Nat) (before : List α) (calls : List (Call α)) :
    let c := n.nextPowerOfTwo
    let f := { (Feed.withCapacity n : Feed α) with sent := before }
    let l := Listener.subscribe f
    Faithful c (l.history calls) ∧
      (∀ m k, ¬ Awaits c (l.history (calls ++ .replicate (c + m + 1) .ask)) k) ∧
      ∀ position, (l.after calls).feed.insist position = (l.after calls).feed.read position := by
  intro c f l
  have hc : 0 < c := nextPowerOfTwo_pos n
  have hnew : Tracks before c [] l := .subscribe (f := f) rfl
  have hrun : Tracks before c (l.history calls) (l.after calls) := hnew.history hc calls
  refine ⟨hrun.faithful, ?_, ?_⟩
  · intro m k
    rw [Listener.history_append]
    exact hrun.drained hc m k
  · intro position
    refine insist_eq_read ?_ position
    rw [Listener.capacity_after]
    exact hc

/-- Of two items that are kept each: the second of four is lost, and the lag is no end. -/
example :
    (Listener.subscribe ({ capacity := 2 } : Feed Nat)).history
        [.send 5, .ask, .send 6, .send 7, .send 8, .close, .ask, .ask, .ask, .ask] =
      [.sent 5, .got 0 5, .sent 6, .sent 7, .sent 8, .closed, .lagged 1, .got 2 7, .got 3 8,
        .ended] := by
  decide

end Feed

end TurnRendezvous
