/-
# The waits that a random shift comes to

A wait is shifted by a draw from a row of random words.  The row has no end, and the draw need
not have one either; if it ends, it has looked at finitely many words, and `spread` of these
says what it came to (`Yields`).

The draw takes the upper half of a product, and the lower half says whether it may.  For each
number below the range there is a least multiple of the range that has it as its upper half,
and the lower half of that is small (`exists_pick`).  So each number can be drawn at the first
try, and nothing else is ever drawn (`draw_lt`).  Two words that are zero are always taken, so
a row that goes on with zeros is read no further than that (`draw_append_zeros`).

A wait then lies between the two ends of its window, and every one there is reached, with one
exception.  If base and window together are too long for a duration, the seconds of the sum
are cut and its nanoseconds are not, so that the wait may come out shorter than the window
allows (`Overrun`).

* `wait_in_window_or_overrun`: the window, for all durations there are;
* `wait_below_window`: the exception;
* `waits_fill_window`: all waits of the window, if it is not too long.
-/
import Mathlib.Data.Stream.Init
import TurnRendezvous.Jitter

namespace TurnRendezvous

namespace Duration

/-! ## Durations of many nanoseconds -/

section
variable (n : Nat)

theorem seconds_clampSeconds :
    (clampSeconds n).seconds = min (n / nanosPerSecond) maxSeconds := by
  have hsub : n % nanosPerSecond < nanosPerSecond := Nat.mod_lt n (by decide)
  show (min (n / nanosPerSecond) maxSeconds * nanosPerSecond + n % nanosPerSecond) /
    nanosPerSecond = _
  rw [Nat.add_comm, Nat.add_mul_div_right _ _ (by decide), Nat.div_eq_of_lt hsub, Nat.zero_add]

theorem subsecond_clampSeconds : (clampSeconds n).subsecond = n % nanosPerSecond := by
  show (min (n / nanosPerSecond) maxSeconds * nanosPerSecond + n % nanosPerSecond) %
    nanosPerSecond = _
  rw [Nat.mul_comm, Nat.mul_add_mod, Nat.mod_mod]

theorem nanos_clampSeconds_le : (clampSeconds n).nanos ≤ n := by
  calc min (n / nanosPerSecond) maxSeconds * nanosPerSecond + n % nanosPerSecond
      ≤ n / nanosPerSecond * nanosPerSecond + n % nanosPerSecond :=
        Nat.add_le_add_right (Nat.mul_le_mul_right _ (Nat.min_le_left _ _)) _
    _ = n := Nat.div_add_mod' n nanosPerSecond

variable {n}

/-- A number of nanoseconds that is not too large is kept. -/
theorem nanos_clampSeconds_of_lt (h : n < UInt64.size * nanosPerSecond) :
    (clampSeconds n).nanos = n := by
  have hsecs : n / nanosPerSecond ≤ maxSeconds :=
    Nat.le_sub_one_of_lt (Nat.div_lt_of_lt_mul (Nat.mul_comm UInt64.size _ ▸ h))
  show min (n / nanosPerSecond) maxSeconds * nanosPerSecond + n % nanosPerSecond = n
  rw [Nat.min_eq_left hsecs, Nat.div_add_mod']

theorem seconds_clampSeconds_of_le (h : UInt64.size * nanosPerSecond ≤ n) :
    (clampSeconds n).seconds = maxSeconds := by
  have hsecs : UInt64.size ≤ n / nanosPerSecond := (Nat.le_div_iff_mul_le (by decide)).2 h
  rw [seconds_clampSeconds]
  exact Nat.min_eq_right (Nat.le_trans (Nat.sub_le _ _) hsecs)

end

end Duration

namespace Jitter

/-! ## One try -/

section Try
variable {range : Nat}

theorem wide_lt (x y : UInt64) : wide x y < wideSize := by
  have hx := x.toNat_lt
  have hy := y.toNat_lt
  show x.toNat + y.toNat * 18446744073709551616 < 18446744073709551616 * 18446744073709551616
  omega

theorem exists_wide {n : Nat} (h : n < wideSize) : ∃ x y, wide x y = n := by
  have hlow : n % UInt64.size < UInt64.size := Nat.mod_lt n (by decide)
  have hhigh : n / UInt64.size < UInt64.size := Nat.div_lt_of_lt_mul h
  refine ⟨UInt64.ofNat (n % UInt64.size), UInt64.ofNat (n / UInt64.size), ?_⟩
  rw [wide, UInt64.toNat_ofNat_of_lt' hlow, UInt64.toNat_ofNat_of_lt' hhigh]
  exact Nat.mod_add_div' n UInt64.size

theorem pick_lt (h : 0 < range) (x y : UInt64) : pick range x y < range :=
  Nat.div_lt_of_lt_mul (Nat.mul_lt_mul_of_pos_right (wide_lt x y) h)

@[simp] theorem accepts_zero : accepts range 0 0 = true := by
  simp [accepts, wide]

@[simp] theorem pick_zero : pick range 0 0 = 0 := by
  simp [pick, wide]

/-- Every lower half below the range counts: the limit is the range, shifted until it fills
its 128 bits. -/
theorem le_zone (h : 0 < range) (hlt : range < wideSize) : range - 1 ≤ zone range := by
  have hbits : range < 2 ^ (range.log2 + 1) := Nat.lt_log2_self
  have hlog : range.log2 < 128 := (Nat.log2_lt (Nat.ne_of_gt h)).2 hlt
  have hshift : range <<< leadingZeros range = range * 2 ^ (127 - range.log2) := by
    rw [leadingZeros, if_neg (Nat.ne_of_gt h), Nat.shiftLeft_eq]
  have hfits : range * 2 ^ (127 - range.log2) < wideSize := by
    calc range * 2 ^ (127 - range.log2)
        < 2 ^ (range.log2 + 1) * 2 ^ (127 - range.log2) :=
          Nat.mul_lt_mul_of_pos_right hbits (Nat.two_pow_pos _)
      _ = 2 ^ 128 := by rw [← Nat.pow_add]; congr 1; omega
      _ = wideSize := rfl
  rw [zone, hshift, Nat.mod_eq_of_lt hfits]
  exact Nat.sub_le_sub_right (Nat.le_mul_of_pos_right _ (Nat.two_pow_pos _)) 1

/-- Each number below the range is what some try yields: that with the least multiple of the
range which has it as the upper half. -/
theorem exists_pick {value : Nat} (hv : value < range) (hlt : range < wideSize) :
    ∃ x y, accepts range x y = true ∧ pick range x y = value := by
  have hpos : 0 < range := Nat.zero_lt_of_lt hv
  obtain ⟨k, hk⟩ : ∃ k, k = (value * wideSize + (range - 1)) / range := ⟨_, rfl⟩
  -- the multiple `k * range` lies behind `value * wideSize`, by less than the range
  have hup : value * wideSize ≤ k * range := by
    have h := Nat.lt_div_mul_add hpos (a := value * wideSize + (range - 1))
    rw [← hk] at h
    omega
  have hdown : k * range ≤ value * wideSize + (range - 1) := hk ▸ Nat.div_mul_le_self _ _
  obtain ⟨low, hlow⟩ := Nat.exists_eq_add_of_le hup
  have hsmall : low ≤ range - 1 := by omega
  have hfits : low < wideSize := by omega
  have hwide : k < wideSize := by
    refine Nat.lt_of_mul_lt_mul_right (a := range) ?_
    calc k * range < (value + 1) * wideSize := by rw [hlow, Nat.succ_mul]; omega
      _ ≤ range * wideSize := Nat.mul_le_mul_right _ hv
      _ = wideSize * range := Nat.mul_comm _ _
  obtain ⟨x, y, rfl⟩ := exists_wide hwide
  refine ⟨x, y, ?_, ?_⟩
  · have hhalf : wide x y * range % wideSize = low := by
      rw [hlow, Nat.add_comm, Nat.add_mul_mod_self_right, Nat.mod_eq_of_lt hfits]
    rw [accepts, decide_eq_true_iff, hhalf]
    exact Nat.le_trans hsmall (le_zone hpos hlt)
  · rw [pick, hlow, Nat.add_comm, Nat.add_mul_div_right _ _ (by decide), Nat.div_eq_of_lt hfits,
      Nat.zero_add]

end Try

/-! ## Drawing from a row of words -/

section Draw
variable {range : Nat}

theorem draw_lt (h : 0 < range) (words : List UInt64) : (draw range words).1 < range := by
  fun_induction draw range words with
  | case1 x y rest => exact pick_lt h x y
  | case2 x y rest hno value used hrest ih => simpa [hrest] using ih
  | case3 x => exact pick_lt h x 0
  | case4 => exact h
  | case5 => exact h

/-- A draw that ends among the words given does not look at what follows them. -/
theorem draw_append {words : List UInt64} (h : (draw range words).2 ≤ words.length)
    (more : List UInt64) : draw range (words ++ more) = draw range words := by
  fun_induction draw range words with
  | case1 x y rest hyes => simp [draw, hyes]
  | case2 x y rest hno value used hrest ih =>
    have hused : (draw range rest).2 ≤ rest.length := by
      rw [hrest]
      simpa using h
    simp [draw, hno, ih hused, hrest]
  | case3 x | case4 x => simp at h
  | case5 => simp at h

/-- Behind the words given there are zeros. -/
theorem draw_append_zeros (words : List UInt64) (k : Nat) :
    draw range (words ++ List.replicate k 0) = draw range words := by
  have zeros : ∀ k, draw range (List.replicate k 0) = (0, 2) := by
    intro k
    match k with
    | 0 => rfl
    | 1 => simp [draw]
    | k + 2 => simp [List.replicate_succ, draw]
  fun_induction draw range words with
  | case1 x y rest hyes => simp [draw, hyes]
  | case2 x y rest hno value used hrest ih => simp [draw, hno, ih, hrest]
  | case3 x hyes => cases k <;> simp [draw, hyes, List.replicate_succ]
  | case4 x hno => cases k <;> simp [draw, hno, List.replicate_succ, zeros]
  | case5 => exact zeros k

/-- A draw ends with the first zeros behind the words given. -/
theorem draw_used_le (words : List UInt64) : (draw range words).2 ≤ words.length + 3 := by
  fun_induction draw range words with
  | case1 x y rest => simp
  | case2 x y rest hno value used hrest ih =>
    rw [hrest] at ih
    simp only [List.length_cons]
    omega
  | case3 x | case4 x => simp
  | case5 => simp

end Draw

/-! ## Shifting by what was drawn -/

section Shift
variable {base max : Duration}

/-- The seconds of a sum that is too long were cut, and its nanoseconds kept. -/
def Overrun (base max wait : Duration) : Prop :=
  ∃ sum, UInt64.size * nanosPerSecond ≤ sum ∧ sum ≤ base.nanos + max.nanos ∧
    wait.seconds = Duration.maxSeconds ∧ wait.subsecond = sum % nanosPerSecond

theorem shift_eq (base max : Duration) (value : Nat) :
    shift base max value = if base.nanos + value < max.nanos then base
      else .clampSeconds (base.nanos + value - max.nanos) := by
  have hsign : (base.nanos - max.nanos + value : Int) < 0 ↔ base.nanos + value < max.nanos := by
    omega
  have hsum : (base.nanos - max.nanos + value : Int).toNat = base.nanos + value - max.nanos := by
    omega
  simp only [shift, hsign, hsum]

theorem shift_le {value : Nat} (hv : value < rangeOf max) :
    (shift base max value).nanos ≤ base.nanos + max.nanos := by
  rw [shift_eq]
  split
  · exact Nat.le_add_right _ _
  · have hle := Duration.nanos_clampSeconds_le (base.nanos + value - max.nanos)
    unfold rangeOf at hv
    omega

theorem le_shift_or_overrun {value : Nat} (hv : value < rangeOf max) :
    base.nanos - max.nanos ≤ (shift base max value).nanos ∨
      Overrun base max (shift base max value) := by
  rw [shift_eq]
  split
  · exact .inl (Nat.sub_le _ _)
  · by_cases hfits : base.nanos + value - max.nanos < UInt64.size * nanosPerSecond
    · left
      rw [Duration.nanos_clampSeconds_of_lt hfits]
      omega
    · right
      have hlong := Nat.le_of_not_lt hfits
      refine ⟨_, hlong, ?_, Duration.seconds_clampSeconds_of_le hlong,
        Duration.subsecond_clampSeconds _⟩
      unfold rangeOf at hv
      omega

/-- Every wait of the window is what some draw stands for. -/
theorem exists_shift {wait : Duration} (hlow : base.nanos - max.nanos ≤ wait.nanos)
    (hhigh : wait.nanos ≤ base.nanos + max.nanos) :
    ∃ value < rangeOf max, shift base max value = wait := by
  have hsum : base.nanos + (wait.nanos + max.nanos - base.nanos) = wait.nanos + max.nanos := by
    omega
  refine ⟨wait.nanos + max.nanos - base.nanos, ?_, ?_⟩
  · unfold rangeOf
    omega
  · rw [shift_eq, hsum, if_neg (Nat.not_lt_of_le (Nat.le_add_left _ _)), Nat.add_sub_cancel]
    exact Duration.ext (Duration.nanos_clampSeconds_of_lt wait.isLt)

theorem rangeOf_pos (max : Duration) : 0 < rangeOf max := Nat.succ_pos _

theorem rangeOf_lt (max : Duration) : rangeOf max < wideSize := by
  have h : max.nanos < 18446744073709551616 * 1000000000 := max.isLt
  show 2 * max.nanos + 1 < 18446744073709551616 * 18446744073709551616
  omega

end Shift

/-! ## Rows without an end -/

section Row
variable {base max wait : Duration} {s : Stream' UInt64} {n : Nat}

/-- What a row of words without an end makes of a wait, if the draw ends: it ends among the
first `n` words, and so has looked at no others. -/
def Yields (base max : Duration) (s : Stream' UInt64) (wait : Duration) : Prop :=
  ∃ n used, used ≤ n ∧ spread base max (s.take n) = (wait, used)

theorem spread_of_isZero (h : max.isZero = true) (words : List UInt64) :
    spread base max words = (base, 0) := by
  rw [spread, if_pos h]

theorem spread_of_draw (h : max.isZero = false) (words : List UInt64) :
    spread base max words =
      (shift base max (draw (rangeOf max) words).1, (draw (rangeOf max) words).2) := by
  rw [spread, h]
  rfl

/-- All that is yielded was drawn, unless there is no window. -/
theorem Yields.exists_shift (h : Yields base max s wait) :
    max.isZero = true ∧ wait = base ∨ ∃ value < rangeOf max, wait = shift base max value := by
  obtain ⟨n, used, -, hspread⟩ := h
  cases hz : max.isZero with
  | true =>
    rw [spread_of_isZero hz] at hspread
    exact .inl ⟨rfl, (congrArg Prod.fst hspread).symm⟩
  | false =>
    rw [spread_of_draw hz] at hspread
    exact .inr ⟨_, draw_lt (rangeOf_pos max) _, (congrArg Prod.fst hspread).symm⟩

/-- Words count only through what is drawn from them. -/
theorem spread_congr {words words' : List UInt64}
    (h : draw (rangeOf max) words = draw (rangeOf max) words') :
    spread base max words = spread base max words' := by
  rw [spread, spread, h]

theorem spread_append {words : List UInt64} (h : (spread base max words).2 ≤ words.length)
    (more : List UInt64) : spread base max (words ++ more) = spread base max words := by
  cases hz : max.isZero with
  | true => rw [spread_of_isZero hz, spread_of_isZero hz]
  | false =>
    rw [spread_of_draw hz] at h
    exact spread_congr (draw_append h more)

theorem spread_append_zeros (words : List UInt64) (k : Nat) :
    spread base max (words ++ List.replicate k 0) = spread base max words :=
  spread_congr (draw_append_zeros words k)

theorem spread_used_le (words : List UInt64) :
    (spread base max words).2 ≤ words.length + 3 := by
  cases hz : max.isZero with
  | true =>
    rw [spread_of_isZero hz]
    exact Nat.zero_le _
  | false =>
    rw [spread_of_draw hz]
    exact draw_used_le words

/-- From where the draw ends, every longer part of the row comes to the same. -/
theorem Yields.exists_take (h : Yields base max s wait) :
    ∃ n, ∀ m, n ≤ m → (spread base max (s.take m)).1 = wait := by
  obtain ⟨n, used, hused, hspread⟩ := h
  refine ⟨n, ?_⟩
  intro m hm
  have hends : (spread base max (s.take n)).2 ≤ (s.take n).length := by
    rw [hspread, Stream'.length_take]
    exact hused
  have htake : s.take n ++ (s.take m).drop n = s.take m := by
    have hprefix : (s.take m).take n = s.take n := by rw [Stream'.take_take, Nat.min_eq_right hm]
    rw [← hprefix, List.take_append_drop]
  rw [← htake, spread_append hends, hspread]

/-- A row of words yields one wait at most. -/
theorem Yields.unique {wait' : Duration} (h : Yields base max s wait)
    (h' : Yields base max s wait') : wait = wait' := by
  obtain ⟨n, hn⟩ := h.exists_take
  obtain ⟨n', hn'⟩ := h'.exists_take
  exact (hn (n + n') (Nat.le_add_right _ _)).symm.trans (hn' (n + n') (Nat.le_add_left _ _))

theorem take_add_of_zeros (hs : ∀ i, n ≤ i → s.get i = 0) (k : Nat) :
    s.take (n + k) = s.take n ++ List.replicate k 0 := by
  induction k with
  | zero => simp
  | succ k ih =>
    rw [← Nat.add_assoc, Stream'.take_succ', ih, hs _ (Nat.le_add_right n k),
      List.replicate_succ', List.append_assoc]

/-- A row that goes on with zeros yields what `spread` makes of the words before them. -/
theorem yields_of_zeros (hs : ∀ i, n ≤ i → s.get i = 0) :
    Yields base max s (spread base max (s.take n)).1 := by
  refine ⟨n + 3, (spread base max (s.take n)).2, ?_, ?_⟩
  · have hused : (spread base max (s.take n)).2 ≤ (s.take n).length + 3 := spread_used_le _
    rwa [Stream'.length_take] at hused
  · rw [take_add_of_zeros hs, spread_append_zeros]

/-- A draw that stands for a wait is made by the first two words of some row. -/
theorem exists_yields (hmax : max.isZero = false) {value : Nat} (hv : value < rangeOf max) :
    ∃ s, Yields base max s (shift base max value) := by
  obtain ⟨x, y, hyes, hpick⟩ := exists_pick hv (rangeOf_lt max)
  refine ⟨Stream'.cons x (Stream'.cons y (Stream'.const 0)), 2, 2, Nat.le_refl 2, ?_⟩
  show spread base max [x, y] = (shift base max value, 2)
  rw [spread_of_draw hmax, draw, if_pos hyes, hpick]

end Row

/-! ## Main statements -/

/-- Whatever the words are, a wait is never longer than its window allows.  It is not shorter
either, unless the exact sum is too long for a duration, so that its seconds were cut.
Without a window it stays as it was. -/
theorem wait_in_window_or_overrun (base max : Duration) (s : Stream' UInt64) :
    (∀ wait, Yields base max s wait →
      wait.nanos ≤ base.nanos + max.nanos ∧
        (base.nanos - max.nanos ≤ wait.nanos ∨ Overrun base max wait)) ∧
      (max.isZero = true → ∀ wait, Yields base max s wait ↔ wait = base) := by
  constructor
  · intro wait h
    obtain ⟨-, rfl⟩ | ⟨value, hv, rfl⟩ := h.exists_shift
    · exact ⟨Nat.le_add_right _ _, .inl (Nat.sub_le _ _)⟩
    · exact ⟨shift_le hv, le_shift_or_overrun hv⟩
  · intro hz wait
    have hbase : Yields base max s base := ⟨0, 0, Nat.le_refl 0, spread_of_isZero hz _⟩
    constructor
    · intro h
      exact h.unique hbase
    · rintro rfl
      exact hbase

/-- Five seconds become three, the least there may be; and with no window they are kept. -/
theorem wait_in_window_or_overrun_at_the_lower_end :
    let base := Duration.ofMillis 5000
    let max := Duration.ofMillis 2000
    let wait := Duration.ofMillis 3000
    Yields base max (Stream'.const 0) wait ∧ wait.nanos ≤ base.nanos + max.nanos ∧
      (base.nanos - max.nanos ≤ wait.nanos ∨ Overrun base max wait) ∧
      Duration.zero.isZero = true ∧ Yields base .zero (Stream'.const 0) base := by
  intro base max wait
  have hwait : Yields base max (Stream'.const 0) wait := ⟨2, 2, Nat.le_refl 2, by decide⟩
  obtain ⟨hhigh, hlow⟩ := (wait_in_window_or_overrun base max (Stream'.const 0)).1 wait hwait
  have hnone := (wait_in_window_or_overrun base .zero (Stream'.const 0)).2 rfl base
  exact ⟨hwait, hhigh, hlow, rfl, hnone.2 rfl⟩

/-- The longest duration, made longer by one nanosecond, loses almost a second. -/
theorem wait_below_window :
    let base : Duration := ⟨UInt64.size * nanosPerSecond - 1, by decide⟩
    let max : Duration := ⟨1, by decide⟩
    let wait : Duration := ⟨(UInt64.size - 1) * nanosPerSecond, by decide⟩
    let words : List UInt64 := [12297829382473034411, 12297829382473034410]
    Yields base max (words ++ₛ Stream'.const 0) wait ∧ wait.nanos < base.nanos - max.nanos := by
  intro base max wait words
  exact ⟨⟨2, 2, Nat.le_refl 2, by decide⟩, by decide⟩

/-- If base and window together are not too long for a duration, the waits that rows of words
yield are those of the window, from one end to the other and all between.  And a row that goes
on with zeros yields a wait, whatever the words before them are: the one that `spread` makes
of these. -/
theorem waits_fill_window {base max : Duration} (hmax : max.isZero = false)
    (hsum : base.nanos + max.nanos < UInt64.size * nanosPerSecond) :
    (∀ wait : Duration, (∃ s, Yields base max s wait) ↔
      base.nanos - max.nanos ≤ wait.nanos ∧ wait.nanos ≤ base.nanos + max.nanos) ∧
      ∀ (s : Stream' UInt64) (n : Nat), (∀ i, n ≤ i → s.get i = 0) →
        ∀ wait, Yields base max s wait ↔ wait = (spread base max (s.take n)).1 := by
  constructor
  · intro wait
    constructor
    · rintro ⟨s, h⟩
      obtain ⟨hzero, -⟩ | ⟨value, hv, rfl⟩ := h.exists_shift
      · exact absurd (hzero.symm.trans hmax) Bool.noConfusion
      · refine ⟨(le_shift_or_overrun hv).resolve_right ?_, shift_le hv⟩
        rintro ⟨sum, hlong, hle, -⟩
        omega
    · rintro ⟨hlow, hhigh⟩
      obtain ⟨value, hv, rfl⟩ := exists_shift hlow hhigh
      exact exists_yields hmax hv
  · intro s n hs wait
    constructor
    · intro h
      exact h.unique (yields_of_zeros hs)
    · rintro rfl
      exact yields_of_zeros hs

/-- One nanosecond, shifted by up to two: nothing to three nanoseconds, but not four; and
zeros leave it as it was. -/
theorem waits_fill_window_around_one_nanosecond :
    let base : Duration := ⟨1, by decide⟩
    let max : Duration := ⟨2, by decide⟩
    max.isZero = false ∧ base.nanos + max.nanos < UInt64.size * nanosPerSecond ∧
      (∃ s, Yields base max s .zero) ∧ (∃ s, Yields base max s ⟨3, by decide⟩) ∧
      (¬ ∃ s, Yields base max s ⟨4, by decide⟩) ∧ Yields base max (Stream'.const 0) base := by
  intro base max
  have hmax : max.isZero = false := rfl
  have hsum : base.nanos + max.nanos < UInt64.size * nanosPerSecond := by decide
  obtain ⟨hwaits, hzeros⟩ := waits_fill_window hmax hsum
  refine ⟨hmax, hsum, (hwaits _).2 (by decide), (hwaits _).2 (by decide), ?_, ?_⟩
  · intro h
    exact absurd ((hwaits _).1 h) (by decide)
  · exact (hzeros (Stream'.const 0) 0 (fun _ _ => rfl) base).2 (by decide)

end Jitter

end TurnRendezvous
