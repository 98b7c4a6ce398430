/-
# What is left of a timing that is written down

A duration is written as its whole milliseconds, as far as they fit 64 bits.  So a
configuration does not always read back as it was: a part of a millisecond is lost, and so is
what lies beyond the largest number.  `Duration.inMillis` is what is left, and a duration that
is left as it was is one of whole milliseconds that fit (`Duration.IsWhole`).

What else a configuration holds is kept.  A choice that is left open is written as null, and
null is read as that; a field that is not there would get its default, which may be another.

How a text is a normal form of what it is made of is said once, for any kind of value
(`Json.Settles`), and comes from three facts about the values alone (`settles_of_reads`).

* `Duration.inMillis_eq_self_iff`: which durations are kept;
* `written_configuration_settles`: what reading and writing does to the two configurations.
-/
import TurnRendezvous.Timing
import TurnRendezvous.Proofs.Json.Slot
import TurnRendezvous.Proofs.Json.Written

namespace TurnRendezvous

open Json (Value Record Slot Fits IsWrittenFrom fits_of_written orDefault?_of_given)

/-! ## Texts that settle -/

namespace Json

section Settles
variable {α : Type} (write : α → Value) (read : Value → Option α) (left : α → α)
  (IsKept : α → Prop)

/-- Values of which `left` is what is read after they were written. -/
structure Settles : Prop where
  read_back : ∀ a, readText? read (write a).render = some (left a)
  /-- Nothing is lost of the values that are to be kept, and of no other ones. -/
  kept_iff : ∀ a, readText? read (write a).render = some a ↔ IsKept a
  /-- To write what was read gives the same text, so to read that changes nothing. -/
  again : ∀ a b, readText? read (write a).render = some b →
    (write b).render = (write a).render ∧ readText? read (write b).render = some b
  /-- What comes from a text by any hand is kept. -/
  of_text : ∀ t a, readText? read t = some a → readText? read (write a).render = some a

variable {write read left IsKept}

theorem settles_of_reads (hlegible : ∀ a, (write a).IsLegible)
    (hread : ∀ a, read (write a) = some (left a)) (hwrite : ∀ a, write (left a) = write a)
    (hkept : ∀ a, left a = a ↔ IsKept a) (hany : ∀ v a, read v = some a → IsKept a) :
    Settles write read left IsKept := by
  have hback : ∀ a, readText? read (write a).render = some (left a) := by
    intro a
    rw [readText?, parse?_render (hlegible a)]
    exact hread a
  have hiff : ∀ a, readText? read (write a).render = some a ↔ IsKept a := by
    intro a
    rw [hback, Option.some_inj]
    exact hkept a
  have htext : ∀ t a, readText? read t = some a → readText? read (write a).render = some a := by
    intro t a h
    obtain ⟨v, -, hv⟩ := Option.bind_eq_some_iff.1 h
    exact (hiff a).2 (hany v a hv)
  refine { read_back := hback, kept_iff := hiff, again := ?_, of_text := htext }
  intro a b h
  obtain rfl := Option.some.inj ((hback a).symm.trans h)
  exact ⟨congrArg Value.render (hwrite a), htext _ _ h⟩

end Settles

/-- A field that is not given has its default, and one that is given has what is read. -/
theorem Record.of_orDefault? {α : Type} {P : α → Prop} {r : Record} {name : String}
    {read : Value → Option α} {default a : α} (h : r.orDefault? name read default = some a)
    (hdefault : P default) (hread : ∀ v a, read v = some a → P a) : P a := by
  unfold orDefault? at h
  split at h
  · obtain rfl := Option.some.inj h
    exact hdefault
  · exact hread _ _ h

end Json

/-! ## Durations -/

namespace Duration

/-- The whole milliseconds of a duration, at most `2 ^ 64 - 1` of them. -/
def inMillis (d : Duration) : Duration where
  nanos := min (d.nanos / 1000000) (UInt64.size - 1) * 1000000
  isLt := by
    show min _ (18446744073709551616 - 1) * 1000000 < 18446744073709551616 * 1000000000
    omega

/-- Whether a duration is a whole number of milliseconds, and one of 64 bits. -/
def IsWhole (d : Duration) : Prop := ∃ ms < UInt64.size, d.nanos = ms * 1000000

section
variable (d : Duration)

theorem isWhole_inMillis : d.inMillis.IsWhole := by
  have hpos : 0 < UInt64.size := by decide
  refine ⟨min (d.nanos / 1000000) (UInt64.size - 1), ?_, rfl⟩
  exact Nat.lt_of_le_of_lt (Nat.min_le_right _ _) (Nat.sub_one_lt_of_lt hpos)

theorem inMillis_eq_self_iff : d.inMillis = d ↔ d.IsWhole := by
  constructor
  · exact fun h => h ▸ d.isWhole_inMillis
  · rintro ⟨ms, hms, hd⟩
    refine Duration.ext ?_
    show min (d.nanos / 1000000) (UInt64.size - 1) * 1000000 = d.nanos
    rw [hd, Nat.mul_div_cancel _ (by decide), Nat.min_eq_left (Nat.le_sub_one_of_lt hms)]

theorem isWhole_ofMillis (ms : UInt64) : (ofMillis ms).IsWhole := ⟨ms.toNat, ms.toNat_lt, rfl⟩

@[simp] theorem isLegible_toJson : d.toJson.IsLegible := Value.isLegible_nat _

theorem cappedMillis_lt : d.cappedMillis < UInt64.size := by
  unfold cappedMillis
  have hpos : 0 < UInt64.size := by decide
  omega

@[simp] theorem ofJson?_toJson : ofJson? d.toJson = some d.inMillis := by
  have hread : d.toJson.natBelow? UInt64.size = some d.cappedMillis :=
    Value.natBelow?_nat d.cappedMillis_lt
  have hword : (UInt64.ofNat d.cappedMillis).toNat = d.cappedMillis :=
    UInt64.toNat_ofNat_of_lt' d.cappedMillis_lt
  rw [ofJson?, hread, Option.map_some]
  refine congrArg some (Duration.ext ?_)
  rw [nanos_ofMillis, hword]
  rfl

@[simp] theorem toJson_inMillis : d.inMillis.toJson = d.toJson := by
  refine congrArg Value.nat ?_
  show min (min (d.nanos / 1000000) (UInt64.size - 1) * 1000000 / 1000000) (UInt64.size - 1) =
    min (d.nanos / 1000000) (UInt64.size - 1)
  rw [Nat.mul_div_cancel _ (by decide), Nat.min_assoc, Nat.min_self]

end

theorem ofJson?_of_isWhole {d : Duration} (h : d.IsWhole) : ofJson? d.toJson = some d := by
  rw [ofJson?_toJson, d.inMillis_eq_self_iff.2 h]

theorem isWhole_of_ofJson? (v : Value) (d : Duration) (h : ofJson? v = some d) : d.IsWhole := by
  obtain ⟨ms, -, rfl⟩ := Option.map_eq_some_iff.1 h
  exact isWhole_ofMillis _

end Duration

/-! ## Timings -/

namespace Timing

/-- What is left of a timing: whole milliseconds, and all else as it was. -/
def inMillis (c : Timing) : Timing where
  firstTurnWait := c.firstTurnWait.inMillis
  defaultTurnWait := c.defaultTurnWait.inMillis
  jitterMax := c.jitterMax.inMillis
  probeTimeout := c.probeTimeout.inMillis
  dismissOnFinish := c.dismissOnFinish

/-- Whether all durations of a timing are whole. -/
structure IsWhole (c : Timing) : Prop where
  firstTurnWait : c.firstTurnWait.IsWhole
  defaultTurnWait : c.defaultTurnWait.IsWhole
  jitterMax : c.jitterMax.IsWhole
  probeTimeout : c.probeTimeout.IsWhole

section
variable (c : Timing)

theorem inMillis_eq_self_iff : c.inMillis = c ↔ c.IsWhole := by
  constructor
  · intro h
    exact
      { firstTurnWait := (Duration.inMillis_eq_self_iff _).1 (congrArg Timing.firstTurnWait h)
        defaultTurnWait := (Duration.inMillis_eq_self_iff _).1 (congrArg Timing.defaultTurnWait h)
        jitterMax := (Duration.inMillis_eq_self_iff _).1 (congrArg Timing.jitterMax h)
        probeTimeout := (Duration.inMillis_eq_self_iff _).1 (congrArg Timing.probeTimeout h) }
  · intro h
    rw [inMillis, (Duration.inMillis_eq_self_iff _).2 h.firstTurnWait,
      (Duration.inMillis_eq_self_iff _).2 h.defaultTurnWait,
      (Duration.inMillis_eq_self_iff _).2 h.jitterMax,
      (Duration.inMillis_eq_self_iff _).2 h.probeTimeout]

@[simp] theorem isLegible_toJson : c.toJson.IsLegible := by
  obtain ⟨first, later, jitter, probe, dismiss⟩ := c
  cases dismiss <;> simp [toJson, Value.option]

theorem isWhole_inMillis : c.inMillis.IsWhole :=
  ⟨c.firstTurnWait.isWhole_inMillis, c.defaultTurnWait.isWhole_inMillis,
    c.jitterMax.isWhole_inMillis, c.probeTimeout.isWhole_inMillis⟩

@[simp] theorem toJson_inMillis : c.inMillis.toJson = c.toJson := by
  simp [toJson, inMillis]

end

/-- What the fields of a timing are read from. -/
def slots (c : Timing) : List Slot :=
  let standard : Timing := {}
  [.optional "first_turn_wait_ms" Duration.ofJson? standard.firstTurnWait c.firstTurnWait,
    .optional "default_turn_wait_ms" Duration.ofJson? standard.defaultTurnWait c.defaultTurnWait,
    .optional "jitter_max_ms" Duration.ofJson? standard.jitterMax c.jitterMax,
    .optional "p2p_test_timeout_ms" Duration.ofJson? standard.probeTimeout c.probeTimeout,
    .optional "dismiss_on_finish" (Value.option? Value.bool?) standard.dismissOnFinish
      c.dismissOnFinish]

theorem ofJson?_of_fits (c : Timing) (v : Value) (r : Record)
    (hr : Record.ofValue? fieldNames v = some r) (h : Fits c.slots r) : ofJson? v = some c := by
  simp only [Fits, slots, List.forall_mem_cons] at h
  obtain ⟨hfirst, hlater, hjitter, hprobe, hdismiss, -⟩ := h
  rw [ofJson?, hr]
  simp only [Option.bind_eq_bind, Option.bind_some, orDefault?_of_given hfirst,
    orDefault?_of_given hlater, orDefault?_of_given hjitter, orDefault?_of_given hprobe,
    orDefault?_of_given hdismiss]
  rfl

theorem written (c : Timing) (h : c.IsWhole) : IsWrittenFrom c.slots c.toJson := by
  have hdismiss := Value.option?_option Value.bool?_bool (fun _ => nofun) c.dismissOnFinish
  refine ⟨_, rfl, by simp [slots], by simp, ?_⟩
  simp only [Fits, slots, List.forall_mem_cons]
  exact ⟨.once (Duration.ofJson?_of_isWhole h.firstTurnWait),
    .once (Duration.ofJson?_of_isWhole h.defaultTurnWait),
    .once (Duration.ofJson?_of_isWhole h.jitterMax),
    .once (Duration.ofJson?_of_isWhole h.probeTimeout), .once hdismiss, List.forall_mem_nil _⟩

/-- Null is read as a choice that is left open. -/
@[simp] theorem ofJson?_toJson (c : Timing) : ofJson? c.toJson = some c.inMillis := by
  obtain ⟨r, hr, hfits⟩ := fits_of_written (c.inMillis.written c.isWhole_inMillis)
  rw [toJson_inMillis] at hr
  exact ofJson?_of_fits c.inMillis _ r hr hfits

/-- All that is read is whole, the defaults of the fields that are left out included. -/
theorem isWhole_of_ofJson? (v : Value) (c : Timing) (h : ofJson? v = some c) : c.IsWhole := by
  obtain ⟨r, -, h⟩ := Option.bind_eq_some_iff.1 h
  obtain ⟨first, hfirst, h⟩ := Option.bind_eq_some_iff.1 h
  obtain ⟨later, hlater, h⟩ := Option.bind_eq_some_iff.1 h
  obtain ⟨jitter, hjitter, h⟩ := Option.bind_eq_some_iff.1 h
  obtain ⟨probe, hprobe, h⟩ := Option.bind_eq_some_iff.1 h
  obtain ⟨dismiss, -, h⟩ := Option.bind_eq_some_iff.1 h
  obtain rfl := Option.some.inj h
  have whole : ∀ {name : String} {ms : UInt64} {d : Duration},
      r.orDefault? name Duration.ofJson? (.ofMillis ms) = some d → d.IsWhole := fun h =>
    Record.of_orDefault? h (Duration.isWhole_ofMillis _) Duration.isWhole_of_ofJson?
  exact ⟨whole hfirst, whole hlater, whole hjitter, whole hprobe⟩

theorem isWhole_standard : ({} : Timing).IsWhole :=
  ⟨Duration.isWhole_ofMillis _, Duration.isWhole_ofMillis _, Duration.isWhole_ofMillis _,
    Duration.isWhole_ofMillis _⟩

end Timing

/-! ## Search configurations -/

namespace SearchConfig

/-- What is left of a search configuration. -/
def inMillis (c : SearchConfig) : SearchConfig where
  agent := c.agent.inMillis
  maxAttempts := c.maxAttempts

section
variable (c : SearchConfig)

theorem inMillis_eq_self_iff : c.inMillis = c ↔ c.agent.IsWhole := by
  rw [← Timing.inMillis_eq_self_iff]
  obtain ⟨agent, maxAttempts⟩ := c
  simp [inMillis]

theorem isLegible_toJson : c.toJson.IsLegible := by
  obtain ⟨agent, maxAttempts⟩ := c
  cases maxAttempts <;> simp [toJson, Value.option]

theorem toJson_inMillis : c.inMillis.toJson = c.toJson := by
  simp [toJson, inMillis]

end

/-- Null is read as no limit, which is not the default. -/
theorem limit_read (limit : Option UInt32) :
    Value.option? (fun v => (v.natBelow? UInt32.size).map UInt32.ofNat)
      (.option (fun n : UInt32 => .nat n.toNat) limit) = some limit := by
  have hread : ∀ n : UInt32,
      ((Value.nat n.toNat).natBelow? UInt32.size).map UInt32.ofNat = some n := by
    intro n
    rw [Value.natBelow?_nat n.toNat_lt, Option.map_some, UInt32.ofNat_toNat]
  have hnull : ∀ n : UInt32, Value.nat n.toNat ≠ .null := fun _ => nofun
  exact Value.option?_option hread hnull limit

/-- What the fields of a search configuration are read from. -/
def slots (c : SearchConfig) : List Slot :=
  let standard : SearchConfig := {}
  [.optional "handler" Timing.ofJson? standard.agent c.agent,
    .optional "max_attempts"
      (Value.option? fun v => (v.natBelow? UInt32.size).map UInt32.ofNat) standard.maxAttempts
      c.maxAttempts]

theorem ofJson?_of_fits (c : SearchConfig) (v : Value) (r : Record)
    (hr : Record.ofValue? fieldNames v = some r) (h : Fits c.slots r) : ofJson? v = some c := by
  simp only [Fits, slots, List.forall_mem_cons] at h
  obtain ⟨hagent, hmaxAttempts, -⟩ := h
  rw [ofJson?, hr]
  simp only [Option.bind_eq_bind, Option.bind_some, orDefault?_of_given hagent,
    orDefault?_of_given hmaxAttempts]
  rfl

theorem written (c : SearchConfig) (h : c.agent.IsWhole) : IsWrittenFrom c.slots c.toJson := by
  have hagent : Timing.ofJson? c.agent.toJson = some c.agent := by
    rw [Timing.ofJson?_toJson, c.agent.inMillis_eq_self_iff.2 h]
  refine ⟨_, rfl, by simp [slots], by simp, ?_⟩
  simp only [Fits, slots, List.forall_mem_cons]
  exact ⟨.once hagent, .once (limit_read c.maxAttempts), List.forall_mem_nil _⟩

theorem ofJson?_toJson (c : SearchConfig) : ofJson? c.toJson = some c.inMillis := by
  obtain ⟨r, hr, hfits⟩ := fits_of_written (c.inMillis.written c.agent.isWhole_inMillis)
  rw [toJson_inMillis] at hr
  exact ofJson?_of_fits c.inMillis _ r hr hfits

theorem isWhole_of_ofJson? (v : Value) (c : SearchConfig) (h : ofJson? v = some c) :
    c.agent.IsWhole := by
  obtain ⟨r, -, h⟩ := Option.bind_eq_some_iff.1 h
  obtain ⟨agent, hagent, h⟩ := Option.bind_eq_some_iff.1 h
  obtain ⟨limit, -, h⟩ := Option.bind_eq_some_iff.1 h
  obtain rfl := Option.some.inj h
  exact Record.of_orDefault? hagent Timing.isWhole_standard Timing.isWhole_of_ofJson?

end SearchConfig

/-! ## Main statement -/

/-- A timing is read from its own text with each duration cut to its whole milliseconds, at
most `2 ^ 64 - 1` of them, and all else unchanged, and so is a search configuration.  So it
is read as it was just when all its durations are whole.  To write and read it again changes
nothing, and whatever was read from any text at all is written and read without a loss. -/
theorem written_configuration_settles :
    Json.Settles Timing.toJson Timing.ofJson? Timing.inMillis Timing.IsWhole ∧
      Json.Settles SearchConfig.toJson SearchConfig.ofJson? SearchConfig.inMillis
        fun c => c.agent.IsWhole := by
  constructor
  · exact Json.settles_of_reads Timing.isLegible_toJson Timing.ofJson?_toJson
      Timing.toJson_inMillis Timing.inMillis_eq_self_iff Timing.isWhole_of_ofJson?
  · exact Json.settles_of_reads SearchConfig.isLegible_toJson SearchConfig.ofJson?_toJson
      SearchConfig.toJson_inMillis SearchConfig.inMillis_eq_self_iff
      SearchConfig.isWhole_of_ofJson?

/-- Of one millisecond and a half the half is lost, and of what is too long all that does not
fit.  A search without a limit stays without one, and is not taken for one that says nothing. -/
example :
    (⟨1500000, by decide⟩ : Duration).inMillis = .ofMillis 1 ∧
      (Duration.ofParts 18446744073709551615 ⟨0, by decide⟩).inMillis =
        .ofMillis 18446744073709551615 ∧
      (SearchConfig.ofJson? (.ofMembers [("max_attempts", .null)])).map (·.maxAttempts) =
        some none ∧
      (SearchConfig.ofJson? (.ofMembers [])).map (·.maxAttempts) = some (some 5) :=
  ⟨by decide, by decide, rfl, rfl⟩

end TurnRendezvous
