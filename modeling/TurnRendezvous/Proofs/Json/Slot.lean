/-
# Records by any hand

What a field of a record can be read from, and whether it may be left out, is its `Slot`.  An
object spells a record if it gives every field once, wherever that stands, or leaves it out
(`Fills`); what it has under other names does not matter.  An array spells a record if it gives
the fields in order, of which the last ones may be left out (`FillsInOrder`).

Either way the reader collects a record in which each slot has what it needs (`Fits`), and from
there on the two forms are the same.  What is collected also tells when a reader has to refuse:
if a name is given twice, if there are more items than names, and if what is needed is not there.

* `fits_of_members`, `fits_of_items`: what is collected from either form;
* `required?_of_given`, `orDefault?_of_given`: what is read from it;
* `readsEverySpelling_of_fits`: what a reader has to do to read every spelling.
-/
import TurnRendezvous.Proofs.Json.Record
import TurnRendezvous.Proofs.Json.Spelling

namespace TurnRendezvous.Json

open Record (valuesOf)

/-! ## Slots -/

/-- What one field of a record is to be read from. -/
structure Slot where
  name : String
  /-- The values that stand for what the field holds. -/
  IsReadFrom : Value → Prop
  /-- Whether the field may be left out: it has a default and holds that. -/
  mayMiss : Prop

namespace Slot

variable {α : Type}

/-- The slot of a field that has to be given. -/
def required (name : String) (read : Value → Option α) (a : α) : Slot :=
  ⟨name, fun v => read v = some a, False⟩

/-- The slot of a field with a default. -/
def optional (name : String) (read : Value → Option α) (default a : α) : Slot :=
  ⟨name, fun v => read v = some a, a = default⟩

@[simp] theorem name_required (name : String) (read : Value → Option α) (a : α) :
    (required name read a).name = name := rfl

@[simp] theorem name_optional (name : String) (read : Value → Option α) (default a : α) :
    (optional name read default a).name = name := rfl

/-- Whether a row of values gives a field: it is one value, or none and none is needed. -/
inductive IsGivenBy (s : Slot) : List Value → Prop
  | once {v : Value} : s.IsReadFrom v → s.IsGivenBy [v]
  | missing : s.mayMiss → s.IsGivenBy []

theorem IsGivenBy.length_le {s : Slot} {vs : List Value} (h : s.IsGivenBy vs) : vs.length ≤ 1 := by
  cases h with
  | once => exact Nat.le_refl 1
  | missing => exact Nat.zero_le 1

end Slot

/-- Members that give each field once, or leave it out; they may give anything under other
names.  A name is a text, and an escape that is half of a pair spells none. -/
structure Fills (slots : List Slot) (members : List (Literal × Value)) : Prop where
  keys : ∀ m ∈ members, m.1.text?.isSome = true
  given : ∀ s ∈ slots, s.IsGivenBy (valuesOf s.name members)

/-- Items that give the fields in order, of which the last ones may be left out. -/
inductive FillsInOrder : List Slot → List Value → Prop
  | rest {slots : List Slot} : (∀ s ∈ slots, s.mayMiss) → FillsInOrder slots []
  | item {s : Slot} {slots : List Slot} {v : Value} {items : List Value} :
      s.IsReadFrom v → FillsInOrder slots items → FillsInOrder (s :: slots) (v :: items)

/-! ## What is collected -/

/-- Records that hold what the slots need. -/
def Fits (slots : List Slot) (r : Record) : Prop :=
  ∀ s ∈ slots, s.IsGivenBy (r.lookup s.name).toList

theorem forall_mem_of_membersSound {members : List (Literal × Value)}
    (h : Value.membersSound members = true) : ∀ m ∈ members, m.2.isSound = true := by
  induction members with
  | nil => exact List.forall_mem_nil _
  | cons m members ih =>
    obtain ⟨k, v⟩ := m
    rw [Value.membersSound, Bool.and_eq_true, Bool.and_eq_true] at h
    exact List.forall_mem_cons.2 ⟨h.1.2, ih h.2⟩

section Collected
variable {slots : List Slot}

theorem fits_of_members {members : List (Literal × Value)} (h : Fills slots members)
    (hsound : (Value.object members).isSound = true) :
    ∃ r, Record.ofValue? (slots.map Slot.name) (.object members) = some r ∧ Fits slots r := by
  have honce : ∀ name ∈ slots.map Slot.name, (valuesOf name members).length ≤ 1 := by
    refine List.forall_mem_map.2 fun s hs => ?_
    exact (h.given s hs).length_le
  obtain ⟨r, hr⟩ := Record.exists_ofMembers? h.keys (forall_mem_of_membersSound hsound) honce
  refine ⟨r, hr, fun s hs => ?_⟩
  rw [← Record.valuesOf_eq (List.mem_map_of_mem hs) hr]
  exact h.given s hs

theorem FillsInOrder.length_le {items : List Value} (h : FillsInOrder slots items) :
    items.length ≤ slots.length := by
  induction h with
  | rest => exact Nat.zero_le _
  | item _ _ ih => exact Nat.succ_le_succ ih

theorem fits_zip {items : List Value} (h : FillsInOrder slots items)
    (hdistinct : (slots.map Slot.name).Nodup) : Fits slots ((slots.map Slot.name).zip items) := by
  induction h with
  | rest hmiss =>
    intro s hs
    rw [List.zip_nil_right]
    exact .missing (hmiss s hs)
  | @item s slots v items hv _ ih =>
    obtain ⟨hnew, hdistinct⟩ := List.nodup_cons.1 hdistinct
    refine List.forall_mem_cons.2 ⟨?_, fun s' hs' => ?_⟩
    · rw [List.map_cons, List.zip_cons_cons, List.lookup_cons_self]
      exact .once hv
    · have hne : ¬ s'.name = s.name := fun heq => hnew (heq ▸ List.mem_map_of_mem hs')
      rw [List.map_cons, List.zip_cons_cons, List.lookup_cons, beq_false_of_ne hne]
      exact ih hdistinct s' hs'

theorem fits_of_items {items : List Value} (h : FillsInOrder slots items)
    (hdistinct : (slots.map Slot.name).Nodup) :
    ∃ r, Record.ofValue? (slots.map Slot.name) (.array items) = some r ∧ Fits slots r := by
  have hlength : items.length ≤ (slots.map Slot.name).length := by
    rw [List.length_map]
    exact h.length_le
  exact ⟨_, if_pos hlength, fits_zip h hdistinct⟩

end Collected

/-- Whether a value is an object of fields that are known, and different, and fit. -/
def IsWrittenFrom (slots : List Slot) (v : Value) : Prop :=
  ∃ r : Record, v = .ofMembers r ∧ (∀ f ∈ r, f.1 ∈ slots.map Slot.name) ∧
    (r.map Prod.fst).Nodup ∧ Fits slots r

theorem fits_of_written {slots : List Slot} {v : Value} (h : IsWrittenFrom slots v) :
    ∃ r, Record.ofValue? (slots.map Slot.name) v = some r ∧ Fits slots r := by
  obtain ⟨r, rfl, hknown, hdistinct, hfits⟩ := h
  refine ⟨r, Record.ofValue?_ofMembers (fun f hf => ?_) hdistinct, hfits⟩
  exact List.contains_iff_mem.2 (hknown f hf)

/-- What a record is written as is one spelling of it. -/
theorem fills_of_written {slots : List Slot} {v : Value} (h : IsWrittenFrom slots v) :
    ∃ members, v = .object members ∧ Fills slots members := by
  obtain ⟨r, rfl, hknown, hdistinct, hfits⟩ := h
  have hread := Record.ofMembers?_written (fun f hf => List.contains_iff_mem.2 (hknown f hf))
    hdistinct
  refine ⟨_, rfl, List.forall_mem_map.2 fun f _ => by simp, fun s hs => ?_⟩
  rw [Record.valuesOf_eq (List.mem_map_of_mem hs) hread]
  exact hfits s hs

/-! ## What is read from it -/

section Read
variable {α : Type} {name : String} {read : Value → Option α} {a default : α} {r : Record}

theorem required?_of_given (h : (Slot.required name read a).IsGivenBy (r.lookup name).toList) :
    r.required? name read = some a := by
  rw [Record.required?]
  cases hlookup : r.lookup name with
  | none =>
    rw [hlookup] at h
    cases h with
    | missing hmiss => exact hmiss.elim
  | some v =>
    rw [hlookup] at h
    cases h with
    | once hread => exact hread

theorem orDefault?_of_given
    (h : (Slot.optional name read default a).IsGivenBy (r.lookup name).toList) :
    r.orDefault? name read default = some a := by
  rw [Record.orDefault?]
  cases hlookup : r.lookup name with
  | none =>
    rw [hlookup] at h
    cases h with
    | missing hmiss => exact congrArg some hmiss.symm
  | some v =>
    rw [hlookup] at h
    cases h with
    | once hread => exact hread

theorem isSome_lookup_of_required? (h : r.required? name read = some a) :
    (r.lookup name).isSome = true := by
  obtain ⟨v, hv, -⟩ := Option.bind_eq_some_iff.1 h
  exact Option.isSome_iff_exists.2 ⟨v, hv⟩

end Read

/-! ## What is refused -/

section Refused
variable {names : List String} {name : String}

theorem ofMembers?_of_repeated {members : List (Literal × Value)} (hname : name ∈ names)
    (htwice : 2 ≤ (valuesOf name members).length) : Record.ofMembers? names members = none := by
  cases h : Record.ofMembers? names members with
  | none => rfl
  | some r =>
    rw [Record.valuesOf_eq hname h] at htwice
    have honce : (r.lookup name).toList.length ≤ 1 := by
      cases r.lookup name <;> simp
    omega

theorem lookup_zip_eq_none {items : List Value} (hdistinct : names.Nodup) {i : Nat}
    (hi : names[i]? = some name) (hlength : items.length ≤ i) :
    (names.zip items).lookup name = none := by
  induction names generalizing items i with
  | nil => simp at hi
  | cons n names ih =>
    obtain ⟨hnew, hdistinct⟩ := List.nodup_cons.1 hdistinct
    cases items with
    | nil => rfl
    | cons v items =>
      cases i with
      | zero => simp at hlength
      | succ i =>
        rw [List.getElem?_cons_succ] at hi
        have hne : ¬ name = n := by
          rintro rfl
          exact hnew (List.mem_of_getElem? hi)
        rw [List.zip_cons_cons, List.lookup_cons, beq_false_of_ne hne]
        exact ih hdistinct hi (Nat.le_of_succ_le_succ hlength)

end Refused

/-! ## Readers of records -/

section Reader
variable {α : Type}

variable (write : α → Value) (read : Value → Option α) (IsKept : α → Prop)
  (fields : α → List Slot) (names needed : List String)

/-- Readers that take every spelling of a record, and refuse what spells none: `fields` are the
slots of a record, in the order of `names`, and `needed` are the names that have to be given. -/
structure ReadsEverySpelling : Prop where
  inOrder : ∀ a, (fields a).map Slot.name = names
  /-- Records that can be written without a loss are written in one of the spellings. -/
  written : ∀ a, IsKept a → ∃ members, write a = .object members ∧ Fills (fields a) members
  /-- Members in any order, others among them, and any blanks between tokens. -/
  ofObject : ∀ a members text, Fills (fields a) members → (Value.object members).IsSpelledBy text →
    readText? read text = some a
  ofArray : ∀ a items text, FillsInOrder (fields a) items → (Value.array items).IsSpelledBy text →
    readText? read text = some a
  /-- No field is given twice, whatever else there is. -/
  repeated : ∀ members text name, name ∈ names → 2 ≤ (valuesOf name members).length →
    (Value.object members).IsSpelledBy text → readText? read text = none
  tooLong : ∀ items text, names.length < items.length → (Value.array items).IsSpelledBy text →
    readText? read text = none
  lacksMember : ∀ members text name, name ∈ needed → valuesOf name members = [] →
    (Value.object members).IsSpelledBy text → readText? read text = none
  lacksItem : ∀ items text i name, name ∈ needed → names[i]? = some name → items.length ≤ i →
    (Value.array items).IsSpelledBy text → readText? read text = none

variable {write read IsKept fields names needed}

/-- A reader that collects a record may need nothing of it. -/
theorem needs_nothing {v : Value} {a : α} {build : Record → Option α}
    (h : (Record.ofValue? names v).bind build = some a) :
    ∃ r, Record.ofValue? names v = some r ∧
      ∀ n ∈ ([] : List String), (r.lookup n).isSome = true := by
  obtain ⟨r, hr, -⟩ := Option.bind_eq_some_iff.1 h
  exact ⟨r, hr, List.forall_mem_nil _⟩

/-- A reader that collects a record first, then finds what is in the slots, and nothing where
it needs something that is not there. -/
theorem readsEverySpelling_of_fits (hnames : ∀ a, (fields a).map Slot.name = names)
    (hdistinct : names.Nodup) (hneeded : needed ⊆ names)
    (hwritten : ∀ a, IsKept a → IsWrittenFrom (fields a) (write a))
    (hfits : ∀ a v r, Record.ofValue? names v = some r → Fits (fields a) r → read v = some a)
    (hneeds : ∀ v a, read v = some a →
      ∃ r, Record.ofValue? names v = some r ∧ ∀ n ∈ needed, (r.lookup n).isSome = true) :
    ReadsEverySpelling write read IsKept fields names needed := by
  have refused : ∀ {v : Value} {text : String}, v.IsSpelledBy text →
      (∀ r, Record.ofValue? names v = some r → ∃ n ∈ needed, r.lookup n = none) →
      readText? read text = none := by
    intro v text htext hlacks
    rw [readText?_of_spelled htext]
    cases h : read v with
    | none => rfl
    | some a =>
      obtain ⟨r, hr, hall⟩ := hneeds v a h
      obtain ⟨n, hn, hnone⟩ := hlacks r hr
      have hsome := hall n hn
      rw [hnone] at hsome
      cases hsome
  refine ⟨hnames, ?written, ?ofObject, ?ofArray, ?repeated, ?tooLong, ?lacksMember, ?lacksItem⟩
  case written => exact fun a ha => fills_of_written (hwritten a ha)
  case ofObject =>
    intro a members text hfills htext
    obtain ⟨r, hr, hr'⟩ := fits_of_members hfills (isSound_of_spelled htext)
    rw [readText?_of_spelled htext]
    exact hfits a _ r (hnames a ▸ hr) hr'
  case ofArray =>
    intro a items text hfills htext
    obtain ⟨r, hr, hr'⟩ := fits_of_items hfills (hnames a ▸ hdistinct)
    rw [readText?_of_spelled htext]
    exact hfits a _ r (hnames a ▸ hr) hr'
  case repeated =>
    intro members text name hname htwice htext
    refine refused htext fun r hr => ?_
    rw [Record.ofValue?, ofMembers?_of_repeated hname htwice] at hr
    cases hr
  case tooLong =>
    intro items text hlong htext
    refine refused htext fun r hr => ?_
    rw [Record.ofValue?, if_neg (Nat.not_le_of_lt hlong)] at hr
    cases hr
  case lacksMember =>
    intro members text name hname hnone htext
    refine refused htext fun r hr => ⟨name, hname, ?_⟩
    rw [Record.valuesOf_eq (hneeded hname) hr] at hnone
    exact Option.toList_eq_nil_iff.1 hnone
  case lacksItem =>
    intro items text i name hname hi hlength htext
    refine refused htext fun r hr => ⟨name, hname, ?_⟩
    rw [Record.ofValue?] at hr
    split at hr
    · obtain rfl := Option.some.inj hr
      exact lookup_zip_eq_none hdistinct hi hlength
    · cases hr

end Reader

end TurnRendezvous.Json
