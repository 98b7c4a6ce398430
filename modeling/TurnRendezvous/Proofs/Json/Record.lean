/-
# Plain data and records, written and read

What is written from plain data is read as these data, for each kind of data
that a record holds, and the members that a record is written with are collected
again.  A record may also be written by other hands, its members in any order
and among others.  What one known member does there is compared with the same
members without it (`Insertion`), and what all of them do is told by the values
that they give under each name (`valuesOf`).

* `ofValue?_ofMembers`: the written members of a record are its fields;
* `ofMembers?_insertion`: what one known member adds to a record;
* `valuesOf_eq`, `exists_ofMembers?`: what is collected, and when anything is.
-/
import TurnRendezvous.Json.Record

namespace TurnRendezvous.Json

/-! ## Plain data -/

namespace Value

@[simp] theorem text?_text (s : String) : (text s).text? = some s := Literal.text?_ofText s

@[simp] theorem variant?_text (s : String) : (text s).variant? = some s := Literal.text?_ofText s

@[simp] theorem bool?_bool (b : Bool) : (bool b).bool? = some b := rfl

@[simp] theorem natBelow?_nat {bound n : Nat} (h : n < bound) :
    (nat n).natBelow? bound = some n :=
  if_pos h

section
variable {α : Type} {read : Value → Option α} {write : α → Value}

@[simp] theorem list?_array (h : ∀ a, read (write a) = some a) (as : List α) :
    list? read (array (as.map write)) = some as := by
  have hread : read ∘ write = fun a => pure (id a) := funext h
  rw [list?, List.mapM_map, hread, List.mapM_pure, List.map_id]
  rfl

theorem option?_of_read {v : Value} {a : α} (hv : v ≠ null) (h : read v = some a) :
    option? read v = some (some a) := by
  rw [option?, h]
  · rfl
  · exact hv

@[simp] theorem option?_option (h : ∀ a, read (write a) = some a) (hnull : ∀ a, write a ≠ null)
    (o : Option α) : option? read (option write o) = some o := by
  cases o with
  | none => rfl
  | some a => exact option?_of_read (hnull a) (h a)

end

/-- The array of the numbers of bytes. -/
def ofBytes (b : Bytes) : Value := .array (b.map fun x => .nat x.toNat)

@[simp] theorem bytes?_ofBytes (b : Bytes) : (ofBytes b).bytes? = some b := by
  have hread : natBelow? 256 ∘ (fun x : UInt8 => nat x.toNat) = fun x => pure x.toNat :=
    funext fun x => natBelow?_nat x.toNat_lt
  have hback : b.map (UInt8.ofNat ∘ UInt8.toNat) = b :=
    (List.map_congr_left fun x _ => UInt8.ofNat_toNat).trans (List.map_id b)
  rw [ofBytes, bytes?, List.mapM_map, hread, List.mapM_pure]
  simp [hback]

end Value

/-! ## The bytes of a text -/

namespace Literal

/-- A literal with a text has the bytes of that text. -/
theorem bytes_of_chars? {lit : Literal} :
    ∀ {cs : List Char}, lit.chars? = some cs → lit.bytes = cs.flatMap String.utf8EncodeChar := by
  fun_induction chars? lit with
  | case1 =>
    intro cs h
    obtain rfl := Option.some.inj h
    rfl
  | case2 => nofun
  | case3 c rest hc ih =>
    intro cs h
    obtain ⟨cs, hcs, rfl⟩ := Option.map_eq_some_iff.1 h
    rw [bytes, ih hcs, List.flatMap_cons]
  | case4 c rest ih =>
    intro cs h
    obtain ⟨cs, hcs, rfl⟩ := Option.map_eq_some_iff.1 h
    rw [bytes, ih hcs, List.flatMap_cons]
  | case5 u v rest hl ht ih =>
    intro cs h
    obtain ⟨cs, hcs, rfl⟩ := Option.map_eq_some_iff.1 h
    rw [bytes, if_pos (by simp [hl, ht]), ih hcs, List.flatMap_cons]
  | case6 => nofun
  | case7 => nofun
  | case8 u v rest hl ht ih =>
    intro cs h
    obtain ⟨cs, hcs, rfl⟩ := Option.map_eq_some_iff.1 h
    rw [bytes, if_neg (by simp [hl]), if_neg (by simp [hl, ht]), ih hcs, List.flatMap_cons]
  | case9 => nofun
  | case10 u rest hnext hlone ih =>
    intro cs h
    obtain ⟨cs, hcs, rfl⟩ := Option.map_eq_some_iff.1 h
    rw [bytes, if_neg hlone, ih hcs, List.flatMap_cons]
    exact hnext

theorem bytes_of_text? {lit : Literal} {s : String} (h : lit.text? = some s) :
    lit.bytes = Text.utf8 s := by
  obtain ⟨cs, hcs, rfl⟩ := Option.map_eq_some_iff.1 h
  rw [bytes_of_chars? hcs, Text.utf8, String.toByteArray_ofList, List.utf8Encode,
    List.toList_data_toByteArray]

end Literal

/-! ## The fields of a record -/

namespace Record

/-- What is collected from a member and from those behind it. -/
theorem ofMembers?_cons (names : List String) (key : Literal) (v : Value)
    (rest : List (Literal × Value)) :
    ofMembers? names ((key, v) :: rest) = key.text?.bind fun name =>
      (ofMembers? names rest).bind fun fields =>
        if names.contains name then
          if (fields.lookup name).isSome then none else some ((name, v) :: fields)
        else if v.isSound then some fields else none :=
  rfl

/-- The members that a record is written with are its fields. -/
theorem ofMembers?_written {names : List String} {fields : Record}
    (hnames : ∀ f ∈ fields, names.contains f.1 = true) (hdistinct : (fields.map Prod.fst).Nodup) :
    ofMembers? names (fields.map fun (k, v) => (.ofText k, v)) = some fields := by
  induction fields with
  | nil => rfl
  | cons f fields ih =>
    obtain ⟨name, v⟩ := f
    obtain ⟨hname, hnames⟩ := List.forall_mem_cons.1 hnames
    obtain ⟨hnew, hdistinct⟩ := List.nodup_cons.1 hdistinct
    have hfree : fields.lookup name = none := by
      refine List.lookup_eq_none_iff.2 fun f hf => bne_iff_ne.2 fun heq => hnew ?_
      exact List.mem_map.2 ⟨f, hf, heq.symm⟩
    rw [List.map_cons, ofMembers?_cons, Literal.text?_ofText, ih hnames hdistinct]
    simp only [Option.bind_some, hname, hfree]
    rfl

theorem ofValue?_ofMembers {names : List String} {fields : Record}
    (hnames : ∀ f ∈ fields, names.contains f.1 = true) (hdistinct : (fields.map Prod.fst).Nodup) :
    ofValue? names (.ofMembers fields) = some fields :=
  ofMembers?_written hnames hdistinct

/-! ## One more member -/

/-- What the members of a record are read as, without and with one member of
that name and value among them. -/
inductive Insertion (name : String) (v : Value) : Option Record → Option Record → Prop
  | refused : Insertion name v none none
  | repeated {r : Record} (there : (r.lookup name).isSome) : Insertion name v (some r) none
  | added {r r' : Record} (fresh : r.lookup name = none) (given : r'.lookup name = some v)
      (rest : ∀ n, n ≠ name → r'.lookup n = r.lookup n) : Insertion name v (some r) (some r')

variable {names : List String} {key : Literal} {name : String} {v : Value}

theorem Insertion.cons {o o' : Option Record} (h : Insertion name v o o') (n : String)
    (w : Value) :
    Insertion name v
      (o.bind fun r => if (r.lookup n).isSome then none else some ((n, w) :: r))
      (o'.bind fun r => if (r.lookup n).isSome then none else some ((n, w) :: r)) := by
  cases h with
  | refused => exact .refused
  | @repeated r there =>
    rw [Option.bind_some]
    split
    · exact .refused
    · refine .repeated ?_
      rw [List.lookup_cons]
      split
      · rfl
      · exact there
  | @added r r' fresh given rest =>
    by_cases hn : n = name
    · subst hn
      simp only [Option.bind_some, fresh, given]
      exact .repeated (by simp)
    · simp only [Option.bind_some, rest n hn]
      split
      · exact .refused
      · have hne : ¬ name = n := fun h => hn h.symm
        refine .added ?_ ?_ fun m hm => ?_
        · rw [List.lookup_cons, beq_false_of_ne hne]
          exact fresh
        · rw [List.lookup_cons, beq_false_of_ne hne]
          exact given
        · rw [List.lookup_cons, List.lookup_cons, rest m hm]

/-- A known member adds its own field and changes no other, unless the field is
there already. -/
theorem ofMembers?_insertion (hkey : key.text? = some name) (hname : names.contains name = true)
    (before after : List (Literal × Value)) :
    Insertion name v (ofMembers? names (before ++ after))
      (ofMembers? names (before ++ (key, v) :: after)) := by
  induction before with
  | nil =>
    simp only [List.nil_append, ofMembers?_cons, hkey, Option.bind_some, hname, if_true]
    cases ofMembers? names after with
    | none => exact .refused
    | some r =>
      by_cases hthere : (r.lookup name).isSome
      · simpa [hthere] using Insertion.repeated hthere
      · have hfresh : r.lookup name = none := Option.not_isSome_iff_eq_none.1 hthere
        simp only [Option.bind_some, hfresh]
        refine .added hfresh List.lookup_cons_self fun n hn => ?_
        rw [List.lookup_cons, beq_false_of_ne hn]
  | cons m before ih =>
    obtain ⟨k, w⟩ := m
    simp only [List.cons_append, ofMembers?_cons]
    cases k.text? with
    | none => exact .refused
    | some n =>
      by_cases hn : names.contains n = true
      · simpa only [Option.bind_some, hn, if_true] using ih.cons n w
      · rw [Bool.not_eq_true] at hn
        by_cases hw : w.isSound = true
        · simpa only [Option.bind_some, hn, hw, if_true, Bool.false_eq_true, if_false,
            Option.bind_fun_some] using ih
        · simpa only [Option.bind_some, hn, hw, Bool.false_eq_true, if_false,
            Option.bind_fun_none] using Insertion.refused

/-- Of two values that one field may have, both are refused or both are taken, among the
same other fields. -/
theorem Insertion.both {v' : Value} {o p p' : Option Record} (h : Insertion name v o p)
    (h' : Insertion name v' o p') :
    (p = none ∧ p' = none) ∨ ∃ r r', p = some r ∧ p' = some r' ∧ r.lookup name = some v ∧
      r'.lookup name = some v' ∧ ∀ n, n ≠ name → r.lookup n = r'.lookup n := by
  cases h with
  | refused =>
    cases h'
    exact .inl ⟨rfl, rfl⟩
  | repeated there =>
    cases h' with
    | repeated => exact .inl ⟨rfl, rfl⟩
    | added fresh => simp [fresh] at there
  | added fresh given rest =>
    cases h' with
    | repeated there => simp [fresh] at there
    | added _ given' rest' =>
      exact .inr ⟨_, _, rfl, rfl, given, given', fun n hn => (rest n hn).trans (rest' n hn).symm⟩

/-- A field that no member gives is not there. -/
theorem lookup_eq_none {members : List (Literal × Value)} {r : Record}
    (h : ofMembers? names members = some r)
    (hkeys : ∀ m ∈ members, m.1.text? ≠ some name) : r.lookup name = none := by
  induction members generalizing r with
  | nil =>
    obtain rfl := Option.some.inj h
    rfl
  | cons m members ih =>
    obtain ⟨k, w⟩ := m
    obtain ⟨hkey, hkeys⟩ := List.forall_mem_cons.1 hkeys
    rw [ofMembers?_cons, Option.bind_eq_some_iff] at h
    obtain ⟨n, hk, h⟩ := h
    obtain ⟨fields, hfields, h⟩ := Option.bind_eq_some_iff.1 h
    have hbehind : fields.lookup name = none := ih hfields hkeys
    have hne : ¬ name = n := fun heq => hkey (heq ▸ hk)
    split at h
    · split at h
      · cases h
      · obtain rfl := Option.some.inj h
        rwa [List.lookup_cons, beq_false_of_ne hne]
    · split at h
      · obtain rfl := Option.some.inj h
        exact hbehind
      · cases h

/-! ## Members by name -/

/-- The values that members give under a name. -/
def valuesOf (name : String) (members : List (Literal × Value)) : List Value :=
  members.filterMap fun (k, v) => if k.text? = some name then some v else none

theorem valuesOf_cons (name : String) (k : Literal) (v : Value) (ms : List (Literal × Value)) :
    valuesOf name ((k, v) :: ms) =
      if k.text? = some name then v :: valuesOf name ms else valuesOf name ms := by
  rw [valuesOf, List.filterMap_cons]
  split <;> simp_all [valuesOf]

/-- A known name has what it was given, and it was given once at most. -/
theorem valuesOf_eq {members : List (Literal × Value)} (hname : name ∈ names) :
    ∀ {r : Record}, ofMembers? names members = some r →
      valuesOf name members = (r.lookup name).toList := by
  induction members with
  | nil =>
    intro r h
    obtain rfl := Option.some.inj h
    rfl
  | cons m members ih =>
    obtain ⟨k, w⟩ := m
    intro r h
    rw [ofMembers?_cons] at h
    obtain ⟨n, hk, h⟩ := Option.bind_eq_some_iff.1 h
    obtain ⟨fields, hfields, h⟩ := Option.bind_eq_some_iff.1 h
    rw [valuesOf_cons, hk, ih hfields]
    split at h
    · split at h
      · cases h
      next hfree =>
        obtain rfl := Option.some.inj h
        by_cases hn : n = name
        · subst hn
          simp [Option.not_isSome_iff_eq_none.1 hfree]
        · have hne : ¬ name = n := fun heq => hn heq.symm
          rw [if_neg fun heq => hn (Option.some.inj heq), List.lookup_cons, beq_false_of_ne hne]
    next hunknown =>
      have hn : n ≠ name := by
        rintro rfl
        exact hunknown (List.contains_iff_mem.2 hname)
      split at h
      · obtain rfl := Option.some.inj h
        rw [if_neg fun heq => hn (Option.some.inj heq)]
      · cases h

/-- Members are collected if their keys are texts, their values are sound, and no known name
is given twice. -/
theorem exists_ofMembers? {members : List (Literal × Value)}
    (hkeys : ∀ m ∈ members, m.1.text?.isSome = true) (hsound : ∀ m ∈ members, m.2.isSound = true)
    (honce : ∀ name ∈ names, (valuesOf name members).length ≤ 1) :
    ∃ r, ofMembers? names members = some r := by
  induction members with
  | nil => exact ⟨[], rfl⟩
  | cons m members ih =>
    obtain ⟨k, w⟩ := m
    obtain ⟨hkey, hkeys⟩ := List.forall_mem_cons.1 hkeys
    obtain ⟨hw, hsound⟩ := List.forall_mem_cons.1 hsound
    obtain ⟨n, hk⟩ := Option.isSome_iff_exists.1 hkey
    have hrest : ∀ name ∈ names, (valuesOf name members).length ≤ 1 := by
      intro name hname
      have hlength := honce name hname
      rw [valuesOf_cons] at hlength
      split at hlength
      · exact Nat.le_of_succ_le hlength
      · exact hlength
    obtain ⟨r, hr⟩ := ih hkeys hsound hrest
    rw [ofMembers?_cons, hk, hr, Option.bind_some, Option.bind_some]
    by_cases hknown : n ∈ names
    · have hlength := honce n hknown
      rw [valuesOf_cons, hk, if_pos rfl, valuesOf_eq hknown hr, List.length_cons] at hlength
      have hfree : r.lookup n = none := by
        cases hlookup : r.lookup n with
        | none => rfl
        | some v => simp [hlookup] at hlength
      exact ⟨(n, w) :: r, by simp [hknown, hfree]⟩
    · exact ⟨r, by simp [hknown, hw]⟩

end Record

end TurnRendezvous.Json
