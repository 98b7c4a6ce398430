/-
# The tokens of a value

A value is spelled by one row of tokens, and from these it is built again
(`ofTokens?_toTokens`), with fuel for one value and one item at each token.

What can be said of a value by its tokens alone is said of each of them (`forall_mem_array`,
`forall_mem_object`): brackets, commas and words have no content, so all that matters is the
literals and the numbers.  Two numbers never stand next to each other (`Apart`), which is why a
number in a text ends where its token does.
-/
import TurnRendezvous.Json.Record

namespace TurnRendezvous.Json

/-! ## What holds of every token -/

/-- Whether a token has no content. -/
def Token.IsMark : Token → Prop
  | .number _ => False
  | .string _ => False
  | _ => True

section ForallTokens
variable {P : Token → Prop} (hmark : ∀ t : Token, t.IsMark → P t)
include hmark

theorem forall_mem_itemTokens {items : List Value} :
    (∀ t ∈ itemTokens items, P t) ↔ ∀ v ∈ items, ∀ t ∈ v.toTokens, P t := by
  induction items with
  | nil => simp [itemTokens]
  | cons v vs ih =>
    cases vs with
    | nil => simp [itemTokens]
    | cons w ws =>
      rw [itemTokens, List.forall_mem_append, List.forall_mem_cons,
        List.forall_mem_cons (l := w :: ws)]
      · exact and_congr_right fun _ => (and_iff_right (hmark .comma trivial)).trans ih
      · simp

theorem forall_mem_memberTokens {members : List (Literal × Value)} :
    (∀ t ∈ memberTokens members, P t) ↔
      ∀ m ∈ members, P (.string m.1) ∧ ∀ t ∈ m.2.toTokens, P t := by
  have member (k : Literal) (v : Value) :
      (∀ t ∈ .string k :: .colon :: v.toTokens, P t) ↔
        P (.string k) ∧ ∀ t ∈ v.toTokens, P t := by
    rw [List.forall_mem_cons, List.forall_mem_cons]
    exact and_congr_right fun _ => and_iff_right (hmark .colon trivial)
  induction members with
  | nil => simp [memberTokens]
  | cons m ms ih =>
    obtain ⟨k, v⟩ := m
    cases ms with
    | nil => simpa [memberTokens] using member k v
    | cons w ws =>
      rw [memberTokens, List.forall_mem_append, member, List.forall_mem_cons,
        List.forall_mem_cons (l := w :: ws)]
      · exact and_congr_right fun _ => (and_iff_right (hmark .comma trivial)).trans ih
      · simp

/-- Brackets and braces need no looking at. -/
theorem forall_mem_enclosed {a b : Token} (ha : a.IsMark) (hb : b.IsMark) {ts : List Token} :
    (∀ t ∈ a :: ts ++ [b], P t) ↔ ∀ t ∈ ts, P t := by
  rw [List.forall_mem_append, List.forall_mem_cons, List.forall_mem_singleton]
  exact ⟨fun h => h.1.2, fun h => ⟨⟨hmark a ha, h⟩, hmark b hb⟩⟩

theorem forall_mem_array {items : List Value} :
    (∀ t ∈ (Value.array items).toTokens, P t) ↔ ∀ v ∈ items, ∀ t ∈ v.toTokens, P t := by
  rw [← forall_mem_itemTokens hmark, Value.toTokens]
  exact forall_mem_enclosed hmark (a := .arrayOpen) (b := .arrayClose) trivial trivial

theorem forall_mem_object {members : List (Literal × Value)} :
    (∀ t ∈ (Value.object members).toTokens, P t) ↔
      ∀ m ∈ members, P (.string m.1) ∧ ∀ t ∈ m.2.toTokens, P t := by
  rw [← forall_mem_memberTokens hmark, Value.toTokens]
  exact forall_mem_enclosed hmark (a := .objectOpen) (b := .objectClose) trivial trivial

end ForallTokens

/-! ## Sound values -/

/-- Whether a token holds no bare control character. -/
def Token.IsSound : Token → Prop
  | .string lit => lit.isSound = true
  | _ => True

theorem Token.isSound_of_isMark (t : Token) (h : t.IsMark) : t.IsSound := by
  cases t with
  | string => exact h.elim
  | _ => trivial

mutual

/-- A value is sound if its tokens are. -/
theorem isSound_of_tokens : (v : Value) → (∀ t ∈ v.toTokens, t.IsSound) → v.isSound = true
  | .null, _ => rfl
  | .bool _, _ => rfl
  | .number _, _ => rfl
  | .string lit, h => h (.string lit) (by simp [Value.toTokens])
  | .array items, h =>
    itemsSound_of_tokens items ((forall_mem_array Token.isSound_of_isMark).1 h)
  | .object members, h =>
    membersSound_of_tokens members ((forall_mem_object Token.isSound_of_isMark).1 h)

theorem itemsSound_of_tokens : (items : List Value) →
    (∀ v ∈ items, ∀ t ∈ v.toTokens, t.IsSound) → Value.itemsSound items = true
  | [], _ => rfl
  | v :: vs, h => by
    obtain ⟨hv, hvs⟩ := List.forall_mem_cons.1 h
    rw [Value.itemsSound, isSound_of_tokens v hv, itemsSound_of_tokens vs hvs]
    rfl

theorem membersSound_of_tokens : (members : List (Literal × Value)) →
    (∀ m ∈ members, (Token.string m.1).IsSound ∧ ∀ t ∈ m.2.toTokens, t.IsSound) →
      Value.membersSound members = true
  | [], _ => rfl
  | (k, v) :: ms, h => by
    obtain ⟨⟨hk, hv⟩, hms⟩ := List.forall_mem_cons.1 h
    have hkey : k.isSound = true := hk
    rw [Value.membersSound, hkey, isSound_of_tokens v hv, membersSound_of_tokens ms hms]
    rfl

end

/-! ## Numbers stand apart -/

def Token.IsNumber : Token → Prop
  | .number _ => True
  | _ => False

/-- Rows of tokens in which no number is followed by another. -/
inductive Apart : List Token → Prop
  | nil : Apart []
  | cons {t : Token} {ts : List Token} :
      (t.IsNumber → ∀ t' ∈ ts.head?, ¬ t'.IsNumber) → Apart ts → Apart (t :: ts)

mutual

/-- The tokens of a value stand apart, and so do those behind it if they do not begin with a
number. -/
theorem apart_toTokens : (v : Value) → ∀ {ts : List Token},
    (∀ t ∈ ts.head?, ¬ t.IsNumber) → Apart ts → Apart (v.toTokens ++ ts)
  | .null, _, _, h => h.cons (t := .nullWord) nofun
  | .bool true, _, _, h => h.cons (t := .trueWord) nofun
  | .bool false, _, _, h => h.cons (t := .falseWord) nofun
  | .number n, _, hts, h => h.cons (t := .number n) fun _ => hts
  | .string lit, _, _, h => h.cons (t := .string lit) nofun
  | .array items, _, _, h => by
    have hclose := h.cons (t := .arrayClose) nofun
    have hitems := apart_itemTokens items (by simp [Token.IsNumber]) hclose
    simpa [Value.toTokens] using hitems.cons (t := .arrayOpen) nofun
  | .object members, _, _, h => by
    have hclose := h.cons (t := .objectClose) nofun
    have hmembers := apart_memberTokens members (by simp [Token.IsNumber]) hclose
    simpa [Value.toTokens] using hmembers.cons (t := .objectOpen) nofun

theorem apart_itemTokens : (items : List Value) → ∀ {ts : List Token},
    (∀ t ∈ ts.head?, ¬ t.IsNumber) → Apart ts → Apart (itemTokens items ++ ts)
  | [], _, _, h => h
  | [v], _, hts, h => apart_toTokens v hts h
  | v :: w :: ws, _, hts, h => by
    have hrest := (apart_itemTokens (w :: ws) hts h).cons (t := .comma) nofun
    simpa [itemTokens] using apart_toTokens v (by simp [Token.IsNumber]) hrest

theorem apart_memberTokens : (members : List (Literal × Value)) → ∀ {ts : List Token},
    (∀ t ∈ ts.head?, ¬ t.IsNumber) → Apart ts → Apart (memberTokens members ++ ts)
  | [], _, _, h => h
  | [(k, v)], _, hts, h => by
    have hvalue := (apart_toTokens v hts h).cons (t := .colon) nofun
    simpa [memberTokens] using hvalue.cons (t := .string k) nofun
  | (k, v) :: w :: ws, _, hts, h => by
    have hrest := (apart_memberTokens (w :: ws) hts h).cons (t := .comma) nofun
    have hvalue := (apart_toTokens v (by simp [Token.IsNumber]) hrest).cons (t := .colon) nofun
    simpa [memberTokens] using hvalue.cons (t := .string k) nofun

end

/-! ## From tokens back to values -/

/-- A value begins with a token that closes nothing. -/
theorem exists_toTokens (v : Value) :
    ∃ t ts, v.toTokens = t :: ts ∧ t ≠ .arrayClose ∧ t ≠ .objectClose := by
  cases v with
  | bool b => cases b <;> exact ⟨_, _, rfl, nofun, nofun⟩
  | _ => exact ⟨_, _, rfl, nofun, nofun⟩

theorem exists_itemTokens (v : Value) (vs : List Value) :
    ∃ t ts, itemTokens (v :: vs) = t :: ts ∧ t ≠ .arrayClose := by
  obtain ⟨t, ts, hv, ht, -⟩ := exists_toTokens v
  cases vs with
  | nil => exact ⟨t, ts, hv, ht⟩
  | cons w ws => exact ⟨t, ts ++ .comma :: itemTokens (w :: ws), by simp [itemTokens, hv], ht⟩

theorem exists_memberTokens (k : Literal) (v : Value) (ms : List (Literal × Value)) :
    ∃ ts, memberTokens ((k, v) :: ms) = .string k :: ts := by
  cases ms <;> exact ⟨_, rfl⟩

theorem readValue?_arrayOpen {t : Token} (ht : t ≠ .arrayClose) (fuel : Nat) (ts : List Token) :
    readValue? (fuel + 1) (.arrayOpen :: t :: ts) =
      (readItems? fuel (t :: ts)).map fun (items, rest) => (.array items, rest) := by
  cases t with
  | arrayClose => exact absurd rfl ht
  | _ => rfl

mutual

/-- A value is built again from its tokens, whatever comes behind them.  For each token
there is fuel for one value and one item. -/
theorem readValue?_toTokens : (v : Value) → ∀ (fuel : Nat) (rest : List Token),
    2 * v.toTokens.length ≤ fuel + 1 → readValue? fuel (v.toTokens ++ rest) = some (v, rest)
  | v, 0, _, hf => by
    obtain ⟨t, ts, hv, -⟩ := exists_toTokens v
    rw [hv, List.length_cons] at hf
    omega
  | .null, _ + 1, _, _ => rfl
  | .bool true, _ + 1, _, _ => rfl
  | .bool false, _ + 1, _, _ => rfl
  | .number _, _ + 1, _, _ => rfl
  | .string _, _ + 1, _, _ => rfl
  | .array [], _ + 1, _, _ => rfl
  | .array (v :: vs), fuel + 1, rest, hf => by
    have hlength : (Value.array (v :: vs)).toTokens.length = (itemTokens (v :: vs)).length + 2 := by
      simp [Value.toTokens]
    have hitems := readItems?_itemTokens (v :: vs) (by simp) fuel rest (by omega)
    obtain ⟨t, ts, hts, ht⟩ := exists_itemTokens v vs
    rw [hts] at hitems
    simpa [Value.toTokens, hts, readValue?_arrayOpen ht] using hitems
  | .object [], _ + 1, _, _ => rfl
  | .object ((k, v) :: ms), fuel + 1, rest, hf => by
    have hlength : (Value.object ((k, v) :: ms)).toTokens.length =
        (memberTokens ((k, v) :: ms)).length + 2 := by
      simp [Value.toTokens]
    have hmembers := readMembers?_memberTokens ((k, v) :: ms) (by simp) fuel rest (by omega)
    obtain ⟨ts, hts⟩ := exists_memberTokens k v ms
    rw [hts] at hmembers
    simpa [Value.toTokens, hts, readValue?] using hmembers

theorem readItems?_itemTokens : (items : List Value) → items ≠ [] →
    ∀ (fuel : Nat) (rest : List Token), 2 * (itemTokens items).length ≤ fuel →
      readItems? fuel (itemTokens items ++ .arrayClose :: rest) = some (items, rest)
  | [], h, _, _, _ => absurd rfl h
  | v :: vs, _, 0, _, hf => by
    obtain ⟨t, ts, hts, -⟩ := exists_itemTokens v vs
    rw [hts, List.length_cons] at hf
    omega
  | [v], _, fuel + 1, rest, hf => by
    have hv := readValue?_toTokens v fuel (.arrayClose :: rest) hf
    simp [itemTokens, readItems?, hv]
  | v :: w :: ws, _, fuel + 1, rest, hf => by
    have hlength : (itemTokens (v :: w :: ws)).length =
        v.toTokens.length + (itemTokens (w :: ws)).length + 1 := by
      simp [itemTokens, Nat.add_assoc]
    have hv := readValue?_toTokens v fuel
      (.comma :: (itemTokens (w :: ws) ++ .arrayClose :: rest)) (by omega)
    have hws := readItems?_itemTokens (w :: ws) (by simp) fuel rest (by omega)
    simp [itemTokens, readItems?, hv, hws]

theorem readMembers?_memberTokens : (members : List (Literal × Value)) → members ≠ [] →
    ∀ (fuel : Nat) (rest : List Token), 2 * (memberTokens members).length ≤ fuel →
      readMembers? fuel (memberTokens members ++ .objectClose :: rest) = some (members, rest)
  | [], h, _, _, _ => absurd rfl h
  | (k, v) :: ms, _, 0, _, hf => by
    obtain ⟨ts, hts⟩ := exists_memberTokens k v ms
    rw [hts, List.length_cons] at hf
    omega
  | [(k, v)], _, fuel + 1, rest, hf => by
    have hlength : (memberTokens [(k, v)]).length = v.toTokens.length + 2 := rfl
    have hv := readValue?_toTokens v fuel (.objectClose :: rest) (by omega)
    simp [memberTokens, readMembers?, hv]
  | (k, v) :: w :: ws, _, fuel + 1, rest, hf => by
    have hlength : (memberTokens ((k, v) :: w :: ws)).length =
        v.toTokens.length + (memberTokens (w :: ws)).length + 3 := by
      simp [memberTokens]
      omega
    have hv := readValue?_toTokens v fuel
      (.comma :: (memberTokens (w :: ws) ++ .objectClose :: rest)) (by omega)
    have hws := readMembers?_memberTokens (w :: ws) (by simp) fuel rest (by omega)
    simp [memberTokens, readMembers?, hv, hws]

end

theorem ofTokens?_toTokens (v : Value) : Value.ofTokens? v.toTokens = some v := by
  have hread := readValue?_toTokens v (2 * v.toTokens.length + 1) [] (by omega)
  rw [List.append_nil] at hread
  simp [Value.ofTokens?, hread]

end TurnRendezvous.Json
