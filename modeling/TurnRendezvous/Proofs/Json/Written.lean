/-
# A written value reads back

Values are written compactly and without a choice.  What is written is one of the texts of the
value, so it is read as the value that it was.

Not every value can be written: a bare quote in a literal would end it.  The values that can
are `IsLegible`, and those that are made from plain data all are.

* `isSpelledBy_render`: what is written is a text of the value;
* `parse?_render`: a legible value is read from its own text.
-/
import TurnRendezvous.Proofs.Json.Spelling

namespace TurnRendezvous.Json

/-! ## Literals -/

theorem hexValue?_hexDigit {n : Nat} (h : n < 16) : hexValue? (hexDigit n) = some n := by
  have all : ∀ n, n < 16 → hexValue? (hexDigit n) = some n := by decide
  exact all n h

theorem unitOfHex?_hexDigit (u : UInt16) :
    unitOfHex? (hexDigit (u.toNat / 0x1000)) (hexDigit (u.toNat / 0x100 % 0x10))
      (hexDigit (u.toNat / 0x10 % 0x10)) (hexDigit (u.toNat % 0x10)) = some u := by
  have hu : u.toNat < 0x10000 := u.toNat_lt
  have hsum : ((u.toNat / 0x1000 * 0x10 + u.toNat / 0x100 % 0x10) * 0x10 +
      u.toNat / 0x10 % 0x10) * 0x10 + u.toNat % 0x10 = u.toNat := by omega
  rw [unitOfHex?, hexValue?_hexDigit (by omega), hexValue?_hexDigit (by omega),
    hexValue?_hexDigit (by omega), hexValue?_hexDigit (by omega)]
  exact congrArg some (hsum.symm ▸ UInt16.ofNat_toNat)

/-- The letter behind a backslash is read as the character that it is written for. -/
theorem shortMeaning?_of_shortLetter? {c l : Char} (h : shortLetter? c = some l) :
    shortMeaning? l = some c := by
  unfold shortLetter? at h
  repeat' split at h
  all_goals first
    | (subst_vars; obtain rfl := Option.some.inj h; decide)
    | cases h

theorem Piece.isSpelledBy_ofChar (c : Char) :
    (Literal.ofChar c).IsSpelledBy (Literal.ofChar c).spell := by
  unfold Literal.ofChar
  split
  next h =>
    obtain ⟨l, hl⟩ := Option.isSome_iff_exists.1 h
    rw [spell, hl]
    exact .short (shortMeaning?_of_shortLetter? hl)
  next h =>
    split
    next => exact .unit (unitOfHex?_hexDigit _)
    next hc =>
      refine .plain ?_ ?_ (Bool.eq_false_iff.2 hc) <;> rintro rfl <;> exact h (by decide)

theorem Literal.isSpelledBy_ofText (s : String) : (ofText s).IsSpelledBy (ofText s).spell := by
  refine ⟨(ofText s).flatMap Piece.spell, ?_, rfl⟩
  rw [ofText]
  induction s.toList with
  | nil => exact .nil
  | cons c cs ih => exact .cons (Piece.isSpelledBy_ofChar c) ih

/-! ## Numbers -/

theorem natOfDigits_toDigits (n : Nat) : natOfDigits (Nat.toDigits 10 n) = n := by
  have h := Nat.ofDigitChars_ten_toDigits (n := n)
  simpa [natOfDigits, Nat.ofDigitChars, Nat.mul_comm] using h

theorem isDigits_toDigits (n : Nat) : IsDigits (Nat.toDigits 10 n) :=
  ⟨Nat.toDigits_ne_nil, fun _ => Nat.isDigit_of_mem_toDigits (by decide) (by decide)⟩

/-- Only zero begins with a zero. -/
theorem head?_toDigits_ne_zero {n : Nat} (h : 0 < n) : (Nat.toDigits 10 n).head? ≠ some '0' := by
  induction n using Nat.strongRecOn with
  | _ n ih =>
    rw [Nat.toDigits_eq_if (by decide)]
    split
    next hlt => simp [Nat.ne_of_gt h]
    next hge =>
      have hrest := ih (n / 10) (by omega) (by omega)
      obtain ⟨d, ds, hds⟩ := List.exists_cons_of_ne_nil (isDigits_toDigits (n / 10)).1
      rw [hds] at hrest ⊢
      exact hrest

theorem isWhole_toDigits (n : Nat) : IsWhole (Nat.toDigits 10 n) := by
  refine ⟨isDigits_toDigits n, fun hzero => ?_⟩
  rcases Nat.eq_zero_or_pos n with rfl | hn
  · rfl
  · exact absurd hzero (head?_toDigits_ne_zero hn)

theorem Number.isSpelledBy_integer (negative : Bool) (n : Nat) :
    (integer negative n).IsSpelledBy (integer negative n).spell := by
  have h := IsSpelledBy.integer negative (isWhole_toDigits n)
  rwa [natOfDigits_toDigits, ← Nat.toList_repr] at h

/-! ## Legible values -/

/-- Whether a token can be read from what is written for it. -/
def Token.IsLegible (t : Token) : Prop := t.IsSpelledBy t.spell

def Value.IsLegible (v : Value) : Prop := ∀ t ∈ v.toTokens, t.IsLegible

theorem Token.isLegible_of_isMark (t : Token) (h : t.IsMark) : t.IsLegible := by
  cases t with
  | number => exact h.elim
  | string => exact h.elim
  | _ => exact rfl

@[simp] theorem Token.isLegible_ofText (s : String) : (Token.string (.ofText s)).IsLegible :=
  Literal.isSpelledBy_ofText s

namespace Value

@[simp] theorem isLegible_null : null.IsLegible :=
  List.forall_mem_singleton.2 (Token.isLegible_of_isMark .nullWord trivial)

@[simp] theorem isLegible_bool (b : Bool) : (bool b).IsLegible := by
  cases b with
  | true => exact List.forall_mem_singleton.2 (Token.isLegible_of_isMark .trueWord trivial)
  | false => exact List.forall_mem_singleton.2 (Token.isLegible_of_isMark .falseWord trivial)

@[simp] theorem isLegible_nat (n : Nat) : (nat n).IsLegible :=
  List.forall_mem_singleton.2 (Number.isSpelledBy_integer false n)

@[simp] theorem isLegible_text (s : String) : (text s).IsLegible :=
  List.forall_mem_singleton.2 (Literal.isSpelledBy_ofText s)

@[simp] theorem isLegible_array {items : List Value} :
    (array items).IsLegible ↔ ∀ v ∈ items, v.IsLegible :=
  forall_mem_array Token.isLegible_of_isMark

@[simp] theorem isLegible_object {members : List (Literal × Value)} :
    (object members).IsLegible ↔
      ∀ m ∈ members, (Token.string m.1).IsLegible ∧ m.2.IsLegible :=
  forall_mem_object Token.isLegible_of_isMark

@[simp] theorem isLegible_ofMembers {members : List (String × Value)} :
    (ofMembers members).IsLegible ↔ ∀ m ∈ members, m.2.IsLegible := by
  rw [ofMembers, isLegible_object, List.forall_mem_map]
  simp

end Value

/-! ## Main statements -/

/-- The text in which a legible value is written is a text of it, without a blank. -/
theorem isSpelledBy_render {v : Value} (h : v.IsLegible) : v.IsSpelledBy v.render := by
  have row : ∀ {ts : List Token}, (∀ t ∈ ts, t.IsLegible) →
      Spelled ts (ts.flatMap Token.spell) := by
    intro ts hts
    induction ts with
    | nil => exact .nil
    | cons t ts ih =>
      obtain ⟨ht, hts⟩ := List.forall_mem_cons.1 hts
      exact .token ht (ih hts)
  rw [Value.IsSpelledBy, Value.render, String.toList_ofList]
  exact row h

/-- A legible value is read from the text in which it is written. -/
theorem parse?_render {v : Value} (h : v.IsLegible) : parse? v.render = some v :=
  parse?_of_spelled (isSpelledBy_render h)

theorem render_ne_empty {v : Value} (h : v.IsLegible) : v.render ≠ "" := by
  intro hempty
  have hread := parse?_render h
  rw [hempty] at hread
  cases hread

end TurnRendezvous.Json
