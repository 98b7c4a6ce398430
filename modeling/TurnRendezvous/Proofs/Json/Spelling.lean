/-
# The texts of a value

A value has many texts: blanks may stand between its tokens, a character of a literal may be
bare or behind a backslash, the digits of a unit may have either case, and a real is any number
with a fraction or an exponent.  `Value.IsSpelledBy` says by the rules of the grammar alone
which texts these are, and the reader finds the value in each of them (`parse?_of_spelled`).

The scanner takes one token after the other (`Scans`).  It stops where it should because a
literal ends with its quote and a number is followed by what cannot go on with it
(`EndsNumber`), which is why numbers have to stand apart.

* `tokens?_of_spelled`: the tokens of a value are found in its texts;
* `parse?_of_spelled`: the value is read from them;
* `isSound_of_spelled`: what has a text holds no bare control character.
-/
import TurnRendezvous.Proofs.Json.Tokens

namespace TurnRendezvous.Json

/-! ## Grammar -/

/-- How a piece of a literal is spelled. -/
inductive Piece.IsSpelledBy : Piece → List Char → Prop
  | plain {c : Char} : c ≠ '"' → c ≠ '\\' → isControl c = false → IsSpelledBy (.plain c) [c]
  | short {c e : Char} : shortMeaning? e = some c → IsSpelledBy (.short c) ['\\', e]
  | unit {u : UInt16} {a b c d : Char} :
      unitOfHex? a b c d = some u → IsSpelledBy (.unit u) ['\\', 'u', a, b, c, d]

/-- What stands between the quotes of a literal. -/
inductive Literal.IsBetween : Literal → List Char → Prop
  | nil : IsBetween [] []
  | cons {p : Piece} {lit : Literal} {cs rest : List Char} :
      p.IsSpelledBy cs → IsBetween lit rest → IsBetween (p :: lit) (cs ++ rest)

def Literal.IsSpelledBy (lit : Literal) (cs : List Char) : Prop :=
  ∃ inner, lit.IsBetween inner ∧ cs = '"' :: (inner ++ ['"'])

/-- One digit or more. -/
def IsDigits (ds : List Char) : Prop := ds ≠ [] ∧ ∀ d ∈ ds, d.isDigit = true

/-- The digits in front of a point; only zero begins with a zero. -/
def IsWhole (ds : List Char) : Prop := IsDigits ds ∧ (ds.head? = some '0' → ds.length = 1)

inductive IsFraction : List Char → Prop
  | absent : IsFraction []
  | digits {ds : List Char} : IsDigits ds → IsFraction ('.' :: ds)

inductive IsPower : List Char → Prop
  | absent : IsPower []
  | digits {e : Char} {ds : List Char} :
      e = 'e' ∨ e = 'E' → IsDigits ds → IsPower (e :: ds)
  | signed {e sign : Char} {ds : List Char} :
      e = 'e' ∨ e = 'E' → sign = '+' ∨ sign = '-' → IsDigits ds → IsPower (e :: sign :: ds)

/-- The sign of a number. -/
def signOf (negative : Bool) : List Char := if negative then ['-'] else []

/-- How a number is spelled; a real is its own spelling. -/
inductive Number.IsSpelledBy : Number → List Char → Prop
  | integer (negative : Bool) {ds : List Char} :
      IsWhole ds → IsSpelledBy (.integer negative (natOfDigits ds)) (signOf negative ++ ds)
  | real (negative : Bool) {ds f p : List Char} :
      IsWhole ds → IsFraction f → IsPower p → f ≠ [] ∨ p ≠ [] →
      IsSpelledBy (.real (signOf negative ++ ds ++ f ++ p)) (signOf negative ++ ds ++ f ++ p)

def Token.IsSpelledBy : Token → List Char → Prop
  | .number n, cs => n.IsSpelledBy cs
  | .string lit, cs => lit.IsSpelledBy cs
  | t, cs => cs = t.spell

/-- The texts of a row of tokens, with blanks between them. -/
inductive Spelled : List Token → List Char → Prop
  | nil : Spelled [] []
  | blank {c : Char} {ts : List Token} {cs : List Char} :
      isBlank c = true → Spelled ts cs → Spelled ts (c :: cs)
  | token {t : Token} {ts : List Token} {cs rest : List Char} :
      t.IsSpelledBy cs → Spelled ts rest → Spelled (t :: ts) (cs ++ rest)

/-- The texts of a value. -/
def Value.IsSpelledBy (v : Value) (text : String) : Prop := Spelled v.toTokens text.toList

/-! ## Literals -/

namespace Literal

theorem scan?_plain {c : Char} (hq : c ≠ '"') (hb : c ≠ '\\') (rest : List Char) :
    scan? (c :: rest) = (scan? rest).map fun (lit, rest) => (.plain c :: lit, rest) := by
  rw [scan?]
  · cases scan? rest <;> rfl
  all_goals simp_all

theorem scan?_short {e : Char} (he : e ≠ 'u') (rest : List Char) :
    scan? ('\\' :: e :: rest) = (shortMeaning? e).bind fun c =>
      (scan? rest).map fun (lit, rest) => (.short c :: lit, rest) := by
  rw [scan?]
  · cases shortMeaning? e <;> cases scan? rest <;> rfl
  · rintro a b c d rest' h -
    exact he h

theorem scan?_unit (a b c d : Char) (rest : List Char) :
    scan? ('\\' :: 'u' :: a :: b :: c :: d :: rest) = (unitOfHex? a b c d).bind fun u =>
      (scan? rest).map fun (lit, rest) => (.unit u :: lit, rest) := by
  rw [scan?]
  cases unitOfHex? a b c d <;> cases scan? rest <;> rfl

/-- A piece is read, and then the pieces behind it. -/
theorem scan?_piece {p : Piece} {cs : List Char} (h : p.IsSpelledBy cs) (rest : List Char) :
    scan? (cs ++ rest) = (scan? rest).map fun (lit, rest) => (p :: lit, rest) := by
  cases h with
  | plain hq hb => exact scan?_plain hq hb rest
  | @short c e hmeans =>
    have hu : e ≠ 'u' := by
      rintro rfl
      cases hmeans
    rw [List.cons_append, List.cons_append, List.nil_append, scan?_short hu, hmeans]
    rfl
  | unit hunit =>
    simp only [List.cons_append, List.nil_append, scan?_unit, hunit]
    rfl

/-- A literal is read up to its closing quote. -/
theorem scan?_of_between {lit : Literal} {cs : List Char} (h : lit.IsBetween cs)
    (rest : List Char) : scan? (cs ++ '"' :: rest) = some (lit, rest) := by
  induction h with
  | nil => simp [scan?]
  | cons hp _ ih =>
    rw [List.append_assoc, scan?_piece hp, ih]
    rfl

theorem isSound_of_between {lit : Literal} {cs : List Char} (h : lit.IsBetween cs) :
    lit.isSound = true := by
  induction h with
  | nil => rfl
  | cons hp _ ih =>
    rw [isSound, List.all_cons, Bool.and_eq_true]
    refine ⟨?_, ih⟩
    cases hp with
    | plain _ _ hc => simp [hc]
    | short => rfl
    | unit => rfl

end Literal

/-! ## Numbers -/

/-- Whether a number that stands in front of `r` ends there. -/
def EndsNumber (r : List Char) : Prop :=
  ∀ c ∈ r.head?, c.isDigit = false ∧ c ≠ '.' ∧ c ≠ 'e' ∧ c ≠ 'E'

theorem endsNumber_nil : EndsNumber [] := nofun

theorem endsNumber_cons {c : Char} (r : List Char)
    (hc : c.isDigit = false ∧ c ≠ '.' ∧ c ≠ 'e' ∧ c ≠ 'E') : EndsNumber (c :: r) := by
  intro d hd
  obtain rfl := Option.some.inj hd
  exact hc

theorem spanDigits_append {r : List Char} (hr : ∀ c ∈ r.head?, c.isDigit = false)
    {ds : List Char} (hd : ∀ c ∈ ds, c.isDigit = true) : spanDigits (ds ++ r) = (ds, r) := by
  have hnone : r.takeWhile Char.isDigit = [] ∧ r.dropWhile Char.isDigit = r := by
    cases r with
    | nil => exact ⟨rfl, rfl⟩
    | cons c r => simp [hr c rfl]
  rw [spanDigits, List.takeWhile_append_of_pos hd, List.dropWhile_append_of_pos hd, hnone.1,
    hnone.2, List.append_nil]

section Number
variable {r : List Char}

/-- A fraction is read up to what begins neither with a digit nor with a point. -/
theorem scanFraction?_of_fraction {f : List Char} (hf : IsFraction f)
    (hr : ∀ c ∈ r.head?, c.isDigit = false ∧ c ≠ '.') :
    scanFraction? (f ++ r) = some (f, r) := by
  cases hf with
  | absent =>
    rw [List.nil_append]
    unfold scanFraction?
    split
    · exact absurd rfl (hr _ rfl).2
    · rfl
  | digits hds =>
    have hspan := spanDigits_append (fun c hc => (hr c hc).1) hds.2
    simp [scanFraction?, hspan, hds.1]

theorem scanPower?_of_digits (hr : EndsNumber r) {ds : List Char} (hds : IsDigits ds) (e : Char) :
    scanPower? e (ds ++ r) = some (e :: ds, r) := by
  have hspan := spanDigits_append (fun c hc => (hr c hc).1) hds.2
  obtain ⟨d, ds, rfl⟩ := List.exists_cons_of_ne_nil hds.1
  have hd : d.isDigit = true := hds.2 d List.mem_cons_self
  rw [List.cons_append] at hspan ⊢
  have hplus : d ≠ '+' := by
    rintro rfl
    cases hd
  have hminus : d ≠ '-' := by
    rintro rfl
    cases hd
  simp [scanPower?, hspan, hplus, hminus]

theorem scanPower?_of_sign (hr : EndsNumber r) {sign : Char} (hs : sign = '+' ∨ sign = '-')
    {ds : List Char} (hds : IsDigits ds) (e : Char) :
    scanPower? e (sign :: (ds ++ r)) = some (e :: sign :: ds, r) := by
  have hspan := spanDigits_append (fun c hc => (hr c hc).1) hds.2
  rcases hs with rfl | rfl
  · simp [scanPower?, hspan, hds.1]
  · simp [scanPower?, hspan, hds.1]

theorem scanExponent?_of_mark {e : Char} (he : e = 'e' ∨ e = 'E') (cs : List Char) :
    scanExponent? (e :: cs) = scanPower? e cs := by
  rcases he with rfl | rfl
  · rfl
  · rfl

theorem scanExponent?_of_power (hr : EndsNumber r) {p : List Char} (hp : IsPower p) :
    scanExponent? (p ++ r) = some (p, r) := by
  cases hp with
  | absent =>
    rw [List.nil_append]
    unfold scanExponent?
    split
    · exact absurd rfl (hr _ rfl).2.2.1
    · exact absurd rfl (hr _ rfl).2.2.2
    · rfl
  | digits he hds =>
    rw [List.cons_append, scanExponent?_of_mark he]
    exact scanPower?_of_digits hr hds _
  | signed he hs hds =>
    rw [List.cons_append, List.cons_append, scanExponent?_of_mark he]
    exact scanPower?_of_sign hr hs hds _

/-- What follows the fraction does not go on with it. -/
theorem head_power (hr : EndsNumber r) {p : List Char} (hp : IsPower p) :
    ∀ c ∈ (p ++ r).head?, c.isDigit = false ∧ c ≠ '.' := by
  have mark : ∀ {e : Char}, e = 'e' ∨ e = 'E' → ∀ cs : List Char,
      ∀ c ∈ (e :: cs).head?, c.isDigit = false ∧ c ≠ '.' := by
    intro e he cs c hc
    obtain rfl := Option.some.inj hc
    rcases he with rfl | rfl
    · decide
    · decide
  cases hp with
  | absent => exact fun c hc => ⟨(hr c hc).1, (hr c hc).2.1⟩
  | digits he => exact mark he _
  | signed he => exact mark he _

/-- What follows the whole part does not go on with it. -/
theorem head_fraction (hr : EndsNumber r) {f p : List Char} (hf : IsFraction f) (hp : IsPower p) :
    ∀ c ∈ (f ++ (p ++ r)).head?, c.isDigit = false := by
  cases hf with
  | absent => exact fun c hc => (head_power hr hp c hc).1
  | digits =>
    intro c hc
    obtain rfl := Option.some.inj hc
    rfl

theorem scanMagnitude?_of_parts (hr : EndsNumber r) (negative : Bool) {ds f p : List Char}
    (hds : IsWhole ds) (hf : IsFraction f) (hp : IsPower p) :
    scanMagnitude? negative (ds ++ (f ++ (p ++ r))) =
      if f.isEmpty && p.isEmpty then some (.integer negative (natOfDigits ds), r)
      else some (.real (signOf negative ++ ds ++ f ++ p), r) := by
  have hwhole : (ds.isEmpty || (ds.head? == some '0' && ds.length != 1)) = false := by
    simp only [Bool.or_eq_false_iff, Bool.and_eq_false_imp, beq_iff_eq, List.isEmpty_eq_false_iff]
    exact ⟨hds.1.1, fun hzero => by simp [hds.2 hzero]⟩
  simp only [scanMagnitude?, spanDigits_append (head_fraction hr hf hp) hds.1.2, hwhole,
    Bool.false_eq_true, if_false, scanFraction?_of_fraction hf (head_power hr hp),
    Option.bind_eq_bind, Option.bind_some, scanExponent?_of_power hr hp]
  rfl

/-- A number without its sign begins with a digit. -/
theorem IsWhole.exists_cons {ds : List Char} (h : IsWhole ds) :
    ∃ d rest, ds = d :: rest ∧ d.isDigit = true := by
  obtain ⟨d, rest, rfl⟩ := List.exists_cons_of_ne_nil h.1.1
  exact ⟨d, rest, rfl, h.1.2 d List.mem_cons_self⟩

theorem scanNumber?_sign (negative : Bool) {ds : List Char} (hds : IsWhole ds) (cs : List Char) :
    scanNumber? (signOf negative ++ (ds ++ cs)) = scanMagnitude? negative (ds ++ cs) := by
  cases negative with
  | true => rfl
  | false =>
    obtain ⟨d, rest, rfl, hd⟩ := hds.exists_cons
    have hminus : d ≠ '-' := by
      rintro rfl
      cases hd
    simp [scanNumber?, signOf, hminus]

theorem scanNumber?_of_spelled {n : Number} {cs : List Char} (h : n.IsSpelledBy cs)
    (hr : EndsNumber r) : scanNumber? (cs ++ r) = some (n, r) := by
  cases h with
  | @integer negative ds hds =>
    have hscan := scanMagnitude?_of_parts hr negative hds .absent .absent
    rw [List.append_assoc, scanNumber?_sign negative hds]
    exact hscan
  | @real negative ds f p hds hf hp hsome =>
    have hscan := scanMagnitude?_of_parts hr negative hds hf hp
    have hreal : (f.isEmpty && p.isEmpty) = false := by
      rw [Bool.and_eq_false_iff, List.isEmpty_eq_false_iff, List.isEmpty_eq_false_iff]
      exact hsome
    rw [hreal] at hscan
    simp only [List.append_assoc] at hscan ⊢
    rw [scanNumber?_sign negative hds]
    exact hscan

/-- A number begins with its sign or with a digit. -/
theorem Number.exists_of_spelled {n : Number} {cs : List Char} (h : n.IsSpelledBy cs) :
    ∃ c rest, cs = c :: rest ∧ (c = '-' ∨ c.isDigit = true) := by
  have first : ∀ (negative : Bool) {ds : List Char}, IsWhole ds → ∀ more : List Char,
      ∃ c rest, signOf negative ++ (ds ++ more) = c :: rest ∧ (c = '-' ∨ c.isDigit = true) := by
    intro negative ds hds more
    obtain ⟨d, rest, rfl, hd⟩ := hds.exists_cons
    cases negative with
    | true => exact ⟨_, _, rfl, .inl rfl⟩
    | false => exact ⟨_, _, rfl, .inr hd⟩
  cases h with
  | integer negative hds => simpa using first negative hds []
  | @real negative ds f p hds => simpa using first negative hds (f ++ p)

end Number

/-! ## Tokens -/

theorem scanToken?_number {c : Char} (hc : c = '-' ∨ c.isDigit = true) (cs : List Char) :
    scanToken? (c :: cs) = (scanNumber? (c :: cs)).map fun (n, rest) => (.number n, rest) := by
  rw [scanToken?]
  all_goals
    intro rest h
    obtain ⟨rfl, -⟩ := List.cons.inj h
    revert hc
    decide

/-- A token is read if it ends where it should; only a number could go on. -/
theorem scanToken?_of_spelled {t : Token} {cs r : List Char} (h : t.IsSpelledBy cs)
    (hr : t.IsNumber → EndsNumber r) : scanToken? (cs ++ r) = some (t, r) := by
  cases t with
  | number n =>
    have hn : n.IsSpelledBy cs := h
    have hscan := scanNumber?_of_spelled hn (hr trivial)
    obtain ⟨c, rest, rfl, hc⟩ := Number.exists_of_spelled hn
    rw [List.cons_append] at hscan ⊢
    rw [scanToken?_number hc, hscan]
    rfl
  | string lit =>
    obtain ⟨inner, hinner, rfl⟩ := h
    have hscan := Literal.scan?_of_between hinner r
    simp [scanToken?, hscan]
  | _ =>
    obtain rfl := h
    rfl

/-- A token begins with a character that is no blank, and if it is no number, a number in front
of it would end there. -/
theorem Token.exists_of_spelled {t : Token} {cs : List Char} (h : t.IsSpelledBy cs) :
    ∃ c rest, cs = c :: rest ∧ isBlank c = false ∧
      (¬ t.IsNumber → c.isDigit = false ∧ c ≠ '.' ∧ c ≠ 'e' ∧ c ≠ 'E') := by
  cases t with
  | number n =>
    obtain ⟨c, rest, rfl, hc⟩ := Number.exists_of_spelled (n := n) h
    refine ⟨c, rest, rfl, Bool.eq_false_iff.2 fun hblank => ?_, fun hn => absurd trivial hn⟩
    simp only [isBlank, Bool.or_eq_true, beq_iff_eq] at hblank
    rcases hblank with ((rfl | rfl) | rfl) | rfl <;> simp at hc
  | string lit =>
    obtain ⟨inner, -, rfl⟩ := h
    exact ⟨_, _, rfl, rfl, fun _ => by decide⟩
  | _ =>
    obtain rfl := h
    exact ⟨_, _, rfl, rfl, fun _ => by decide⟩

theorem isBlank_endsNumber {c : Char} (h : isBlank c = true) :
    c.isDigit = false ∧ c ≠ '.' ∧ c ≠ 'e' ∧ c ≠ 'E' := by
  simp only [isBlank, Bool.or_eq_true, beq_iff_eq] at h
  rcases h with ((rfl | rfl) | rfl) | rfl <;> decide

/-- A number ends where the next token is none. -/
theorem endsNumber_of_spelled {ts : List Token} {cs : List Char} (h : Spelled ts cs)
    (hts : ∀ t ∈ ts.head?, ¬ t.IsNumber) : EndsNumber cs := by
  cases h with
  | nil => exact endsNumber_nil
  | blank hc => exact endsNumber_cons _ (isBlank_endsNumber hc)
  | @token t _ _ _ ht =>
    obtain ⟨c, rest, rfl, -, hends⟩ := Token.exists_of_spelled ht
    exact endsNumber_cons _ (hends (hts t rfl))

/-- `cs` is a text of the tokens `ts`, whatever fuel is at hand for its length. -/
def Scans (cs : List Char) (ts : List Token) : Prop :=
  ∀ fuel, cs.length ≤ fuel → scanTokens? fuel cs = some ts

theorem scans_nil : Scans [] [] := by
  intro fuel _
  cases fuel <;> rfl

theorem Scans.blank {c : Char} {cs : List Char} {ts : List Token} (h : Scans cs ts)
    (hc : isBlank c = true) : Scans (c :: cs) ts := by
  intro fuel hfuel
  cases fuel with
  | zero => simp at hfuel
  | succ fuel =>
    rw [scanTokens?, hc, if_pos rfl]
    exact h fuel (Nat.le_of_succ_le_succ hfuel)

theorem Scans.token {t : Token} {cs r : List Char} {ts : List Token} (h : Scans r ts)
    (ht : t.IsSpelledBy cs) (hr : t.IsNumber → EndsNumber r) : Scans (cs ++ r) (t :: ts) := by
  intro fuel hfuel
  have hscan := scanToken?_of_spelled ht hr
  obtain ⟨c, rest, rfl, hblank, -⟩ := Token.exists_of_spelled ht
  rw [List.cons_append] at hscan hfuel ⊢
  cases fuel with
  | zero => simp at hfuel
  | succ fuel =>
    have hrest : r.length ≤ fuel := by
      rw [List.length_cons, List.length_append] at hfuel
      omega
    rw [scanTokens?, hblank, hscan]
    simp [h fuel hrest]

/-- Tokens of which no number follows another are found in all their texts. -/
theorem scans_of_spelled {ts : List Token} {cs : List Char} (h : Spelled ts cs) (ha : Apart ts) :
    Scans cs ts := by
  induction h with
  | nil => exact scans_nil
  | blank hc _ ih => exact (ih ha).blank hc
  | token ht hrest ih =>
    cases ha with
    | cons hnext ha => exact (ih ha).token ht fun hn => endsNumber_of_spelled hrest (hnext hn)

/-! ## Values -/

theorem tokens?_of_spelled {v : Value} {text : String} (h : v.IsSpelledBy text) :
    tokens? text.toList = some v.toTokens := by
  have hapart : Apart (v.toTokens ++ []) := apart_toTokens v nofun .nil
  rw [List.append_nil] at hapart
  exact scans_of_spelled h hapart _ (Nat.le_refl _)

/-- A value is read from each of its texts. -/
theorem parse?_of_spelled {v : Value} {text : String} (h : v.IsSpelledBy text) :
    parse? text = some v := by
  rw [parse?, tokens?_of_spelled h]
  exact ofTokens?_toTokens v

/-- What a reader of values takes a text for. -/
def readText? {α : Type} (read : Value → Option α) (text : String) : Option α :=
  (parse? text).bind read

theorem readText?_of_spelled {α : Type} {read : Value → Option α} {v : Value} {text : String}
    (h : v.IsSpelledBy text) : readText? read text = read v := by
  rw [readText?, parse?_of_spelled h, Option.bind_some]

/-- What has a text is sound. -/
theorem isSound_of_spelled {v : Value} {text : String} (h : v.IsSpelledBy text) :
    v.isSound = true := by
  have all : ∀ {ts : List Token} {cs : List Char}, Spelled ts cs → ∀ t ∈ ts, t.IsSound := by
    intro ts cs h
    induction h with
    | nil => exact List.forall_mem_nil _
    | blank _ _ ih => exact ih
    | @token t _ _ _ ht _ ih =>
      refine List.forall_mem_cons.2 ⟨?_, ih⟩
      cases t with
      | string lit =>
        obtain ⟨inner, hinner, -⟩ := ht
        exact Literal.isSound_of_between hinner
      | _ => trivial
  exact isSound_of_tokens v (all h)

end TurnRendezvous.Json
