import Deferred.Proofs.Telemetry.Json
import Deferred.Telemetry.Report
import Mathlib.Data.List.Basic
import Mathlib.Data.Rat.Cast.Defs
import Mathlib.Tactic.Ring

/-!
# Numerals that are read back

The numerals of a report are put together from digits before the point, digits behind it, and an
exponent. A reader of JSON finds these parts again, wherever the point has been put and whether or
not there is an exponent, and so reads the very decimal that has been written.

* `Json.Parts` are the parts of a numeral, `Json.Parts.IsProper` says which may be put together.
* `Json.Parts.ofWord?_text`: a numeral is read as its parts say.
* `Decimal.IsWritten` are the parts in which a decimal may be written, and
  `Decimal.exists_isWritten`: it is written in such parts.
* `Report.exists_isWritten_binary`: so are the numbers of a report.
-/

namespace Deferred

open NumeralStyle

/-! ## Digits -/

section Digits

variable {n : Nat} {c : Char}

theorem isDigit_of_mem_digitsOf (h : c ∈ digitsOf n) : c.isDigit :=
  Nat.isDigit_of_mem_toDigits (by decide) (by decide) h

theorem isDigit_of_mem_zeros (h : c ∈ zeros n) : c.isDigit := by
  rw [List.eq_of_mem_replicate h]
  decide

theorem digitsOf_ne_nil : digitsOf n ≠ [] := Nat.toDigits_ne_nil

theorem ofDigitChars_digitsOf : Nat.ofDigitChars 10 (digitsOf n) 0 = n :=
  Nat.ofDigitChars_ten_toDigits

theorem digitsOf_zero : digitsOf 0 = ['0'] := rfl

/-- The first digit of a positive number is not a zero. -/
theorem head?_digitsOf (h : 0 < n) : (digitsOf n).head? ≠ some '0' := by
  induction n using Nat.strongRecOn with
  | _ n ih =>
    rw [digitsOf, Nat.toDigits_eq_if (by decide)]
    split
    · next hlt =>
      have hchar : ∀ d, d < 10 → 0 < d → d.digitChar ≠ '0' := by decide
      exact fun he => hchar n hlt h (Option.some.inj he)
    · rw [List.head?_append_of_ne_nil _ Nat.toDigits_ne_nil]
      exact ih (n / 10) (by omega) (by omega)

theorem eq_zero_of_head? (h : (digitsOf n).head? = some '0') : n = 0 := by
  by_contra hne
  exact head?_digitsOf (Nat.pos_of_ne_zero hne) h

end Digits

namespace Json

/-! ## The parts of a numeral -/

/-- A numeral in parts. -/
structure Parts where
  /-- The digits before the point. -/
  whole : List Char
  /-- The digits behind the point, if there is one. -/
  fraction : List Char
  exponent : Option Int

namespace Parts

/-- The digits behind the point, with the point. -/
def tail (p : Parts) : List Char := if p.fraction = [] then [] else '.' :: p.fraction

/-- The exponent with its mark, if there is one. -/
def power (p : Parts) : List Char := (p.exponent.map Report.style.exponent).getD []

/-- The numeral that has the parts. -/
def text (p : Parts) : List Char := p.whole ++ (p.tail ++ p.power)

/-- The parts consist of digits; there are digits before the point, and the first of several is not
a zero. -/
structure IsProper (p : Parts) : Prop where
  isDigit : ∀ c ∈ p.whole ++ p.fraction, c.isDigit
  whole_ne_nil : p.whole ≠ []
  eq_zero : p.whole.head? = some '0' → p.whole = ['0']

/-- What the numeral is read as. -/
def numeral (p : Parts) : Numeral where
  decimal := ⟨Nat.ofDigitChars 10 (p.whole ++ p.fraction) 0, p.exponent.getD 0 - p.fraction.length⟩
  isWhole := p.fraction = [] ∧ p.exponent = none

variable {p : Parts} {c : Char}

theorem IsProper.isDigit_whole (h : p.IsProper) (hc : c ∈ p.whole) : c.isDigit :=
  h.isDigit c (List.mem_append_left _ hc)

theorem IsProper.isDigit_fraction (h : p.IsProper) (hc : c ∈ p.fraction) : c.isDigit :=
  h.isDigit c (List.mem_append_right _ hc)

/-! ## Reading the parts -/

theorem digits?_of_isDigit {word : List Char} (hne : word ≠ []) (h : ∀ c ∈ word, c.isDigit) :
    Numeral.digits? word = some (Nat.ofDigitChars 10 word 0) := by
  rw [Numeral.digits?, if_pos ⟨hne, List.all_eq_true.2 h⟩]

theorem whole?_whole (h : p.IsProper) : Numeral.whole? p.whole = some p.whole := by
  have hlead : ¬ (p.whole.head? = some '0' ∧ p.whole ≠ ['0']) := fun hl => hl.2 (h.eq_zero hl.1)
  rw [Numeral.whole?, if_neg hlead, digits?_of_isDigit h.whole_ne_nil fun _ => h.isDigit_whole]
  rfl

theorem fraction?_tail (h : p.IsProper) : Numeral.fraction? p.tail = some p.fraction := by
  rw [tail]
  split
  · next hnil => rw [hnil]; rfl
  · next hne =>
    rw [Numeral.fraction?, digits?_of_isDigit hne fun _ => h.isDigit_fraction]
    rfl

theorem exponent?_minus (word : List Char) :
    Numeral.exponent? ('e' :: '-' :: word) = (Numeral.digits? word).map fun n => -Int.ofNat n := rfl

theorem exponent?_plus (word : List Char) :
    Numeral.exponent? ('e' :: '+' :: word) = (Numeral.digits? word).map Int.ofNat := rfl

/-- An exponent is read back, its sign too. -/
theorem exponent?_exponent (e : Int) : Numeral.exponent? (Report.style.exponent e) = some e := by
  have hread : Numeral.digits? (digitsOf e.natAbs) = some e.natAbs := by
    rw [digits?_of_isDigit digitsOf_ne_nil fun _ => isDigit_of_mem_digitsOf, ofDigitChars_digitsOf]
  rw [NumeralStyle.exponent]
  split
  · next hneg =>
    refine (exponent?_minus (digitsOf e.natAbs)).trans ?_
    rw [hread, Option.map_some, Int.ofNat_eq_natCast, Int.ofNat_natAbs_of_nonpos (by omega),
      Int.neg_neg]
  · next hpos =>
    refine (exponent?_plus (digitsOf e.natAbs)).trans ?_
    rw [hread, Option.map_some, Int.ofNat_eq_natCast, Int.natAbs_of_nonneg (by omega)]

theorem exponent?_power (p : Parts) : Numeral.exponent? p.power = some (p.exponent.getD 0) := by
  rw [power]
  cases p.exponent with
  | none => rfl
  | some e => exact exponent?_exponent e

theorem mem_power (hc : c ∈ p.power) : c.isDigit ∨ c ∈ ['.', 'e', '-', '+'] := by
  rw [power] at hc
  cases he : p.exponent with
  | none =>
    rw [he] at hc
    cases hc
  | some e =>
    rw [he, Option.map_some, Option.getD_some, NumeralStyle.exponent] at hc
    rcases List.mem_append.1 hc with hc | hc
    · refine .inr ?_
      split at hc <;>
        · simp only [List.mem_cons, Report.style, List.not_mem_nil, or_false] at hc
          rcases hc with rfl | rfl <;> decide
    · exact .inl (isDigit_of_mem_digitsOf hc)

/-- The exponent begins with its mark. -/
theorem power_eq (p : Parts) : p.power = [] ∨ ∃ rest, p.power = 'e' :: rest := by
  rw [power]
  cases p.exponent with
  | none => exact .inl rfl
  | some e => exact .inr ⟨_, rfl⟩

theorem isMantissa_of_isDigit (h : c.isDigit) : Numeral.isMantissa c := by
  rw [Numeral.isMantissa, Bool.and_eq_true, bne_iff_ne, bne_iff_ne]
  constructor <;>
    · rintro rfl
      cases h

theorem isMantissa_of_mem (h : p.IsProper) (hc : c ∈ p.whole ++ p.tail) : Numeral.isMantissa c := by
  rcases List.mem_append.1 hc with hc | hc
  · exact isMantissa_of_isDigit (h.isDigit_whole hc)
  · rw [tail] at hc
    split at hc
    · cases hc
    · rcases List.mem_cons.1 hc with rfl | hc
      · decide
      · exact isMantissa_of_isDigit (h.isDigit_fraction hc)

/-- The exponent begins where it has been put. -/
theorem span_text (h : p.IsProper) :
    p.text.takeWhile Numeral.isMantissa = p.whole ++ p.tail ∧
      p.text.dropWhile Numeral.isMantissa = p.power := by
  rw [text, ← List.append_assoc, List.takeWhile_append_of_pos fun _ => isMantissa_of_mem h,
    List.dropWhile_append_of_pos fun _ => isMantissa_of_mem h]
  rcases p.power_eq with hp | ⟨rest, hp⟩
  · rw [hp]
    exact ⟨List.append_nil _, rfl⟩
  · rw [hp]
    exact ⟨List.append_nil _, rfl⟩

/-- The point stands where it has been put. -/
theorem span_mantissa (h : p.IsProper) :
    (p.whole ++ p.tail).takeWhile (· != '.') = p.whole ∧
      (p.whole ++ p.tail).dropWhile (· != '.') = p.tail := by
  have hpoint : ∀ c ∈ p.whole, (c != '.') = true := by
    intro c hc
    rw [bne_iff_ne]
    rintro rfl
    cases h.isDigit_whole hc
  rw [List.takeWhile_append_of_pos hpoint, List.dropWhile_append_of_pos hpoint, tail]
  split
  · exact ⟨List.append_nil _, rfl⟩
  · exact ⟨List.append_nil _, rfl⟩

theorem tail_eq_nil_iff : p.tail = [] ↔ p.fraction = [] := by
  rw [tail]
  split
  · next hnil => exact ⟨fun _ => hnil, fun _ => rfl⟩
  · next hne => exact ⟨fun h => (by cases h), fun h => absurd h hne⟩

theorem power_eq_nil_iff : p.power = [] ↔ p.exponent = none := by
  rw [power]
  cases p.exponent with
  | none => exact ⟨fun _ => rfl, fun _ => rfl⟩
  | some e => exact ⟨fun h => (by cases h), fun h => (by cases h)⟩

theorem unsigned?_text (h : p.IsProper) : Numeral.unsigned? p.text = some p.numeral := by
  obtain ⟨hmantissa, hpower⟩ := span_text h
  obtain ⟨hwhole, htail⟩ := span_mantissa h
  simp only [Numeral.unsigned?, hmantissa, hpower, hwhole, htail, whole?_whole h,
    fraction?_tail h, exponent?_power, tail_eq_nil_iff, power_eq_nil_iff]
  rfl

/-- A numeral begins with a digit. -/
theorem exists_text_eq (h : p.IsProper) : ∃ c rest, c.isDigit ∧ p.text = c :: rest := by
  rw [text]
  obtain ⟨c, rest, hc⟩ := List.exists_cons_of_ne_nil h.whole_ne_nil
  refine ⟨c, rest ++ (p.tail ++ p.power), h.isDigit_whole ?_, ?_⟩
  · rw [hc]
    exact List.mem_cons_self
  · rw [hc, List.cons_append]

/-- A numeral is read as its parts say. -/
theorem ofWord?_text (h : p.IsProper) : ofWord? p.text = some (.number p.numeral) := by
  have hread := unsigned?_text h
  obtain ⟨c, rest, hc, htext⟩ := exists_text_eq h
  rw [htext] at hread ⊢
  -- it is none of the names, and has no sign
  have hne : ∀ d rest', ¬ d.isDigit → c :: rest ≠ d :: rest' := by
    rintro d rest' hd he
    cases he
    exact hd hc
  rw [ofWord?, if_neg (hne _ _ (by decide)), if_neg (hne _ _ (by decide)),
    if_neg (hne _ _ (by decide)), Numeral.ofWord?, hread]
  · rfl
  · exact fun word he => hne _ _ (by decide) he

theorem text_point {whole fraction : List Char} (h : fraction ≠ []) :
    text ⟨whole, fraction, none⟩ = whole ++ '.' :: fraction := by
  rw [text, tail, power, if_neg h]
  exact congrArg (whole ++ ·) (List.append_nil _)

theorem text_power (c : Char) (rest : List Char) (e : Int) :
    text ⟨[c], rest, some e⟩ = pointAfterFirst (c :: rest) ++ Report.style.exponent e := by
  cases rest <;> rfl

/-- The characters of a numeral. -/
theorem mem_text (h : p.IsProper) (hc : c ∈ p.text) : c.isDigit ∨ c ∈ ['.', 'e', '-', '+'] := by
  rw [text] at hc
  rcases List.mem_append.1 hc with hc | hc
  · exact .inl (h.isDigit_whole hc)
  rcases List.mem_append.1 hc with hc | hc
  · rw [tail] at hc
    split at hc
    · cases hc
    · rcases List.mem_cons.1 hc with rfl | hc
      · exact .inr (by decide)
      · exact .inl (h.isDigit_fraction hc)
  · exact mem_power hc

end Parts

end Json

/-! ## Decimals -/

namespace Decimal

/-- The value of a decimal. -/
def toRat (d : Decimal) : ℚ := d.digits * 10 ^ d.exponent

/-- A decimal is written in some parts: they can be put together, stand for the decimal, and show
that it is not a whole number. -/
structure IsWritten (d : Decimal) (p : Json.Parts) : Prop where
  isProper : p.IsProper
  toRat : p.numeral.decimal.toRat = d.toRat
  isWhole : p.numeral.isWhole = false

variable {d : Decimal} {k : Nat}

/-- The digits are those of the decimal, and in the same place. -/
theorem toRat_numeral {p : Json.Parts}
    (hd : Nat.ofDigitChars 10 (p.whole ++ p.fraction) 0 = d.digits)
    (he : p.exponent.getD 0 - p.fraction.length = d.exponent) :
    p.numeral.decimal.toRat = d.toRat := by
  rw [Json.Parts.numeral, hd, he]

/-- Digits and zeros before the point. -/
theorem isWritten_large (h : d.digits = 0 → d.exponent ≤ 0) (he : 0 ≤ d.exponent) :
    d.IsWritten ⟨digitsOf d.digits ++ zeros d.exponent.toNat, ['0'], none⟩ where
  isProper := by
    refine ⟨fun c hc => ?_, fun hnil => ?_, fun hz => ?_⟩
    · simp only [List.mem_append, List.mem_singleton] at hc
      rcases hc with (hc | hc) | rfl
      · exact isDigit_of_mem_digitsOf hc
      · exact isDigit_of_mem_zeros hc
      · decide
    · exact digitsOf_ne_nil (List.append_eq_nil_iff.1 hnil).1
    · rw [List.head?_append_of_ne_nil _ digitsOf_ne_nil] at hz
      have hzero := eq_zero_of_head? hz
      have hexp : d.exponent.toNat = 0 := by have := h hzero; omega
      rw [hzero, hexp]
      rfl
  toRat := by
    have hdigits : Nat.ofDigitChars 10 ((digitsOf d.digits ++ zeros d.exponent.toNat) ++ ['0']) 0 =
        10 * (10 ^ d.exponent.toNat * d.digits) := by
      rw [Nat.ofDigitChars_append, Nat.ofDigitChars_append, ofDigitChars_digitsOf, zeros,
        Nat.ofDigitChars_replicate_zero]
      rfl
    have hpow : (10 : ℚ) ^ d.exponent = 10 ^ d.exponent.toNat := by
      conv_lhs => rw [← Int.toNat_of_nonneg he, zpow_natCast]
    rw [Json.Parts.numeral, hdigits, Decimal.toRat, Decimal.toRat, hpow]
    push_cast
    rw [Option.getD_none, List.length_singleton, zero_sub, Nat.cast_one, zpow_neg_one]
    ring
  isWhole := rfl

/-- Some of the digits before the point, and the others behind it. -/
theorem isWritten_split {e : Option Int} (hk : 0 < k) (hle : k ≤ (digitsOf d.digits).length)
    (he : e.getD 0 + k - (digitsOf d.digits).length = d.exponent)
    (hw : k < (digitsOf d.digits).length ∨ e ≠ none) :
    d.IsWritten ⟨(digitsOf d.digits).take k, (digitsOf d.digits).drop k, e⟩ where
  isProper := by
    refine ⟨fun c hc => ?_, fun hnil => ?_, fun hz => ?_⟩
    · rw [List.take_append_drop] at hc
      exact isDigit_of_mem_digitsOf hc
    · rcases List.take_eq_nil_iff.1 hnil with h | h
      · omega
      · exact digitsOf_ne_nil h
    · rw [List.head?_take, if_neg (by omega)] at hz
      rw [eq_zero_of_head? hz, digitsOf_zero, List.take_of_length_le hk]
  toRat := by
    refine toRat_numeral ?_ ?_
    · rw [List.take_append_drop, ofDigitChars_digitsOf]
    · dsimp only
      rw [List.length_drop]
      omega
  isWhole := by
    rw [Json.Parts.numeral, decide_eq_false_iff_not, List.drop_eq_nil_iff]
    rintro ⟨hlen, hnone⟩
    rcases hw with h | h
    · omega
    · exact h hnone

/-- A zero before the point, and zeros behind it before the digits. -/
theorem isWritten_small (he : (k : Int) + (digitsOf d.digits).length = -d.exponent) :
    d.IsWritten ⟨['0'], zeros k ++ digitsOf d.digits, none⟩ where
  isProper := by
    refine ⟨fun c hc => ?_, List.cons_ne_nil _ _, fun _ => rfl⟩
    simp only [List.mem_append, List.mem_singleton] at hc
    rcases hc with rfl | hc | hc
    · decide
    · exact isDigit_of_mem_zeros hc
    · exact isDigit_of_mem_digitsOf hc
  toRat := by
    refine toRat_numeral ?_ ?_
    · rw [Nat.ofDigitChars_append, Nat.ofDigitChars_append, zeros, Nat.ofDigitChars_replicate_zero]
      exact ofDigitChars_digitsOf
    · dsimp only
      rw [List.length_append, zeros, List.length_replicate, Option.getD_none]
      omega
  isWhole := by
    rw [Json.Parts.numeral, decide_eq_false_iff_not]
    exact fun h => digitsOf_ne_nil (List.append_eq_nil_iff.1 h.1).2

/-- A decimal is written in parts that stand for it. -/
theorem exists_isWritten (h : d.digits = 0 → d.exponent ≤ 0) :
    ∃ p : Json.Parts, d.IsWritten p ∧ p.text = Report.style.write d := by
  have hpos : 0 < (digitsOf d.digits).length := List.length_pos_iff.2 digitsOf_ne_nil
  simp only [NumeralStyle.write]
  split_ifs with hplain hlarge hpoint
  · exact ⟨_, isWritten_large h hlarge, Json.Parts.text_point (List.cons_ne_nil _ _)⟩
  · have hk : ((((digitsOf d.digits).length : Int) + d.exponent - 1 + 1).toNat : Int) =
        (digitsOf d.digits).length + d.exponent := by omega
    refine ⟨_, isWritten_split (by omega) (by omega) ?_ (.inl ?_), Json.Parts.text_point ?_⟩
    · rw [hk, Option.getD_none]
      omega
    · omega
    · rw [ne_eq, List.drop_eq_nil_iff]
      omega
  · refine ⟨_, isWritten_small (by omega), Json.Parts.text_point ?_⟩
    exact fun hnil => digitsOf_ne_nil (List.append_eq_nil_iff.1 hnil).2
  · have hwritten := isWritten_split (d := d) Nat.one_pos hpos
      (e := some ((digitsOf d.digits).length + d.exponent - 1))
      (by rw [Option.getD_some, Nat.cast_one]; omega) (.inr (Option.some_ne_none _))
    refine ⟨_, hwritten, ?_⟩
    obtain ⟨c, rest, hdigits⟩ := List.exists_cons_of_ne_nil (digitsOf_ne_nil (n := d.digits))
    rw [hdigits]
    exact Json.Parts.text_power c rest _

/-! ## Shortest decimals -/

/-- What is found on a grid lies in the interval. -/
theorem mem_of_onGrid? {i : Binary64.Interval} {e : Int} (h : onGrid? i e = some d) :
    let unit := Nat.pow 10 e.toNat <<< (-i.exponent).toNat
    let scale := Nat.pow 10 (-e).toNat <<< i.exponent.toNat
    i.low * scale ≤ d.digits * unit ∧ d.digits * unit ≤ i.high * scale := by
  unfold onGrid? at h
  extract_lets unit scale inside value below fromBelow toAbove nearerAbove at h
  intro unit scale
  have hinside : ∀ n, inside n = true → i.low * scale ≤ n * unit ∧ n * unit ≤ i.high * scale := by
    intro n hn
    dsimp only [inside] at hn
    split at hn
    · exact of_decide_eq_true hn
    · have hlt := of_decide_eq_true hn
      exact ⟨hlt.1.le, hlt.2.le⟩
  split at h
  · next hbelow =>
    obtain rfl := Option.some.inj h
    exact hinside below hbelow.1
  · split at h
    · next habove =>
      obtain rfl := Option.some.inj h
      exact hinside (below + 1) habove
    · cases h

/-- Nothing on a grid that lies in an interval above zero is zero. -/
theorem digits_pos_of_onGrid? {i : Binary64.Interval} {e : Int} (hlow : 0 < i.low)
    (h : onGrid? i e = some d) : 0 < d.digits := by
  have hscale : 0 < Nat.pow 10 (-e).toNat <<< i.exponent.toNat := by
    rw [Nat.shiftLeft_eq]
    exact Nat.mul_pos (Nat.pow_pos (by decide)) (Nat.two_pow_pos _)
  have hle := (Nat.mul_pos hlow hscale).trans_le (mem_of_onGrid? h).1
  exact Nat.pos_of_mul_pos_right hle

theorem digits_pos_trim (bound : Nat) (h : 0 < d.digits) : 0 < (trim bound d).digits := by
  induction bound generalizing d with
  | zero => exact h
  | succ bound ih =>
    rw [trim]
    split
    · exact ih (by dsimp only; omega)
    · exact h

theorem low_interval_pos {x : Binary64} (h : x.isZero = false) : 0 < x.interval.low := by
  have hx : x.mantissa ≠ 0 := of_decide_eq_false h
  rw [Binary64.interval]
  dsimp only
  split <;> omega

/-- The shortest decimal is positive, or it has been written as a plain zero. -/
theorem exponent_shortest {x : Binary64} (h : x.isZero = false) (hd : (shortest x).digits = 0) :
    (shortest x).exponent ≤ 0 := by
  simp only [shortest] at hd ⊢
  cases hfound : (List.range 17).findSome? fun n : Nat =>
      onGrid? x.interval (floorLog10 x.num x.den - n) with
  | none => decide
  | some d =>
    rw [hfound, Option.getD_some] at hd
    obtain ⟨n, -, hn⟩ := List.exists_of_findSome?_eq_some hfound
    have := digits_pos_trim 17 (digits_pos_of_onGrid? (low_interval_pos h) hn)
    omega

end Decimal

/-! ## The numbers of a report -/

namespace Report

/-- The decimal that stands for a number of the binary format in a report. -/
def decimalOf (x : Binary64) : Decimal := if x.isZero then ⟨0, 0⟩ else .shortest x

theorem exists_isWritten_binary (x : Binary64) :
    ∃ p : Json.Parts, (decimalOf x).IsWritten p ∧ p.text = style.writeBinary x := by
  rw [NumeralStyle.writeBinary, decimalOf]
  split
  · exact Decimal.exists_isWritten (d := ⟨0, 0⟩) fun _ => Int.le_refl 0
  · next h =>
    have hx : x.isZero = false := Bool.eq_false_of_not_eq_true h
    exact Decimal.exists_isWritten (Decimal.exponent_shortest hx)

end Report

end Deferred
