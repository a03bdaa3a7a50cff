import EntropySupply.Binary64
import Mathlib.Tactic

/-!
# Values of doubles

A double denotes a rational number exactly. An integer below `2 ^ 53` times a power of two within the
range of the exponent is denoted by the double made from the two, with nothing rounded off. Main
statements: the integer part that a double is cut to is the one of its value, and the remainder of
one double by another is the double of the exact remainder.
-/

namespace EntropySupply.Binary64

def negative (d : Binary64) : Bool := 2 ^ 63 ≤ d.bits.toNat

def exponentField (d : Binary64) : ℕ := d.bits.toNat / 2 ^ 52 % 2 ^ 11

def fraction (d : Binary64) : ℕ := d.bits.toNat % 2 ^ 52

/-- The significand, with the leading bit of a normal number, which is not stored. -/
def significand (d : Binary64) : ℕ :=
  if d.exponentField = 0 then d.fraction else 2 ^ 52 + d.fraction

def exponent (d : Binary64) : ℤ := if d.exponentField = 0 then -1074 else d.exponentField - 1075

theorem exponentField_lt (d : Binary64) : d.exponentField < 2 ^ 11 := Nat.mod_lt _ (by decide)

theorem fraction_lt (d : Binary64) : d.fraction < 2 ^ 52 := Nat.mod_lt _ (by decide)

theorem value_eq (d : Binary64) :
    d.value =
      if d.exponentField = 0x7ff then .nonFinite
      else .finite d.negative d.significand d.exponent := by
  have hsign : (d.bits >>> 63 == 1) = d.negative := by
    have hlt := d.bits.toNat_lt
    rw [Bool.eq_iff_iff, beq_iff_eq, ← UInt64.toNat_inj]
    simp [negative, Nat.shiftRight_eq_div_pow]
    omega
  have hexponent : ((d.bits >>> 52) &&& 0x7ff).toNat = d.exponentField := by
    have hmask := Nat.and_two_pow_sub_one_eq_mod (d.bits.toNat / 2 ^ 52) 11
    simpa [exponentField, Nat.shiftRight_eq_div_pow] using hmask
  have hfraction : (d.bits &&& 0xfffffffffffff).toNat = d.fraction := by
    have hmask := Nat.and_two_pow_sub_one_eq_mod d.bits.toNat 52
    simpa [fraction] using hmask
  rw [value, hsign, hexponent, hfraction, Nat.one_shiftLeft, significand, exponent]
  split_ifs <;> rfl

theorem fields_of_toNat {d : Binary64} {n : Bool} {e f : ℕ}
    (h : d.bits.toNat = n.toNat * 2 ^ 63 + e * 2 ^ 52 + f) (he : e < 2 ^ 11) (hf : f < 2 ^ 52) :
    d.negative = n ∧ d.exponentField = e ∧ d.fraction = f := by
  unfold negative exponentField fraction
  rw [h]
  cases n with
  | false => simp; omega
  | true => simp; omega

theorem fields_ofFields (n : Bool) {e f : ℕ} (he : e < 2 ^ 11) (hf : f < 2 ^ 52) :
    (ofFields n e f).negative = n ∧ (ofFields n e f).exponentField = e ∧
      (ofFields n e f).fraction = f := by
  refine fields_of_toNat ?_ he hf
  have hn : n.toNat ≤ 1 := n.toNat_le
  rw [ofFields, UInt64.toNat_ofNat', Nat.shiftLeft_eq, Nat.shiftLeft_eq, Nat.mod_eq_of_lt (by omega)]

theorem value_ofFields_zero (n : Bool) {f : ℕ} (hf : f < 2 ^ 52) :
    (ofFields n 0 f).value = .finite n f (-1074) := by
  obtain ⟨hn, he, hf⟩ := fields_ofFields n (show 0 < 2 ^ 11 by decide) hf
  simp [value_eq, significand, exponent, hn, he, hf]

theorem value_ofFields {n : Bool} {e f : ℕ} (hpos : 0 < e) (he : e < 0x7ff) (hf : f < 2 ^ 52) :
    (ofFields n e f).value = .finite n (2 ^ 52 + f) (e - 1075) := by
  obtain ⟨hn, he', hf⟩ := fields_ofFields n (show e < 2 ^ 11 by omega) hf
  rw [value_eq, significand, exponent, hn, he', hf, if_neg (by omega), if_neg (by omega),
    if_neg (by omega)]

/-- The rational number that the bits denote; a value that is no number has none. -/
def toRat? (d : Binary64) : Option ℚ :=
  match d.value with
  | .nonFinite => none
  | .finite negative significand exponent =>
    let magnitude := (significand : ℚ) * 2 ^ exponent
    some (if negative then -magnitude else magnitude)

def number (n : Bool) (s : ℕ) (e : ℤ) : ℚ := if n then -((s : ℚ) * 2 ^ e) else (s : ℚ) * 2 ^ e

theorem toRat?_of_value {d : Binary64} {n : Bool} {s : ℕ} {e : ℤ} (h : d.value = .finite n s e) :
    d.toRat? = some (number n s e) := by
  simp [toRat?, h, number]

theorem toRat?_eq (d : Binary64) :
    d.toRat? =
      if d.exponentField = 0x7ff then none
      else some (number d.negative d.significand d.exponent) := by
  rw [toRat?, value_eq]
  split_ifs <;> rfl

theorem value_of_toRat? {d : Binary64} {q : ℚ} (h : d.toRat? = some q) :
    ∃ n s e, d.value = .finite n s e ∧ q = number n s e := by
  cases hv : d.value with
  | nonFinite => simp [toRat?, hv] at h
  | finite n s e =>
    rw [toRat?_of_value hv] at h
    exact ⟨n, s, e, rfl, (Option.some.inj h).symm⟩

@[simp] theorem number_zero (n : Bool) (e : ℤ) : number n 0 e = 0 := by
  simp [number]

theorem number_not (n : Bool) (s : ℕ) (e : ℤ) : number (!n) s e = -number n s e := by
  cases n <;> simp [number]

theorem number_nonneg (s : ℕ) (e : ℤ) : 0 ≤ number false s e := by
  change 0 ≤ (s : ℚ) * 2 ^ e
  positivity

theorem abs_number (n : Bool) (s : ℕ) (e : ℤ) : |number n s e| = number false s e := by
  have hpos := number_nonneg s e
  cases n with
  | false => exact abs_of_nonneg hpos
  | true => exact (abs_neg _).trans (abs_of_nonneg hpos)

theorem number_shift (n : Bool) (s k : ℕ) (e : ℤ) :
    number n (s * 2 ^ k) e = number n s (e + k) := by
  simp only [number, zpow_add₀ (two_ne_zero (α := ℚ)), zpow_natCast, Nat.cast_mul, Nat.cast_pow]
  split_ifs <;> push_cast <;> ring

theorem isFinite_eq (d : Binary64) : d.isFinite = d.toRat?.isSome := by
  unfold isFinite toRat?
  cases d.value <;> rfl

theorem bounds_of_value {d : Binary64} {n : Bool} {s : ℕ} {e : ℤ} (h : d.value = .finite n s e) :
    s < 2 ^ 53 ∧ -1074 ≤ e ∧ e ≤ 971 := by
  have hfraction := d.fraction_lt
  have hexponent := d.exponentField_lt
  rw [value_eq] at h
  split_ifs at h with hmax
  cases h
  unfold significand exponent
  split_ifs <;> omega

theorem fields_abs (d : Binary64) :
    d.abs.negative = false ∧ d.abs.exponentField = d.exponentField ∧
      d.abs.fraction = d.fraction := by
  have hmask : d.abs.bits.toNat = d.bits.toNat % 2 ^ 63 := by
    simpa [abs] using Nat.and_two_pow_sub_one_eq_mod d.bits.toNat 63
  unfold negative exponentField fraction
  rw [hmask]
  simp
  omega

/-- Turning the highest bit over is adding it. -/
theorem toNat_neg (d : Binary64) : d.neg.bits.toNat = (d.bits.toNat + 2 ^ 63) % 2 ^ 64 := by
  have hlt := d.bits.toNat_lt
  have hbits : d.neg.bits.toNat = d.bits.toNat ^^^ 2 ^ 63 := by
    simp [neg]
  have hsign : d.neg.bits.toNat / 2 ^ 63 = d.bits.toNat / 2 ^ 63 ^^^ 1 := by
    rw [hbits, Nat.xor_div_two_pow]
    rfl
  have hrest : d.neg.bits.toNat % 2 ^ 63 = d.bits.toNat % 2 ^ 63 := by
    rw [hbits, Nat.xor_mod_two_pow]
    simp
  rcases Nat.lt_or_ge d.bits.toNat (2 ^ 63) with hpos | hneg
  · rw [Nat.div_eq_of_lt hpos, Nat.zero_xor] at hsign
    omega
  · rw [show d.bits.toNat / 2 ^ 63 = 1 by omega, Nat.xor_self] at hsign
    omega

theorem fields_neg (d : Binary64) :
    d.neg.negative = !d.negative ∧ d.neg.exponentField = d.exponentField ∧
      d.neg.fraction = d.fraction := by
  have hlt := d.bits.toNat_lt
  unfold negative exponentField fraction
  rw [toNat_neg, ← decide_not, decide_eq_decide]
  omega

theorem toRat?_abs (d : Binary64) : d.abs.toRat? = d.toRat?.map (|·|) := by
  obtain ⟨hn, he, hf⟩ := d.fields_abs
  simp only [toRat?_eq, significand, exponent, hn, he, hf]
  split_ifs <;> simp [abs_number]

theorem toRat?_neg (d : Binary64) : d.neg.toRat? = d.toRat?.map (-·) := by
  obtain ⟨hn, he, hf⟩ := d.fields_neg
  simp only [toRat?_eq, significand, exponent, hn, he, hf]
  split_ifs <;> simp [number_not]

theorem isBelowZero_iff {d : Binary64} {q : ℚ} (h : d.toRat? = some q) :
    d.isBelowZero = true ↔ q < 0 := by
  obtain ⟨n, s, e, hv, rfl⟩ := value_of_toRat? h
  have hpow : (0 : ℚ) < 2 ^ e := by positivity
  cases n with
  | false => simp [isBelowZero, hv, number_nonneg]
  | true => simp [isBelowZero, hv, number, hpow, Nat.pos_iff_ne_zero]

/-- The integer next to a rational number on the side of zero. -/
def towardZero (q : ℚ) : ℤ := if q < 0 then ⌈q⌉ else ⌊q⌋

theorem towardZero_natCast (n : ℕ) : towardZero n = n := by
  have hn : ¬(n : ℚ) < 0 := not_lt.mpr n.cast_nonneg
  simp [towardZero, hn]

theorem towardZero_intCast (n : ℤ) : towardZero n = n := by
  simp [towardZero]

theorem towardZero_of_nonneg {q : ℚ} (hq : 0 ≤ q) : towardZero q = ⌊q⌋ := by
  simp [towardZero, not_lt.mpr hq]

theorem towardZero_neg (q : ℚ) : towardZero (-q) = -towardZero q := by
  rcases lt_trichotomy q 0 with hq | rfl | hq
  · simp [towardZero, hq, hq.le, Int.floor_neg]
  · simp [towardZero]
  · simp [towardZero, hq, hq.le, Int.ceil_neg]

theorem floor_magnitude (significand : ℕ) (exponent : ℤ) :
    ⌊(significand : ℚ) * 2 ^ exponent⌋ =
      ((if 0 ≤ exponent then significand <<< exponent.toNat
        else significand >>> (-exponent).toNat : ℕ) : ℤ) := by
  split_ifs with h
  · lift exponent to ℕ using h
    have hcast : (significand : ℚ) * 2 ^ (exponent : ℤ) = ((significand * 2 ^ exponent : ℕ) : ℚ) := by
      simp
    rw [hcast, Int.floor_natCast, Int.toNat_natCast, Nat.shiftLeft_eq]
  · obtain ⟨k, hk⟩ := Int.eq_ofNat_of_zero_le (a := -exponent) (by omega)
    have hexp : exponent = -(k : ℤ) := by omega
    have hcast : (significand : ℚ) * 2 ^ exponent = (significand : ℚ) / ((2 ^ k : ℕ) : ℚ) := by
      simp [hexp, div_eq_mul_inv]
    rw [hcast, Rat.floor_natCast_div_natCast, hk, Int.toNat_natCast, Nat.shiftRight_eq_div_pow]
    norm_cast

/-- The integer part that a distance is cut to is the one of the number that its bits denote. -/
theorem truncated?_eq (d : Binary64) : d.truncated? = d.toRat?.map towardZero := by
  unfold truncated? toRat?
  cases d.value with
  | nonFinite => rfl
  | finite negative significand exponent =>
    have hpos : (0 : ℚ) ≤ significand * 2 ^ exponent := by positivity
    cases negative with
    | false => simp [towardZero_of_nonneg hpos, floor_magnitude]
    | true => simp [towardZero_neg, towardZero_of_nonneg hpos, floor_magnitude]

theorem toNat_toWord128 {d : Binary64} {q : ℚ} (h : d.toRat? = some q) (hpos : 0 ≤ q)
    (hlt : q < 2 ^ 128) : (d.toWord128.toNat : ℤ) = ⌊q⌋ := by
  have hfloor : 0 ≤ ⌊q⌋ := Int.floor_nonneg.mpr hpos
  have hbound : ⌊q⌋ < 2 ^ 128 := Int.floor_lt.mpr (by exact_mod_cast hlt)
  rw [toWord128, truncated?_eq, h, Option.map_some, towardZero_of_nonneg hpos]
  simp only [BitVec.toNat_ofNat, Nat.one_shiftLeft]
  omega

theorem log2_le {v : ℕ} (hlt : v < 2 ^ 53) : v.log2 ≤ 52 := by
  rcases eq_or_ne v 0 with rfl | hv
  · simp
  · exact Nat.lt_succ_iff.mp ((Nat.log2_lt hv).mpr hlt)

/-- A significand shifted until its leading bit is the one that is not stored. -/
theorem normal_bounds {v : ℕ} (hv : v ≠ 0) (hlt : v < 2 ^ 53) :
    2 ^ 52 ≤ v * 2 ^ (52 - v.log2) ∧ v * 2 ^ (52 - v.log2) < 2 ^ 53 := by
  have hlog := log2_le hlt
  constructor
  · calc 2 ^ 52 = 2 ^ v.log2 * 2 ^ (52 - v.log2) := by rw [← pow_add]; congr 1; omega
      _ ≤ v * 2 ^ (52 - v.log2) := Nat.mul_le_mul_right _ (Nat.log2_self_le hv)
  · calc v * 2 ^ (52 - v.log2) < 2 ^ (v.log2 + 1) * 2 ^ (52 - v.log2) :=
          Nat.mul_lt_mul_of_pos_right Nat.lt_log2_self (Nat.two_pow_pos _)
      _ = 2 ^ 53 := by rw [← pow_add]; congr 1; omega

/-- A significand that is shifted to the smallest exponent of all leaves room for no leading bit. -/
theorem subnormal_lt {v k : ℕ} (h : v.log2 + k < 52) : v * 2 ^ k < 2 ^ 52 := by
  calc v * 2 ^ k < 2 ^ (v.log2 + 1) * 2 ^ k :=
        Nat.mul_lt_mul_of_pos_right Nat.lt_log2_self (Nat.two_pow_pos _)
    _ = 2 ^ (v.log2 + 1 + k) := (pow_add _ _ _).symm
    _ ≤ 2 ^ 52 := Nat.pow_le_pow_right (by decide) (by omega)

/-- A significand and an exponent that doubles have room for make the double of their number, with
nothing rounded off. -/
theorem toRat?_ofParts (n : Bool) {s : ℕ} {e : ℤ} (hs : s < 2 ^ 53) (hlow : -1074 ≤ e)
    (hfin : s.log2 + e < 1024) : (ofParts n s e).toRat? = some (number n s e) := by
  unfold ofParts
  dsimp only
  split_ifs with hzero hsub
  · rw [toRat?_of_value (value_ofFields_zero n (by decide))]
    simp [hzero]
  · -- The number is subnormal: its fraction counts the smallest double.
    obtain ⟨k, hk⟩ := Int.eq_ofNat_of_zero_le (show 0 ≤ e + 1074 by omega)
    have hexp : (-1074 : ℤ) + k = e := by omega
    rw [hk, Int.toNat_natCast, Nat.shiftLeft_eq,
      toRat?_of_value (value_ofFields_zero n (subnormal_lt (by omega))), number_shift, hexp]
  · obtain ⟨hleading, hbound⟩ := normal_bounds hzero hs
    have hlog := log2_le hs
    have hsignificand : 2 ^ 52 + (s * 2 ^ (52 - s.log2) - 2 ^ 52) = s * 2 ^ (52 - s.log2) := by omega
    have hexp : ((e + s.log2 + 1023).toNat : ℤ) - 1075 + (52 - s.log2 : ℕ) = e := by omega
    rw [Nat.shiftLeft_eq, Nat.one_shiftLeft,
      toRat?_of_value (value_ofFields (by omega) (by omega) (by omega)), hsignificand, number_shift,
      hexp]

/-- The exponent field of an integer times a power of two that is no infinity. -/
theorem exponent_scaled {v shift : ℕ} (hv : v ≠ 0) (hlt : v < 2 ^ 53)
    (hfin : v.log2 + shift < 1024) :
    (scaled v shift).bits.toNat / 2 ^ 52 = 1023 + v.log2 + shift := by
  obtain ⟨hleading, hbound⟩ := normal_bounds hv hlt
  rw [scaled, if_neg hv, if_neg (by omega), UInt64.toNat_ofNat', Nat.shiftLeft_eq,
    Nat.shiftLeft_eq, Nat.shiftLeft_eq 1, Nat.mod_eq_of_lt (by omega)]
  omega

theorem scaled_eq_ofParts {v shift : ℕ} (hv : v ≠ 0) (hfin : v.log2 + shift < 1024) :
    scaled v shift = ofParts false v shift := by
  have hbiased : ((shift : ℤ) + v.log2 + 1023).toNat = 1023 + v.log2 + shift := by omega
  have hnormal : ¬(shift : ℤ) + v.log2 + 1023 ≤ 0 := by omega
  have hfinite : ¬0x7ff ≤ 1023 + v.log2 + shift := by omega
  simp [scaled, ofParts, ofFields, hv, hbiased, hnormal, hfinite]

theorem toRat?_scaled {v shift : ℕ} (hv : v ≠ 0) (hlt : v < 2 ^ 53)
    (hfin : v.log2 + shift < 1024) :
    (scaled v shift).toRat? = some ((v * 2 ^ shift : ℕ) : ℚ) := by
  rw [scaled_eq_ofParts hv hfin, toRat?_ofParts false hlt (by omega) (by omega)]
  simp [number]

theorem number_mod (n m : Bool) (s t : ℕ) (e : ℤ) :
    number n (s % t) e =
      number n s e - number m t e * towardZero (number n s e / number m t e) := by
  have hquotient : (s : ℚ) * 2 ^ e / ((t : ℚ) * 2 ^ e) = s / t :=
    mul_div_mul_right _ _ (by positivity)
  have hinteger : (towardZero ((s : ℚ) / t) : ℚ) = (s / t : ℕ) := by
    rw [towardZero_of_nonneg (by positivity), Rat.floor_natCast_div_natCast]
    norm_cast
  have hmod : ((s % t : ℕ) : ℚ) = s - t * (s / t : ℕ) := by
    rw [eq_sub_iff_add_eq]
    exact_mod_cast Nat.mod_add_div s t
  cases n <;> cases m <;>
    simp [number, neg_div, div_neg, hquotient, towardZero_neg, hinteger, hmod] <;> ring

theorem number_eq_unit (n : Bool) (s : ℕ) {e low : ℤ} (h : low ≤ e) :
    number n s e = number n (s <<< (e - low).toNat) low := by
  have hexp : low + ((e - low).toNat : ℤ) = e := by omega
  rw [Nat.shiftLeft_eq, number_shift, hexp]

/-- One of two significands is not shifted to the smaller one of their exponents, and the remainder
is not larger than that one. -/
theorem mod_shiftLeft_lt {s t b : ℕ} (hs : s < b) (ht : t < b) (hne : t ≠ 0) (e f : ℤ) :
    (s <<< (e - min e f).toNat) % (t <<< (f - min e f).toNat) < b := by
  rcases le_total e f with h | h
  · rw [min_eq_left h, sub_self, Int.toNat_zero, Nat.shiftLeft_zero]
    exact (Nat.mod_le _ _).trans_lt hs
  · rw [min_eq_right h, sub_self, Int.toNat_zero, Nat.shiftLeft_zero]
    exact (Nat.mod_lt _ (Nat.pos_of_ne_zero hne)).trans ht

/-- The remainder of two doubles is the exact one: the quotient is cut to its integer part, and
nothing is rounded off. -/
theorem toRat?_rem {x y : Binary64} {p q : ℚ} (hx : x.toRat? = some p) (hy : y.toRat? = some q)
    (hq : q ≠ 0) : (x.rem y).toRat? = some (p - q * towardZero (p / q)) := by
  obtain ⟨n, s, e, hvx, rfl⟩ := value_of_toRat? hx
  obtain ⟨m, t, f, hvy, rfl⟩ := value_of_toRat? hy
  have hne : t ≠ 0 := by
    rintro rfl
    simp at hq
  obtain ⟨hs, hlow, hhigh⟩ := bounds_of_value hvx
  obtain ⟨ht, hlow', hhigh'⟩ := bounds_of_value hvy
  have hlt := mod_shiftLeft_lt hs ht hne e f
  have hlog := log2_le hlt
  rw [number_eq_unit n s (min_le_left e f), number_eq_unit m t (min_le_right e f), ← number_mod]
  simp only [rem, hvx, hvy]
  rw [if_neg hne, toRat?_ofParts n hlt (by omega) (by omega)]

end EntropySupply.Binary64
