import EntropySupply.Proofs.Entropy.Budget

/-!
# Charges of bounded draws

A draw from finitely many values costs the least number of bits that can number them. The one
exception is a range that exceeds what a signed integer of its width can count by exactly one, which
costs the full width, a bit more than it needs. Main statement: `bounded_charges`.
-/

namespace EntropySupply

theorem isLeast_bitLength {n : ℕ} (hn : 0 < n) :
    IsLeast {k : ℕ | (n : ℤ) ≤ 2 ^ k} (bitLength (n - 1)) := by
  constructor
  · have hlt := lt_shiftLeft_bitLength (n - 1)
    rw [Nat.one_shiftLeft] at hlt
    have hle : n ≤ 2 ^ bitLength (n - 1) := by omega
    exact_mod_cast hle
  · intro k hk
    have hle : n ≤ 2 ^ k := by exact_mod_cast hk
    apply bitLength_le_of_lt
    omega

namespace Cost

theorem toInt_below (bound : UInt64) : (below bound).toInt = bitLength (bound.toNat - 1) := by
  have hlt := bound.toNat_lt
  have hlen : bitLength (bound.toNat - 1) ≤ 64 := bitLength_le_of_lt (by omega)
  exact toInt_ofNat_of_le hlen (by decide)

/-- What a draw from that many values costs: so many bits number them all, fit the width of the
integers and stay below the largest cost; and no fewer would do, but where the number of values is
half of what the width can tell apart. -/
structure Charges (width : ℕ) (values : ℤ) (bits : ℕ) : Prop where
  covers : values ≤ 2 ^ bits
  le_width : bits ≤ width
  lt_largest : (width : ℤ) < largest.toInt
  least : values ≠ 2 ^ (width - 1) → IsLeast {k : ℕ | values ≤ 2 ^ k} bits
  half : values = 2 ^ (width - 1) → bits = width

theorem toInt_inRange {width : ℕ} (hpos : 0 < width) (hwidth : width ≤ 64) {origin bound : ℤ}
    (hlt : origin < bound) (hfits : bound - origin < 2 ^ width) :
    ∃ bits : ℕ, (inRange width origin bound).toInt = bits ∧
      Charges width (bound - origin) bits := by
  have hlargest : (width : ℤ) < largest.toInt := by
    have h65 : largest.toInt = 65 := by decide
    omega
  obtain ⟨n, hn⟩ := Int.eq_ofNat_of_zero_le (show 0 ≤ bound - origin by omega)
  have hn₀ : 0 < n := by omega
  unfold inRange
  dsimp only
  rw [hn, Int.toNat_natCast, Nat.one_shiftLeft]
  rw [hn] at hfits
  have hfits : n < 2 ^ width := by exact_mod_cast hfits
  by_cases hcount : n < 2 ^ (width - 1)
  · -- The range is counted by a signed integer, and costs what an unsigned bound does.
    have hbits : bitLength (n - 1) ≤ width - 1 := bitLength_le_of_lt (by omega)
    have hbits64 : bitLength (n - 1) ≤ 64 := by omega
    have hleast := isLeast_bitLength hn₀
    rw [if_pos ⟨by omega, hcount⟩, toInt_ofNat_of_le hbits64 (by decide)]
    refine ⟨_, rfl, hleast.1, by omega, hlargest, fun _ => hleast, ?_⟩
    intro hhalf
    have : n = 2 ^ (width - 1) := by exact_mod_cast hhalf
    omega
  · rw [if_neg (fun h => hcount h.2), toInt_ofNat_of_le hwidth (by decide)]
    refine ⟨_, rfl, by exact_mod_cast hfits.le, le_rfl, hlargest, ?_, fun _ => rfl⟩
    intro hhalf
    refine ⟨by exact_mod_cast hfits.le, ?_⟩
    intro k hk
    have hle : n ≤ 2 ^ k := by exact_mod_cast hk
    have hne : n ≠ 2 ^ (width - 1) := by exact_mod_cast hhalf
    have hpow : 2 ^ (width - 1) < 2 ^ k := by omega
    have := (Nat.pow_lt_pow_iff_right (by decide)).mp hpow
    omega

theorem below_least {bound : UInt64} (h : 1 ≤ bound) :
    ∃ bits : ℕ, (below bound).toInt = bits ∧
      IsLeast {k : ℕ | (bound.toNat : ℤ) ≤ 2 ^ k} bits := by
  have hpos : 1 ≤ bound.toNat := UInt64.le_iff_toNat_le.mp h
  exact ⟨_, toInt_below bound, isLeast_bitLength hpos⟩

theorem inRange32_charges {origin bound : Int32} (h : origin < bound) :
    ∃ bits : ℕ, (inRange32 origin bound).toInt = bits ∧
      Charges 32 (bound.toInt - origin.toInt) bits := by
  have hlow := origin.le_toInt
  have hhigh := bound.toInt_lt
  exact toInt_inRange (by decide) (by decide) (Int32.lt_iff_toInt_lt.mp h) (by omega)

theorem inRange64_charges {origin bound : Int64} (h : origin < bound) :
    ∃ bits : ℕ, (inRange64 origin bound).toInt = bits ∧
      Charges 64 (bound.toInt - origin.toInt) bits := by
  have hlow := origin.le_toInt
  have hhigh := bound.toInt_lt
  exact toInt_inRange (by decide) (by decide) (Int64.lt_iff_toInt_lt.mp h) (by omega)

theorem le_two_pow {cost : Int64} {values : ℤ} {bits : ℕ} (hbits : cost.toInt = bits)
    (h : values ≤ 2 ^ bits) : values ≤ 2 ^ cost.toInt.toNat := by
  rw [hbits]
  exact h

theorem le_two_pow_below {bound : UInt64} (h : bound ≠ 0) :
    (bound.toNat : ℤ) ≤ 2 ^ (below bound).toInt.toNat := by
  have hpos : 1 ≤ bound := by
    rw [UInt64.le_iff_toNat_le]
    exact Nat.one_le_iff_ne_zero.mpr fun hzero => h (UInt64.toNat_inj.mp hzero)
  obtain ⟨bits, hbits, hleast⟩ := below_least hpos
  exact le_two_pow hbits hleast.1

end Cost

namespace Draw

def choices? : Draw → Option ℤ
  | .below32 bound => some bound.toNat
  | .below64 bound => some bound.toNat
  | .range32 origin bound => some (bound.toInt - origin.toInt)
  | .range64 origin bound => some (bound.toInt - origin.toInt)
  | _ => none

/-- A bounded draw pays for as many bits as number its values. -/
theorem choices_le {d : Draw} {n : ℤ} (hn : d.choices? = some n) (hd : d.empty? = none) :
    n ≤ 2 ^ d.cost.toInt.toNat := by
  cases d with
  | below32 bound =>
    cases hn
    have hne : bound ≠ 0 := by simpa [empty?] using hd
    have hne64 : bound.toUInt64 ≠ 0 := by
      intro hzero
      apply hne
      simpa [← UInt64.toNat_inj, ← UInt32.toNat_inj] using hzero
    exact_mod_cast Cost.le_two_pow_below hne64
  | below64 bound =>
    cases hn
    have hne : bound ≠ 0 := by simpa [empty?] using hd
    exact Cost.le_two_pow_below hne
  | range32 origin bound =>
    cases hn
    have hlt : origin < bound := by
      by_contra hge
      simp [empty?, hge] at hd
    obtain ⟨bits, hbits, hcharges⟩ := Cost.inRange32_charges hlt
    exact Cost.le_two_pow hbits hcharges.covers
  | range64 origin bound =>
    cases hn
    have hlt : origin < bound := by
      by_contra hge
      simp [empty?, hge] at hd
    obtain ⟨bits, hbits, hcharges⟩ := Cost.inRange64_charges hlt
    exact Cost.le_two_pow hbits hcharges.covers
  | _ => cases hn

end Draw

/-- Bounded draws cost the least number of bits that can number their values, except that a range of
half of what the width of its integers can tell apart costs the full width; so none of them is
undercharged. -/
theorem bounded_charges :
    (∀ bound : UInt64, 1 ≤ bound → ∃ bits : ℕ, (Cost.below bound).toInt = bits ∧
      IsLeast {k : ℕ | (bound.toNat : ℤ) ≤ 2 ^ k} bits) ∧
    (∀ origin bound : Int32, origin < bound → ∃ bits : ℕ,
      (Cost.inRange32 origin bound).toInt = bits ∧
        Cost.Charges 32 (bound.toInt - origin.toInt) bits) ∧
    (∀ origin bound : Int64, origin < bound → ∃ bits : ℕ,
      (Cost.inRange64 origin bound).toInt = bits ∧
        Cost.Charges 64 (bound.toInt - origin.toInt) bits) ∧
    ∀ (d : Draw) (n : ℤ), d.choices? = some n → d.empty? = none →
      n ≤ 2 ^ d.cost.toInt.toNat := by
  refine ⟨?_, ?_, ?_, ?_⟩
  · intro bound hbound
    exact Cost.below_least hbound
  · intro origin bound hlt
    exact Cost.inRange32_charges hlt
  · intro origin bound hlt
    exact Cost.inRange64_charges hlt
  · intro d n hn hd
    exact Draw.choices_le hn hd

/-- Half of the 32-bit integers, the one range that costs a bit more than it needs, and one value
more or less. -/
theorem bounded_charges_half :
    (∃ bits : ℕ, (Cost.below 5).toInt = bits ∧ IsLeast {k : ℕ | (5 : ℤ) ≤ 2 ^ k} bits) ∧
      ((-2147483648 : Int32) < 0 ∧ (Cost.inRange32 (-2147483648) 0).toInt = 32 ∧
        (Cost.inRange32 (-2147483648) (-1)).toInt = 31) ∧
      (∃ bits : ℕ, (Cost.inRange64 (-1) 1099511627776).toInt = bits ∧
        Cost.Charges 64 1099511627777 bits) ∧
      (1000 : ℤ) ≤ 2 ^ (Draw.below32 1000).cost.toInt.toNat := by
  obtain ⟨hbelow, h32, h64, hdraw⟩ := bounded_charges
  refine ⟨hbelow 5 (by decide), ⟨by decide, ?_, ?_⟩, h64 (-1) 1099511627776 (by decide), ?_⟩
  · obtain ⟨bits, hbits, hcharges⟩ := h32 (-2147483648) 0 (by decide)
    rw [hbits, hcharges.half (by decide)]
    rfl
  · decide +kernel
  · exact hdraw (.below32 1000) 1000 rfl rfl

end EntropySupply
