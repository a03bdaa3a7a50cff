import EntropySupply.Proofs.Entropy.Steps

/-!
# Budget arithmetic

Budgets are machine integers, and the bytes that a budget can spare above a level come out of a
truncating division. Main statements: what is spared is a quotient of natural numbers, a byte less
is spared when a byte has been paid for, and no draw of fixed width costs more than
`Cost.largest`.
-/

namespace EntropySupply

theorem toInt_sub_of_bounds {a b : Int64} (hlow : -2 ^ 63 ≤ a.toInt - b.toInt)
    (hhigh : a.toInt - b.toInt < 2 ^ 63) : (a - b).toInt = a.toInt - b.toInt := by
  rw [Int64.toInt_sub]
  exact Int.bmod_eq_of_le (by omega) (by omega)

theorem toInt_ofNat_of_le {n k : ℕ} (h : n ≤ k) (hk : k < 2 ^ 63) :
    (Int64.ofNat n).toInt = n :=
  Int64.toInt_ofNat_of_lt (Nat.lt_of_le_of_lt h hk)

theorem bitLength_le_of_lt {n k : ℕ} (h : n < 2 ^ k) : bitLength n ≤ k := by
  rw [bitLength_le_iff, Nat.one_shiftLeft]
  exact h

theorem Cost.toInt_below_le (bound : UInt64) :
    0 ≤ (Cost.below bound).toInt ∧ (Cost.below bound).toInt ≤ 64 := by
  have hlt := bound.toNat_lt
  have hlen : bitLength (bound.toNat - 1) ≤ 64 := bitLength_le_of_lt (by omega)
  unfold Cost.below
  rw [toInt_ofNat_of_le hlen (by decide)]
  omega

theorem Cost.toInt_inRange_le {width : ℕ} (hw : width ≤ 64) (origin bound : ℤ) :
    0 ≤ (Cost.inRange width origin bound).toInt ∧ (Cost.inRange width origin bound).toInt ≤ 64 := by
  unfold Cost.inRange
  dsimp only
  split_ifs with hrange
  · have hlen : bitLength ((bound - origin).toNat - 1) ≤ width - 1 := by
      rw [bitLength_le_iff]
      omega
    rw [toInt_ofNat_of_le (hlen.trans (Nat.sub_le _ _) |>.trans hw) (by decide)]
    omega
  · rw [toInt_ofNat_of_le hw (by decide)]
    omega

theorem Draw.toInt_cost_le (d : Draw) : 0 ≤ d.cost.toInt ∧ d.cost.toInt ≤ Cost.largest.toInt := by
  have hlargest : Cost.largest.toInt = 65 := by decide
  rw [hlargest]
  cases d with
  | below32 bound =>
    have h := Cost.toInt_below_le bound.toUInt64
    exact ⟨h.1, h.2.trans (by omega)⟩
  | below64 bound =>
    have h := Cost.toInt_below_le bound
    exact ⟨h.1, h.2.trans (by omega)⟩
  | range32 origin bound =>
    have h := Cost.toInt_inRange_le (show 32 ≤ 64 by omega) origin.toInt bound.toInt
    exact ⟨h.1, h.2.trans (by omega)⟩
  | range64 origin bound =>
    have h := Cost.toInt_inRange_le (show 64 ≤ 64 by omega) origin.toInt bound.toInt
    exact ⟨h.1, h.2.trans (by omega)⟩
  | _ => decide

theorem Cost.bytes_succ (n : ℕ) : Cost.bytes (n + 1) = Cost.byte + Cost.bytes n := by
  unfold bytes
  rw [Int64.ofNat_add]
  grind

namespace Managed

variable {γ σ : Type} {m m' : Managed γ σ} {level : Int64}

/-- Truncation and the floor at zero make it a division of natural numbers. -/
theorem spareBytes_eq (m : Managed γ σ) (level : Int64) :
    m.spareBytes level = (m.entropy - level - 1).toInt.toNat / 8 := by
  unfold spareBytes
  generalize m.entropy - level - 1 = x
  have hbyte : Cost.byte.toInt = 8 := by decide
  have hlow := x.le_toInt
  have hhigh := x.toInt_lt
  rw [← Int64.toNat_toInt, Int64.toInt_div, hbyte]
  rcases le_total 0 x.toInt with hx | hx
  · rw [Int.tdiv_eq_ediv_of_nonneg hx, Int.bmod_eq_of_le (by omega) (by omega)]
    omega
  · -- A deficit has a quotient of zero or less, which counts as no byte.
    have hneg : -(x.toInt.tdiv 8) = (-x.toInt) / 8 := by
      rw [← Int.neg_tdiv, Int.tdiv_eq_ediv_of_nonneg (by omega)]
    rw [Int.bmod_eq_of_le (by omega) (by omega)]
    omega

theorem spareBytes_succ (hpaid : m'.entropy = m.entropy - Cost.byte)
    (h : m.spareBytes level ≠ 0) : m.spareBytes level = m'.spareBytes level + 1 := by
  have hbyte : Cost.byte.toInt = 8 := by decide
  rw [spareBytes_eq] at h
  rw [spareBytes_eq, spareBytes_eq, hpaid,
    show m.entropy - Cost.byte - level - 1 = m.entropy - level - 1 - Cost.byte by grind]
  generalize m.entropy - level - 1 = x at h ⊢
  have hhigh := x.toInt_lt
  rw [toInt_sub_of_bounds (by omega) (by omega)]
  omega

/-- What stays when spare bytes have been paid for lies above the level. -/
theorem lt_sub_bytes {n : ℕ}
    (hspare : (m.entropy - level - 1).toInt = m.entropy.toInt - level.toInt - 1)
    (hn : n ≤ m.spareBytes level) (hpos : 0 < n) : level < m.entropy - Cost.bytes n := by
  have hbyte : Cost.byte.toInt = 8 := by decide
  rw [spareBytes_eq, hspare] at hn
  have hhigh := m.entropy.toInt_lt
  have hlow := level.le_toInt
  have hbound := (m.entropy - level - 1).toInt_lt
  have hcost : (Cost.bytes n).toInt = 8 * n := by
    unfold Cost.bytes
    rw [Int64.toInt_mul, hbyte, toInt_ofNat_of_le (k := n) (Nat.le_refl _) (by omega)]
    exact Int.bmod_eq_of_le (by omega) (by omega)
  rw [Int64.lt_iff_toInt_lt, toInt_sub_of_bounds (by omega) (by omega)]
  omega

end Managed

end EntropySupply
