import EntropySupply.Proofs.Bytes
import EntropySupply.Proofs.Generator.Skips
import EntropySupply.Reseed.Skipping
import Mathlib.Tactic

/-!
# Distances of seeds

The parts of a seed are the digits of a number: part `i` counts in units of `2 ^ (48 * i)`, and only
the last part may be shorter than six bytes. Seeds of one length therefore stand for different
distances, all of them below the period. Main statement: `renew_exact`, a renewal skips the
distance of each part that is not zero, in order and with nothing rounded off.
-/

namespace EntropySupply.Skipping

def digit (seed : Bytes) (i : ℕ) : ℕ := Bytes.toNatBE ((seed.drop (partBytes * i)).take partBytes)

/-- The number of parts; the last one may be short. -/
def digitCount (seed : Bytes) : ℕ := (seed.length + (partBytes - 1)) / partBytes

/-- The distance that part `i` stands for. -/
def stretch (seed : Bytes) (i : ℕ) : ℕ := digit seed i * 2 ^ (8 * partBytes * i)

/-- The distances of the parts that are not zero, in order. -/
def stretches (seed : Bytes) : List ℕ :=
  ((List.range (digitCount seed)).filter fun i => digit seed i ≠ 0).map (stretch seed)

def total (seed : Bytes) : ℕ := ∑ i ∈ Finset.range (digitCount seed), stretch seed i

/-- What holds of the empty seed, and of a seed whenever it holds behind its first part, holds of all
seeds. -/
theorem partInduction {P : Bytes → Prop} (nil : P [])
    (part : ∀ seed, seed ≠ [] → P (seed.drop partBytes) → P seed) (seed : Bytes) : P seed := by
  by_cases h : seed = []
  · rw [h]
    exact nil
  · apply part seed h
    exact partInduction nil part (seed.drop partBytes)
termination_by seed.length
decreasing_by
  have hpos := List.length_pos_iff.mpr h
  simp only [List.length_drop, partBytes]
  omega

theorem digit_drop (seed : Bytes) (i : ℕ) : digit (seed.drop partBytes) i = digit seed (i + 1) := by
  simp [digit, List.drop_drop, Nat.mul_succ, Nat.add_comm]

theorem toNatBE_take (seed : Bytes) :
    Bytes.toNatBE (seed.take partBytes) = digit seed 0 := by
  simp [digit]

theorem digit_zero_lt (seed : Bytes) : digit seed 0 < 256 ^ min partBytes seed.length := by
  simpa [digit] using Bytes.toNatBE_lt (seed.take partBytes)

@[simp] theorem digitCount_nil : digitCount [] = 0 := rfl

theorem digitCount_eq {seed : Bytes} (h : seed ≠ []) :
    digitCount seed = digitCount (seed.drop partBytes) + 1 := by
  have hpos := List.length_pos_iff.mpr h
  simp only [digitCount, List.length_drop, partBytes]
  omega

@[simp] theorem stretch_zero (seed : Bytes) : stretch seed 0 = digit seed 0 := by
  simp [stretch]

theorem stretch_succ (seed : Bytes) (i : ℕ) :
    stretch seed (i + 1) = 256 ^ partBytes * stretch (seed.drop partBytes) i := by
  have hunit : 2 ^ (8 * partBytes * (i + 1)) = 256 ^ partBytes * 2 ^ (8 * partBytes * i) := by
    rw [Nat.mul_succ, pow_add, Nat.mul_comm]
    rfl
  rw [stretch, stretch, digit_drop, hunit, Nat.mul_left_comm]

@[simp] theorem total_nil : total [] = 0 := rfl

theorem total_eq {seed : Bytes} (h : seed ≠ []) :
    total seed = digit seed 0 + 256 ^ partBytes * total (seed.drop partBytes) := by
  rw [Nat.add_comm]
  simp [total, digitCount_eq h, Finset.sum_range_succ', stretch_succ, Finset.mul_sum]

theorem total_lt (seed : Bytes) : total seed < 256 ^ seed.length := by
  induction seed using partInduction with
  | nil => simp
  | part seed hne ih =>
    have hdigit := digit_zero_lt seed
    rw [total_eq hne]
    rcases Nat.lt_or_ge seed.length partBytes with hshort | hlong
    · simpa [List.drop_of_length_le hshort.le, Nat.min_eq_right hshort.le] using hdigit
    · rw [Nat.min_eq_left hlong] at hdigit
      rw [List.length_drop] at ih
      calc digit seed 0 + 256 ^ partBytes * total (seed.drop partBytes)
          < 256 ^ partBytes * (total (seed.drop partBytes) + 1) := by rw [Nat.mul_succ]; omega
        _ ≤ 256 ^ partBytes * 256 ^ (seed.length - partBytes) := Nat.mul_le_mul_left _ ih
        _ = 256 ^ seed.length := by rw [← pow_add, Nat.add_sub_cancel' hlong]

theorem total_inj {s t : Bytes} (hlen : s.length = t.length) (h : total s = total t) : s = t := by
  induction s using partInduction generalizing t with
  | nil => exact (List.length_eq_zero_iff.mp hlen.symm).symm
  | part s hne ih =>
    have hne' : t ≠ [] := by
      rintro rfl
      exact hne (List.length_eq_zero_iff.mp hlen)
    have hs := (digit_zero_lt s).trans_le (Nat.pow_le_pow_right (by decide) (min_le_left _ _))
    have ht := (digit_zero_lt t).trans_le (Nat.pow_le_pow_right (by decide) (min_le_left _ _))
    rw [total_eq hne, total_eq hne'] at h
    -- The first part is the remainder, the other parts are the quotient.
    have hmod := congrArg (· % 256 ^ partBytes) h
    have hdiv := congrArg (· / 256 ^ partBytes) h
    simp only [Nat.add_mul_mod_self_left, Nat.mod_eq_of_lt hs, Nat.mod_eq_of_lt ht] at hmod
    simp only [Nat.add_mul_div_left _ _ (show 0 < 256 ^ partBytes by decide),
      Nat.div_eq_of_lt hs, Nat.div_eq_of_lt ht, Nat.zero_add] at hdiv
    have hfront : s.take partBytes = t.take partBytes :=
      Bytes.toNatBE_inj (by simp [hlen]) (by simpa [digit] using hmod)
    have hrest : s.drop partBytes = t.drop partBytes := ih (by simp [hlen]) hdiv
    rw [← List.take_append_drop partBytes s, hfront, hrest, List.take_append_drop]

theorem sum_stretches (seed : Bytes) : (stretches seed).sum = total seed := by
  have hfilter (is : List ℕ) :
      ((is.filter fun i => digit seed i ≠ 0).map (stretch seed)).sum =
        (is.map (stretch seed)).sum := by
    induction is with
    | nil => rfl
    | cons i is ih => by_cases hi : digit seed i = 0 <;> simp_all [stretch]
  rw [stretches, hfilter]
  rfl

theorem toRat?_digit {seed : Bytes} {i : ℕ} (hdigit : digit seed 0 ≠ 0)
    (h : 8 * (partBytes * i + seed.length) ≤ 1024) :
    (Binary64.scaled (digit seed 0) (8 * partBytes * i)).toRat? =
      some ((digit seed 0 * 2 ^ (8 * partBytes * i) : ℕ) : ℚ) := by
  have hlt : digit seed 0 < 2 ^ (8 * min partBytes seed.length) := by
    simpa [Bytes.byte_pow] using digit_zero_lt seed
  have hlog := (Nat.log2_lt hdigit).mpr hlt
  have hpart : min partBytes seed.length ≤ 6 := min_le_left _ _
  apply Binary64.toRat?_scaled hdigit
  · exact hlt.trans_le (Nat.pow_le_pow_right (by decide) (by omega))
  · have hmin : min partBytes seed.length ≤ seed.length := min_le_right _ _
    rw [Nat.mul_assoc]
    omega

/-- The parts of a seed that begins at part `i` of another one. -/
theorem map_distances (seed : Bytes) (i : ℕ)
    (h : seed ≠ [] → 8 * (partBytes * i + seed.length) ≤ 1024) :
    (distances i (Bytes.chunks partBytes seed)).map Binary64.toRat? =
      ((List.range (digitCount seed)).filter fun j => digit seed j ≠ 0).map fun j =>
        some ((digit seed j * 2 ^ (8 * partBytes * (i + j)) : ℕ) : ℚ) := by
  induction seed using partInduction generalizing i with
  | nil => simp [distances]
  | part seed hne ih =>
    have hrest := ih (i + 1) (by
      intro hne'
      have hlong := List.length_pos_iff.mpr hne'
      have hbits := h hne
      rw [List.length_drop] at hlong ⊢
      rw [Nat.mul_succ]
      omega)
    have hrange : List.range (digitCount seed) =
        0 :: (List.range (digitCount (seed.drop partBytes))).map (· + 1) := by
      rw [digitCount_eq hne, List.range_succ_eq_map]
    have hlater (j : ℕ) : i + 1 + j = i + (j + 1) := by omega
    simp only [digit_drop, hlater] at hrest
    rw [Bytes.chunks_eq_cons (by decide) hne, distances, toNatBE_take, hrange]
    by_cases hdigit : digit seed 0 = 0
    · rw [if_pos hdigit, hrest, List.filter_cons_of_neg (by simp [hdigit]), List.filter_map,
        List.map_map]
      rfl
    · rw [if_neg hdigit, List.map_cons, toRat?_digit hdigit (h hne), hrest,
        List.filter_cons_of_pos (by simp [hdigit]), List.filter_map, List.map_cons, List.map_map]
      rfl

theorem of_new_eq_ok {γ : Type} [Skippable γ] {g : γ} {n : UInt64} {r : Skipping γ}
    (h : new g n = .ok r) : r = ⟨g, n⟩ ∧ 8 * n ≤ UInt64.ofNat (Skippable.periodBits γ) := by
  simp only [new] at h
  split_ifs at h with hempty hwide
  exact ⟨(Except.ok.inj h).symm, UInt64.not_lt.mp hwide⟩

/-- A count of bits that fits its word is compared as it is. -/
theorem bits_le_of_new {γ : Type} [Skippable γ] {g : γ} {n : UInt64} {r : Skipping γ}
    (h : new g n = .ok r) (hbits : 8 * n.toNat < UInt64.size) :
    8 * n.toNat ≤ Skippable.periodBits γ := by
  have hle := UInt64.le_iff_toNat_le.mp (of_new_eq_ok h).2
  have hexact : (8 * n).toNat = 8 * n.toNat := by
    simpa using Nat.mod_eq_of_lt hbits
  rw [hexact, UInt64.toNat_ofNat'] at hle
  exact hle.trans (Nat.mod_le _ _)

theorem claimedBits_eq {γ : Type} [Generator γ] [Skippable γ] (r : Skipping γ) :
    Renewable.claimedBits r = Int64.ofNat (8 * r.seedBytes.toNat) := by
  have hcast := UInt64.toInt64_ofNat' (n := r.seedBytes.toNat)
  rw [UInt64.ofNat_toNat] at hcast
  change 8 * r.seedBytes.toInt64 = _
  rw [Int64.ofNat_mul, hcast]
  rfl

theorem toInt_claimedBits {γ : Type} [Generator γ] [Skippable γ] {r : Skipping γ}
    (h : 8 * r.seedBytes.toNat ≤ 1024) :
    (Renewable.claimedBits r).toInt = 8 * r.seedBytes.toNat := by
  rw [claimedBits_eq, Int64.toInt_ofNat_of_lt (by omega)]
  omega

theorem map_distancesOf {seed : Bytes} (h : 8 * seed.length ≤ 1024) :
    (distancesOf seed).map Binary64.toRat? = (stretches seed).map fun s : ℕ => some (s : ℚ) := by
  have hmap := map_distances seed 0 (fun _ => by omega)
  simp only [Nat.zero_add] at hmap
  rw [distancesOf, hmap, stretches, List.map_map]
  rfl

theorem total_mod_inj {m : ℕ} {s t : Bytes} (hlen : s.length = t.length) (hm : 256 ^ t.length ≤ m)
    (h : total s ≡ total t [MOD m]) : s = t := by
  have hs := total_lt s
  rw [hlen] at hs
  apply total_inj hlen
  exact h.eq_of_lt_of_lt (hs.trans_le hm) ((total_lt t).trans_le hm)

theorem ncard_total {n m : ℕ} (hm : 256 ^ n ≤ m) :
    ((fun s => total s % m) '' {s : Bytes | s.length = n}).ncard = 256 ^ n := by
  have hinj : Set.InjOn (fun s => total s % m) {s : Bytes | s.length = n} := by
    intro s hs t ht h
    exact total_mod_inj (hs.trans ht.symm) (ht.symm ▸ hm) h
  rw [hinj.ncard_image, Bytes.ncard_length_eq]

end EntropySupply.Skipping
