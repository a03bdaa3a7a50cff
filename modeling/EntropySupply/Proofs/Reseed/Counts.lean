import EntropySupply.Proofs.Bytes
import EntropySupply.Reseed.Skip
import EntropySupply.Reseed.Stepping
import Mathlib.Tactic

/-!
# Counts of skips

A seed is two fields of a number, one for short and one for long skips. Both fields zero would
leave the generator where it is; the pair of counts that stands for them is one that no other fields
give. Main statement: `renew_counted`, a renewal makes the skips that its seed counts, at least one,
and there are as many pairs of counts as the fields have values.
-/

namespace EntropySupply.Stepping

/-- The `j` lowest bits of a number and the `l` bits above them, or `(0, 2 ^ l)` when all of these
bits are zero. -/
def fieldCounts (j l v : ℕ) : ℕ × ℕ :=
  if v % 2 ^ j = 0 ∧ v / 2 ^ j % 2 ^ l = 0 then (0, 2 ^ l) else (v % 2 ^ j, v / 2 ^ j % 2 ^ l)

variable {j l v w : ℕ}

theorem mod_eq_of_fieldCounts (j l v : ℕ) :
    v % 2 ^ (j + l) = (fieldCounts j l v).1 + 2 ^ j * ((fieldCounts j l v).2 % 2 ^ l) := by
  rw [pow_add, Nat.mod_mul, fieldCounts]
  split_ifs with h
  · simp [h]
  · simp

theorem fieldCounts_mod (j l v : ℕ) : fieldCounts j l (v % 2 ^ (j + l)) = fieldCounts j l v := by
  have hlow : v % 2 ^ (j + l) % 2 ^ j = v % 2 ^ j :=
    Nat.mod_mod_of_dvd v (pow_dvd_pow 2 (Nat.le_add_right j l))
  have hhigh : v % 2 ^ (j + l) / 2 ^ j = v / 2 ^ j % 2 ^ l := by
    rw [pow_add, Nat.mod_mul_right_div_self]
  simp [fieldCounts, hlow, hhigh]

theorem fieldCounts_eq_iff :
    fieldCounts j l v = fieldCounts j l w ↔ v % 2 ^ (j + l) = w % 2 ^ (j + l) := by
  constructor
  · intro h
    rw [mod_eq_of_fieldCounts, mod_eq_of_fieldCounts, h]
  · intro h
    rw [← fieldCounts_mod, h, fieldCounts_mod]

theorem fieldCounts_pos (j l v : ℕ) : 0 < (fieldCounts j l v).1 + (fieldCounts j l v).2 := by
  unfold fieldCounts
  split_ifs with h
  · simp
  · dsimp only
    omega

theorem toNat_width (b : Fin 64) : (UInt64.ofNat b).toNat % 64 = b.val := by
  have hb := b.isLt
  rw [UInt64.toNat_ofNat']
  omega

theorem toNat_limit (b : Fin 64) : ((1 : UInt64) <<< UInt64.ofNat b).toNat = 2 ^ b.val := by
  rw [UInt64.toNat_shiftLeft, toNat_width, UInt64.toNat_one, Nat.one_shiftLeft]
  exact Nat.mod_eq_of_lt (Nat.pow_lt_pow_right (by decide) b.isLt)

theorem toNat_field (b : Fin 64) (s : UInt64) :
    (s &&& ((1 : UInt64) <<< UInt64.ofNat b - 1)).toNat = s.toNat % 2 ^ b.val := by
  have hone : (1 : UInt64) ≤ 1 <<< UInt64.ofNat b := by
    rw [UInt64.le_iff_toNat_le, toNat_limit]
    exact Nat.one_le_two_pow
  rw [UInt64.toNat_and, UInt64.toNat_sub_of_le _ _ hone, toNat_limit, UInt64.toNat_one,
    Nat.and_two_pow_sub_one_eq_mod]

variable {γ : Type} (r : Stepping γ)

theorem bits_le : r.bits ≤ 64 := r.fits

theorem toNat_maxLeaps : r.maxLeaps.toNat = 2 ^ r.leapBits.val := toNat_limit r.leapBits

/-- The counts of a word are those of the number that it is. -/
theorem toNat_counts (s : UInt64) :
    ((r.counts s).1.toNat, (r.counts s).2.toNat) = fieldCounts r.jumpBits r.leapBits s.toNat := by
  have hjumps : (s &&& (r.maxJumps - 1)).toNat = s.toNat % 2 ^ r.jumpBits.val := toNat_field _ s
  have hleaps : ((s >>> UInt64.ofNat r.jumpBits) &&& (r.maxLeaps - 1)).toNat =
      s.toNat / 2 ^ r.jumpBits.val % 2 ^ r.leapBits.val := by
    rw [maxLeaps, toNat_field, UInt64.toNat_shiftRight, toNat_width, Nat.shiftRight_eq_div_pow]
  have hzero (x : UInt64) : x = 0 ↔ x.toNat = 0 := by
    rw [← UInt64.toNat_inj, UInt64.toNat_zero]
  simp only [counts, fieldCounts, hzero, hjumps, hleaps]
  split_ifs
  · simp [toNat_maxLeaps]
  · simp [hjumps, hleaps]

theorem counts_eq_iff (s t : UInt64) :
    r.counts s = r.counts t ↔ s.toNat % 2 ^ r.bits = t.toNat % 2 ^ r.bits := by
  rw [bits, ← fieldCounts_eq_iff, ← toNat_counts, ← toNat_counts, Prod.mk_inj, Prod.ext_iff,
    UInt64.toNat_inj, UInt64.toNat_inj]

theorem ncard_toNat_lt {b : ℕ} (hb : b ≤ 64) : {s : UInt64 | s.toNat < 2 ^ b}.ncard = 2 ^ b := by
  have hinj : Set.InjOn UInt64.toNat {s | s.toNat < 2 ^ b} := by
    intro s _ t _ h
    exact UInt64.toNat_inj.mp h
  have himage : UInt64.toNat '' {s | s.toNat < 2 ^ b} = Set.Iio (2 ^ b) := by
    ext v
    constructor
    · rintro ⟨s, hs, rfl⟩
      exact hs
    · intro hv
      have hword : (UInt64.ofNat v).toNat = v :=
        Nat.mod_eq_of_lt (lt_of_lt_of_le hv (Nat.pow_le_pow_right (by decide) hb))
      exact ⟨UInt64.ofNat v, hword.trans_lt hv, hword⟩
  rw [← hinj.ncard_image, himage, ← Finset.coe_Iio, Set.ncard_coe_finset, Nat.card_Iio]

theorem ncard_range_counts : (Set.range r.counts).ncard = 2 ^ r.bits := by
  have hpow : 2 ^ r.bits ≤ 2 ^ 64 := Nat.pow_le_pow_right (by decide) r.bits_le
  have hrange : Set.range r.counts = r.counts '' {s | s.toNat < 2 ^ r.bits} := by
    apply Set.Subset.antisymm
    · rintro _ ⟨s, rfl⟩
      have hlt := Nat.mod_lt s.toNat (Nat.two_pow_pos r.bits)
      have hword : (UInt64.ofNat (s.toNat % 2 ^ r.bits)).toNat = s.toNat % 2 ^ r.bits :=
        Nat.mod_eq_of_lt (hlt.trans_le hpow)
      refine ⟨UInt64.ofNat (s.toNat % 2 ^ r.bits), hword.trans_lt hlt, ?_⟩
      rw [counts_eq_iff, hword, Nat.mod_mod]
    · exact Set.image_subset_range _ _
  have hinj : Set.InjOn r.counts {s | s.toNat < 2 ^ r.bits} := by
    intro s hs t ht h
    rw [counts_eq_iff, Nat.mod_eq_of_lt hs, Nat.mod_eq_of_lt ht] at h
    exact UInt64.toNat_inj.mp h
  rw [hrange, hinj.ncard_image, ncard_toNat_lt r.bits_le]

theorem of_exponent_eq_ok {limit : CountLimit} {value : UInt64} {b : Fin 64}
    (h : exponent limit value = .ok b) : value.toNat = 2 ^ b.val := by
  unfold exponent at h
  split_ifs at h with hpower
  rw [← Except.ok.inj h, ← Nat.one_shiftLeft]
  exact hpower.2.symm

theorem of_new_eq_ok {g : γ} {maxJumps maxLeaps : UInt64} {r : Stepping γ}
    (h : new g maxJumps maxLeaps = .ok r) :
    r.generator = g ∧ maxJumps.toNat = 2 ^ r.jumpBits.val ∧ maxLeaps.toNat = 2 ^ r.leapBits.val := by
  unfold new at h
  cases hjumps : exponent .jumps maxJumps with
  | error e => simp [hjumps, bind, Except.bind] at h
  | ok jumpBits =>
    cases hleaps : exponent .leaps maxLeaps with
    | error e => simp [hjumps, hleaps, bind, Except.bind] at h
    | ok leapBits =>
      simp only [hjumps, hleaps, bind, Except.bind] at h
      split_ifs at h with hfits
      obtain rfl := Except.ok.inj h
      exact ⟨rfl, of_exponent_eq_ok hjumps, of_exponent_eq_ok hleaps⟩

theorem repeat_eq_iterate {α : Type} (f : α → α) (n : ℕ) (a : α) : Nat.repeat f n a = f^[n] a := by
  induction n with
  | zero => rfl
  | succ n ih => rw [Nat.repeat, ih, Function.iterate_succ_apply']

theorem renewWord_generator [Leapable γ] (s : UInt64) :
    (r.renewWord s).1 =
      { r with
        generator :=
          Leapable.leap^[(fieldCounts r.jumpBits r.leapBits s.toNat).2]
            (Leapable.jump^[(fieldCounts r.jumpBits r.leapBits s.toNat).1] r.generator) } := by
  simp only [renewWord, repeat_eq_iterate, ← toNat_counts]

/-- The number that the bytes for `n` bits of a seed spell, the highest first; zeros stand for
bytes that are missing. -/
def spelled (n : ℕ) (seed : Bytes) : ℕ := Bytes.toNatBE (Bytes.fit (max 1 ((n + 7) / 8)) seed)

/-- The bytes for both fields fit a word. -/
theorem spelled_lt {n : ℕ} (hn : n ≤ 64) (seed : Bytes) : spelled n seed < UInt64.size := by
  have hlt := Bytes.toNatBE_lt (Bytes.fit (max 1 ((n + 7) / 8)) seed)
  rw [Bytes.length_fit] at hlt
  exact hlt.trans_le (Nat.pow_le_pow_right (by decide) (show max 1 ((n + 7) / 8) ≤ 8 by omega))

theorem renew_eq_renewWord [Leapable γ] (seed : Bytes) :
    r.renew seed = r.renewWord (UInt64.ofNat (spelled r.bits seed)) := by
  rw [renew, width, spelled, max_comm]

theorem toInt_claimedBits [Generator γ] [Leapable γ] : (Renewable.claimedBits r).toInt = r.bits := by
  have hbits := r.bits_le
  exact Int64.toInt_ofNat_of_lt (by omega)

/-- With fields of `j` and `l` bits, a renewal makes as many short and then as many long skips as
the fields of its seed count, and the same as the renewal from the word that the seed spells.
Whichever seed it is, some skip is made; seeds count alike exactly if their fields agree; and the
number of pairs of counts is what a renewal is credited with. -/
theorem renew_counted [Generator γ] [Leapable γ] {g : γ} {maxJumps maxLeaps : UInt64}
    {r : Stepping γ} (hnew : new g maxJumps maxLeaps = .ok r) :
    ∃ j l : ℕ, maxJumps.toNat = 2 ^ j ∧ maxLeaps.toNat = 2 ^ l ∧ j + l ≤ 64 ∧
      (∀ seed : Bytes,
        (Renewable.renew r seed).1 =
          { r with
            generator :=
              Leapable.leap^[(fieldCounts j l (spelled (j + l) seed)).2]
                (Leapable.jump^[(fieldCounts j l (spelled (j + l) seed)).1] g) } ∧
        spelled (j + l) seed < UInt64.size ∧
        Renewable.renew r seed = Renewable.renewWord r (UInt64.ofNat (spelled (j + l) seed))) ∧
      (∀ s : UInt64, ((r.counts s).1.toNat, (r.counts s).2.toNat) = fieldCounts j l s.toNat) ∧
      (∀ s t : UInt64,
        r.counts s = r.counts t ↔ s.toNat % 2 ^ (j + l) = t.toNat % 2 ^ (j + l)) ∧
      (∀ s : UInt64, 0 < (r.counts s).1.toNat + (r.counts s).2.toNat) ∧
      (∀ s : UInt64, r.counts s = (0, maxLeaps) ↔ s.toNat % 2 ^ (j + l) = 0) ∧
      (Set.range r.counts).ncard = 2 ^ (j + l) ∧
      (Renewable.claimedBits r).toInt = j + l := by
  obtain ⟨rfl, hjumps, hleaps⟩ := of_new_eq_ok hnew
  refine ⟨r.jumpBits, r.leapBits, hjumps, hleaps, r.fits, ?_, r.toNat_counts, r.counts_eq_iff, ?_,
    ?_, r.ncard_range_counts, r.toInt_claimedBits⟩
  · intro seed
    have hlt : spelled r.bits seed < UInt64.size := spelled_lt r.bits_le seed
    refine ⟨?_, hlt, r.renew_eq_renewWord seed⟩
    change (r.renew seed).1 = _
    rw [renew_eq_renewWord, renewWord_generator, UInt64.toNat_ofNat_of_lt' hlt]
    rfl
  · intro s
    have hpos := fieldCounts_pos r.jumpBits r.leapBits s.toNat
    rwa [← toNat_counts] at hpos
  · intro s
    have hzero : r.counts 0 = (0, maxLeaps) := by
      have hlimit : r.maxLeaps = maxLeaps :=
        UInt64.toNat_inj.mp (r.toNat_maxLeaps.trans hleaps.symm)
      simp [counts, hlimit]
    rw [← hzero, counts_eq_iff, UInt64.toNat_zero, Nat.zero_mod]
    rfl

/-- Fields of two and three bits in one byte: one short and two long skips. -/
theorem renew_counted_byte :
    ∃ r : Stepping Xoshiro, new ⟨1, 2, 3, 4⟩ 4 8 = .ok r ∧
      (Renewable.renew r [0b1001]).1.generator =
        Leapable.leap (Leapable.leap (Leapable.jump (⟨1, 2, 3, 4⟩ : Xoshiro))) := by
  have hnew : new (⟨1, 2, 3, 4⟩ : Xoshiro) 4 8 = .ok ⟨⟨1, 2, 3, 4⟩, 2, 3, by decide⟩ := rfl
  obtain ⟨j, l, hj, hl, -, hrenew, -⟩ := renew_counted hnew
  obtain rfl : 2 = j := Nat.pow_right_injective le_rfl hj
  obtain rfl : 3 = l := Nat.pow_right_injective le_rfl hl
  have hcounts : fieldCounts 2 3 (spelled (2 + 3) [0b1001]) = (1, 2) := rfl
  refine ⟨_, hnew, ?_⟩
  rw [(hrenew [0b1001]).1, hcounts]
  simp

end EntropySupply.Stepping
