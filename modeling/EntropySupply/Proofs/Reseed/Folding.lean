import EntropySupply.Generator.Congruential
import EntropySupply.Proofs.Bytes
import EntropySupply.Proofs.Reseed.Padding
import EntropySupply.Reseed.Mixing
import Mathlib.Tactic

/-!
# Folding seeds

Mixing wraps a seed around the output of the generator, byte by byte, and combines what falls on
one byte by exclusive or. Under one seed no two outputs are mixed to the same bytes; under one
output a seed reaches every combination of the bytes that it covers. Main statement: `renew_mixed`,
the generator is built anew from such a combination, and there are enough of them for what a
renewal may be credited with.
-/

namespace EntropySupply.Mixing

/-- The exclusive or of the bytes of a seed whose numbers leave the remainder `j` on division by
`n`, when the first byte has the number `i`. -/
def column (n j i : ℕ) (seed : Bytes) : UInt8 :=
  ((seed.zipIdx i).filter fun p => p.2 % n = j).foldr (fun p rest => p.1 ^^^ rest) 0

/-- The bytes of an output, each combined with its column of the seed. -/
def mixed (own seed : Bytes) : Bytes := own.mapIdx fun j d => d ^^^ column own.length j 0 seed

variable {n : ℕ} {own own' seed : Bytes}

@[simp] theorem column_nil (n j i : ℕ) : column n j i [] = 0 := rfl

theorem column_cons (n j i : ℕ) (b : UInt8) (seed : Bytes) :
    column n j i (b :: seed) = (if i % n = j then b else 0) ^^^ column n j (i + 1) seed := by
  by_cases h : i % n = j <;> simp [column, List.zipIdx_cons, h]

/-- A seed that is not wrapped has one byte in each column that it covers. -/
theorem column_short {j i : ℕ} (h : i + seed.length ≤ n) :
    column n j i seed = if i ≤ j then seed.getD (j - i) 0 else 0 := by
  induction seed generalizing i with
  | nil => simp
  | cons b seed ih =>
    rw [List.length_cons] at h
    rw [column_cons, ih (by omega), Nat.mod_eq_of_lt (by omega)]
    rcases Nat.lt_trichotomy i j with hlt | rfl | hgt
    · obtain ⟨k, rfl⟩ := Nat.exists_eq_add_of_lt hlt
      have hnext : i + k + 1 - (i + 1) = k := by omega
      have hhere : i + k + 1 - i = k + 1 := by omega
      simp [hnext, hhere, show i ≠ i + k + 1 by omega, show i + 1 ≤ i + k + 1 by omega,
        show i ≤ i + k + 1 by omega]
    · simp
    · simp [show i ≠ j by omega, show ¬i + 1 ≤ j by omega, show ¬i ≤ j by omega]

theorem getElem?_fold (state : Bytes) (i : ℕ) (seed : Bytes) (j : ℕ) :
    (fold state i seed)[j]? = state[j]?.map (· ^^^ column state.length j i seed) := by
  induction seed generalizing state i with
  | nil => simp [fold]
  | cons b seed ih =>
    rw [fold, ih, List.length_modify, List.getElem?_modify, column_cons]
    by_cases h : i % state.length = j
    · simp [h, Function.comp_def, UInt8.xor_assoc]
    · simp [h]

/-- Folding a seed over an output combines every byte with its column. -/
theorem fold_eq_mixed (own seed : Bytes) : fold own 0 seed = mixed own seed := by
  apply List.ext_getElem?
  intro j
  rw [getElem?_fold, mixed, List.getElem?_mapIdx]

@[simp] theorem length_mixed (own seed : Bytes) : (mixed own seed).length = own.length := by
  simp [mixed]

theorem getElem?_mixed (own seed : Bytes) (j : ℕ) :
    (mixed own seed)[j]? = own[j]?.map (· ^^^ column own.length j 0 seed) :=
  List.getElem?_mapIdx

theorem getElem?_mixed_short (h : seed.length ≤ own.length) (j : ℕ) :
    (mixed own seed)[j]? = own[j]?.map (· ^^^ seed.getD j 0) := by
  rw [getElem?_mixed, column_short (by omega)]
  simp

theorem mixed_left_inj (hlen : own.length = own'.length) (h : mixed own seed = mixed own' seed) :
    own = own' := by
  apply List.ext_getElem hlen
  intro j hj hj'
  have hbyte : (mixed own seed)[j]? = (mixed own' seed)[j]? := by rw [h]
  simpa [mixed, hlen, hj, hj'] using hbyte

theorem mixed_right_inj (hn : n ≤ own.length) :
    Set.InjOn (mixed own) {seed : Bytes | seed.length = n} := by
  intro a ha b hb h
  apply List.ext_getElem (ha.trans hb.symm)
  intro j hj hj'
  have hown : j < own.length := by
    rw [ha] at hj
    omega
  have hbyte : (mixed own a)[j]? = (mixed own b)[j]? := by rw [h]
  rw [getElem?_mixed_short (ha.trans_le hn), getElem?_mixed_short (hb.trans_le hn)] at hbyte
  simpa [hown, hj, hj'] using hbyte

/-- A seed that covers the output reaches all bytes of its length. -/
theorem image_mixed (hn : own.length ≤ n) :
    mixed own '' {seed : Bytes | seed.length = n} = {b : Bytes | b.length = own.length} := by
  apply Set.Subset.antisymm
  · rintro _ ⟨seed, -, rfl⟩
    exact length_mixed own seed
  · intro b hb
    have hlen : (Bytes.xor own b).length = own.length := by
      simp [Bytes.xor, show b.length = own.length from hb]
    refine ⟨Bytes.xor own b ++ List.replicate (n - own.length) 0, ?_, ?_⟩
    · simp [hlen, Nat.add_sub_cancel' hn]
    · rw [← fold_eq_mixed, fold_append, fold_zeros, fold_eq_mixed]
      apply List.ext_getElem ((length_mixed _ _).trans hb.symm)
      intro j hj hj'
      have hown : j < own.length := by simpa using hj
      apply Option.some_inj.mp
      rw [← List.getElem?_eq_getElem, getElem?_mixed_short hlen.le]
      simp [Bytes.xor, hown, hj', ← UInt8.xor_assoc]

theorem ncard_mixed (own : Bytes) (n : ℕ) :
    (mixed own '' {seed : Bytes | seed.length = n}).ncard = 256 ^ min n own.length := by
  rcases Nat.le_total n own.length with hshort | hlong
  · rw [(mixed_right_inj hshort).ncard_image, Bytes.ncard_length_eq, min_eq_left hshort]
  · rw [image_mixed hlong, Bytes.ncard_length_eq, min_eq_right hlong]

variable {γ : Type} [Seedable γ]

theorem of_new_eq_ok {g : γ} {n : UInt64} {claimed : Int64} {r : Mixing γ}
    (h : new g n claimed = .ok r) :
    r = ⟨g, n, claimed⟩ ∧ claimed ≤ 8 * Int64.ofNat (min n.toNat (Seedable.seedLength γ)) := by
  simp only [new] at h
  split_ifs at h with hempty hmost
  exact ⟨(Except.ok.inj h).symm, Int64.not_lt.mp hmost⟩

theorem toInt_bits_le (m : ℕ) : (8 * Int64.ofNat m).toInt ≤ 8 * m := by
  have hword : 8 * Int64.ofNat m = Int64.ofNat (8 * m) := by
    rw [Int64.ofNat_mul]
    rfl
  have hmod : ((8 * m : ℕ) : ℤ) % (Int64.size : ℕ) ≤ (8 * m : ℕ) := by
    exact_mod_cast Nat.mod_le (8 * m) Int64.size
  rw [hword, Int64.toInt_ofNat', Int.bmod_eq_emod]
  split_ifs <;> omega

/-- A renewal builds the generator from its next output, each byte combined with all used bytes of
the seed that fall on it. Under one seed, states that are mixed to the same bytes would have put out
the same bytes; under one state, the seeds of the length that is asked for are mixed to as many
strings as the shorter of seed and output has, no fewer than the credited bits tell apart. -/
theorem renew_mixed {g : γ} {n : UInt64} {claimed : Int64} {r : Mixing γ}
    (hnew : new g n claimed = .ok r) :
    (∀ (h : γ) (seed : Bytes),
      (Renewable.renew { r with generator := h } seed).1 =
        { r with
          generator :=
            Seedable.ofSeed
              (mixed (Generator.fill (Seedable.seedLength γ) h).1 (seed.take n.toNat)) }) ∧
    (∀ (h k : γ) (seed : Bytes),
      mixed (Generator.fill (Seedable.seedLength γ) h).1 (seed.take n.toNat) =
          mixed (Generator.fill (Seedable.seedLength γ) k).1 (seed.take n.toNat) →
        (Generator.fill (Seedable.seedLength γ) h).1 =
          (Generator.fill (Seedable.seedLength γ) k).1) ∧
    (∀ h : γ,
      (mixed (Generator.fill (Seedable.seedLength γ) h).1 ''
        {seed : Bytes | seed.length = n.toNat}).ncard =
          2 ^ (8 * min n.toNat (Seedable.seedLength γ))) ∧
    (2 : ℚ) ^ (Renewable.claimedBits r).toInt ≤
      (2 ^ (8 * min n.toNat (Seedable.seedLength γ)) : ℕ) := by
  obtain ⟨rfl, hmost⟩ := of_new_eq_ok hnew
  refine ⟨?_, ?_, ?_, ?_⟩
  · intro h seed
    change (renew ⟨h, n, claimed⟩ seed).1 = _
    simp only [renew, fold_eq_mixed]
  · intro h k seed heq
    exact mixed_left_inj ((Generator.length_fill _ h).trans (Generator.length_fill _ k).symm) heq
  · intro h
    rw [ncard_mixed, Generator.length_fill, Bytes.byte_pow]
  · have hbits := (Int64.le_iff_toInt_le.mp hmost).trans (toInt_bits_le _)
    change (2 : ℚ) ^ claimed.toInt ≤ _
    calc (2 : ℚ) ^ claimed.toInt
        ≤ 2 ^ ((8 * min n.toNat (Seedable.seedLength γ) : ℕ) : ℤ) :=
          zpow_le_zpow_right₀ one_le_two (by exact_mod_cast hbits)
      _ = (2 ^ (8 * min n.toNat (Seedable.seedLength γ)) : ℕ) := by
          rw [zpow_natCast, Nat.cast_pow, Nat.cast_ofNat]

/-- Seven bytes around an output of five: the last two fall on the first two once more. -/
theorem renew_mixed_wrapped :
    ∃ r : Mixing Congruential, new ⟨3, [], 0, 0⟩ 7 40 = .ok r ∧
      (Renewable.renew r [1, 2, 3, 4, 5, 6, 7]).1.generator =
        Congruential.ofBytes [209, 251, 36, 217, 3] ∧
      (mixed [214, 254, 39, 221, 6] '' {seed : Bytes | seed.length = 7}).ncard = 2 ^ 40 := by
  have hnew : new (⟨3, [], 0, 0⟩ : Congruential) 7 40 = .ok ⟨⟨3, [], 0, 0⟩, 7, 40⟩ := rfl
  have hown : (Generator.fill 5 (⟨3, [], 0, 0⟩ : Congruential)).1 = [214, 254, 39, 221, 6] := by cbv
  obtain ⟨hrenew, -, hcount, -⟩ := renew_mixed hnew
  refine ⟨_, hnew, ?_, ?_⟩
  · rw [hrenew ⟨3, [], 0, 0⟩]
    change Congruential.ofBytes (mixed (Generator.fill 5 (⟨3, [], 0, 0⟩ : Congruential)).1 _) = _
    rw [hown]
    rfl
  · rw [← hown]
    exact hcount ⟨3, [], 0, 0⟩

end EntropySupply.Mixing
