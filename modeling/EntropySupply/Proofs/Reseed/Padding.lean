import EntropySupply.Proofs.Bytes
import EntropySupply.Proofs.Generator.Skips
import EntropySupply.Reseed.Mixing
import EntropySupply.Reseed.Replacing
import EntropySupply.Reseed.Skip
import EntropySupply.Reseed.Skipping
import EntropySupply.Reseed.Stepping
import Mathlib.Tactic

/-!
# Seeds of other lengths

A renewal asks for a seed of a certain length. Whatever is longer counts up to that length, and
whatever is shorter should count as followed by zeros. Main statement: `renew_pads`, all ways of
renewing read a seed like that except for skipping, which reads a short seed whose last part is cut
off and not zero as another distance.
-/

namespace EntropySupply

namespace Bytes

variable {n : ℕ} {b : Bytes}

theorem fit_of_length_le (h : b.length ≤ n) :
    fit n b = b ++ List.replicate (n - b.length) 0 := by
  rw [fit, List.take_of_length_le h]

theorem fit_of_le_length (h : n ≤ b.length) : fit n b = b.take n := by
  rw [fit, Nat.sub_eq_zero_of_le h, List.replicate_zero, List.append_nil]

end Bytes

namespace Binary64

theorem scaled_ne {v k shift : ℕ} (hv : v ≠ 0) (hk : k ≠ 0) (hlt : 256 ^ k * v < 2 ^ 53)
    (hfin : (256 ^ k * v).log2 + shift < 1024) :
    scaled v shift ≠ scaled (256 ^ k * v) shift := by
  have hpow : 256 ≤ 256 ^ k := Nat.le_self_pow hk 256
  have hle : v ≤ 256 ^ k * v := Nat.le_mul_of_pos_left v (by omega)
  have hne : 256 ^ k * v ≠ 0 := by omega
  have hlog : v.log2 < (256 ^ k * v).log2 := by
    refine Nat.lt_of_succ_le ((Nat.le_log2 hne).mpr ?_)
    calc 2 ^ (v.log2 + 1) = 2 ^ v.log2 * 2 := pow_succ _ _
      _ ≤ v * 2 := Nat.mul_le_mul_right 2 (Nat.log2_self_le hv)
      _ ≤ v * 256 ^ k := Nat.mul_le_mul_left v (by omega)
      _ = 256 ^ k * v := Nat.mul_comm _ _
  intro heq
  have hexp := exponent_scaled hne hlt hfin
  rw [← heq, exponent_scaled hv (by omega) (by omega)] at hexp
  omega

end Binary64

namespace Skipping

theorem distances_append (i : ℕ) (xs ys : List Bytes) :
    distances i (xs ++ ys) = distances i xs ++ distances (i + xs.length) ys := by
  induction xs generalizing i with
  | nil => rfl
  | cons x xs ih =>
    rw [List.cons_append, distances, distances, ih, List.length_cons,
      show i + 1 + xs.length = i + (xs.length + 1) by omega]
    split_ifs
    · rfl
    · rfl

theorem distances_zeros {parts : List Bytes} (h : ∀ p ∈ parts, Bytes.toNatBE p = 0) (i : ℕ) :
    distances i parts = [] := by
  induction parts generalizing i with
  | nil => rfl
  | cons p parts ih =>
    rw [distances, if_pos (h p List.mem_cons_self)]
    exact ih (fun q hq => h q (List.mem_cons_of_mem p hq)) (i + 1)

/-- The rest of a seed behind its last whole part. -/
def stub (seed : Bytes) : Bytes := seed.drop (partBytes * (seed.length / partBytes))

theorem length_stub (seed : Bytes) : (stub seed).length = seed.length % partBytes := by
  rw [stub, List.length_drop]
  have := Nat.div_add_mod seed.length partBytes
  omega

/-- Zeros behind a last part fill it up first, and then stand for no distance. -/
theorem distances_stub (i : ℕ) {part : Bytes} (hlen : part.length ≤ partBytes) (m : ℕ) :
    distances i (Bytes.chunks partBytes (part ++ List.replicate m 0)) =
      distances i [part ++ List.replicate (min (partBytes - part.length) m) 0] := by
  by_cases hnil : part ++ List.replicate m 0 = []
  · obtain ⟨rfl, hm⟩ := List.append_eq_nil_iff.mp hnil
    have hm : m = 0 := by simpa using hm
    rw [hnil, hm, Nat.min_zero, Bytes.chunks_nil]
    rfl
  · have hzeros (n j : ℕ) : distances j (Bytes.chunks partBytes (List.replicate n 0)) = [] :=
      distances_zeros (fun p hp => Bytes.mem_chunks_zeros hp) j
    rw [Bytes.chunks_eq_cons (by decide) hnil, List.take_append, List.take_of_length_le hlen,
      List.take_replicate, List.drop_append, List.drop_of_length_le hlen, List.nil_append,
      List.drop_replicate, ← List.singleton_append, distances_append, hzeros, List.append_nil]

/-- The distances of a seed that zeros follow: those of its whole parts, and the one of its stub as
far as the zeros fill it up. -/
theorem distancesOf_zeros (seed : Bytes) (m : ℕ) :
    distancesOf (seed ++ List.replicate m 0) =
      distancesOf (seed.take (partBytes * (seed.length / partBytes))) ++
        distances (seed.length / partBytes)
          [stub seed ++ List.replicate (min (partBytes - (stub seed).length) m) 0] := by
  have hmod := Nat.mod_lt seed.length (show 0 < partBytes by decide)
  have hlen : (seed.take (partBytes * (seed.length / partBytes))).length =
      partBytes * (seed.length / partBytes) :=
    List.length_take_of_le (Nat.mul_div_le _ _)
  obtain ⟨hcut, hcount⟩ :=
    Bytes.chunks_append (by decide) hlen (stub seed ++ List.replicate m 0)
  have hseed : seed ++ List.replicate m 0 =
      seed.take (partBytes * (seed.length / partBytes)) ++ (stub seed ++ List.replicate m 0) := by
    rw [stub, ← List.append_assoc, List.take_append_drop]
  rw [distancesOf, hseed, hcut, distances_append, hcount, Nat.zero_add,
    distances_stub _ ((length_stub seed).trans_le hmod.le)]
  rfl

theorem distancesOf_eq (seed : Bytes) :
    distancesOf seed =
      distancesOf (seed.take (partBytes * (seed.length / partBytes))) ++
        distances (seed.length / partBytes) [stub seed] := by
  have h := distancesOf_zeros seed 0
  rwa [List.replicate_zero, List.append_nil, Nat.min_zero, List.replicate_zero,
    List.append_nil] at h

theorem toNatBE_filled (part : Bytes) (k : ℕ) :
    Bytes.toNatBE (part ++ List.replicate k 0) = 256 ^ k * Bytes.toNatBE part := by
  rw [Bytes.toNatBE_append, Bytes.toNatBE_zeros, List.length_replicate, Nat.add_zero]

theorem distances_filled_ne {i k : ℕ} {part : Bytes} (hv : Bytes.toNatBE part ≠ 0) (hk : k ≠ 0)
    (hlen : part.length + k ≤ partBytes) (hfin : 8 * (partBytes * i + part.length + k) ≤ 1024) :
    distances i [part ++ List.replicate k 0] ≠ distances i [part] := by
  have hne : 256 ^ k * Bytes.toNatBE part ≠ 0 := by positivity
  have hlt := Bytes.toNatBE_lt (part ++ List.replicate k 0)
  rw [toNatBE_filled, List.length_append, List.length_replicate, Bytes.byte_pow (_ + k)] at hlt
  have hlog := (Nat.log2_lt hne).mpr hlt
  unfold partBytes at hlen hfin
  simp only [distances, toNatBE_filled, if_neg hne, if_neg hv]
  intro heq
  refine Binary64.scaled_ne hv hk (hlt.trans_le ?_) ?_ (List.cons.inj heq).1.symm
  · exact Nat.pow_le_pow_right (by decide) (by omega)
  · unfold partBytes
    omega

theorem distancesOf_zeros_of_stub {seed : Bytes} (h : Bytes.toNatBE (stub seed) = 0) (m : ℕ) :
    distancesOf (seed ++ List.replicate m 0) = distancesOf seed := by
  rw [distancesOf_zeros, distancesOf_eq seed]
  simp only [distances, toNatBE_filled, h, Nat.mul_zero]

theorem distancesOf_zeros_ne {seed : Bytes} (h : Bytes.toNatBE (stub seed) ≠ 0) {m : ℕ}
    (hm : m ≠ 0) (hfin : 8 * (seed.length + m) ≤ 1024) :
    distancesOf (seed ++ List.replicate m 0) ≠ distancesOf seed := by
  have hmod := Nat.mod_lt seed.length (show 0 < partBytes by decide)
  have hstub := length_stub seed
  have hdiv := Nat.div_add_mod seed.length partBytes
  rw [distancesOf_zeros, distancesOf_eq seed]
  intro heq
  exact distances_filled_ne h (by omega) (by omega) (by omega) (List.append_cancel_left heq)

/-- The distances that a renewal makes of a seed, and of the seed with the zeros that are missing,
agree exactly if there is nothing missing or nothing to be shifted. -/
theorem distancesOf_fit_iff {n : ℕ} (hn : 8 * n ≤ 1024) (seed : Bytes) :
    distancesOf (seed.take n) = distancesOf (Bytes.fit n seed) ↔
      n ≤ seed.length ∨ Bytes.toNatBE (stub seed) = 0 := by
  rcases Nat.lt_or_ge seed.length n with hshort | hlong
  · rw [Bytes.fit_of_length_le hshort.le, List.take_of_length_le hshort.le]
    constructor
    · intro heq
      by_contra hcut
      rw [not_or] at hcut
      exact distancesOf_zeros_ne hcut.2 (by omega) (by omega) heq.symm
    · rintro (hlong | hstub)
      · omega
      · exact (distancesOf_zeros_of_stub hstub _).symm
  · rw [Bytes.fit_of_le_length hlong]
    exact iff_of_true rfl (.inl hlong)

end Skipping

/-- Whether a renewal reads a seed as if it were cut, or filled up with zeros, to the length that is
asked for. -/
def Renewable.Pads {γ : Type} [Renewable γ] (g : γ) (seed : Bytes) : Prop :=
  (Renewable.renew g seed).1 = (Renewable.renew g (Bytes.fit (Renewable.seedBytes g) seed)).1

theorem Replacing.pads {α : Type} [Seedable α] (r : Replacing α) (seed : Bytes) :
    Renewable.Pads r seed := by
  change ofSeed seed = ofSeed (Bytes.fit (Seedable.seedLength α) seed)
  rw [ofSeed, ofSeed, Bytes.fit_of_length_eq (Bytes.length_fit _ seed)]

theorem Stepping.pads {α : Type} [Generator α] [Leapable α] (r : Stepping α) (seed : Bytes) :
    Renewable.Pads r seed := by
  change (renew r seed).1 = (renew r (Bytes.fit r.width seed)).1
  rw [renew, renew, Bytes.fit_of_length_eq (Bytes.length_fit _ seed)]

namespace Mixing

theorem fold_append (state : Bytes) (i : ℕ) (a b : Bytes) :
    fold state i (a ++ b) = fold (fold state i a) (i + a.length) b := by
  induction a generalizing state i with
  | nil => rfl
  | cons d a ih =>
    rw [List.cons_append, fold, fold, ih, List.length_cons,
      show i + 1 + a.length = i + (a.length + 1) by omega]

theorem fold_zeros (state : Bytes) (i n : ℕ) : fold state i (List.replicate n 0) = state := by
  induction n generalizing i with
  | zero => rfl
  | succ n ih =>
    have hsame : (· ^^^ (0 : UInt8)) = id := funext fun d => UInt8.xor_zero
    rw [List.replicate_succ, fold, hsame, List.modify_id, ih]

theorem pads {α : Type} [Seedable α] (r : Mixing α) (seed : Bytes) : Renewable.Pads r seed := by
  change (renew r seed).1 = (renew r (Bytes.fit r.seedBytes.toNat seed)).1
  have hfit : (Bytes.fit r.seedBytes.toNat seed).take r.seedBytes.toNat =
      seed.take r.seedBytes.toNat ++ List.replicate (r.seedBytes.toNat - seed.length) 0 :=
    List.take_of_length_le (Bytes.length_fit _ seed).le
  rw [renew, renew, hfit]
  simp only [fold_append, fold_zeros]

end Mixing

namespace Skipping

theorem pads {α : Type} [Generator α] [Skippable α] (r : Skipping α) {seed : Bytes}
    (h : r.seedBytes.toNat ≤ seed.length ∨ Bytes.toNatBE (stub seed) = 0) :
    Renewable.Pads r seed := by
  have hfit : (Bytes.fit r.seedBytes.toNat seed).take r.seedBytes.toNat =
      Bytes.fit r.seedBytes.toNat seed :=
    List.take_of_length_le (Bytes.length_fit _ seed).le
  have hsame : distancesOf (seed.take r.seedBytes.toNat) =
      distancesOf (Bytes.fit r.seedBytes.toNat seed) := by
    rcases h with hlong | hstub
    · rw [Bytes.fit_of_le_length hlong]
    · rcases Nat.le_total seed.length r.seedBytes.toNat with hshort | hlong
      · rw [Bytes.fit_of_length_le hshort, List.take_of_length_le hshort,
          distancesOf_zeros_of_stub hstub]
      · rw [Bytes.fit_of_le_length hlong]
  change (renew r seed).1 = (renew r (Bytes.fit r.seedBytes.toNat seed)).1
  simp only [renew, hfit, hsame]

end Skipping

/-- Three ways of renewing read every seed as if it had the right length. Skipping does so too,
except for a seed that ends in the middle of a part and not with zeros: the part then stands for a
distance of its own. -/
theorem renew_pads (seed : Bytes) :
    (∀ (α : Type) [Seedable α] (r : Replacing α), Renewable.Pads r seed) ∧
    (∀ (α : Type) [Generator α] [Leapable α] (r : Stepping α), Renewable.Pads r seed) ∧
    (∀ (α : Type) [Seedable α] (r : Mixing α), Renewable.Pads r seed) ∧
    (∀ (α : Type) [Generator α] [Skippable α] (r : Skipping α),
      (r.seedBytes.toNat ≤ seed.length ∨ Bytes.toNatBE (Skipping.stub seed) = 0 →
        Renewable.Pads r seed) ∧
      (8 * r.seedBytes.toNat ≤ 1024 →
        (Skipping.distancesOf (seed.take r.seedBytes.toNat) =
            Skipping.distancesOf (Bytes.fit r.seedBytes.toNat seed) ↔
          r.seedBytes.toNat ≤ seed.length ∨ Bytes.toNatBE (Skipping.stub seed) = 0))) := by
  refine ⟨?_, ?_, ?_, ?_⟩
  · intro α _ r
    exact r.pads seed
  · intro α _ _ r
    exact r.pads seed
  · intro α _ r
    exact r.pads seed
  · intro α _ _ r
    exact ⟨r.pads, fun hn => Skipping.distancesOf_fit_iff hn seed⟩

/-- A permuted congruential generator that is to be renewed from two bytes. -/
def Skipping.pair : Skipping Pcg64 := ⟨⟨0, 1⟩, 2⟩

/-- One byte in place of two skips by 1, and the same byte followed by a zero skips by 256. -/
theorem not_pads_byte :
    Skipping.new (⟨0, 1⟩ : Pcg64) 2 = .ok Skipping.pair ∧
      ¬Renewable.Pads Skipping.pair [1] := by
  refine ⟨rfl, ?_⟩
  intro h
  have hstate := congrArg (fun r : Skipping Pcg64 => r.generator.state) h
  revert hstate
  decide +kernel

end EntropySupply
