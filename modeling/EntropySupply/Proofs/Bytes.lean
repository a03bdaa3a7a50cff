import EntropySupply.Bytes
import Mathlib.Data.Set.Card
import Mathlib.Tactic

/-!
# Byte strings as numerals

Read with the most significant byte first, the strings of `n` bytes are the numbers below
`256 ^ n`, each of them once. A string cut into pieces is its windows of one length, one after
another.
-/

namespace EntropySupply.Bytes

theorem byte_pow (n : ℕ) : 256 ^ n = 2 ^ (8 * n) := by
  rw [pow_mul]
  norm_num

@[simp] theorem toNatBE_nil : toNatBE [] = 0 := rfl

theorem toNatBE_snoc (b : Bytes) (d : UInt8) : toNatBE (b ++ [d]) = 256 * toNatBE b + d.toNat := by
  simp [toNatBE]

theorem toNatBE_append (a b : Bytes) :
    toNatBE (a ++ b) = 256 ^ b.length * toNatBE a + toNatBE b := by
  induction b using List.reverseRecOn with
  | nil => simp
  | append_singleton b d ih =>
    simp only [← List.append_assoc, toNatBE_snoc, ih, List.length_append, List.length_singleton,
      pow_succ]
    ring

@[simp] theorem toNatBE_zeros (n : ℕ) : toNatBE (List.replicate n 0) = 0 := by
  induction n with
  | zero => rfl
  | succ n ih => simp [List.replicate_succ', toNatBE_snoc, ih]

theorem toNatBE_lt (b : Bytes) : toNatBE b < 256 ^ b.length := by
  induction b using List.reverseRecOn with
  | nil => simp
  | append_singleton b d ih =>
    have hd := d.toNat_lt
    simp only [toNatBE_snoc, List.length_append, List.length_singleton, pow_succ]
    omega

theorem toNatBE_inj {a b : Bytes} (hlen : a.length = b.length) (h : toNatBE a = toNatBE b) :
    a = b := by
  induction a using List.reverseRecOn generalizing b with
  | nil => exact (List.length_eq_zero_iff.mp hlen.symm).symm
  | append_singleton a d ih =>
    rcases List.eq_nil_or_concat' b with rfl | ⟨b, e, rfl⟩
    · simp at hlen
    · have hd := d.toNat_lt
      have he := e.toNat_lt
      simp only [toNatBE_snoc] at h
      have hbyte : d = e := UInt8.toNat_inj.mp (by omega)
      rw [ih (by simpa using hlen) (by omega), hbyte]

theorem exists_toNatBE {n v : ℕ} (h : v < 256 ^ n) : ∃ b : Bytes, b.length = n ∧ toNatBE b = v := by
  induction n generalizing v with
  | zero => exact ⟨[], rfl, by simp at h; simp [h]⟩
  | succ n ih =>
    obtain ⟨b, hlen, hval⟩ := ih (v := v / 256) (by rw [pow_succ] at h; omega)
    refine ⟨b ++ [UInt8.ofNat (v % 256)], by simp [hlen], ?_⟩
    have hbyte : (UInt8.ofNat (v % 256)).toNat = v % 256 :=
      UInt8.toNat_ofNat_of_lt' (Nat.mod_lt v (by decide))
    rw [toNatBE_snoc, hval, hbyte]
    omega

/-- There are as many strings of `n` bytes as numbers below `256 ^ n`. -/
theorem ncard_length_eq (n : ℕ) : {b : Bytes | b.length = n}.ncard = 256 ^ n := by
  have hinj : Set.InjOn toNatBE {b : Bytes | b.length = n} := by
    intro a ha b hb h
    exact toNatBE_inj (ha.trans hb.symm) h
  have himage : toNatBE '' {b : Bytes | b.length = n} = Set.Iio (256 ^ n) := by
    ext v
    constructor
    · rintro ⟨b, rfl, rfl⟩
      exact toNatBE_lt b
    · intro hv
      exact exists_toNatBE hv
  rw [← hinj.ncard_image, himage, ← Finset.coe_Iio, Set.ncard_coe_finset, Nat.card_Iio]

variable {n : ℕ} {a b : Bytes}

@[simp] theorem chunks_nil (n : ℕ) : chunks n [] = [] := by
  rw [chunks]

theorem chunks_eq_cons (hn : n ≠ 0) (hb : b ≠ []) : chunks n b = b.take n :: chunks n (b.drop n) := by
  obtain ⟨n, rfl⟩ := Nat.exists_eq_succ_of_ne_zero hn
  cases b with
  | nil => exact absurd rfl hb
  | cons x xs => rw [chunks]; rfl

/-- Whole pieces in front are cut off by themselves. -/
theorem chunks_append (hn : n ≠ 0) {k : ℕ} (ha : a.length = n * k) (b : Bytes) :
    chunks n (a ++ b) = chunks n a ++ chunks n b ∧ (chunks n a).length = k := by
  induction k generalizing a with
  | zero =>
    have hnil : a = [] := List.length_eq_zero_iff.mp ha
    rw [hnil, List.nil_append, chunks_nil]
    exact ⟨rfl, rfl⟩
  | succ k ih =>
    have hlen : a.length = n * k + n := ha
    have hne : a ≠ [] := by
      rintro rfl
      rw [List.length_nil] at hlen
      omega
    obtain ⟨hrest, hcount⟩ := ih (a := a.drop n) (by rw [List.length_drop]; omega)
    rw [chunks_eq_cons hn (List.append_ne_nil_of_left_ne_nil hne b), chunks_eq_cons hn hne,
      List.take_append_of_le_length (by omega), List.drop_append_of_le_length (by omega), hrest,
      List.length_cons, hcount]
    exact ⟨rfl, rfl⟩

theorem mem_chunks_zeros {m : ℕ} {p : Bytes} (h : p ∈ chunks n (List.replicate m 0)) :
    toNatBE p = 0 := by
  have hp : ∀ d ∈ p, d = 0 := by
    intro d hd
    refine List.eq_of_mem_replicate (n := m) ?_
    rw [← flatten_chunks n (List.replicate m 0)]
    exact List.mem_flatten.mpr ⟨p, h, hd⟩
  rw [List.eq_replicate_of_mem hp]
  exact toNatBE_zeros _

end EntropySupply.Bytes
