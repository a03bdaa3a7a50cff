import EntropySupply.Whitening
import Mathlib.Tactic

/-!
# Blocks of whitened bytes

The chain in closed form: block `k` is the hash over the block before it, a window of the raw bytes
and `k`, and the windows walk through the raw bytes and start over at their end. Main statement:
`whiten_blockwise`, each whitened byte is a byte of its block, so that fewer bytes are a first part
of more bytes, and whitening keeps as many bytes as it gets only by hashing all of them.
-/

namespace EntropySupply.Whitening

variable {hash : Bytes → Bytes} {raw : Bytes} {n : ℕ}

/-- The windows that the raw bytes are cut into, the last one possibly shorter. -/
def windows (raw : Bytes) : ℕ := (raw.length + windowSize - 1) / windowSize

def windowStart (raw : Bytes) (k : ℕ) : ℕ := windowSize * (k % windows raw)

def window (raw : Bytes) (k : ℕ) : Bytes := (raw.drop (windowStart raw k)).take windowSize

theorem windows_pos (h : raw ≠ []) : 0 < windows raw := by
  have hpos := List.length_pos_iff.mpr h
  unfold windows windowSize
  omega

theorem windowStart_lt (h : raw ≠ []) (k : ℕ) : windowStart raw k < raw.length := by
  have hk := Nat.mod_lt k (windows_pos h)
  unfold windowStart
  unfold windows windowSize at hk ⊢
  omega

/-- The windows follow one another, and the last one is followed by the first. -/
theorem windowStart_succ (h : raw ≠ []) (k : ℕ) :
    windowStart raw (k + 1) =
      if windowStart raw k + windowSize < raw.length then windowStart raw k + windowSize else 0 := by
  have hk := Nat.mod_lt k (windows_pos h)
  have hsucc : (k + 1) % windows raw = (k % windows raw + 1) % windows raw :=
    (Nat.mod_add_mod k (windows raw) 1).symm
  unfold windowStart
  rw [hsucc]
  rcases Nat.lt_or_ge (k % windows raw + 1) (windows raw) with hnext | hlast
  · rw [Nat.mod_eq_of_lt hnext, if_pos]
    · ring
    · unfold windows windowSize at hnext ⊢
      omega
  · have hend : k % windows raw + 1 = windows raw := by omega
    rw [hend, Nat.mod_self, if_neg]
    · rfl
    · unfold windows windowSize at hend ⊢
      omega

theorem length_window (raw : Bytes) (k : ℕ) :
    (window raw k).length = min windowSize (raw.length - windowStart raw k) := by
  rw [window, List.length_take, List.length_drop]

/-- Where the chain stands in the raw bytes ahead of block `k`; at the start if there are none. -/
def offset (raw : Bytes) (k : ℕ) : ℕ := min (windowStart raw k) raw.length

theorem offset_zero (raw : Bytes) : offset raw 0 = 0 := by
  simp [offset, windowStart]

theorem offset_succ (raw : Bytes) (k : ℕ) :
    (if min (offset raw k + windowSize) raw.length = raw.length then 0
      else min (offset raw k + windowSize) raw.length) = offset raw (k + 1) := by
  by_cases hraw : raw = []
  · simp [hraw, offset]
  · have hstart := windowStart_lt hraw k
    have hnext := windowStart_lt hraw (k + 1)
    unfold offset
    rw [Nat.min_eq_left hstart.le, Nat.min_eq_left hnext.le, windowStart_succ hraw]
    split_ifs <;> omega

theorem window_eq (raw : Bytes) (k : ℕ) :
    (raw.take (min (offset raw k + windowSize) raw.length)).drop (offset raw k) = window raw k := by
  by_cases hraw : raw = []
  · simp [hraw, window]
  · have hstart := windowStart_lt hraw k
    unfold offset window
    rw [Nat.min_eq_left hstart.le, List.drop_take, List.take_eq_take_iff, List.length_drop]
    omega

/-- The hash ahead of block `k`, which is the block before it; zeros ahead of the first one. -/
def link (hash : Bytes → Bytes) (raw : Bytes) : ℕ → Bytes
  | 0 => List.replicate blockSize 0
  | k + 1 => hash (link hash raw k ++ window raw k ++ Bytes.ofWordLE (UInt64.ofNat k))

/-- The hash over the block before, the window of `k` and the number `k`. -/
def block (hash : Bytes → Bytes) (raw : Bytes) (k : ℕ) : Bytes := link hash raw (k + 1)

theorem length_block (hh : ∀ m, (hash m).length = blockSize) (raw : Bytes) (k : ℕ) :
    (block hash raw k).length = blockSize := hh _

theorem chain_succ (hash : Bytes → Bytes) (raw : Bytes) (blocks k : ℕ) :
    chain hash raw (blocks + 1) (UInt64.ofNat k) (offset raw k) (link hash raw k) =
      block hash raw k ++
        chain hash raw blocks (UInt64.ofNat (k + 1)) (offset raw (k + 1)) (link hash raw (k + 1)) := by
  simp only [chain, window_eq, offset_succ]
  rw [UInt64.ofNat_add]
  rfl

theorem getElem?_chain (hh : ∀ m, (hash m).length = blockSize) (raw : Bytes) {blocks j : ℕ} (k : ℕ)
    (hj : j < blockSize * blocks) :
    (chain hash raw blocks (UInt64.ofNat k) (offset raw k) (link hash raw k))[j]? =
      (block hash raw (k + j / blockSize))[j % blockSize]? := by
  induction blocks generalizing k j with
  | zero => omega
  | succ blocks ih =>
    have hlen := length_block hh raw k
    rw [chain_succ]
    rcases Nat.lt_or_ge j blockSize with hfirst | hlater
    · rw [List.getElem?_append_left (by omega), Nat.div_eq_of_lt hfirst, Nat.mod_eq_of_lt hfirst]
      rfl
    · obtain ⟨i, rfl⟩ := Nat.exists_eq_add_of_le hlater
      rw [List.getElem?_append_right (by omega), hlen, Nat.add_sub_cancel_left,
        ih (k + 1) (by rw [Nat.mul_succ] at hj; omega), Nat.add_div_left _ (by decide),
        Nat.add_mod_left]
      congr 2
      omega

theorem getElem?_whiten (hh : ∀ m, (hash m).length = blockSize) (raw : Bytes) {j : ℕ}
    (hj : j < n) :
    (whiten hash raw n)[j]? = (block hash raw (j / blockSize))[j % blockSize]? := by
  have hstart : chain hash raw ((n + blockSize - 1) / blockSize) 0 0 (List.replicate blockSize 0) =
      chain hash raw ((n + blockSize - 1) / blockSize) (UInt64.ofNat 0) (offset raw 0)
        (link hash raw 0) := by
    rw [offset_zero]
    rfl
  have hblocks : j < blockSize * ((n + blockSize - 1) / blockSize) := by
    unfold blockSize
    omega
  rw [whiten, List.getElem?_take_of_lt hj, hstart, getElem?_chain hh raw 0 hblocks, Nat.zero_add]

theorem whiten_take (hh : ∀ m, (hash m).length = blockSize) (raw : Bytes) {m : ℕ} (hmn : m ≤ n) :
    whiten hash raw m = (whiten hash raw n).take m := by
  apply List.ext_getElem?
  intro j
  rcases Nat.lt_or_ge j m with hj | hj
  · rw [List.getElem?_take_of_lt hj, getElem?_whiten hh raw hj,
      getElem?_whiten hh raw (hj.trans_le hmn)]
  · rw [List.getElem?_eq_none, List.getElem?_eq_none]
    · exact (List.length_take_le m _).trans hj
    · rw [length_whiten hh]
      exact hj

/-- Whoever asks for as many bytes as there are raw ones has each of them hashed. -/
theorem exists_window (hlen : raw.length ≤ n) {i : ℕ} (hi : i < raw.length) :
    ∃ j < n, windowStart raw (j / blockSize) ≤ i ∧
      i < windowStart raw (j / blockSize) + (window raw (j / blockSize)).length := by
  refine ⟨blockSize * (i / windowSize), ?_, ?_⟩
  · unfold blockSize windowSize
    omega
  · have hin : i / windowSize < windows raw := by
      unfold windows windowSize
      omega
    rw [Nat.mul_div_cancel_left _ (show 0 < blockSize by decide), length_window, windowStart,
      Nat.mod_eq_of_lt hin]
    unfold windowSize
    omega

/-- Each whitened byte is the byte of its block; fewer bytes are a first part of more bytes; and if
as many bytes come out as go in, every raw byte lies in the window of a block that comes out. -/
theorem whiten_blockwise (hh : ∀ m, (hash m).length = blockSize) (raw : Bytes) (n : ℕ) :
    (whiten hash raw n).length = n ∧
      (∀ j < n, (whiten hash raw n)[j]? = (block hash raw (j / blockSize))[j % blockSize]?) ∧
      (∀ m ≤ n, whiten hash raw m = (whiten hash raw n).take m) ∧
      (raw.length ≤ n → ∀ i < raw.length, ∃ j < n, windowStart raw (j / blockSize) ≤ i ∧
        i < windowStart raw (j / blockSize) + (window raw (j / blockSize)).length) := by
  refine ⟨length_whiten hh raw n, ?_, ?_, ?_⟩
  · intro j hj
    exact getElem?_whiten hh raw hj
  · intro m hmn
    exact whiten_take hh raw hmn
  · intro hlen i hi
    exact exists_window hlen hi

/-- Seventy raw bytes make two windows, of 64 and of 6 bytes, and a third block hashes the first
window again. -/
theorem whiten_blockwise_again :
    let raw : Bytes := List.replicate 64 1 ++ List.replicate 6 2
    (∀ m, (Sha256.digest m).length = blockSize) ∧
      window raw 1 = List.replicate 6 2 ∧ window raw 2 = window raw 0 ∧
      (apply .sha256 raw 70)[66]? = (block Sha256.digest raw 2)[2]? ∧
      apply .sha256 raw 33 = (apply .sha256 raw 70).take 33 ∧
      ∃ j < 70, windowStart raw (j / blockSize) ≤ 69 ∧
        69 < windowStart raw (j / blockSize) + (window raw (j / blockSize)).length := by
  intro raw
  obtain ⟨-, hbytes, hfirst, hhashed⟩ := whiten_blockwise Sha256.length_digest raw 70
  refine ⟨Sha256.length_digest, by decide, by decide, ?_, ?_, ?_⟩
  · exact hbytes 66 (by decide)
  · exact hfirst 33 (by decide)
  · exact hhashed (by decide) 69 (by decide)

end EntropySupply.Whitening
