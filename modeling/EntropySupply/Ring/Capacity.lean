import EntropySupply.SetupError

/-!
# Ring capacities

A ring holds a power of two of bytes, so that the slot of a position is found by masking. Main
statement: the mask keeps the remainder by the capacity.
-/

namespace EntropySupply

/-- A number of slots, two to the power `exponent`, that fits a 64-bit word. -/
structure Capacity where
  exponent : Nat
  exponent_lt : exponent < 64
  deriving DecidableEq, Repr

namespace Capacity

def size (c : Capacity) : Nat := 1 <<< c.exponent

/-- A ring of four slots, the one that examples run on. -/
def four : Capacity := ⟨2, by decide⟩

theorem size_pos (c : Capacity) : 0 < c.size := by
  rw [size, Nat.one_shiftLeft]
  exact Nat.two_pow_pos c.exponent

theorem size_lt (c : Capacity) : c.size < UInt64.size := by
  rw [size, Nat.one_shiftLeft]
  exact Nat.pow_lt_pow_right (by decide) c.exponent_lt

def word (c : Capacity) : UInt64 := UInt64.ofNat c.size

@[simp] theorem toNat_word (c : Capacity) : c.word.toNat = c.size := by
  simpa [word] using Nat.mod_eq_of_lt c.size_lt

def mask (c : Capacity) : UInt64 := c.word - 1

theorem toNat_mask (c : Capacity) : c.mask.toNat = c.size - 1 := by
  have h : (1 : UInt64) ≤ c.word := by
    rw [UInt64.le_iff_toNat_le, toNat_word]
    exact c.size_pos
  rw [mask, UInt64.toNat_sub_of_le _ _ h, toNat_word]
  rfl

def slot (c : Capacity) (position : UInt64) : Nat := (position &&& c.mask).toNat

theorem slot_eq_mod (c : Capacity) (position : UInt64) :
    c.slot position = position.toNat % c.size := by
  rw [slot, UInt64.toNat_and, toNat_mask, size, Nat.one_shiftLeft]
  exact Nat.and_two_pow_sub_one_eq_mod _ _

theorem slot_lt (c : Capacity) (position : UInt64) : c.slot position < c.size := by
  rw [slot_eq_mod]
  exact Nat.mod_lt _ c.size_pos

/-- The capacity of that many bytes, if it is a positive power of two. -/
def ofWord (w : UInt64) : Except SetupError Capacity :=
  if w = 0 then .error .zeroCapacity
  else if 1 <<< w.toNat.log2 = w.toNat then
    .ok ⟨w.toNat.log2, by
      rcases Nat.eq_zero_or_pos w.toNat with h | h
      · simp [h]
      · exact (Nat.log2_lt (by omega)).2 w.toNat_lt⟩
  else .error (.capacityNotPowerOfTwo w)

theorem size_of_ofWord {w : UInt64} {c : Capacity} (h : ofWord w = .ok c) : c.size = w.toNat := by
  unfold ofWord at h
  split at h
  · cases h
  · split at h
    · rename_i hw
      cases h
      exact hw
    · cases h

end Capacity

end EntropySupply
