import EntropySupply.Bytes
import EntropySupply.Ring.Capacity

/-!
# Slots of a ring

The bytes of a ring, one per slot. A range of positions lies in one or two runs of slots, the
second one starting over at the first slot, and copies in and out go run by run.
-/

namespace EntropySupply

abbrev Slots (c : Capacity) := Vector UInt8 c.size

namespace Capacity

/-- Where a range of `length` positions begins, and how many of them come before the last slot's
end. -/
def split (c : Capacity) (start : UInt64) (length : Nat) : Nat × Nat :=
  (c.slot start, min length (c.size - c.slot start))

theorem split_le (c : Capacity) (start : UInt64) (length : Nat) :
    (c.split start length).1 + (c.split start length).2 ≤ c.size := by
  have h := c.slot_lt start
  simp only [split]
  omega

end Capacity

namespace Slots

variable {c : Capacity}

def writeRun (s : Slots c) (index : Nat) : Bytes → Slots c
  | [] => s
  | b :: bs => writeRun (s.setIfInBounds index b) (index + 1) bs

def readRun (s : Slots c) (index length : Nat) : Bytes :=
  (s.toArray.extract index (index + length)).toList

/-- Writes bytes at the positions from `start` on. -/
def store (s : Slots c) (start : UInt64) (src : Bytes) : Slots c :=
  let (index, first) := c.split start src.length
  (s.writeRun index (src.take first)).writeRun 0 (src.drop first)

/-- Reads the bytes at `length` positions from `start` on. -/
def load (s : Slots c) (start : UInt64) (length : Nat) : Bytes :=
  let (index, first) := c.split start length
  s.readRun index first ++ s.readRun 0 (length - first)

theorem length_readRun (s : Slots c) {index length : Nat} (h : index + length ≤ c.size) :
    (s.readRun index length).length = length := by
  simp [readRun]; omega

theorem length_load (s : Slots c) (start : UInt64) {length : Nat} (h : length ≤ c.size) :
    (s.load start length).length = length := by
  have hs := c.split_le start length
  have h₀ := length_readRun s hs
  have h₁ : (s.readRun 0 (length - (c.split start length).2)).length =
      length - (c.split start length).2 := length_readRun s (by omega)
  have h₂ : (c.split start length).2 ≤ length := Nat.min_le_left _ _
  simp only [load, List.length_append, h₀, h₁]
  omega

end Slots

end EntropySupply
