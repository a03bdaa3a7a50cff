/-!
# Costs of draws

Every draw is paid for in whole bits out of a signed budget. A draw among finitely many values
costs the bits needed to number them; a full-width word or a fraction costs its width; a sample of
a continuous distribution is charged one bit more than a word, the largest cost there is.
-/

namespace EntropySupply

/-- The number of binary digits of a number; zero has none. -/
def bitLength (n : Nat) : Nat := if n = 0 then 0 else n.log2 + 1

theorem lt_shiftLeft_bitLength (n : Nat) : n < 1 <<< bitLength n := by
  rw [Nat.one_shiftLeft]
  unfold bitLength
  split
  · simp_all
  · exact Nat.lt_log2_self

theorem bitLength_le_iff {n k : Nat} : bitLength n ≤ k ↔ n < 1 <<< k := by
  constructor
  · intro h
    refine Nat.lt_of_lt_of_le (lt_shiftLeft_bitLength n) ?_
    rw [Nat.one_shiftLeft, Nat.one_shiftLeft]
    exact Nat.pow_le_pow_right (by decide) h
  · intro h
    rw [Nat.one_shiftLeft] at h
    unfold bitLength
    split
    · omega
    · rename_i hn
      exact (Nat.log2_lt hn).2 h

namespace Cost

def flag : Int64 := 1
def byte : Int64 := 8
def single : Int64 := 24
def double : Int64 := 53
def word32 : Int64 := 32
def word64 : Int64 := 64
def normal : Int64 := 65
def exponential : Int64 := 65

/-- The largest cost of a draw of fixed width. Byte strings can cost more, and are drawn in parts. -/
def largest : Int64 := 65

/-- The cost of a draw below a bound: enough bits to number the values `0 … bound - 1`. -/
def below (bound : UInt64) : Int64 := Int64.ofNat (bitLength (bound.toNat - 1))

/-- The cost of a draw from `origin` up to but not including `bound`, two integers of `width` bits.
A range that a signed integer of that width cannot count costs the full width, and so does one
without values. -/
def inRange (width : Nat) (origin bound : Int) : Int64 :=
  let range := bound - origin
  if 0 < range ∧ range.toNat < 1 <<< (width - 1) then Int64.ofNat (bitLength (range.toNat - 1))
  else Int64.ofNat width

def inRange32 (origin bound : Int32) : Int64 := inRange 32 origin.toInt bound.toInt

def inRange64 (origin bound : Int64) : Int64 := inRange 64 origin.toInt bound.toInt

def bytes (n : Nat) : Int64 := byte * Int64.ofNat n

end Cost

end EntropySupply
