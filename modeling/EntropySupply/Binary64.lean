import EntropySupply.Entropy.Cost

/-!
# Double-precision numbers by their bits

A double is a sign, an exponent of eleven bits and a fraction of fifty-two. Distances are passed on
in this form because it keeps every integer below `2 ^ 53` exact under any power of two that the
exponent covers. Magnitudes, remainders and conversions to words are computed on the bits.
-/

namespace EntropySupply

structure Binary64 where
  bits : UInt64
  deriving DecidableEq, Repr

namespace Binary64

/-- What the bits denote: `±significand * 2 ^ exponent`, or no number. -/
inductive Value where
  | finite (negative : Bool) (significand : Nat) (exponent : Int)
  | nonFinite
  deriving DecidableEq, Repr

def value (d : Binary64) : Value :=
  let negative := d.bits >>> 63 == 1
  let exponent := ((d.bits >>> 52) &&& 0x7ff).toNat
  let fraction := (d.bits &&& 0xfffffffffffff).toNat
  if exponent = 0x7ff then .nonFinite
  else if exponent = 0 then .finite negative fraction (-1074)
  else .finite negative ((1 <<< 52) + fraction) (exponent - 1075)

/-- The integer next to the number on the side of zero; a value that is no number has none. -/
def truncated? (d : Binary64) : Option Int :=
  match d.value with
  | .nonFinite => none
  | .finite negative significand exponent =>
    let magnitude :=
      if 0 ≤ exponent then significand <<< exponent.toNat
      else significand >>> (-exponent).toNat
    some (if negative then -(magnitude : Int) else magnitude)

def infinity : Binary64 := ⟨0x7ff0000000000000⟩

def nan : Binary64 := ⟨0x7ff8000000000000⟩

def isFinite (d : Binary64) : Bool :=
  match d.value with
  | .finite .. => true
  | .nonFinite => false

def abs (d : Binary64) : Binary64 := ⟨d.bits &&& 0x7fffffffffffffff⟩

def neg (d : Binary64) : Binary64 := ⟨d.bits ^^^ 0x8000000000000000⟩

/-- Whether the double is less than zero, which a zero with a sign is not. -/
def isBelowZero (d : Binary64) : Bool :=
  match d.value with
  | .finite negative significand _ => negative && significand != 0
  | .nonFinite => d == infinity.neg

/-- The double `v * 2 ^ shift` of an integer `v` below `2 ^ 53`. -/
def scaled (v shift : Nat) : Binary64 :=
  if v = 0 then ⟨0⟩
  else
    let exponent := 1023 + v.log2 + shift
    if 0x7ff ≤ exponent then infinity
    else ⟨UInt64.ofNat ((exponent <<< 52) + ((v <<< (52 - v.log2)) - (1 <<< 52)))⟩

def ofFields (negative : Bool) (exponent fraction : Nat) : Binary64 :=
  ⟨UInt64.ofNat ((negative.toNat <<< 63) + (exponent <<< 52) + fraction)⟩

/-- The double `±significand * 2 ^ exponent` of a significand below `2 ^ 53` and an exponent of at
least `-1074`, for a number that is not too large. -/
def ofParts (negative : Bool) (significand : Nat) (exponent : Int) : Binary64 :=
  if significand = 0 then ofFields negative 0 0
  else
    let biased := exponent + significand.log2 + 1023
    if biased ≤ 0 then ofFields negative 0 (significand <<< (exponent + 1074).toNat)
    else ofFields negative biased.toNat ((significand <<< (52 - significand.log2)) - (1 <<< 52))

/-- What is left of `x` after taking off `y` as often as it fits, with the sign of `x`. The smaller
one of the two exponents has room for it, so nothing is rounded off. -/
def rem (x y : Binary64) : Binary64 :=
  match x.value, y.value with
  | .finite negative s e, .finite _ t f =>
    let low := min e f
    if t = 0 then nan
    else ofParts negative ((s <<< (e - low).toNat) % (t <<< (f - low).toNat)) low
  | .finite .., .nonFinite => if y.abs = infinity then x else nan
  | .nonFinite, _ => nan

/-- The 128-bit word next to the number on the side of zero. Numbers beyond all words give the
nearest one, and what is no number gives zero. -/
def toWord128 (d : Binary64) : BitVec 128 :=
  match d.truncated? with
  | some n => BitVec.ofNat 128 (min n.toNat ((1 <<< 128) - 1))
  | none => if d = infinity then BitVec.allOnes 128 else 0

end Binary64

end EntropySupply
