import EntropySupply.SetupError
import EntropySupply.Reseed.Basic

/-!
# Stepping

A generator is renewed by so many short and then so many long skips. The counts are the two lowest
fields of the seed; a seed whose counts are both zero would change nothing and stands for the one
leap count that no seed has.
-/

namespace EntropySupply

structure Stepping (γ : Type) where
  generator : γ
  /-- The width of the field that counts short skips. -/
  jumpBits : Fin 64
  /-- The width of the field that counts long skips. -/
  leapBits : Fin 64
  fits : jumpBits.val + leapBits.val ≤ 64

namespace Stepping

variable {γ : Type}

def exponent (limit : CountLimit) (value : UInt64) : Except SetupError (Fin 64) :=
  if h : value.toNat ≠ 0 ∧ 1 <<< value.toNat.log2 = value.toNat then
    .ok ⟨value.toNat.log2, (Nat.log2_lt h.1).2 value.toNat_lt⟩
  else .error (.countNotPowerOfTwo limit value)

/-- Refuses limits that are not powers of two, and fields wider than one word together. -/
def new (generator : γ) (maxJumps maxLeaps : UInt64) : Except SetupError (Stepping γ) := do
  let jumpBits ← exponent .jumps maxJumps
  let leapBits ← exponent .leaps maxLeaps
  if h : jumpBits.val + leapBits.val ≤ 64 then .ok ⟨generator, jumpBits, leapBits, h⟩
  else .error (.seedTooWide (jumpBits.val + leapBits.val))

def bits (r : Stepping γ) : Nat := r.jumpBits.val + r.leapBits.val

/-- One more than the largest count of short skips. -/
def maxJumps (r : Stepping γ) : UInt64 := 1 <<< UInt64.ofNat r.jumpBits

/-- One more than the largest regular count of long skips. -/
def maxLeaps (r : Stepping γ) : UInt64 := 1 <<< UInt64.ofNat r.leapBits

/-- The counts of short and of long skips that a seed stands for. -/
def counts (r : Stepping γ) (seed : UInt64) : UInt64 × UInt64 :=
  let jumps := seed &&& (r.maxJumps - 1)
  let leaps := (seed >>> UInt64.ofNat r.jumpBits) &&& (r.maxLeaps - 1)
  if jumps = 0 ∧ leaps = 0 then (0, r.maxLeaps) else (jumps, leaps)

/-- The bytes that hold both fields; at least one. -/
def width (r : Stepping γ) : Nat := max ((r.bits + 7) / 8) 1

def notice (counts : UInt64 × UInt64) : Notice where
  level := .trace
  text :=
    let (jumps, leaps) := counts
    s!"jump and leap: {jumps} jumps, {leaps} leaps"

def renewWord [Leapable γ] (r : Stepping γ) (seed : UInt64) : Stepping γ × List Notice :=
  let n := r.counts seed
  let jumped := Nat.repeat Leapable.jump n.1.toNat r.generator
  ({ r with generator := Nat.repeat Leapable.leap n.2.toNat jumped }, [notice n])

def renew [Leapable γ] (r : Stepping γ) (seed : Bytes) : Stepping γ × List Notice :=
  r.renewWord (UInt64.ofNat (Bytes.toNatBE (Bytes.fit r.width seed)))

instance [Generator γ] [Leapable γ] : Renewable (Stepping γ) where
  next32 r := let w := Generator.next32 r.generator; (w.1, { r with generator := w.2 })
  next64 r := let w := Generator.next64 r.generator; (w.1, { r with generator := w.2 })
  seedBytes r := r.width
  claimedBits r := Int64.ofNat r.bits
  renew := renew
  renewWord := renewWord
  strategy := "jump-and-leap"

end Stepping

end EntropySupply
