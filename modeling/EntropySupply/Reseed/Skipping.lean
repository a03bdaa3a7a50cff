import EntropySupply.SetupError
import EntropySupply.Reseed.Basic

/-!
# Skipping

A generator is renewed by skipping as many outputs as the seed says. The seed is read in parts of
six bytes, each an integer that a double holds exactly; the part at byte offset `i` counts in units
of `2 ^ (8 * i)`, so the parts cover disjoint ranges of the distance. A last part of fewer bytes is
the integer of those bytes, with no zeros behind them, even if the seed is shorter than asked for.
-/

namespace EntropySupply

structure Skipping (γ : Type) where
  generator : γ
  seedBytes : UInt64

namespace Skipping

variable {γ : Type}

def partBytes : Nat := 6

/-- Refuses an empty seed and one with more bits than the generator's period. -/
def new [Skippable γ] (generator : γ) (seedBytes : UInt64) : Except SetupError (Skipping γ) :=
  if seedBytes = 0 then .error .emptySeed
  else
    let seedBits := 8 * seedBytes
    if UInt64.ofNat (Skippable.periodBits γ) < seedBits then
      .error (.seedWiderThanPeriod seedBits (Skippable.periodBits γ))
    else .ok ⟨generator, seedBytes⟩

/-- The distances that the parts stand for, the first of them at part `i`; a part of zeros moves
nothing. -/
def distances (i : Nat) : List Bytes → List Binary64
  | [] => []
  | part :: parts =>
    let v := Bytes.toNatBE part
    if v = 0 then distances (i + 1) parts
    else .scaled v (8 * partBytes * i) :: distances (i + 1) parts

/-- The distances of a seed, in the order in which they are skipped. -/
def distancesOf (seed : Bytes) : List Binary64 := distances 0 (Bytes.chunks partBytes seed)

def notice (jumps n : Nat) : Notice where
  level := .trace
  text := s!"arbitrary jump: {jumps} jumps from {n} seed bytes"

def renew [Skippable γ] (r : Skipping γ) (seed : Bytes) : Skipping γ × List Notice :=
  let used := seed.take r.seedBytes.toNat
  let ds := distancesOf used
  ({ r with generator := ds.foldl Skippable.skip r.generator }, [notice ds.length used.length])

instance [Generator γ] [Skippable γ] : Renewable (Skipping γ) where
  next32 r := let w := Generator.next32 r.generator; (w.1, { r with generator := w.2 })
  next64 r := let w := Generator.next64 r.generator; (w.1, { r with generator := w.2 })
  seedBytes r := r.seedBytes.toNat
  claimedBits r := 8 * r.seedBytes.toInt64
  renew := renew
  renewWord r w := renew r (Bytes.ofWordBE w)
  strategy := "arbitrary-jump"

end Skipping

end EntropySupply
