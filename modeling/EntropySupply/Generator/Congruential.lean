import EntropySupply.Generator.Basic

/-!
# Small congruential generator

A 64-bit linear congruential generator with a seed of five bytes. It keeps a record of the skips
made since it was seeded, which makes the strategies that skip easy to follow.
-/

namespace EntropySupply

structure Congruential where
  state : UInt64
  /-- The distances of the skips of arbitrary length, as the bits of double-precision numbers. -/
  distances : List UInt64 := []
  jumps : Nat := 0
  leaps : Nat := 0
  deriving DecidableEq, Repr

namespace Congruential

def next (g : Congruential) : UInt64 × Congruential :=
  let state := g.state * 6364136223846793005 + 1442695040888963407
  (state, { g with state })

def ofBytes (seed : Bytes) : Congruential where
  state := UInt64.ofNat (Bytes.toNatLE (Bytes.fit 5 seed))

def skip (g : Congruential) (distance : UInt64) : Congruential :=
  { g with state := g.state + distance, distances := g.distances ++ [distance] }

def jump (g : Congruential) : Congruential :=
  { g with state := g.state * 3 + 1, jumps := g.jumps + 1 }

def leap (g : Congruential) : Congruential :=
  { g with state := g.state * 5 + 7, leaps := g.leaps + 1 }

instance : Generator Congruential where
  next32 g := let w := g.next; ((w.1 >>> 32).toUInt32, w.2)
  next64 := next

instance : Seedable Congruential where
  seedLength := 5
  ofSeed := ofBytes
  ofWord w := ofBytes (Seed.expand 5 w)

end Congruential

end EntropySupply
