import EntropySupply.Generator.Basic

/-!
# Permuted congruential generator

A 128-bit linear congruential generator whose output is the state folded to 64 bits and rotated.
Advancing by many steps composes the affine map of one step with itself by repeated squaring.
-/

namespace EntropySupply

/-- A map `x ↦ mul * x + add` of 128-bit words. -/
structure Affine where
  mul : BitVec 128
  add : BitVec 128
  deriving DecidableEq, Repr

namespace Affine

def apply (f : Affine) (x : BitVec 128) : BitVec 128 := f.mul * x + f.add

def identity : Affine := ⟨1, 0⟩

def andThen (f g : Affine) : Affine := ⟨g.mul * f.mul, g.mul * f.add + g.add⟩

def iterate (f : Affine) (n : Nat) : Affine :=
  if n = 0 then identity
  else
    let half := iterate (f.andThen f) (n / 2)
    if n % 2 = 1 then f.andThen half else half
termination_by n
decreasing_by omega

theorem apply_andThen (f g : Affine) (x : BitVec 128) :
    (f.andThen g).apply x = g.apply (f.apply x) := by
  simp only [apply, andThen, BitVec.mul_add, BitVec.mul_assoc, BitVec.add_assoc]

end Affine

structure Pcg64 where
  state : BitVec 128
  increment : BitVec 128
  deriving DecidableEq, Repr

namespace Pcg64

def multiplier : BitVec 128 := 0x2360ED051FC65DA44385DF649FCCF645

def stepMap (g : Pcg64) : Affine := ⟨multiplier, g.increment⟩

def step (g : Pcg64) : Pcg64 := { g with state := g.stepMap.apply g.state }

/-- Skips `n` outputs. -/
def advance (g : Pcg64) (n : BitVec 128) : Pcg64 :=
  { g with state := (g.stepMap.iterate n.toNat).apply g.state }

/-- The output of a state: its halves combined, rotated by its six highest bits. -/
def output (s : BitVec 128) : UInt64 :=
  let folded := ((s >>> 64) ^^^ s).setWidth 64
  ⟨folded.rotateRight (s >>> 122).toNat⟩

def next (g : Pcg64) : UInt64 × Pcg64 :=
  let g := g.step
  (output g.state, g)

/-- The generator of a 32-byte seed: half of it gives the state and half the increment, made odd. -/
def ofBytes (seed : Bytes) : Pcg64 :=
  let seed := Bytes.fit 32 seed
  let state : BitVec 128 := BitVec.ofNat 128 (Bytes.toNatLE (seed.take 16))
  let increment : BitVec 128 := BitVec.ofNat 128 (Bytes.toNatLE (seed.drop 16)) ||| 1
  step ⟨state + increment, increment⟩

instance : Generator Pcg64 where
  next32 g := let w := g.next; (w.1.toUInt32, w.2)
  next64 := next

instance : Seedable Pcg64 where
  seedLength := 32
  ofSeed := ofBytes
  ofWord w := ofBytes (Seed.expand 32 w)

end Pcg64

end EntropySupply
