import EntropySupply.Generator.Basic

/-!
# Xoshiro generator

A generator with a state of four 64-bit words, updated by shifts, rotations and exclusive ors. Its
two jumps skip long fixed stretches of its outputs.
-/

namespace EntropySupply

structure Xoshiro where
  s0 : UInt64
  s1 : UInt64
  s2 : UInt64
  s3 : UInt64
  deriving DecidableEq, Repr

namespace Xoshiro

def rotateLeft (x : UInt64) (n : UInt64) : UInt64 := x <<< n ||| x >>> (64 - n)

def output (g : Xoshiro) : UInt64 := rotateLeft (g.s0 + g.s3) 23 + g.s0

def step (g : Xoshiro) : Xoshiro :=
  let t := g.s1 <<< 17
  let s2 := g.s2 ^^^ g.s0
  let s3 := g.s3 ^^^ g.s1
  ⟨g.s0 ^^^ s3, g.s1 ^^^ s2, s2 ^^^ t, rotateLeft s3 45⟩

def next (g : Xoshiro) : UInt64 × Xoshiro := (g.output, g.step)

def xor (a b : Xoshiro) : Xoshiro :=
  ⟨a.s0 ^^^ b.s0, a.s1 ^^^ b.s1, a.s2 ^^^ b.s2, a.s3 ^^^ b.s3⟩

/-- The words of an expansion of `w`, each a scrambled multiple of a fixed odd stride. -/
def splitMix (w : UInt64) : Nat → List UInt64
  | 0 => []
  | n + 1 =>
    let w := w + 0x9e3779b97f4a7c15
    let z := (w ^^^ (w >>> 30)) * 0xbf58476d1ce4e5b9
    let z := (z ^^^ (z >>> 27)) * 0x94d049bb133111eb
    (z ^^^ (z >>> 31)) :: splitMix w n

def ofWords : List UInt64 → Xoshiro
  | [a, b, c, d] => ⟨a, b, c, d⟩
  | _ => ⟨0, 0, 0, 0⟩

def ofExpansion (w : UInt64) : Xoshiro := ofWords (splitMix w 4)

/-- The generator of a 32-byte seed. The state of zeros never leaves itself, so that seed stands
for the expansion of the word zero. -/
def ofBytes (seed : Bytes) : Xoshiro :=
  let words := (Bytes.chunks 8 (Bytes.fit 32 seed)).map fun b => UInt64.ofNat (Bytes.toNatLE b)
  if words.all (· == 0) then ofExpansion 0 else ofWords words

/-- Combines the states at the set bits of a jump polynomial, bit by bit while the generator runs. -/
def leapOver (polynomial : List UInt64) (g : Xoshiro) : Xoshiro :=
  let bits := polynomial.flatMap fun w =>
    (List.range 64).map fun i => (w >>> UInt64.ofNat i) &&& 1 == 1
  let visit (acc : Xoshiro × Xoshiro) (bit : Bool) : Xoshiro × Xoshiro :=
    (if bit then acc.1.xor acc.2 else acc.1, acc.2.step)
  (bits.foldl visit (⟨0, 0, 0, 0⟩, g)).1

/-- Skips `2 ^ 128` outputs. -/
def jump : Xoshiro → Xoshiro :=
  leapOver [0x180ec6d33cfd0aba, 0xd5a61266f0c9392c, 0xa9582618e03fc9aa, 0x39abdc4529b1661c]

/-- Skips `2 ^ 192` outputs. -/
def longJump : Xoshiro → Xoshiro :=
  leapOver [0x76e15d3efefdcbbf, 0xc5004e441c522fb3, 0x77710069854ee241, 0x39109bb02acbe635]

instance : Generator Xoshiro where
  next32 g := let w := g.next; ((w.1 >>> 32).toUInt32, w.2)
  next64 := next

instance : Seedable Xoshiro where
  seedLength := 32
  ofSeed := ofBytes
  ofWord := ofExpansion

end Xoshiro

end EntropySupply
