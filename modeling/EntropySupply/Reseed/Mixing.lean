import EntropySupply.SetupError
import EntropySupply.Reseed.Basic

/-!
# Mixing

A generator is renewed from its own output combined with the seed, which is folded over the output
as often as its length takes. A poor seed therefore never throws away what the generator already
holds. How much entropy a renewal is worth is declared, up to what seed and state can carry.
-/

namespace EntropySupply

structure Mixing (γ : Type) where
  generator : γ
  seedBytes : UInt64
  claimed : Int64

namespace Mixing

variable {γ : Type} [Seedable γ]

/-- Refuses an empty seed and a claim beyond what seed and generator can carry. -/
def new (generator : γ) (seedBytes : UInt64) (claimed : Int64) :
    Except SetupError (Mixing γ) :=
  if seedBytes = 0 then .error .emptySeed
  else
    let most := 8 * Int64.ofNat (min seedBytes.toNat (Seedable.seedLength γ))
    if most < claimed then .error (.overclaim claimed most)
    else .ok ⟨generator, seedBytes, claimed⟩

/-- The state bytes with the seed folded over them: seed byte `k` goes into state byte
`(i + k) % state.length`. -/
def fold (state : Bytes) (i : Nat) : Bytes → Bytes
  | [] => state
  | b :: bs => fold (state.modify (i % state.length) (· ^^^ b)) (i + 1) bs

def notice (n : Nat) : Notice where
  level := .trace
  text := s!"mixed {n} seed bytes into generator state"

def renew (r : Mixing γ) (seed : Bytes) : Mixing γ × List Notice :=
  let used := seed.take r.seedBytes.toNat
  let own := (Generator.fill (Seedable.seedLength γ) r.generator).1
  ({ r with generator := Seedable.ofSeed (fold own 0 used) }, [notice used.length])

instance : Renewable (Mixing γ) where
  next32 r := let w := Generator.next32 r.generator; (w.1, { r with generator := w.2 })
  next64 r := let w := Generator.next64 r.generator; (w.1, { r with generator := w.2 })
  seedBytes r := r.seedBytes.toNat
  claimedBits r := r.claimed
  renew := renew
  renewWord r w := renew r (Bytes.ofWordBE w)
  strategy := "mix"

end Mixing

end EntropySupply
