import EntropySupply.Reseed.Basic

/-!
# Replacing

A generator is renewed by building a new one from the seed, so a renewal is worth all bits of the
seed.
-/

namespace EntropySupply

structure Replacing (γ : Type) where
  generator : γ

namespace Replacing

variable {γ : Type} [Seedable γ]

/-- Starts from a seed, as a later renewal would. -/
def ofSeed (seed : Bytes) : Replacing γ := ⟨Seedable.ofSeed (Bytes.fit (Seedable.seedLength γ) seed)⟩

def notice (n : Nat) : Notice where
  level := .trace
  text := s!"replace: rebuilt generator from {n} seed bytes"

instance : Renewable (Replacing γ) where
  next32 r := let w := Generator.next32 r.generator; (w.1, ⟨w.2⟩)
  next64 r := let w := Generator.next64 r.generator; (w.1, ⟨w.2⟩)
  seedBytes _ := Seedable.seedLength γ
  claimedBits _ := 8 * Int64.ofNat (Seedable.seedLength γ)
  renew _ seed := (ofSeed seed, [notice seed.length])
  renewWord _ w := (⟨Seedable.ofWord w⟩, [])
  strategy := "replace"

end Replacing

end EntropySupply
