import EntropySupply.Reseed.Basic

/-!
# Playback generator

A generator that plays a list of words over and over. It records the seeds it is renewed from and
does nothing else with them, and its claims can differ from one renewal to the next.
-/

namespace EntropySupply

/-- What a playback generator was renewed from. -/
inductive SeedRecord where
  | bytes (b : Bytes)
  | word (w : UInt64)
  deriving DecidableEq, Repr

structure Playback where
  words : List UInt64
  /-- Words played so far. -/
  used : Nat := 0
  seedBytes : Nat := 32
  /-- The entropy claimed after each number of renewals; the last entry holds from there on. -/
  claims : List Int64 := [256]
  applied : List SeedRecord := []
  deriving DecidableEq, Repr

namespace Playback

def next (g : Playback) : UInt64 × Playback :=
  (g.words.getD (g.used % g.words.length) 0, { g with used := g.used + 1 })

def claimedBits (g : Playback) : Int64 :=
  g.claims.getD (min g.applied.length (g.claims.length - 1)) 0

instance : Renewable Playback where
  next32 g := let w := g.next; (w.1.toUInt32, w.2)
  next64 := next
  seedBytes := seedBytes
  claimedBits := claimedBits
  renew g seed := ({ g with applied := g.applied ++ [.bytes seed] }, [])
  renewWord g w := ({ g with applied := g.applied ++ [.word w] }, [])
  strategy := "custom"

end Playback

end EntropySupply
