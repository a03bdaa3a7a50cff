import EntropySupply.Binary64
import EntropySupply.Notice
import EntropySupply.Generator.Basic

/-!
# Renewing generators

A generator can be renewed from seed bytes in several ways. Whoever accounts for its entropy only
needs to know how many bytes one renewal takes and how much entropy it is worth.
-/

namespace EntropySupply

class Renewable (γ : Type) extends Generator γ where
  /-- The bytes that one renewal uses. -/
  seedBytes : γ → Nat
  /-- The entropy in bits that the generator is credited with when it has just been renewed. -/
  claimedBits : γ → Int64
  /-- Renews the state from the first `seedBytes` bytes. Replacing, stepping and mixing take a
  shorter seed as followed by zeros; skipping reads a last part that is cut off as it stands. -/
  renew : γ → Bytes → γ × List Notice
  /-- Renews the state from one word. -/
  renewWord : γ → UInt64 → γ × List Notice
  /-- What the way of renewing is called in notices. -/
  strategy : String

/-- A generator that can skip any number of its outputs. -/
class Skippable (γ : Type) where
  /-- Distances are told apart below two to this power. -/
  periodBits : Nat
  skip : γ → Binary64 → γ

/-- A generator with a short and a long skip of fixed lengths. -/
class Leapable (γ : Type) where
  jump : γ → γ
  leap : γ → γ

end EntropySupply
