import EntropySupply.Reseed.Basic
import EntropySupply.Generator.Pcg
import EntropySupply.Generator.Xoshiro
import EntropySupply.Generator.Congruential

/-!
# Generators that skip

How the generators of the library skip outputs. The permuted congruential generator skips the
integer part of a distance, backwards when it is negative, modulo its period; it stays where it is
for a distance that is no number.
-/

namespace EntropySupply

/-- The number of states of the generator, `2 ^ 128`. -/
def Pcg64.period : Binary64 := .scaled 1 128

/-- Moves the generator by the integer part of the distance. Its magnitude is reduced by the period
first, so that it fits a word. -/
def Pcg64.skip (g : Pcg64) (distance : Binary64) : Pcg64 :=
  if distance.isFinite then
    let steps := (distance.abs.rem Pcg64.period).toWord128
    if distance.isBelowZero then g.advance (-steps) else g.advance steps
  else g

instance : Skippable Pcg64 where
  periodBits := 128
  skip := Pcg64.skip

instance : Leapable Xoshiro where
  jump := Xoshiro.jump
  leap := Xoshiro.longJump

instance : Skippable Congruential where
  periodBits := 1024
  skip g d := g.skip d.bits

instance : Leapable Congruential where
  jump := Congruential.jump
  leap := Congruential.leap

end EntropySupply
