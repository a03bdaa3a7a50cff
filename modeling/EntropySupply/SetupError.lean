/-!
# Setup errors

A parameter that no part of the library can work with is refused when the part is built, never
clamped. Each refusal carries the values it is about.
-/

namespace EntropySupply

inductive CountLimit where
  | jumps
  | leaps
  deriving DecidableEq, Repr

def CountLimit.name : CountLimit → String
  | .jumps => "max_jumps"
  | .leaps => "max_leaps"

inductive SetupError where
  | zeroCapacity
  | capacityNotPowerOfTwo (capacity : UInt64)
  /-- The minimum level lies above the desired one. -/
  | thresholdOrder (desired minimum : Int64)
  /-- One draw of `largest` bits could use up all that a reseed restores above the minimum. -/
  | insufficientMargin (fresh minimum largest : Int64)
  | countNotPowerOfTwo (limit : CountLimit) (value : UInt64)
  /-- The two count fields do not fit one 64-bit seed. -/
  | seedTooWide (bits : Nat)
  | emptySeed
  /-- A fairness turn that could never move a byte. -/
  | emptyTurn (maxBytes maxCalls : UInt64)
  /-- The seed tells apart more distances than the generator does. -/
  | seedWiderThanPeriod (seedBits : UInt64) (periodBits : Nat)
  /-- More entropy is claimed than a reseed can supply. -/
  | overclaim (claimed most : Int64)
  | zeroChunk
  deriving DecidableEq, Repr

def SetupError.message : SetupError → String
  | .zeroCapacity => "pool capacity must be positive"
  | .capacityNotPowerOfTwo capacity =>
    s!"pool capacity must be a power of two, got {capacity}"
  | .thresholdOrder desired minimum =>
    s!"minimum entropy {minimum} exceeds desired entropy {desired}"
  | .insufficientMargin fresh minimum largest =>
    s!"fresh entropy {fresh} minus minimum {minimum} must exceed the largest " ++
      s!"single-draw cost of {largest} bits"
  | .countNotPowerOfTwo limit value =>
    s!"{limit.name} must be a positive power of two, got {value}"
  | .seedTooWide bits => s!"jump and leap fields need {bits} bits, more than 64"
  | .emptySeed => "seed size must be at least one byte"
  | .emptyTurn maxBytes maxCalls =>
    s!"fairness turn limits must be at least 1 (bytes={maxBytes}, calls={maxCalls})"
  | .seedWiderThanPeriod seedBits periodBits =>
    s!"seed of {seedBits} bits exceeds the generator's {periodBits}-bit period"
  | .overclaim claimed most =>
    s!"claimed entropy {claimed} bits exceeds the {most} bits a reseed can supply"
  | .zeroChunk => "producer chunk size must be positive"

end EntropySupply
