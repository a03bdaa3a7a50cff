/-!
# Durations

A duration is a number of nanoseconds. Its text uses the largest of the units second, millisecond,
microsecond and nanosecond that is not longer than the duration, as an exact decimal without
trailing zeros.
-/

namespace EntropySupply

/-- A span of time in nanoseconds. -/
abbrev Duration := Nat

namespace Duration

def ofMillis (ms : Nat) : Duration := ms * 1000000

/-- The `places` low decimal digits of `part`, leading zeros kept, most significant first. -/
def digits : Nat → Nat → List Char
  | 0, _ => []
  | places + 1, part => digits places (part / 10) ++ [Nat.digitChar (part % 10)]

/-- The digits after the point with trailing zeros removed; nothing when they are all zero. -/
def fraction (places part : Nat) : String :=
  match ((digits places part).reverse.dropWhile (· == '0')).reverse with
  | [] => ""
  | ds => "." ++ String.ofList ds

/-- The duration in a unit of `size` nanoseconds, a one followed by `places` zeros. -/
def inUnit (d : Duration) (size places : Nat) (unit : String) : String :=
  toString (d / size) ++ fraction places (d % size) ++ unit

def text (d : Duration) : String :=
  if 1000000000 ≤ d then inUnit d 1000000000 9 "s"
  else if 1000000 ≤ d then inUnit d 1000000 6 "ms"
  else if 1000 ≤ d then inUnit d 1000 3 "µs"
  else inUnit d 1 0 "ns"

def describe? : Option Duration → String
  | none => "None"
  | some d => s!"Some({text d})"

end Duration

end EntropySupply
