/-!
# Interrupted transfers

A blocking transfer that ends before it moved every byte says why, and how many bytes it had moved.
-/

namespace EntropySupply

/-- Why a blocking transfer stopped early. `transferred` bytes had been moved by then, and stay
moved. -/
inductive Interruption where
  | closed (transferred : Nat)
  | cancelled (transferred : Nat)
  deriving DecidableEq, Repr

namespace Interruption

def transferred : Interruption → Nat
  | .closed n => n
  | .cancelled n => n

def message : Interruption → String
  | .closed n => s!"pool closed after {n} bytes"
  | .cancelled n => s!"transfer cancelled after {n} bytes"

def describe : Interruption → String
  | .closed n => s!"Closed \x7b transferred: {n} \x7d"
  | .cancelled n => s!"Cancelled \x7b transferred: {n} \x7d"

end Interruption

end EntropySupply
