import EntropySupply.SetupError
import EntropySupply.Entropy.Cost

/-!
# Reseeding thresholds

Two levels of remaining entropy. Below the desired level a generator is reseeded when seed bytes
are at hand; at or below the minimum it is reseeded even if that means waiting for them.
-/

namespace EntropySupply

structure Thresholds where
  desired : Int64 := 128
  minimum : Int64 := 64
  deriving DecidableEq, Repr

/-- Refuses levels out of order, and a minimum so close to the `fresh` entropy of a reseeded
generator that one draw could reach it. -/
def Thresholds.validate (t : Thresholds) (fresh : Int64) : Except SetupError Unit :=
  if t.desired < t.minimum then .error (.thresholdOrder t.desired t.minimum)
  else if fresh - t.minimum ≤ Cost.largest then
    .error (.insufficientMargin fresh t.minimum Cost.largest)
  else .ok ()

end EntropySupply
