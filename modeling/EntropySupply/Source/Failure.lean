import EntropySupply.Text.Duration
import EntropySupply.Text.Quoted

/-!
# Failures of a seed source

Only a source that could not be reached is worth asking again. Each failure is fatal to the
producer that meets it, and to nothing else.
-/

namespace EntropySupply.Source

inductive Failure where
  /-- The source did not answer, and may have said how long to wait before the next try. -/
  | unreachable (message : String) (advised : Option Duration)
  /-- The source answered with something that is not seed material. -/
  | malformed (message : String)
  /-- The source could not be reached `attempts` times in a row. -/
  | exhausted (attempts : Nat) (last : Failure)
  deriving DecidableEq, Repr, Inhabited

namespace Failure

def message : Failure → String
  | .unreachable m _ => s!"seed source unavailable: {m}"
  | .malformed m => s!"malformed seed response: {m}"
  | .exhausted n last =>
    s!"seed source failed {n} times in a row, last error: {last.message}"

/-- Whether the same request could succeed when it is made again. -/
def isTransient : Failure → Bool
  | .unreachable _ _ => true
  | _ => false

def describe : Failure → String
  | .unreachable m advised =>
    s!"Transport \x7b message: {Text.quoted m}, advised_delay: {Duration.describe? advised} \x7d"
  | .malformed m => s!"Malformed({Text.quoted m})"
  | .exhausted n last =>
    s!"RetriesExhausted \x7b attempts: {n}, last: {last.describe} \x7d"

end Failure

end EntropySupply.Source
