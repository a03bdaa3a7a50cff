import EntropySupply.Entropy.Managed

/-!
# Requests to a managed generator

Everything that a user can ask of a managed generator, as one type, so that a run is a list of
requests. Between two requests the others may change what the channel works on.
-/

namespace EntropySupply

inductive Request (σ : Type) where
  | draw (d : Draw)
  | bytes (n : Nat)
  /-- Pays for something that is drawn by other means. -/
  | debit (bits : Int64)
  /-- Waits for a seed and renews the generator. -/
  | renewal
  | outside (change : σ → σ)

namespace Managed

variable {γ σ : Type} [Renewable γ] [Journal σ]

def perform (ch : Channel σ) (m : Managed γ σ) : Request σ → Managed γ σ
  | .draw d => (draw ch d m).2
  | .bytes n => (drawBytes ch n m).2
  | .debit bits => debit ch m bits
  | .renewal => (renewWaiting ch m).2
  | .outside change => { m with site := change m.site }

def run (ch : Channel σ) (m : Managed γ σ) (ops : List (Request σ)) : Managed γ σ :=
  ops.foldl (perform ch) m

end Managed

end EntropySupply
