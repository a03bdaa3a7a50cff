import EntropySupply.Entropy.Draw

/-!
# Tracked generators

A generator with a budget of entropy in bits, which every draw lowers by its cost. The budget may
go negative; whoever cares renews the generator and sets the budget anew.
-/

namespace EntropySupply

structure Tracked (γ : Type) where
  generator : γ
  entropy : Int64

namespace Tracked

variable {γ : Type}

def debit (t : Tracked γ) (bits : Int64) : Tracked γ := { t with entropy := t.entropy - bits }

variable [Generator γ]

/-- Pays for a draw and makes it. A draw without values is refused and costs nothing. -/
def draw (d : Draw) (t : Tracked γ) : Except EmptyDraw Sample × Tracked γ :=
  match d.empty? with
  | some e => (.error e, t)
  | none =>
    let s := d.sample t.generator
    (.ok s.1, { t.debit d.cost with generator := s.2 })

def drawBytes (n : Nat) (t : Tracked γ) : Bytes × Tracked γ :=
  let s := Generator.fill n t.generator
  (s.1, { t.debit (Cost.bytes n) with generator := s.2 })

end Tracked

end EntropySupply
