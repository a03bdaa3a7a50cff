import EntropySupply.Entropy.Managed

/-!
# Checked draws

Budgets are machine integers. A program built with overflow checks is stopped by a draw whose cost
takes the budget out of their range, where one built without them goes on with a budget that has
wrapped around. The draws of this module are those of the first program. They agree with the
others wherever nothing overflows.
-/

namespace EntropySupply

/-- The difference of two machine integers is not one. -/
def Overdrawn (a b : Int64) : Prop := (a - b).toInt ≠ a.toInt - b.toInt

instance (a b : Int64) : Decidable (Overdrawn a b) := inferInstanceAs (Decidable (_ ≠ _))

inductive Refusal where
  | empty (reason : EmptyDraw)
  | overflow
  deriving DecidableEq, Repr

def Refusal.message : Refusal → String
  | .empty reason => reason.message
  | .overflow => "attempt to subtract with overflow"

namespace Tracked

variable {γ : Type} [Generator γ]

def drawChecked (d : Draw) (t : Tracked γ) : Except Refusal Sample × Tracked γ :=
  if d.empty? = none ∧ Overdrawn t.entropy d.cost then (.error .overflow, t)
  else
    let r := t.draw d
    (r.1.mapError .empty, r.2)

theorem drawChecked_of_overdrawn {d : Draw} {t : Tracked γ} (hempty : d.empty? = none)
    (h : Overdrawn t.entropy d.cost) : t.drawChecked d = (.error .overflow, t) :=
  if_pos ⟨hempty, h⟩

theorem drawChecked_eq_draw {d : Draw} {t : Tracked γ} (h : ¬Overdrawn t.entropy d.cost) :
    t.drawChecked d = ((t.draw d).1.mapError .empty, (t.draw d).2) :=
  if_neg fun hover => h hover.2

end Tracked

namespace Managed

variable {γ σ : Type} [Renewable γ] [Journal σ]

/-- Prepares and pays for a draw and makes it. The cost is subtracted twice: from the budget to
see whether the generator has to be renewed, and afterwards to pay for the draw. -/
def drawChecked (ch : Channel σ) (d : Draw) (m : Managed γ σ) :
    Except Refusal Sample × Managed γ σ :=
  match d.empty? with
  | some e => (.error (.empty e), m)
  | none =>
    if Overdrawn m.entropy d.cost then (.error .overflow, m)
    else
      let m := ensure ch m d.cost
      let r := m.tracked.drawChecked d
      (r.1, { m with tracked := r.2 })

variable {ch : Channel σ} {d : Draw} {m : Managed γ σ}

theorem drawChecked_of_overdrawn (hempty : d.empty? = none) (h : Overdrawn m.entropy d.cost) :
    drawChecked ch d m = (.error .overflow, m) := by
  unfold drawChecked
  rw [hempty]
  exact if_pos h

/-- A renewal may be worth so little that the cost cannot be subtracted from it either. -/
theorem drawChecked_of_overdrawn_renewed (hempty : d.empty? = none)
    (h : ¬Overdrawn m.entropy d.cost) (hpaid : Overdrawn (ensure ch m d.cost).entropy d.cost) :
    drawChecked ch d m = (.error .overflow, ensure ch m d.cost) := by
  unfold drawChecked
  rw [hempty]
  dsimp only
  rw [if_neg h, Tracked.drawChecked_of_overdrawn hempty hpaid]

theorem drawChecked_eq_draw (h : ¬Overdrawn m.entropy d.cost)
    (hpaid : ¬Overdrawn (ensure ch m d.cost).entropy d.cost) :
    drawChecked ch d m = ((draw ch d m).1.mapError .empty, (draw ch d m).2) := by
  unfold drawChecked draw
  cases hempty : d.empty? with
  | some e => rfl
  | none =>
    dsimp only
    rw [if_neg h, Tracked.drawChecked_eq_draw hpaid, Tracked.draw, hempty]
    rfl

end Managed

end EntropySupply
