import EntropySupply.Entropy.Checked
import EntropySupply.Proofs.Entropy.Agreement
import EntropySupply.Proofs.Entropy.Coverage
import EntropySupply.Proofs.Reseed.Distances

/-!
# The limits of machine integers

Thresholds, seed sizes and budgets come from outside, and what is computed from them need not fit a
machine word. As long as it does, every decision is the one that its formula stands for over the
integers. Beyond that the word has wrapped around: a margin or a spare budget with the wrong sign,
seeds that are counted modulo the word, a wait for a seed that is passed over. A program that checks
for overflow stops there instead. Main statement: `decisions_exact`.
-/

namespace EntropySupply

def Representable (z : ℤ) : Prop := -2 ^ 63 ≤ z ∧ z < 2 ^ 63

instance (z : ℤ) : Decidable (Representable z) := inferInstanceAs (Decidable (_ ∧ _))

theorem Representable.bmod_eq_add {z k : ℤ} (h : Representable (z + 2 ^ 64 * k)) :
    z.bmod (2 ^ 64) = z + 2 ^ 64 * k := by
  rw [← Int.add_mul_bmod_self_left z (2 ^ 64) k]
  exact Int.bmod_eq_of_le h.1 h.2

theorem Representable.bmod_eq {z : ℤ} (h : Representable z) : z.bmod (2 ^ 64) = z :=
  Int.bmod_eq_of_le h.1 h.2

theorem bmod_of_above {z : ℤ} (hlow : 2 ^ 63 ≤ z) (hhigh : z < 2 ^ 64) :
    z.bmod (2 ^ 64) = z - 2 ^ 64 := by
  apply Representable.bmod_eq_add (k := -1)
  constructor <;> omega

theorem bmod_of_below {z : ℤ} (hlow : -2 ^ 64 ≤ z) (hhigh : z < -2 ^ 63) :
    z.bmod (2 ^ 64) = z + 2 ^ 64 := by
  apply Representable.bmod_eq_add (k := 1)
  constructor <;> omega

theorem overdrawn_iff {a b : Int64} : Overdrawn a b ↔ ¬Representable (a.toInt - b.toInt) := by
  apply not_congr
  constructor
  · intro h
    rw [← h]
    exact ⟨(a - b).le_toInt, (a - b).toInt_lt⟩
  · intro h
    exact toInt_sub_of_bounds h.1 h.2

/-- The thresholds are in order and leave the margin of a draw below the `fresh` entropy. -/
def Thresholds.Adequate (t : Thresholds) (fresh : Int64) : Prop :=
  t.minimum.toInt ≤ t.desired.toInt ∧ Cost.largest.toInt < fresh.toInt - t.minimum.toInt

instance (t : Thresholds) (fresh : Int64) : Decidable (t.Adequate fresh) :=
  inferInstanceAs (Decidable (_ ∧ _))

theorem Thresholds.validate_eq_ok_iff {t : Thresholds} {fresh : Int64} :
    t.validate fresh = .ok () ↔
      t.minimum.toInt ≤ t.desired.toInt ∧
        Cost.largest.toInt < (fresh.toInt - t.minimum.toInt).bmod (2 ^ 64) := by
  rw [← Int64.le_iff_toInt_le, ← Int64.toInt_sub, ← Int64.lt_iff_toInt_lt, ← Int64.not_lt,
    ← Int64.not_le]
  unfold validate
  split_ifs <;> simp_all

theorem Thresholds.validate_iff_adequate {t : Thresholds} {fresh : Int64}
    (h : Representable (fresh.toInt - t.minimum.toInt)) :
    t.validate fresh = .ok () ↔ t.Adequate fresh := by
  rw [validate_eq_ok_iff, h.bmod_eq]
  rfl

/-- Beyond the machine's integers an ample margin counts as none, and one that is missing counts
as one. -/
theorem Thresholds.validate_iff_inverted {t : Thresholds} {fresh : Int64}
    (h : ¬Representable (fresh.toInt - t.minimum.toInt)) :
    t.validate fresh = .ok () ↔
      t.minimum.toInt ≤ t.desired.toInt ∧ fresh.toInt < t.minimum.toInt ∧
        Cost.largest.toInt < fresh.toInt - t.minimum.toInt + 2 ^ 64 := by
  have hlargest : Cost.largest.toInt = 65 := by decide
  have hfresh := fresh.le_toInt
  have hfresh' := fresh.toInt_lt
  have hminimum := t.minimum.le_toInt
  have hminimum' := t.minimum.toInt_lt
  rw [validate_eq_ok_iff]
  apply and_congr_right
  intro _
  -- Either way the word has the sign that the difference has not.
  rcases Int.lt_or_le (fresh.toInt - t.minimum.toInt) (-2 ^ 63) with hbelow | hwithin
  · rw [bmod_of_below (by omega) hbelow]
    omega
  · have habove : 2 ^ 63 ≤ fresh.toInt - t.minimum.toInt := by
      unfold Representable at h
      omega
    rw [bmod_of_above habove (by omega)]
    omega

namespace Skipping

variable {γ : Type} [Skippable γ] {g : γ} {n : UInt64} {r : Skipping γ}

theorem exists_new_iff (hperiod : Skippable.periodBits γ < 2 ^ 32) :
    (∃ r, new g n = .ok r) ↔ 1 ≤ n.toNat ∧ 8 * n.toNat % 2 ^ 64 ≤ Skippable.periodBits γ := by
  have hbits : (8 * n).toNat = 8 * n.toNat % 2 ^ 64 := by simp
  have hlimit : (UInt64.ofNat (Skippable.periodBits γ)).toNat = Skippable.periodBits γ := by
    rw [UInt64.toNat_ofNat']
    exact Nat.mod_eq_of_lt (by omega)
  have hpositive : 1 ≤ n.toNat ↔ ¬n = 0 := by
    rw [← UInt64.toNat_inj, Nat.one_le_iff_ne_zero]
    rfl
  rw [hpositive, ← hbits, ← hlimit, ← UInt64.le_iff_toNat_le, ← UInt64.not_lt]
  simp only [new]
  split_ifs <;> simp_all

theorem toInt_claimedBits_mod [Generator γ] (h : 8 * r.seedBytes.toNat % 2 ^ 64 < 2 ^ 63) :
    (Renewable.claimedBits r).toInt = (8 * r.seedBytes.toNat % 2 ^ 64 : ℕ) := by
  have hcounted : (Renewable.claimedBits r).toInt =
      ((8 * r.seedBytes.toNat % 2 ^ 64 : ℕ) : ℤ).bmod (2 ^ 64) := by
    rw [claimedBits_eq, Int64.toInt_ofNat', Int.natCast_mod]
    exact (Int.emod_bmod _ _).symm
  rw [hcounted]
  apply Representable.bmod_eq
  constructor <;> omega

end Skipping

namespace Managed

variable {γ σ : Type}

def spareBytesExact (m : Managed γ σ) (level : ℤ) : ℕ := ((m.entropy.toInt - level - 1).tdiv 8).toNat

theorem spareBytesExact_eq (m : Managed γ σ) (level : ℤ) :
    m.spareBytesExact level = (m.entropy.toInt - level - 1).toNat / 8 := by
  unfold spareBytesExact
  grind

section Spare

variable {m : Managed γ σ} {level : Int64}

/-- The level and one more bit are subtracted one after the other. Only the result has to be an
integer of the machine. -/
theorem spareBytes_eq_bmod (m : Managed γ σ) (level : Int64) :
    m.spareBytes level =
      ((m.entropy.toInt - level.toInt - 1).bmod (2 ^ 64)).toNat / 8 := by
  rw [spareBytes_eq, Int64.toInt_sub, Int64.toInt_sub, Int.bmod_sub_bmod]
  rfl

theorem spareBytes_eq_exact (h : Representable (m.entropy.toInt - level.toInt - 1)) :
    m.spareBytes level = m.spareBytesExact level.toInt := by
  rw [spareBytes_eq_bmod, h.bmod_eq, spareBytesExact_eq]

theorem spareBytes_of_above (h : 2 ^ 63 ≤ m.entropy.toInt - level.toInt - 1) :
    m.spareBytes level = 0 ∧ 2 ^ 60 ≤ m.spareBytesExact level.toInt := by
  have hhigh := m.entropy.toInt_lt
  have hlow := level.le_toInt
  rw [spareBytes_eq_bmod, bmod_of_above h (by omega), spareBytesExact_eq]
  omega

theorem spareBytes_of_below (h : m.entropy.toInt - level.toInt - 1 < -2 ^ 63) :
    m.spareBytes level = (m.entropy.toInt - level.toInt - 1 + 2 ^ 64).toNat / 8 ∧
      m.spareBytesExact level.toInt = 0 := by
  have hlow := m.entropy.le_toInt
  have hhigh := level.toInt_lt
  rw [spareBytes_eq_bmod, bmod_of_below (by omega) h, spareBytesExact_eq]
  exact ⟨rfl, by omega⟩

end Spare

section Deficit

variable {m : Managed γ σ} {bits fresh : Int64}

/-- A cost that takes the budget out of the machine's integers leaves a deficit. -/
theorem lt_of_not_representable (hcost : 0 ≤ bits.toInt)
    (h : ¬Representable (m.entropy.toInt - bits.toInt)) :
    m.entropy.toInt - bits.toInt < -2 ^ 63 := by
  have hhigh := m.entropy.toInt_lt
  unfold Representable at h
  omega

/-- The deficit has wrapped around to a budget above every minimum that leaves a margin. -/
theorem not_short_of_deficit (hadequate : m.thresholds.Adequate fresh)
    (hcost : bits.toInt ≤ Cost.largest.toInt)
    (h : m.entropy.toInt - bits.toInt < -2 ^ 63) : ¬m.Short bits := by
  have hlargest : Cost.largest.toInt = 65 := by decide
  have hentropy := m.entropy.le_toInt
  have hfresh := fresh.toInt_lt
  obtain ⟨-, hmargin⟩ := hadequate
  unfold Short
  rw [Int64.le_iff_toInt_le, Int64.toInt_sub, bmod_of_below (by omega) h]
  omega

end Deficit

variable [Renewable γ] [Journal σ] {ch : Channel σ} {m : Managed γ σ} {bits : Int64}

def ensureExact (ch : Channel σ) (m : Managed γ σ) (bits : ℤ) : Managed γ σ :=
  let after := m.entropy.toInt - bits
  if after ≤ m.thresholds.minimum.toInt then (renewWaiting ch m).2
  else if after < m.thresholds.desired.toInt then renewFromReady ch.toQueue m
  else m

theorem ensure_eq_exact (h : Representable (m.entropy.toInt - bits.toInt)) :
    ensure ch m bits = ensureExact ch m bits.toInt := by
  have hafter : (m.entropy - bits).toInt = m.entropy.toInt - bits.toInt :=
    toInt_sub_of_bounds h.1 h.2
  simp only [ensure, ensureExact, Int64.le_iff_toInt_le, Int64.lt_iff_toInt_lt, hafter]

theorem ensureExact_of_deficit (h : m.entropy.toInt - bits.toInt < -2 ^ 63) :
    ensureExact ch m bits.toInt = (renewWaiting ch m).2 := by
  have hminimum := m.thresholds.minimum.le_toInt
  apply if_pos
  omega

section Checked

variable {d : Draw}

theorem drawChecked_of_representable (h : Representable (m.entropy.toInt - d.cost.toInt))
    (hpaid : Representable ((ensure ch m d.cost).entropy.toInt - d.cost.toInt)) :
    drawChecked ch d m = ((draw ch d m).1.mapError .empty, (draw ch d m).2) := by
  apply drawChecked_eq_draw
  · simpa [overdrawn_iff] using h
  · simpa [overdrawn_iff] using hpaid

theorem drawChecked_of_not_representable (hempty : d.empty? = none)
    (h : ¬Representable (m.entropy.toInt - d.cost.toInt)) :
    drawChecked ch d m = (.error .overflow, m) := by
  apply drawChecked_of_overdrawn hempty
  exact overdrawn_iff.mpr h

theorem drawChecked_of_not_representable_renewed (hempty : d.empty? = none)
    (h : Representable (m.entropy.toInt - d.cost.toInt))
    (hpaid : ¬Representable ((ensure ch m d.cost).entropy.toInt - d.cost.toInt)) :
    drawChecked ch d m = (.error .overflow, ensure ch m d.cost) := by
  apply drawChecked_of_overdrawn_renewed hempty
  · simpa [overdrawn_iff] using h
  · exact overdrawn_iff.mpr hpaid

end Checked

end Managed

section Decisions

variable {γ σ δ : Type} [Renewable γ] [Journal σ] [Generator δ] [Skippable δ]

/-- The checks of thresholds and seed sizes, the preparation of a draw and the size of a segment
are those of their formulas over the integers, as long as the difference or product that they
compute is an integer of the machine. Where it is not, an ample margin is refused and a missing one
accepted, a seed is accepted by the remainder of its size, the wait for a seed that a deficit calls
for is passed over, or is where a program that checks for overflow stops, and a missing budget
counts as spare. -/
theorem decisions_exact (hperiod : Skippable.periodBits δ < 2 ^ 32) :
    (∀ (t : Thresholds) (fresh : Int64),
      (Representable (fresh.toInt - t.minimum.toInt) →
        (t.validate fresh = .ok () ↔ t.Adequate fresh)) ∧
      (¬Representable (fresh.toInt - t.minimum.toInt) →
        (t.validate fresh = .ok () ↔
          t.minimum.toInt ≤ t.desired.toInt ∧ fresh.toInt < t.minimum.toInt ∧
            Cost.largest.toInt < fresh.toInt - t.minimum.toInt + 2 ^ 64))) ∧
    (∀ (g : δ) (n : UInt64),
      (8 * n.toNat < 2 ^ 64 →
        ((∃ r, Skipping.new g n = .ok r) ↔
          1 ≤ n.toNat ∧ 8 * n.toNat ≤ Skippable.periodBits δ)) ∧
      (2 ^ 64 ≤ 8 * n.toNat →
        ((∃ r, Skipping.new g n = .ok r) ↔ 8 * n.toNat % 2 ^ 64 ≤ Skippable.periodBits δ)) ∧
      ∀ r, Skipping.new g n = .ok r →
        (Renewable.claimedBits r).toInt = (8 * n.toNat % 2 ^ 64 : ℕ)) ∧
    (∀ (ch : Channel σ) (m : Managed γ σ) (d : Draw),
      (∀ bits ∈ [d.cost, Cost.byte],
        (Representable (m.entropy.toInt - bits.toInt) →
          m.ensure ch bits = m.ensureExact ch bits.toInt) ∧
        (¬Representable (m.entropy.toInt - bits.toInt) →
          m.ensureExact ch bits.toInt = (m.renewWaiting ch).2 ∧
            ∀ fresh, m.thresholds.Adequate fresh → ¬m.Short bits)) ∧
      (Representable (m.entropy.toInt - d.cost.toInt) →
        Representable ((m.ensure ch d.cost).entropy.toInt - d.cost.toInt) →
          m.drawChecked ch d = ((m.draw ch d).1.mapError .empty, (m.draw ch d).2)) ∧
      (d.empty? = none → ¬Representable (m.entropy.toInt - d.cost.toInt) →
        m.drawChecked ch d = (.error .overflow, m)) ∧
      (d.empty? = none → Representable (m.entropy.toInt - d.cost.toInt) →
        ¬Representable ((m.ensure ch d.cost).entropy.toInt - d.cost.toInt) →
          m.drawChecked ch d = (.error .overflow, m.ensure ch d.cost))) ∧
    ∀ (m : Managed γ σ) (level : Int64),
      (Representable (m.entropy.toInt - level.toInt - 1) →
        m.spareBytes level = m.spareBytesExact level.toInt) ∧
      (2 ^ 63 ≤ m.entropy.toInt - level.toInt - 1 →
        m.spareBytes level = 0 ∧ 2 ^ 60 ≤ m.spareBytesExact level.toInt) ∧
      (m.entropy.toInt - level.toInt - 1 < -2 ^ 63 →
        m.spareBytes level = (m.entropy.toInt - level.toInt - 1 + 2 ^ 64).toNat / 8 ∧
          m.spareBytesExact level.toInt = 0) := by
  refine ⟨?_, ?_, ?_, ?_⟩
  · intro t fresh
    exact ⟨Thresholds.validate_iff_adequate, Thresholds.validate_iff_inverted⟩
  · intro g n
    have haccepted := Skipping.exists_new_iff (g := g) (n := n) hperiod
    refine ⟨?_, ?_, ?_⟩
    · intro hfits
      rw [haccepted, Nat.mod_eq_of_lt hfits]
    · intro hwide
      rw [haccepted]
      exact and_iff_right (by omega)
    · intro r hr
      obtain ⟨-, hbits⟩ := haccepted.mp ⟨r, hr⟩
      obtain ⟨rfl, -⟩ := Skipping.of_new_eq_ok hr
      apply Skipping.toInt_claimedBits_mod
      dsimp only
      omega
  · intro ch m d
    refine ⟨?_, Managed.drawChecked_of_representable, Managed.drawChecked_of_not_representable,
      Managed.drawChecked_of_not_representable_renewed⟩
    intro bits hbits
    have hcost : 0 ≤ bits.toInt ∧ bits.toInt ≤ Cost.largest.toInt := by
      rw [List.mem_pair] at hbits
      obtain rfl | rfl := hbits
      · exact d.toInt_cost_le
      · decide
    refine ⟨Managed.ensure_eq_exact, ?_⟩
    intro hover
    have hdeficit := Managed.lt_of_not_representable hcost.1 hover
    refine ⟨Managed.ensureExact_of_deficit hdeficit, ?_⟩
    intro fresh hadequate
    exact Managed.not_short_of_deficit hadequate hcost.2 hdeficit
  · intro m level
    exact ⟨Managed.spareBytes_eq_exact, Managed.spareBytes_of_above, Managed.spareBytes_of_below⟩

end Decisions

namespace Managed

/-- A generator with the least budget of all, at a ring that holds a whole seed. -/
def brink : Managed (Replacing Pcg64) (Site (Pool ⟨5, by decide⟩)) where
  tracked := ⟨.ofSeed [1], Int64.minValue⟩
  site := { pool := .ofRing { Ring.empty _ .abandon with reserved := 32, committed := 32 } [] }
  thresholds := {}
  holder := List.replicate 32 0

theorem quiet_brink : brink.site.pool.ring.Sound [] [] :=
  ⟨show (0 : UInt64).toNat ≤ (32 : UInt64).toNat by decide,
    show (32 : UInt64).toNat ≤ (0 : UInt64).toNat + 32 by decide, rfl, rfl⟩

theorem not_representable_brink :
    ¬Representable (brink.entropy.toInt - (Draw.below64 1000).cost.toInt) := by
  decide +kernel

end Managed

/-- A bounded draw of ten bits at that generator, and sizes at their limits. -/
theorem decisions_exact_brink :
    ({} : Thresholds).validate 256 = .ok () ∧
      ({ desired := 191, minimum := 191 } : Thresholds).validate 256 ≠ .ok () ∧
      (∃ r, Skipping.new (⟨0, 1⟩ : Pcg64) 16 = .ok r) ∧
      (¬∃ r, Skipping.new (⟨0, 1⟩ : Pcg64) 17 = .ok r) ∧
      ¬Managed.brink.Short (Draw.below64 1000).cost ∧
      Managed.brink.spareBytes 128 = 2 ^ 60 - 17 := by
  obtain ⟨hvalid, hnew, hdraw, hspare⟩ := decisions_exact (γ := Replacing Pcg64)
    (σ := Site (Pool ⟨5, by decide⟩)) (δ := Pcg64) (by decide)
  refine ⟨?_, ?_, ?_, ?_, ?_, ?_⟩
  · exact ((hvalid {} 256).1 (by decide)).mpr (by decide)
  · rw [Ne, (hvalid _ 256).1 (by decide)]
    decide
  · exact ((hnew ⟨0, 1⟩ 16).1 (by decide)).mpr (by decide)
  · rw [(hnew ⟨0, 1⟩ 17).1 (by decide)]
    decide
  · obtain ⟨hbits, -⟩ := hdraw (Site.layered []) Managed.brink (.below64 1000)
    obtain ⟨-, hpassed⟩ := (hbits _ List.mem_cons_self).2 Managed.not_representable_brink
    exact hpassed 256 (by decide)
  · obtain ⟨hdeficit, -⟩ := (hspare Managed.brink 128).2.2 (by decide +kernel)
    rw [hdeficit]
    decide +kernel

/-- An ample margin is refused, and a seed wider than the period is accepted. The draw leaves a
deficit that calls for the seed that is ready, and the one program passes over it where the other
one stops. -/
theorem not_exact_brink :
    (({ desired := 0, minimum := Int64.minValue } : Thresholds).Adequate 256 ∧
      ({ desired := 0, minimum := Int64.minValue } : Thresholds).validate 256 ≠ .ok ()) ∧
    ((∃ r, Skipping.new (⟨0, 1⟩ : Pcg64) 2305843009213693952 = .ok r) ∧
      ¬8 * (2305843009213693952 : UInt64).toNat ≤ Skippable.periodBits Pcg64) ∧
    Managed.new (.ofSeed [1]) (some Int64.minValue) {} Managed.brink.site = .ok Managed.brink ∧
    (Managed.brink.ensureExact (Site.layered []) (Draw.below64 1000).cost.toInt).reseeds = 1 ∧
    (Managed.brink.ensure (Site.layered []) (Draw.below64 1000).cost).reseeds = 0 ∧
    Managed.brink.drawChecked (Site.layered []) (.below64 1000) =
      (.error .overflow, Managed.brink) := by
  refine ⟨by decide, ⟨⟨_, rfl⟩, by decide⟩, rfl, ?_, ?_, ?_⟩
  · obtain ⟨hwait, hrenewed⟩ := Managed.renewWaiting_enough (m := Managed.brink) Pool.bare_pours
      Managed.quiet_brink rfl (by decide)
    rw [Managed.ensureExact_of_deficit (by decide +kernel)]
    change (Managed.renewWaiting (Site.channel Pool.bare Pool.bare) Managed.brink).2.reseeds = 1
    rw [hwait]
    exact hrenewed.reseeds
  · decide +kernel
  · exact Managed.drawChecked_of_not_representable rfl Managed.not_representable_brink

end EntropySupply
