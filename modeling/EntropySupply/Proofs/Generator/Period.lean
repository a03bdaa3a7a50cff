import EntropySupply.Proofs.Generator.Skips
import Mathlib.Data.BitVec
import Mathlib.Data.Int.ModEq
import Mathlib.Dynamics.PeriodicPts.Lemmas
import Mathlib.Tactic

/-!
# Period of the permuted congruential generator

A linear congruence modulo `2 ^ 128` with an odd multiplier is back at its start after `2 ^ 128`
steps: each doubling of the number of steps doubles the powers of two that divide the increment and
the distance of the multiplier from one. So steps are counted modulo the period, a word counts them
forwards and its negative counts them backwards. Main statement: `skips_compose`, skips make
exactly the integer part of their distances in steps, and therefore undo each other and add up.
-/

namespace EntropySupply

namespace Affine

/-- The map done `2 ^ k` times. -/
def doubled (f : Affine) : ℕ → Affine
  | 0 => f
  | k + 1 => (f.doubled k).andThen (f.doubled k)

theorem apply_doubled (f : Affine) (k : ℕ) : (f.doubled k).apply = f.apply^[2 ^ k] := by
  induction k with
  | zero => rfl
  | succ k ih =>
    funext x
    rw [doubled, apply_andThen, ih, pow_succ, mul_two, Function.iterate_add_apply]

/-- With an odd multiplier each doubling brings the map closer to the identity. -/
theorem doubled_form {f : Affine} {t : BitVec 128} (h : f.mul = 1 + 2 * t) (k : ℕ) :
    ∃ u v : BitVec 128, (f.doubled k).mul = 1 + 2 ^ (k + 1) * u ∧
      (f.doubled k).add = 2 ^ k * v := by
  induction k with
  | zero => exact ⟨t, f.add, by simp [doubled, h], by simp [doubled]⟩
  | succ k ih =>
    obtain ⟨u, v, hu, hv⟩ := ih
    refine ⟨u + 2 ^ k * u * u, v + 2 ^ k * u * v, ?_, ?_⟩
    · simp only [doubled, andThen, hu]
      ring
    · simp only [doubled, andThen, hu, hv]
      ring

theorem isPeriodicPt_apply {f : Affine} {t : BitVec 128} (h : f.mul = 1 + 2 * t) (x : BitVec 128) :
    Function.IsPeriodicPt f.apply (2 ^ 128) x := by
  obtain ⟨u, v, hu, hv⟩ := doubled_form h 128
  have hzero : (2 : BitVec 128) ^ 128 = 0 := by decide +kernel
  rw [Function.IsPeriodicPt, Function.IsFixedPt, ← apply_doubled, apply, hu, hv, pow_succ, hzero]
  simp

end Affine

namespace Pcg64

theorem multiplier_odd : multiplier = 1 + 2 * (multiplier >>> 1) := by decide

theorem isPeriodicPt_stepMap (g : Pcg64) (x : BitVec 128) :
    Function.IsPeriodicPt g.stepMap.apply (2 ^ 128) x :=
  Affine.isPeriodicPt_apply multiplier_odd x

theorem iterate_step (g : Pcg64) (n : ℕ) :
    step^[n] g = { g with state := g.stepMap.apply^[n] g.state } := by
  induction n with
  | zero => rfl
  | succ n ih =>
    rw [Function.iterate_succ_apply', ih, Function.iterate_succ_apply']
    rfl

theorem advance_eq_iterate (g : Pcg64) (n : BitVec 128) : g.advance n = step^[n.toNat] g := by
  rw [advance, Affine.apply_iterate, iterate_step]

theorem advance_add (g : Pcg64) (m n : BitVec 128) :
    (g.advance m).advance n = g.advance (m + n) := by
  have hmap : (g.advance m).stepMap = g.stepMap := rfl
  have hmod := (g.isPeriodicPt_stepMap g.state).iterate_mod_apply (n.toNat + m.toNat)
  rw [advance, hmap]
  simp only [advance, Affine.apply_iterate]
  rw [BitVec.toNat_add, Nat.add_comm, hmod, Function.iterate_add_apply]

theorem advance_neg (g : Pcg64) (n : BitVec 128) : (g.advance n).advance (-n) = g := by
  rw [advance_add, add_neg_cancel]
  exact advance_zero g

theorem skip_neg (g : Pcg64) (d : Binary64) : (g.skip d).skip d.neg = g := by
  have hneg := d.toRat?_neg
  cases hd : d.toRat? with
  | none =>
    rw [hd, Option.map_none] at hneg
    rw [skip_of_not_finite g hd, skip_of_not_finite g hneg]
  | some q =>
    rw [hd, Option.map_some] at hneg
    rw [skip_of_toRat? g hd, skip_of_toRat? _ hneg, Binary64.towardZero_neg, BitVec.ofInt_neg,
      advance_neg]

/-- Skips of integers add up, also far beyond the period. -/
theorem skip_skip (g : Pcg64) {a b c : Binary64} {m n : ℤ} (ha : a.toRat? = some (m : ℚ))
    (hb : b.toRat? = some (n : ℚ)) (hc : c.toRat? = some ((m + n : ℤ) : ℚ)) :
    (g.skip a).skip b = g.skip c := by
  rw [skip_of_toRat? g ha, skip_of_toRat? _ hb, skip_of_toRat? g hc, advance_add,
    Binary64.towardZero_intCast, Binary64.towardZero_intCast, Binary64.towardZero_intCast,
    BitVec.ofInt_add]

/-- The number of steps of a skip is congruent to the integer part of its distance modulo the
period; a distance that is no number moves nothing. Advancing makes single steps and adds up, so a
skip and the skip of the negative distance undo each other, and skips of integers come to the skip
of the sum wherever the sum is a double. -/
theorem skips_compose (g : Pcg64) :
    (∀ {d : Binary64} {q : ℚ}, d.toRat? = some q → ∃ n : BitVec 128,
      (n.toNat : ℤ) ≡ Binary64.towardZero q [ZMOD 2 ^ 128] ∧ g.skip d = g.advance n) ∧
    (∀ {d : Binary64}, d.toRat? = none → g.skip d = g) ∧
    (∀ n : BitVec 128, g.advance n = step^[n.toNat] g) ∧
    (∀ m n : BitVec 128, (g.advance m).advance n = g.advance (m + n)) ∧
    (∀ d : Binary64, d.neg.toRat? = d.toRat?.map (-·) ∧ (g.skip d).skip d.neg = g) ∧
    (∀ {a b c : Binary64} {m n : ℤ}, a.toRat? = some (m : ℚ) → b.toRat? = some (n : ℚ) →
      c.toRat? = some ((m + n : ℤ) : ℚ) → (g.skip a).skip b = g.skip c) := by
  refine ⟨?_, ?_, g.advance_eq_iterate, g.advance_add, ?_, ?_⟩
  · intro d q hd
    refine ⟨BitVec.ofInt 128 (Binary64.towardZero q), ?_, skip_of_toRat? g hd⟩
    rw [BitVec.toNat_ofInt, Int.toNat_of_nonneg (Int.emod_nonneg _ (by decide))]
    exact Int.mod_modEq _ _
  · intro d hd
    exact skip_of_not_finite g hd
  · intro d
    exact ⟨d.toRat?_neg, g.skip_neg d⟩
  · intro a b c m n ha hb hc
    exact g.skip_skip ha hb hc

/-- Two and a half steps back are two steps back, an infinite distance is none, and a skip of three
halves of the period followed by `2 ^ 80` steps back is the skip of the difference. -/
theorem skips_compose_beyond :
    (⟨0xc004000000000000⟩ : Binary64).toRat? = some (-(5 / 2)) ∧
      (∃ n : BitVec 128, (n.toNat : ℤ) ≡ -2 [ZMOD 2 ^ 128] ∧
        (⟨0, 1⟩ : Pcg64).skip ⟨0xc004000000000000⟩ = (⟨0, 1⟩ : Pcg64).advance n) ∧
      (⟨0, 1⟩ : Pcg64).skip .infinity = ⟨0, 1⟩ ∧
      ((⟨0, 1⟩ : Pcg64).skip (.scaled 3 127)).skip (Binary64.scaled 1 80).neg =
        (⟨0, 1⟩ : Pcg64).skip (.scaled (3 * 2 ^ 47 - 1) 80) := by
  obtain ⟨hfinite, hother, -, -, hneg, hsum⟩ := skips_compose ⟨0, 1⟩
  have hvalue : (⟨0xc004000000000000⟩ : Binary64).toRat? = some (-(5 / 2)) := by
    rw [Binary64.toRat?_of_value (n := true) (s := 5 * 2 ^ 50) (e := -51) (by decide)]
    norm_num [Binary64.number]
  have htruncated : Binary64.towardZero (-(5 / 2)) = -2 := by
    norm_num [Binary64.towardZero, Int.ceil_eq_iff]
  refine ⟨hvalue, ?_, hother rfl, hsum (m := 3 * 2 ^ 127) (n := -2 ^ 80) ?_ ?_ ?_⟩
  · rw [← htruncated]
    exact hfinite hvalue
  · rw [Binary64.toRat?_scaled (by decide) (by decide) (by decide)]
    norm_num
  · rw [(hneg _).1, Binary64.toRat?_scaled (by decide) (by decide) (by decide)]
    norm_num
  · rw [Binary64.toRat?_scaled (by decide) (by decide) (by decide)]
    norm_num

end Pcg64

end EntropySupply
