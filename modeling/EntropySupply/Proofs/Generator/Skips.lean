import EntropySupply.Proofs.Binary64
import EntropySupply.Reseed.Skip
import Mathlib.Tactic

/-!
# Exact skips

A permuted congruential generator advances by repeated squaring, which comes to as many steps one
after another. A skip reduces the magnitude of its distance by the period, cuts it to an integer word
and turns the word round for a negative distance; all this loses nothing, so the generator advances by
the integer part of the distance. Skips of several whole distances advance by their sum.
-/

namespace EntropySupply

theorem Affine.apply_twice (f : Affine) : (f.andThen f).apply = f.apply^[2] :=
  funext (apply_andThen f f)

/-- Repeated squaring comes to as many steps, one after another. -/
theorem Affine.apply_iterate (f : Affine) (n : ℕ) (x : BitVec 128) :
    (f.iterate n).apply x = f.apply^[n] x := by
  fun_induction Affine.iterate f n generalizing x with
  | case1 f => simp [Affine.identity, Affine.apply]
  | case2 f n hn half hodd ih =>
    have heq : n = 2 * (n / 2) + 1 := by omega
    rw [apply_andThen, ih, apply_twice, ← Function.iterate_mul, ← Function.iterate_succ_apply,
      Nat.succ_eq_add_one, ← heq]
  | case3 f n hn half heven ih =>
    have heq : n = 2 * (n / 2) := by omega
    rw [ih, apply_twice, ← Function.iterate_mul, ← heq]

namespace Pcg64

theorem advance_zero (g : Pcg64) : g.advance 0 = g := by
  simp [advance, Affine.apply_iterate]

theorem advance_advance (g : Pcg64) {a b : ℕ} (h : a + b < 2 ^ 128) :
    (g.advance (BitVec.ofNat 128 a)).advance (BitVec.ofNat 128 b) =
      g.advance (BitVec.ofNat 128 (a + b)) := by
  have hstep : (g.advance (BitVec.ofNat 128 a)).stepMap = g.stepMap := rfl
  rw [advance, hstep]
  simp only [advance, Affine.apply_iterate, BitVec.toNat_ofNat]
  rw [Nat.mod_eq_of_lt (by omega), Nat.mod_eq_of_lt (by omega), Nat.mod_eq_of_lt h,
    ← Function.iterate_add_apply, Nat.add_comm]

theorem toRat?_period : period.toRat? = some (2 ^ 128 : ℚ) := by
  rw [period, Binary64.toRat?_scaled one_ne_zero (by decide) (by decide)]
  norm_num

theorem toWord128_rem_period {d : Binary64} {q : ℚ} (h : d.toRat? = some q) (hpos : 0 ≤ q) :
    (d.rem period).toWord128 = BitVec.ofInt 128 ⌊q⌋ := by
  have hperiod : (0 : ℚ) < 2 ^ 128 := by positivity
  have hrem := Binary64.toRat?_rem h toRat?_period hperiod.ne'
  rw [Binary64.towardZero_of_nonneg (by positivity), mul_comm] at hrem
  have hword := Binary64.toNat_toWord128 hrem (Int.sub_floor_div_mul_nonneg q hperiod)
    (Int.sub_floor_div_mul_lt q hperiod)
  have hfloor : ⌊q - ⌊q / 2 ^ 128⌋ * 2 ^ 128⌋ = ⌊q⌋ - ⌊q / 2 ^ 128⌋ * 2 ^ 128 := by
    rw [← Int.floor_sub_intCast]
    push_cast
    rfl
  have hlt := (d.rem period).toWord128.isLt
  apply BitVec.eq_of_toNat_eq
  rw [BitVec.toNat_ofInt]
  omega

/-- A skip advances by the integer part of its distance. -/
theorem skip_of_toRat? (g : Pcg64) {d : Binary64} {q : ℚ} (h : d.toRat? = some q) :
    g.skip d = g.advance (BitVec.ofInt 128 (Binary64.towardZero q)) := by
  have habs : d.abs.toRat? = some |q| := by rw [Binary64.toRat?_abs, h, Option.map_some]
  have hfinite : d.isFinite = true := by rw [Binary64.isFinite_eq, h, Option.isSome_some]
  simp only [skip, hfinite, if_true, toWord128_rem_period habs (abs_nonneg q),
    Binary64.isBelowZero_iff h]
  split_ifs with hneg
  · rw [abs_of_neg hneg, ← BitVec.ofInt_neg, ← Binary64.towardZero_of_nonneg (by linarith),
      Binary64.towardZero_neg, neg_neg]
  · rw [abs_of_nonneg (not_lt.mp hneg), Binary64.towardZero_of_nonneg (not_lt.mp hneg)]

theorem skip_of_not_finite (g : Pcg64) {d : Binary64} (h : d.toRat? = none) : g.skip d = g := by
  have hfinite : d.isFinite = false := by rw [Binary64.isFinite_eq, h, Option.isSome_none]
  simp [skip, hfinite]

theorem skip_eq_advance (g : Pcg64) {d : Binary64} {n : ℕ} (h : d.toRat? = some (n : ℚ)) :
    g.skip d = g.advance (BitVec.ofNat 128 n) := by
  rw [skip_of_toRat? g h, Binary64.towardZero_natCast, BitVec.ofInt_natCast]

theorem foldl_skip (g : Pcg64) {ds : List Binary64} {ns : List ℕ}
    (h : ds.map Binary64.toRat? = ns.map fun n : ℕ => some (n : ℚ)) (hsum : ns.sum < 2 ^ 128) :
    ds.foldl Skippable.skip g = g.advance (BitVec.ofNat 128 ns.sum) := by
  induction ds generalizing g ns with
  | nil =>
    obtain rfl : ns = [] := by simpa using h.symm
    exact (advance_zero g).symm
  | cons d ds ih =>
    cases ns with
    | nil => simp at h
    | cons n ns =>
      simp only [List.map_cons, List.cons.injEq] at h
      simp only [List.sum_cons] at hsum ⊢
      have hfirst : Skippable.skip g d = g.advance (BitVec.ofNat 128 n) := skip_eq_advance g h.1
      rw [List.foldl_cons, hfirst, ih _ h.2 (by omega), advance_advance g hsum]

end Pcg64

end EntropySupply
