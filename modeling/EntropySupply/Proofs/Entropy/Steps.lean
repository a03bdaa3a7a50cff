import EntropySupply.Entropy.Request
import Mathlib.Tactic

/-!
# Steps of a managed generator

What each part of a request does, once for all: how a wait for a seed ends, which of three ways a
draw is prepared in, and how a byte string is drawn segment by segment. Properties that preparing
and paying keep are kept by byte strings of any length: `drawBytes_keeps`.
-/

namespace EntropySupply.Managed

variable {γ σ : Type} [Renewable γ]

theorem of_new_eq_ok {g : γ} {initial : Option Int64} {t : Thresholds} {s : σ} {m : Managed γ σ}
    (hnew : new g initial t s = .ok m) :
    t.validate (Renewable.claimedBits g) = .ok () ∧
      m = { tracked := ⟨g, initial.getD (Renewable.claimedBits g)⟩, site := s, thresholds := t
            holder := List.replicate (Renewable.seedBytes g) 0 } := by
  unfold new at hnew
  dsimp only at hnew
  cases hvalid : t.validate (Renewable.claimedBits g) with
  | error e =>
    rw [hvalid] at hnew
    cases hnew
  | ok _ =>
    rw [hvalid] at hnew
    cases hnew
    exact ⟨rfl, rfl⟩

variable [Journal σ] {ch : Channel σ} {m : Managed γ σ}

def waited (ch : Channel σ) (m : Managed γ σ) : Managed γ σ :=
  let r := ch.read m.site (m.holder.drop m.pending)
  { m with site := r.state, holder := m.holder.take m.pending ++ r.buffer }

def interrupted (m : Managed γ σ) (e : Interruption) : Managed γ σ :=
  note (failureNotice (m.pending + e.transferred) m.holder.length e)
    { m with pending := m.pending + e.transferred, lastFailure := some e }

theorem renewWaiting_fst (ch : Channel σ) (m : Managed γ σ) :
    (renewWaiting ch m).1 = (ch.read m.site (m.holder.drop m.pending)).stopped := by
  unfold renewWaiting
  dsimp only
  split
  · next h => exact h.symm
  · next e h => exact h.symm

theorem renewWaiting_none (h : (renewWaiting ch m).1 = none) :
    (renewWaiting ch m).2 = (waited ch m).renew := by
  rw [renewWaiting_fst] at h
  unfold renewWaiting
  simp only [h]
  rfl

theorem renewWaiting_some {e : Interruption} (h : (renewWaiting ch m).1 = some e) :
    (renewWaiting ch m).2 = (waited ch m).interrupted e := by
  rw [renewWaiting_fst] at h
  unfold renewWaiting
  simp only [h]
  rfl

theorem renewWaiting_failed {e : Interruption} (h : (renewWaiting ch m).1 = some e) :
    (renewWaiting ch m).2.tracked = m.tracked ∧ (renewWaiting ch m).2.reseeds = m.reseeds ∧
      (renewWaiting ch m).2.lastFailure = some e := by
  rw [renewWaiting_some h]
  exact ⟨rfl, rfl, rfl⟩

omit [Renewable γ] [Journal σ] in
/-- Taking bytes that are ready changes what is held and the site, nothing else. -/
theorem gather_frame (q : Queue σ) (m : Managed γ σ) :
    (gather q m).tracked = m.tracked ∧ (gather q m).thresholds = m.thresholds := by
  fun_induction gather q m with
  | case1 m => exact ⟨rfl, rfl⟩
  | case2 m hroom p m' hnone => exact ⟨rfl, rfl⟩
  | case3 m hroom p m' hsome ih => exact ih

variable {bits : Int64}

theorem ensure_forced (h : m.entropy - bits ≤ m.thresholds.minimum) :
    ensure ch m bits = (renewWaiting ch m).2 := by
  simp only [ensure]
  rw [if_pos h]

theorem ensure_ready (h : ¬m.entropy - bits ≤ m.thresholds.minimum)
    (h' : m.entropy - bits < m.thresholds.desired) :
    ensure ch m bits = renewFromReady ch.toQueue m := by
  simp only [ensure]
  rw [if_neg h, if_pos h']

theorem ensure_ample (h : ¬m.entropy - bits ≤ m.thresholds.minimum)
    (h' : ¬m.entropy - bits < m.thresholds.desired) : ensure ch m bits = m := by
  simp only [ensure]
  rw [if_neg h, if_neg h']

/-- Preparing a draw waits for a seed, or makes do with what is ready, or with nothing. -/
theorem ensure_cases (ch : Channel σ) (m : Managed γ σ) (bits : Int64) :
    m.entropy - bits ≤ m.thresholds.minimum ∧ ensure ch m bits = (renewWaiting ch m).2 ∨
      ¬m.entropy - bits ≤ m.thresholds.minimum ∧
        (ensure ch m bits = renewFromReady ch.toQueue m ∨ ensure ch m bits = m) := by
  by_cases hforced : m.entropy - bits ≤ m.thresholds.minimum
  · exact .inl ⟨hforced, ensure_forced hforced⟩
  · by_cases hready : m.entropy - bits < m.thresholds.desired
    · exact .inr ⟨hforced, .inl (ensure_ready hforced hready)⟩
    · exact .inr ⟨hforced, .inr (ensure_ample hforced hready)⟩

theorem renewFromReady_short
    (h : (gather ch.toQueue m).pending < (gather ch.toQueue m).holder.length) :
    renewFromReady ch.toQueue m = gather ch.toQueue m := by
  simp only [renewFromReady]
  rw [if_pos h]

theorem renewFromReady_full
    (h : ¬(gather ch.toQueue m).pending < (gather ch.toQueue m).holder.length) :
    renewFromReady ch.toQueue m = (gather ch.toQueue m).renew := by
  simp only [renewFromReady]
  rw [if_neg h]

theorem draw_made {d : Draw} (h : d.empty? = none) :
    (draw ch d m).2 =
      let paid := debit ch m d.cost
      { paid with tracked := ⟨(d.sample paid.tracked.generator).2, paid.entropy⟩ } := by
  simp only [draw, h]
  rfl

theorem nextSegment_ready (h : m.spareBytes m.thresholds.desired ≠ 0) :
    nextSegment ch m = (m.spareBytes m.thresholds.desired, m) := by
  simp only [nextSegment]
  rw [if_neg h]

theorem nextSegment_spent (h : m.spareBytes m.thresholds.desired = 0) :
    nextSegment ch m =
      (max ((ensure ch m Cost.byte).spareBytes (ensure ch m Cost.byte).thresholds.desired) 1,
        ensure ch m Cost.byte) := by
  simp only [nextSegment]
  rw [if_pos h]

def drawn (m : Managed γ σ) (n : ℕ) : Managed γ σ :=
  { m with tracked := (m.tracked.drawBytes n).2 }

theorem drawBytes_zero (ch : Channel σ) (m : Managed γ σ) : drawBytes ch 0 m = ([], m) := by
  rw [drawBytes.eq_def, if_pos rfl]

theorem drawBytes_pos {n : ℕ} (hn : n ≠ 0) :
    drawBytes ch n m =
      let s := nextSegment ch m
      let rest := drawBytes ch (n - min n s.1) (s.2.drawn (min n s.1))
      ((s.2.tracked.drawBytes (min n s.1)).1 ++ rest.1, rest.2) := by
  rw [drawBytes.eq_def, if_neg hn]
  rfl

theorem length_drawBytes (ch : Channel σ) (n : ℕ) (m : Managed γ σ) :
    (drawBytes ch n m).1.length = n := by
  fun_induction drawBytes ch n m with
  | case1 m => rfl
  | case2 n m hn s size b r ih =>
    have hsize : size ≤ n := Nat.min_le_left _ _
    have hb : b.1.length = size := Generator.length_fill size s.2.tracked.generator
    rw [List.length_append, hb, ih]
    omega

section Keeps

variable {P : Managed γ σ → Prop}

/-- What preparing a byte and drawing bytes keep, byte strings of any length keep. -/
theorem drawBytes_keeps (hensure : ∀ {m}, P m → P (ensure ch m Cost.byte))
    (hdrawn : ∀ {m} (n : ℕ), P m → P (m.drawn n)) (n : ℕ) (hm : P m) :
    P (drawBytes ch n m).2 := by
  fun_induction drawBytes ch n m with
  | case1 m => exact hm
  | case2 n m hn s size b r ih =>
    refine ih (hdrawn size ?_)
    by_cases hspare : m.spareBytes m.thresholds.desired = 0
    · change P (nextSegment ch m).2
      rw [nextSegment_spent hspare]
      exact hensure hm
    · change P (nextSegment ch m).2
      rw [nextSegment_ready hspare]
      exact hm

end Keeps

end EntropySupply.Managed
