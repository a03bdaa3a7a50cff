import EntropySupply.Generator.Pcg
import EntropySupply.Proofs.Entropy.Budget
import EntropySupply.Proofs.Reseed.Credit
import EntropySupply.Queue.Room

/-!
# Coverage

When a renewal is always worth the same, the constructor's margin is enough for a draw of any kind
to leave a managed generator above its minimum. Main statement: `run_covered`, the only draws that
do not are those within which a wait for a seed has failed, and their failure is on record.
-/

namespace EntropySupply

open Renewable (Steady)

variable {γ σ : Type}

/-- A request that makes a draw: one with values to choose from, or at least one byte. -/
def Request.Draws : Request σ → Prop
  | .draw d => d.empty? = none
  | .bytes n => n ≠ 0
  | _ => False

namespace Managed

variable {ch : Channel σ} {m : Managed γ σ} {bits : Int64}

/-- A draw of that cost has to wait for a seed. -/
def Short (m : Managed γ σ) (bits : Int64) : Prop := m.entropy - bits ≤ m.thresholds.minimum

instance : Decidable (m.Short bits) :=
  inferInstanceAs (Decidable (m.entropy - bits ≤ m.thresholds.minimum))

/-- The budget is measured against the desired level without overflow. -/
def Measured (m : Managed γ σ) : Prop :=
  (m.entropy - m.thresholds.desired - 1).toInt = m.entropy.toInt - m.thresholds.desired.toInt - 1

instance : Decidable m.Measured :=
  inferInstanceAs (Decidable (_ = _))

variable [Renewable γ] [Journal σ]

/-- The states ahead of the segments of a byte string. -/
def segments (ch : Channel σ) (n : ℕ) (m : Managed γ σ) : List (Managed γ σ) :=
  if n = 0 then []
  else
    let s := nextSegment ch m
    m :: segments ch (n - min n s.1) (s.2.drawn (min n s.1))
termination_by n
decreasing_by
  have h := nextSegment_pos ch m
  omega

def waits (ch : Channel σ) (m : Managed γ σ) : Request σ → List (Managed γ σ)
  | .draw d => if d.empty? = none ∧ m.Short d.cost then [m] else []
  | .bytes n =>
    (segments ch n m).filter fun m => m.spareBytes m.thresholds.desired = 0 ∧ m.Short Cost.byte
  | .debit bits => if m.Short bits then [m] else []
  | .renewal => [m]
  | .outside _ => []

/-- A wait for a seed fails within the request. -/
def FailsWithin (ch : Channel σ) (m : Managed γ σ) (op : Request σ) (e : Interruption) : Prop :=
  ∃ m₁ ∈ waits ch m op, (renewWaiting ch m₁).1 = some e

/-- Between segments the budget is measured without overflow. Draws of fixed width need no such
condition. -/
def Fits (ch : Channel σ) (m : Managed γ σ) : Request σ → Prop
  | .bytes n => ∀ m₁ ∈ segments ch n m, m₁.Measured ∧ (nextSegment ch m₁).2.Measured
  | _ => True

theorem segments_zero (ch : Channel σ) (m : Managed γ σ) : segments ch 0 m = [] := by
  rw [segments.eq_def, if_pos rfl]

theorem segments_pos (ch : Channel σ) (m : Managed γ σ) {n : ℕ} (hn : n ≠ 0) :
    segments ch n m =
      m :: segments ch (n - min n (nextSegment ch m).1)
        ((nextSegment ch m).2.drawn (min n (nextSegment ch m).1)) := by
  rw [segments.eq_def, if_neg hn]

theorem FailsWithin.later {n : ℕ} {e : Interruption} (hn : n ≠ 0)
    (h : FailsWithin ch ((nextSegment ch m).2.drawn (min n (nextSegment ch m).1))
      (.bytes (n - min n (nextSegment ch m).1)) e) : FailsWithin ch m (.bytes n) e := by
  obtain ⟨m₁, hmem, hfail⟩ := h
  obtain ⟨hseg, hwait⟩ := List.mem_filter.mp hmem
  refine ⟨m₁, List.mem_filter.mpr ⟨?_, hwait⟩, hfail⟩
  rw [segments_pos ch m hn]
  exact List.mem_cons_of_mem _ hseg

structure Credited (t : Thresholds) (fresh : Int64) (m : Managed γ σ) : Prop where
  thresholds : m.thresholds = t
  claimed : Renewable.claimedBits m.tracked.generator = fresh

section Credited

variable {t : Thresholds} {fresh : Int64}

omit [Journal σ] in
theorem Credited.gather (h : Credited t fresh m) (q : Queue σ) : Credited t fresh (gather q m) := by
  obtain ⟨htracked, hthresholds⟩ := gather_frame q m
  refine ⟨hthresholds.trans h.thresholds, ?_⟩
  rw [htracked]
  exact h.claimed

omit [Journal σ] in
theorem Credited.waited (h : Credited t fresh m) : Credited t fresh (waited ch m) :=
  ⟨h.thresholds, h.claimed⟩

omit [Journal σ] in
theorem Credited.spared (h : Credited t fresh m) (horder : t.minimum ≤ t.desired)
    (hfits : m.Measured) {n : ℕ} (hpos : 0 < n) (hn : n ≤ m.spareBytes m.thresholds.desired) :
    t.minimum < (m.drawn n).entropy := by
  have habove := lt_sub_bytes hfits hn hpos
  rw [h.thresholds] at habove
  exact Int64.lt_of_le_of_lt horder habove

omit [Journal σ] in
theorem credited_of_new {g : γ} {initial : Option Int64} {s : σ}
    (hnew : new g initial t s = .ok m) :
    Credited t (Renewable.claimedBits g) m ∧ t.minimum ≤ t.desired ∧
      Cost.largest < Renewable.claimedBits g - t.minimum := by
  obtain ⟨hvalid, rfl⟩ := of_new_eq_ok hnew
  unfold Thresholds.validate at hvalid
  split_ifs at hvalid with horder hmargin
  exact ⟨⟨rfl, rfl⟩, Int64.not_lt.mp horder, Int64.not_le.mp hmargin⟩

variable [Steady γ]

theorem Credited.renew (h : Credited t fresh m) : Credited t fresh m.renew :=
  ⟨h.thresholds, (Steady.renew _ _).trans h.claimed⟩

theorem Credited.renew_entropy (h : Credited t fresh m) : m.renew.entropy = fresh :=
  h.renew.claimed

theorem Credited.renewWaiting (h : Credited t fresh m) :
    Credited t fresh (renewWaiting ch m).2 := by
  cases hw : (Managed.renewWaiting ch m).1 with
  | none =>
    rw [renewWaiting_none hw]
    exact h.waited.renew
  | some e =>
    rw [renewWaiting_some hw]
    exact ⟨h.thresholds, h.claimed⟩

theorem Credited.renewFromReady (h : Credited t fresh m) :
    Credited t fresh (renewFromReady ch.toQueue m) := by
  by_cases hshort : (Managed.gather ch.toQueue m).pending <
      (Managed.gather ch.toQueue m).holder.length
  · rw [renewFromReady_short hshort]
    exact h.gather _
  · rw [renewFromReady_full hshort]
    exact (h.gather _).renew

theorem Credited.ensure (h : Credited t fresh m) (ch : Channel σ) (bits : Int64) :
    Credited t fresh (ensure ch m bits) := by
  rcases ensure_cases ch m bits with ⟨-, heq⟩ | ⟨-, heq | heq⟩
  · rw [heq]
    exact h.renewWaiting
  · rw [heq]
    exact h.renewFromReady
  · rw [heq]
    exact h

theorem Credited.debit (h : Credited t fresh m) (ch : Channel σ) (bits : Int64) :
    Credited t fresh (debit ch m bits) :=
  ⟨(h.ensure ch bits).thresholds, (h.ensure ch bits).claimed⟩

omit [Journal σ] in
theorem Credited.drawn (h : Credited t fresh m) (n : ℕ) : Credited t fresh (m.drawn n) :=
  ⟨h.thresholds, (Steady.keeps fresh).fill n h.claimed⟩

theorem Credited.perform (h : Credited t fresh m) (ch : Channel σ) (op : Request σ) :
    Credited t fresh (m.perform ch op) := by
  cases op with
  | draw d =>
    change Credited t fresh (draw ch d m).2
    cases hempty : d.empty? with
    | some e =>
      unfold draw
      rw [hempty]
      exact h
    | none =>
      have hpaid := h.debit ch d.cost
      rw [draw_made hempty]
      exact ⟨hpaid.thresholds, (Steady.keeps fresh).draw d hpaid.claimed⟩
  | bytes n => exact drawBytes_keeps (fun h => h.ensure ch Cost.byte) (fun n h => h.drawn n) n h
  | debit bits => exact h.debit ch bits
  | renewal => exact h.renewWaiting
  | outside change => exact ⟨h.thresholds, h.claimed⟩

theorem Credited.run (h : Credited t fresh m) (ch : Channel σ) (ops : List (Request σ)) :
    Credited t fresh (m.run ch ops) := by
  induction ops generalizing m with
  | nil => exact h
  | cons op ops ih => exact ih (h.perform ch op)

theorem Credited.renewFromReady_entropy (h : Credited t fresh m) :
    (Managed.renewFromReady ch.toQueue m).entropy = fresh ∨
      (Managed.renewFromReady ch.toQueue m).entropy = m.entropy := by
  by_cases hshort : (Managed.gather ch.toQueue m).pending <
      (Managed.gather ch.toQueue m).holder.length
  · rw [renewFromReady_short hshort]
    exact .inr (congrArg Tracked.entropy (gather_frame ch.toQueue m).1)
  · rw [renewFromReady_full hshort]
    exact .inl (h.gather _).renew_entropy

/-- Preparing a draw renews the generator, or finds the budget good enough, or fails. -/
theorem Credited.ensure_entropy (h : Credited t fresh m) (ch : Channel σ) (bits : Int64) :
    (Managed.ensure ch m bits).entropy = fresh ∨
      (¬m.Short bits ∧ (Managed.ensure ch m bits).entropy = m.entropy) ∨
      m.Short bits ∧ ∃ e, (Managed.renewWaiting ch m).1 = some e ∧
        (Managed.ensure ch m bits).lastFailure = some e := by
  rcases ensure_cases ch m bits with ⟨hshort, heq⟩ | ⟨henough, heq | heq⟩
  · rw [heq]
    cases hw : (Managed.renewWaiting ch m).1 with
    | none =>
      rw [renewWaiting_none hw]
      exact .inl h.waited.renew_entropy
    | some e => exact .inr (.inr ⟨hshort, e, rfl, (renewWaiting_failed hw).2.2⟩)
  · rw [heq]
    exact h.renewFromReady_entropy.imp_right fun hsame => .inl ⟨henough, hsame⟩
  · rw [heq]
    exact .inr (.inl ⟨henough, rfl⟩)

/-- What a renewal is worth covers the largest cost of a draw. -/
theorem lt_fresh_sub (hmargin : Cost.largest.toInt < fresh.toInt - t.minimum.toInt)
    (hlow : 0 ≤ bits.toInt) (hhigh : bits.toInt ≤ Cost.largest.toInt) :
    t.minimum < fresh - bits := by
  have hfresh := fresh.toInt_lt
  have hminimum := t.minimum.le_toInt
  rw [Int64.lt_iff_toInt_lt, toInt_sub_of_bounds (by omega) (by omega)]
  omega

theorem Credited.paid (h : Credited t fresh m) (ch : Channel σ)
    (hmargin : Cost.largest.toInt < fresh.toInt - t.minimum.toInt)
    (hlow : 0 ≤ bits.toInt) (hhigh : bits.toInt ≤ Cost.largest.toInt) :
    t.minimum < (Managed.ensure ch m bits).entropy - bits ∨
      m.Short bits ∧ ∃ e, (Managed.renewWaiting ch m).1 = some e ∧
        (Managed.ensure ch m bits).lastFailure = some e := by
  rcases h.ensure_entropy ch bits with hfresh | ⟨henough, hsame⟩ | hfailed
  · left
    rw [hfresh]
    exact lt_fresh_sub hmargin hlow hhigh
  · left
    rw [hsame, ← h.thresholds]
    exact Int64.not_le.mp henough
  · exact .inr hfailed

theorem Credited.segment (h : Credited t fresh m) (horder : t.minimum ≤ t.desired)
    (hmargin : Cost.largest.toInt < fresh.toInt - t.minimum.toInt) (hfits : m.Measured)
    (hfits' : (nextSegment ch m).2.Measured) {n : ℕ} (hn : n ≠ 0) :
    t.minimum < ((nextSegment ch m).2.drawn (min n (nextSegment ch m).1)).entropy ∨
      m.spareBytes m.thresholds.desired = 0 ∧ m.Short Cost.byte ∧
        ∃ e, (Managed.renewWaiting ch m).1 = some e ∧
          ((nextSegment ch m).2.drawn (min n (nextSegment ch m).1)).lastFailure = some e := by
  by_cases hspare : m.spareBytes m.thresholds.desired = 0
  · rw [nextSegment_spent hspare] at hfits' ⊢
    have hensured := h.ensure ch Cost.byte
    by_cases hmore : (Managed.ensure ch m Cost.byte).spareBytes
        (Managed.ensure ch m Cost.byte).thresholds.desired = 0
    · -- The segment is the one byte that was prepared, at the cost that the margin covers.
      have hone : min n (max 0 1) = 1 := by omega
      rw [hmore, hone]
      rcases h.paid ch hmargin (show 0 ≤ Cost.byte.toInt by decide) (by decide) with
        habove | hfailed
      · exact .inl habove
      · exact .inr ⟨hspare, hfailed⟩
    · exact .inl (hensured.spared horder hfits' (by omega) (by omega))
  · rw [nextSegment_ready hspare]
    exact .inl (h.spared horder hfits (by omega) (Nat.min_le_right _ _))

theorem Credited.bytes (h : Credited t fresh m) (horder : t.minimum ≤ t.desired)
    (hmargin : Cost.largest.toInt < fresh.toInt - t.minimum.toInt) {n : ℕ} (hn : n ≠ 0)
    (hfits : Fits ch m (.bytes n)) :
    t.minimum < (drawBytes ch n m).2.entropy ∨
      ∃ e, FailsWithin ch m (.bytes n) e ∧ (drawBytes ch n m).2.lastFailure = some e := by
  -- What a renewal is worth carries over from segment to segment; the budget in between need not
  -- be above the minimum, for only the last segment counts.
  induction n using Nat.strong_induction_on generalizing m with
  | _ n ih =>
    have hsegments := segments_pos ch m hn
    have hpos := nextSegment_pos ch m
    have hhere := hfits m (hsegments ▸ List.mem_cons_self)
    rw [drawBytes_pos hn]
    dsimp only
    by_cases hlast : n - min n (nextSegment ch m).1 = 0
    · rw [hlast, drawBytes_zero]
      rcases h.segment horder hmargin hhere.1 hhere.2 hn with habove | ⟨hspare, hshort, e, he, hrec⟩
      · exact .inl habove
      · refine .inr ⟨e, ⟨m, List.mem_filter.mpr ⟨?_, ?_⟩, he⟩, hrec⟩
        · rw [hsegments]
          exact List.mem_cons_self
        · exact decide_eq_true ⟨hspare, hshort⟩
    · have hnext : Credited t fresh ((nextSegment ch m).2.drawn (min n (nextSegment ch m).1)) := by
        refine Credited.drawn ?_ _
        by_cases hspare : m.spareBytes m.thresholds.desired = 0
        · rw [nextSegment_spent hspare]
          exact h.ensure ch Cost.byte
        · rw [nextSegment_ready hspare]
          exact h
      have hlater : Fits ch ((nextSegment ch m).2.drawn (min n (nextSegment ch m).1))
          (.bytes (n - min n (nextSegment ch m).1)) := by
        intro m₁ hmem
        exact hfits m₁ (hsegments ▸ List.mem_cons_of_mem _ hmem)
      rcases ih _ (by omega) hnext hlast hlater with habove | ⟨e, he, hrec⟩
      · exact .inl habove
      · exact .inr ⟨e, he.later hn, hrec⟩

end Credited

/-- A draw leaves the budget above the minimum, or a wait for a seed has failed within it and is the
failure on record. -/
theorem run_covered [Steady γ] {g : γ} {initial : Option Int64} {t : Thresholds} {s : σ}
    (hnew : new g initial t s = .ok m)
    (hexact : (Renewable.claimedBits g - t.minimum).toInt =
      (Renewable.claimedBits g).toInt - t.minimum.toInt)
    (ch : Channel σ) (ops : List (Request σ)) (op : Request σ) (hdraws : op.Draws)
    (hfits : Fits ch (m.run ch ops) op) :
    t.minimum < ((m.run ch ops).perform ch op).entropy ∨
      ∃ e, FailsWithin ch (m.run ch ops) op e ∧
        ((m.run ch ops).perform ch op).lastFailure = some e := by
  obtain ⟨hcredited, horder, hmargin⟩ := credited_of_new hnew
  rw [Int64.lt_iff_toInt_lt, hexact] at hmargin
  have h := hcredited.run ch ops
  cases op with
  | draw d =>
    have hempty : d.empty? = none := hdraws
    obtain ⟨hlow, hhigh⟩ := d.toInt_cost_le
    change t.minimum < (draw ch d (m.run ch ops)).2.entropy ∨
      ∃ e, FailsWithin ch (m.run ch ops) (.draw d) e ∧
        (draw ch d (m.run ch ops)).2.lastFailure = some e
    rw [draw_made hempty]
    refine (h.paid ch hmargin hlow hhigh).imp_right ?_
    rintro ⟨hshort, e, he, hrecord⟩
    refine ⟨e, ⟨m.run ch ops, ?_, he⟩, hrecord⟩
    simp only [waits]
    rw [if_pos ⟨hempty, hshort⟩]
    exact List.mem_cons_self
  | bytes n => exact h.bytes horder hmargin hdraws hfits
  | debit bits => exact hdraws.elim
  | renewal => exact hdraws.elim
  | outside change => exact hdraws.elim

/-- A generator at a closed queue. -/
def stranded (bits : Int64) : Managed (Replacing Pcg64) (Site (Pool .four)) where
  tracked := ⟨.ofSeed [1], bits⟩
  site := { pool := .ofRing (Ring.empty _ .abandon).close [] }
  thresholds := {}
  holder := List.replicate 32 0

theorem run_covered_stranded :
    new (.ofSeed [1]) (some 300) {} (stranded 300).site = .ok (stranded 300) ∧
      ((64 : Int64) < (((stranded 300).run (Site.layered []) [.debit 60]).perform (Site.layered [])
          (.bytes 14)).entropy ∨
        ∃ e, FailsWithin (Site.layered []) ((stranded 300).run (Site.layered []) [.debit 60])
            (.bytes 14) e ∧
          (((stranded 300).run (Site.layered []) [.debit 60]).perform (Site.layered [])
            (.bytes 14)).lastFailure = some e) := by
  have hnew : new (.ofSeed [1]) (some 300) {} (stranded 300).site = .ok (stranded 300) := rfl
  refine ⟨hnew, run_covered hnew (by decide +kernel) _ _ _ (Nat.succ_ne_zero 13) ?_⟩
  have hpaid : (stranded 300).run (Site.layered []) [.debit 60] = stranded 240 := rfl
  have hready : nextSegment (Site.layered []) (stranded 240) = (13, stranded 240) :=
    nextSegment_ready (by decide +kernel)
  have hspent : nextSegment (Site.layered []) ((stranded 240).drawn 13) =
      (1, (stranded 240).drawn 13) := by
    rw [nextSegment_spent (by decide +kernel), ensure_ample (by decide +kernel) (by decide +kernel)]
    rfl
  intro m₁ hmem
  rw [hpaid, segments_pos _ _ (by decide), hready] at hmem
  change m₁ ∈ stranded 240 :: segments _ 1 ((stranded 240).drawn 13) at hmem
  rw [segments_pos _ _ (by decide), hspent] at hmem
  change m₁ ∈ stranded 240 :: (stranded 240).drawn 13 :: segments _ 0 _ at hmem
  rw [segments_zero, List.mem_cons, List.mem_singleton] at hmem
  rcases hmem with rfl | rfl
  · rw [hready]
    exact ⟨by decide +kernel, by decide +kernel⟩
  · rw [hspent]
    exact ⟨by decide +kernel, by decide +kernel⟩

end Managed

end EntropySupply
