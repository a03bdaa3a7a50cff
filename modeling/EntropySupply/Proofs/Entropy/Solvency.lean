import EntropySupply.Proofs.Entropy.Coverage
import EntropySupply.Proofs.Queue.Turns

/-!
# Solvency

A draw before which no wait for a seed has failed leaves the budget above the minimum. The minimum
may be negative, and then nothing keeps the budget from running out. Main statement: `solvent_iff`,
with thresholds that are accepted, budgets stay positive at every channel exactly if the minimum is
not negative.
-/

namespace EntropySupply

open Renewable (Steady)

namespace Managed

variable {γ σ : Type} [Renewable γ]

/-- Whatever the channel does and whatever has been asked before, a draw within which no wait for a
seed fails leaves a positive budget. -/
def Solvent (g : γ) (t : Thresholds) : Prop :=
  ∀ {σ : Type} [Journal σ] (ch : Channel σ) (s : σ) (initial : Option Int64) (m : Managed γ σ),
    new g initial t s = .ok m → ∀ (ops : List (Request σ)) (op : Request σ), op.Draws →
      Fits ch (m.run ch ops) op → (∀ e, ¬FailsWithin ch (m.run ch ops) op e) →
        0 < ((m.run ch ops).perform ch op).entropy

section Credited

variable [Journal σ] {ch : Channel σ} {m : Managed γ σ} {t : Thresholds} {fresh : Int64} [Steady γ]

theorem Credited.above (h : Credited t fresh m) (horder : t.minimum ≤ t.desired)
    (hmargin : Cost.largest.toInt < fresh.toInt - t.minimum.toInt) {op : Request σ}
    (hdraws : op.Draws) (hfits : Fits ch m op) (hwaits : ∀ e, ¬FailsWithin ch m op e) :
    t.minimum < (m.perform ch op).entropy := by
  cases op with
  | draw d =>
    have hempty : d.empty? = none := hdraws
    obtain ⟨hlow, hhigh⟩ := d.toInt_cost_le
    rw [Managed.perform, draw_made hempty]
    apply (h.paid ch hmargin hlow hhigh).resolve_right
    rintro ⟨hshort, e, he, -⟩
    apply hwaits e
    refine ⟨m, ?_, he⟩
    simp [waits, hempty, hshort]
  | bytes n =>
    apply (h.bytes horder hmargin hdraws hfits).resolve_right
    rintro ⟨e, he, -⟩
    exact hwaits e he
  | debit bits => exact hdraws.elim
  | renewal => exact hdraws.elim
  | outside change => exact hdraws.elim

end Credited

theorem solvent_of_nonneg [Steady γ] {g : γ} {t : Thresholds}
    (hexact : (Renewable.claimedBits g - t.minimum).toInt =
      (Renewable.claimedBits g).toInt - t.minimum.toInt)
    (hminimum : 0 ≤ t.minimum) : Solvent g t := by
  intro σ _ ch s initial m hnew ops op hdraws hfits hwaits
  obtain ⟨hcredited, horder, hmargin⟩ := credited_of_new hnew
  rw [Int64.lt_iff_toInt_lt, hexact] at hmargin
  exact Int64.lt_of_le_of_lt hminimum
    ((hcredited.run ch ops).above horder hmargin hdraws hfits hwaits)

theorem renewFromReady_none [Journal σ] {ch : Channel σ} {m : Managed γ σ}
    (hroom : m.pending < m.holder.length)
    (hpoll : (ch.poll m.site (m.holder.drop m.pending)).count = 0) :
    (renewFromReady ch.toQueue m).tracked = m.tracked := by
  have hlength := ch.poll_length m.site (m.holder.drop m.pending)
  have hgather : gather ch.toQueue m =
      { m with
        site := (ch.poll m.site (m.holder.drop m.pending)).state
        holder := m.holder.take m.pending ++ (ch.poll m.site (m.holder.drop m.pending)).buffer
        pending := m.pending + (ch.poll m.site (m.holder.drop m.pending)).count } := by
    rw [gather.eq_def, if_neg (Nat.not_le_of_lt hroom)]
    exact if_pos hpoll
  rw [renewFromReady_short]
  · exact (gather_frame _ _).1
  · simp only [hgather, hpoll, List.length_append, List.length_take, hlength, List.length_drop]
    omega

/-- A generator with one bit of budget, at an empty ring. -/
def frugal (g : γ) (t : Thresholds) : Managed γ (Site (Pool .four)) where
  tracked := ⟨g, 1⟩
  site := { pool := .ofRing (.empty _ .abandon) [] }
  thresholds := t
  holder := List.replicate (Renewable.seedBytes g) 0

section Frugal

variable {g : γ} {t : Thresholds}

theorem new_frugal (hvalid : t.validate (Renewable.claimedBits g) = .ok ()) :
    new g (some 1) t (frugal g t).site = .ok (frugal g t) := by
  simp only [new, hvalid]
  rfl

/-- Its last bit can be spent if the minimum is negative. -/
theorem flag_frugal (hsize : 0 < Renewable.seedBytes g) (hminimum : t.minimum < 0) :
    ¬(frugal g t).Short Cost.flag ∧
      ((frugal g t).perform (Site.layered []) (.draw .flag)).entropy = 0 := by
  have hleft : (frugal g t).entropy - Cost.flag = 0 := by
    change (1 : Int64) - Cost.flag = 0
    decide
  have henough : ¬(frugal g t).Short Cost.flag := by
    unfold Short
    rw [hleft]
    exact Int64.not_le.mpr hminimum
  have hroom : (frugal g t).pending < (frugal g t).holder.length := by
    simpa [frugal] using hsize
  have hpoll : ((Site.layered []).poll (frugal g t).site
      ((frugal g t).holder.drop (frugal g t).pending)).count = 0 := by
    have hstock : (Ring.empty .four .abandon).stock = 0 := by decide
    change (Pool.bare.poll (frugal g t).site.pool _).count = 0
    rw [Pool.bare_poll (Ring.sound_empty .four .abandon)]
    exact Nat.min_eq_zero_iff.mpr (.inr hstock)
  have hprepared : (ensure (Site.layered []) (frugal g t) Cost.flag).entropy = 1 := by
    rcases ensure_cases (Site.layered []) (frugal g t) Cost.flag with ⟨hshort, -⟩ | ⟨-, heq | heq⟩
    · exact absurd hshort henough
    · rw [heq, entropy, renewFromReady_none hroom hpoll]
      rfl
    · rw [heq]
      rfl
  refine ⟨henough, ?_⟩
  rw [perform, draw_made rfl]
  change (ensure (Site.layered []) (frugal g t) Cost.flag).entropy - Cost.flag = 0
  rw [hprepared]
  rfl

theorem not_solvent_of_neg (hvalid : t.validate (Renewable.claimedBits g) = .ok ())
    (hsize : 0 < Renewable.seedBytes g) (hminimum : t.minimum < 0) : ¬Solvent g t := by
  intro h
  obtain ⟨henough, hspent⟩ := flag_frugal hsize hminimum
  have hpositive := h (Site.layered []) (frugal g t).site (some 1) (frugal g t)
    (new_frugal hvalid) [] (.draw .flag) rfl trivial
  have hwaits : waits (Site.layered []) (frugal g t) (.draw .flag) = [] :=
    if_neg fun hshort => henough hshort.2
  have hfails : ∀ e, ¬FailsWithin (Site.layered []) (frugal g t) (.draw .flag) e := by
    rintro e ⟨m₁, hmem, -⟩
    rw [hwaits] at hmem
    exact List.not_mem_nil hmem
  have hlost := hpositive hfails
  change 0 < ((frugal g t).perform (Site.layered []) (.draw .flag)).entropy at hlost
  rw [hspent] at hlost
  exact Int64.lt_irrefl hlost

end Frugal

/-- With thresholds that are accepted, and a strategy whose renewals are always worth the same,
budgets stay positive exactly if the minimum is not negative. -/
theorem solvent_iff [Steady γ] {g : γ} {t : Thresholds}
    (hvalid : t.validate (Renewable.claimedBits g) = .ok ())
    (hexact : (Renewable.claimedBits g - t.minimum).toInt =
      (Renewable.claimedBits g).toInt - t.minimum.toInt)
    (hsize : 0 < Renewable.seedBytes g) : Solvent g t ↔ 0 ≤ t.minimum := by
  constructor
  · intro h
    by_contra hneg
    exact not_solvent_of_neg hvalid hsize (Int64.not_le.mp hneg) h
  · exact solvent_of_nonneg hexact

theorem solvent_iff_replacing :
    Solvent (.ofSeed [1] : Replacing Pcg64) {} ∧
      ¬Solvent (.ofSeed [1] : Replacing Pcg64) { desired := -500, minimum := -1000 } := by
  constructor
  · exact (solvent_iff rfl (by decide +kernel) (by decide)).mpr (by decide)
  · rw [solvent_iff rfl (by decide +kernel) (by decide)]
    decide

/-- A generator whose thresholds are negative, at a ring of 64 bytes. -/
def lavish : Managed (Replacing Pcg64) (Site (Pool ⟨6, by decide⟩)) where
  tracked := ⟨.ofSeed [1], 256⟩
  site := { pool := .ofRing (.empty _ .abandon) [] }
  thresholds := { desired := -500, minimum := -1000 }
  holder := List.replicate 32 0

def spree : List (Request (Site (Pool ⟨6, by decide⟩))) :=
  [.outside fun s => ((Site.layered []).offer s (List.replicate 32 7)).state,
    .draw .word64, .draw .word64, .draw .word64, .draw .word64]

/-- The thresholds are accepted, no wait fails, a seed is ready, and the budget runs out. -/
theorem not_solvent_lavish :
    new (.ofSeed [1]) none { desired := -500, minimum := -1000 } lavish.site = .ok lavish ∧
      (lavish.run (Site.layered []) spree).lastFailure = none ∧
      (lavish.run (Site.layered []) spree).site.pool.ring.stock = 32 ∧
      ¬0 < (lavish.run (Site.layered []) spree).entropy := by
  refine ⟨rfl, ?_, ?_, ?_⟩
  · decide +kernel
  · decide +kernel
  · decide +kernel

end Managed

end EntropySupply
