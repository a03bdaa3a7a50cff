import EntropySupply.Proofs.Ring.Cells
import EntropySupply.Ring.Basic

/-!
# Tilings by spans

Live spans of one side of a ring follow one another without gap or overlap. Main statements: the
span that begins where the tiling begins is the first one, the span that ends where it ends is the
last one, and a span ends before the spans behind it begin.
-/

namespace EntropySupply

def Span.Covers (s : Span) (p : ℕ) : Prop :=
  s.start.toNat ≤ p ∧ p < s.start.toNat + s.length.toNat

def Span.slots (c : Capacity) (s : Span) : Finset ℕ :=
  (Finset.range s.length.toNat).image fun i => (s.start.toNat + i) % c.size

theorem Span.mem_slots {c : Capacity} {s : Span} {k : ℕ} :
    k ∈ s.slots c ↔ ∃ p, s.Covers p ∧ p % c.size = k := by
  simp only [slots, Finset.mem_image, Finset.mem_range, Covers]
  constructor
  · rintro ⟨i, hi, rfl⟩
    exact ⟨s.start.toNat + i, ⟨by omega, by omega⟩, rfl⟩
  · rintro ⟨p, ⟨hlow, hhigh⟩, rfl⟩
    exact ⟨p - s.start.toNat, by omega, by rw [Nat.add_sub_cancel' hlow]⟩

/-- The spans are non-empty and fill the positions from `low` up to `high` in their order. -/
def Tiles : ℕ → List Span → ℕ → Prop
  | low, [], high => low = high
  | low, s :: rest, high =>
    s.start.toNat = low ∧ 0 < s.length.toNat ∧ Tiles (low + s.length.toNat) rest high

theorem tiles_append {low high : ℕ} {front rest : List Span} :
    Tiles low (front ++ rest) high ↔ ∃ mid, Tiles low front mid ∧ Tiles mid rest high := by
  induction front generalizing low with
  | nil => simp [Tiles]
  | cons s front ih =>
    simp only [List.cons_append, Tiles, ih]
    constructor
    · rintro ⟨hs, hn, mid, hf, hr⟩
      exact ⟨mid, ⟨hs, hn, hf⟩, hr⟩
    · rintro ⟨mid, ⟨hs, hn, hf⟩, hr⟩
      exact ⟨hs, hn, mid, hf, hr⟩

namespace Tiles

variable {low high : ℕ} {spans front rest : List Span} {s : Span}

theorem le (h : Tiles low spans high) : low ≤ high := by
  induction spans generalizing low with
  | nil => exact Nat.le_of_eq h
  | cons s rest ih =>
    have := ih h.2.2
    omega

theorem eq_nil (h : Tiles low spans low) : spans = [] := by
  cases spans with
  | nil => rfl
  | cons s rest =>
    have := h.2.2.le
    have := h.2.1
    omega

theorem snoc (h : Tiles low spans s.start.toNat) (hs : 0 < s.length.toNat) :
    Tiles low (spans ++ [s]) (s.start.toNat + s.length.toNat) :=
  tiles_append.mpr ⟨_, h, rfl, hs, rfl⟩

/-- A span of a tiling lies between its ends, with the spans before and after it on either side. -/
theorem split (h : Tiles low (front ++ s :: rest) high) :
    Tiles low front s.start.toNat ∧ 0 < s.length.toNat ∧
      Tiles (s.start.toNat + s.length.toNat) rest high := by
  obtain ⟨mid, hf, rfl, hs, hr⟩ := tiles_append.mp h
  exact ⟨hf, hs, hr⟩

theorem bounds (h : Tiles low spans high) (hs : s ∈ spans) :
    low ≤ s.start.toNat ∧ s.start.toNat + s.length.toNat ≤ high := by
  obtain ⟨front, rest, rfl⟩ := List.append_of_mem hs
  obtain ⟨hf, _, hr⟩ := h.split
  exact ⟨hf.le, hr.le⟩

/-- The end of a span of a tiling is no wrapped word. -/
theorem toNat_stop (h : Tiles low spans high) (hs : s ∈ spans) (hhigh : high < UInt64.size) :
    s.stop.toNat = s.start.toNat + s.length.toNat := by
  have hle := (h.bounds hs).2
  rw [Span.stop, UInt64.toNat_add]
  exact Nat.mod_eq_of_lt (Nat.lt_of_le_of_lt hle hhigh)

theorem front_eq_nil (h : Tiles low (front ++ s :: rest) high) (hs : s.start.toNat = low) :
    front = [] := by
  have hf := h.split.1
  rw [hs] at hf
  exact hf.eq_nil

theorem rest_eq_nil (h : Tiles low (front ++ s :: rest) high)
    (hs : s.start.toNat + s.length.toNat = high) : rest = [] := by
  have hr := h.split.2.2
  rw [hs] at hr
  exact hr.eq_nil

theorem stop_le {t : Span} (h : Tiles low (front ++ s :: rest) high) (ht : t ∈ rest) :
    s.start.toNat + s.length.toNat ≤ t.start.toNat :=
  (h.split.2.2.bounds ht).1

end Tiles

end EntropySupply
