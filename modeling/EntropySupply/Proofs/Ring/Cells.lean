import EntropySupply.Ring.Slots
import Mathlib.Data.List.Basic
import Mathlib.Tactic

/-!
# Slots as cells of positions

A position names the slot that is its remainder by the capacity. Copying in and out is described
position by position: the two runs of slots, and the place where the second one starts over, no
longer appear. Main statements: a copy in changes the bytes at its own positions and nothing else in
any window of `size` positions around them, and a copy out reads the bytes at its positions.
-/

namespace EntropySupply

namespace Capacity

variable (c : Capacity)

def cell (p : ℕ) : Fin c.size := ⟨p % c.size, Nat.mod_lt _ c.size_pos⟩

/-- Two positions less than a capacity apart have different slots. -/
theorem eq_of_cell_eq {p q : ℕ} (h : c.cell p = c.cell q) (hp : p < q + c.size)
    (hq : q < p + c.size) : p = q := by
  have hmod : p % c.size = q % c.size := congrArg Fin.val h
  rcases Nat.le_total p q with hle | hle
  · have h₀ := Nat.sub_mod_eq_zero_of_mod_eq hmod.symm
    rw [Nat.mod_eq_of_lt (by omega)] at h₀
    omega
  · have h₀ := Nat.sub_mod_eq_zero_of_mod_eq hmod
    rw [Nat.mod_eq_of_lt (by omega)] at h₀
    omega

theorem mod_add (p : ℕ) {i : ℕ} (hi : i < c.size) :
    (p + i) % c.size =
      if p % c.size + i < c.size then p % c.size + i else p % c.size + i - c.size := by
  have hp := Nat.mod_lt p c.size_pos
  rw [Nat.add_mod, Nat.mod_eq_of_lt hi]
  split_ifs with h
  · exact Nat.mod_eq_of_lt h
  · rw [Nat.mod_eq_sub_mod (by omega), Nat.mod_eq_of_lt (by omega)]

theorem size_dvd : c.size ∣ UInt64.size := by
  rw [size, Nat.one_shiftLeft]
  exact Nat.pow_dvd_pow 2 c.exponent_lt.le

/-- Positions as words start over at a multiple of the capacity, which no slot notices. -/
theorem cell_ofNat_add (p i : ℕ) : c.cell ((UInt64.ofNat p).toNat + i) = c.cell (p + i) := by
  apply Fin.ext
  change ((UInt64.ofNat p).toNat + i) % c.size = (p + i) % c.size
  rw [UInt64.toNat_ofNat', Nat.add_mod, Nat.mod_mod_of_dvd p c.size_dvd, ← Nat.add_mod]

end Capacity

namespace Slots

variable {c : Capacity}

def byteAt (s : Slots c) (p : ℕ) : UInt8 := s[c.cell p]

theorem byteAt_eq (s : Slots c) {p k : ℕ} (hk : k < c.size) (h : p % c.size = k) :
    s.byteAt p = s[k] := by
  subst h
  rfl

theorem byteAt_add_size (s : Slots c) (p : ℕ) : s.byteAt (p + c.size) = s.byteAt p :=
  byteAt_eq s (Nat.mod_lt _ c.size_pos) (Nat.add_mod_right p c.size)

theorem byteAt_ofNat_add (s : Slots c) (p i : ℕ) :
    s.byteAt ((UInt64.ofNat p).toNat + i) = s.byteAt (p + i) := by
  simp only [byteAt, c.cell_ofNat_add]

theorem getElem_writeRun (s : Slots c) (index : ℕ) (bs : Bytes) {k : ℕ} (hk : k < c.size) :
    (s.writeRun index bs)[k] = if index ≤ k then bs.getD (k - index) s[k] else s[k] := by
  induction bs generalizing s index with
  | nil => simp [writeRun]
  | cons b bs ih =>
    rw [writeRun, ih]
    rcases Nat.lt_trichotomy index k with h | rfl | h
    · rw [if_pos (by omega), if_pos (by omega), Vector.getElem_setIfInBounds_ne _ (by omega),
        show k - index = k - (index + 1) + 1 by omega, List.getD_cons_succ]
    · simp
    · rw [if_neg (by omega), if_neg (by omega), Vector.getElem_setIfInBounds_ne _ (by omega)]

theorem readRun_eq_map (s : Slots c) {index length : ℕ} (h : index + length ≤ c.size) :
    s.readRun index length = (List.range length).map fun i => s.byteAt (index + i) := by
  apply List.ext_getElem
  · simp [length_readRun s h]
  · intro i hi hi'
    have hlt : i < length := by simpa using hi'
    rw [List.getElem_map, List.getElem_range,
      byteAt_eq s (show index + i < c.size by omega) (Nat.mod_eq_of_lt (by omega))]
    simp [readRun]

/-- In the window of positions that begins with a copy in, the copied bytes stand in front and the
rest is as before. -/
theorem byteAt_store (s : Slots c) (start : UInt64) (src : Bytes) (hsrc : src.length ≤ c.size)
    {i : ℕ} (hi : i < c.size) :
    (s.store start src).byteAt (start.toNat + i) = src.getD i (s.byteAt (start.toNat + i)) := by
  have hs := c.slot_lt start
  have hmod := c.mod_add start.toNat hi
  rw [← c.slot_eq_mod] at hmod
  simp only [store, Capacity.split]
  split_ifs at hmod with h
  · -- The second run is too short to reach a slot behind the first one's start.
    rw [byteAt_eq _ h hmod, byteAt_eq _ h hmod, getElem_writeRun, if_pos (Nat.zero_le _),
      getElem_writeRun, if_pos (by omega), Nat.add_sub_cancel_left]
    simp only [List.getD_eq_getElem?_getD]
    rw [List.getElem?_eq_none (by rw [List.length_drop]; omega), Option.getD_none,
      List.getElem?_take]
    split_ifs with hlt
    · rfl
    · rw [List.getElem?_eq_none (by omega)]
  · rw [byteAt_eq _ (by omega) hmod, byteAt_eq _ (by omega) hmod, getElem_writeRun,
      if_pos (Nat.zero_le _), getElem_writeRun, if_neg (by omega)]
    simp only [List.getD_eq_getElem?_getD, List.getElem?_drop]
    by_cases hlt : src.length ≤ c.size - c.slot start
    · rw [Nat.min_eq_left hlt, List.getElem?_eq_none (by omega), List.getElem?_eq_none (by omega)]
    · rw [Nat.min_eq_right (by omega),
        show c.size - c.slot start + (c.slot start + i - c.size - 0) = i by omega]

theorem byteAt_store_ofNat (s : Slots c) (p : ℕ) (src : Bytes) (hsrc : src.length ≤ c.size)
    {i : ℕ} (hi : i < c.size) :
    (s.store (UInt64.ofNat p) src).byteAt (p + i) = src.getD i (s.byteAt (p + i)) := by
  simpa only [byteAt_ofNat_add] using byteAt_store s (UInt64.ofNat p) src hsrc hi

theorem load_eq_map (s : Slots c) (start : UInt64) {length : ℕ} (h : length ≤ c.size) :
    s.load start length = (List.range length).map fun i => s.byteAt (start.toNat + i) := by
  have hs := c.slot_lt start
  have hsplit := c.split_le start length
  simp only [load, Capacity.split] at hsplit ⊢
  rw [readRun_eq_map s hsplit, readRun_eq_map s (by omega)]
  apply List.ext_getElem
  · simp
  · intro i hi hi'
    have hlt : i < length := by simpa using hi'
    have hmod := c.mod_add start.toNat (show i < c.size by omega)
    rw [← c.slot_eq_mod] at hmod
    simp only [List.getElem_map, List.getElem_range, List.getElem_append, List.length_map,
      List.length_range]
    split_ifs with hfirst
    · rw [if_pos (by omega)] at hmod
      rw [byteAt_eq s (show c.slot start + i < c.size by omega) (Nat.mod_eq_of_lt (by omega)),
        byteAt_eq s _ hmod]
    · rw [if_neg (by omega)] at hmod
      rw [byteAt_eq s (k := c.slot start + i - c.size) (by omega)
        (by rw [Nat.mod_eq_of_lt (by omega)]; omega), byteAt_eq s _ hmod]

/-- The slots of the positions from `start` on hold `text`. -/
def Holds (s : Slots c) (start : ℕ) (text : Bytes) : Prop :=
  ∀ i b, text[i]? = some b → s.byteAt (start + i) = b

theorem holds_nil (s : Slots c) (start : ℕ) : s.Holds start [] := by
  intro i b h
  simp at h

namespace Holds

variable {s : Slots c} {start : ℕ} {text : Bytes}

theorem append {more : Bytes} (h : s.Holds start text) (h' : s.Holds (start + text.length) more) :
    s.Holds start (text ++ more) := by
  intro i b hb
  rcases Nat.lt_or_ge i text.length with hi | hi
  · exact h i b (by rwa [List.getElem?_append_left hi] at hb)
  · rw [List.getElem?_append_right hi] at hb
    have := h' _ b hb
    rwa [show start + text.length + (i - text.length) = start + i by omega] at this

theorem drop (h : s.Holds start text) (n : ℕ) : s.Holds (start + n) (text.drop n) := by
  intro i b hb
  rw [List.getElem?_drop] at hb
  rw [Nat.add_assoc]
  exact h _ b hb

theorem take (h : s.Holds start text) (n : ℕ) : s.Holds start (text.take n) := by
  intro i b hb
  rw [List.getElem?_take] at hb
  split_ifs at hb
  exact h i b hb

theorem load {start : UInt64} (h : s.Holds start.toNat text) (hlen : text.length ≤ c.size) :
    s.load start text.length = text := by
  rw [load_eq_map s start hlen]
  apply List.ext_getElem
  · simp
  · intro i hi hi'
    rw [List.getElem_map, List.getElem_range]
    exact h i _ (List.getElem?_eq_getElem hi')

theorem store_ofNat {q : ℕ} {src : Bytes} {low : ℕ} (h : s.Holds start text)
    (hlow : low ≤ start) (hhigh : start + text.length ≤ low + c.size) (hlow' : low ≤ q)
    (hhigh' : q + src.length ≤ low + c.size)
    (hsep : ∀ i < text.length, start + i < q ∨ q + src.length ≤ start + i) :
    (s.store (UInt64.ofNat q) src).Holds start text := by
  intro i b hb
  have hi : i < text.length := (List.getElem?_eq_some_iff.mp hb).1
  have hold := h i b hb
  rcases hsep i hi with hsep | hsep
  · -- This position comes back one capacity later, behind the copied bytes.
    have hst := byteAt_store_ofNat s q src (by omega)
      (show start + i + c.size - q < c.size by omega)
    rw [show q + (start + i + c.size - q) = start + i + c.size by omega,
      byteAt_add_size, byteAt_add_size, List.getD_eq_getElem?_getD,
      List.getElem?_eq_none (by omega)] at hst
    exact hst.trans hold
  · have hst := byteAt_store_ofNat s q src (by omega) (show start + i - q < c.size by omega)
    rw [show q + (start + i - q) = start + i by omega,
      List.getD_eq_getElem?_getD, List.getElem?_eq_none (by omega)] at hst
    exact hst.trans hold

theorem store {first : UInt64} {src : Bytes} {low : ℕ} (h : s.Holds start text)
    (hlow : low ≤ start) (hhigh : start + text.length ≤ low + c.size) (hlow' : low ≤ first.toNat)
    (hhigh' : first.toNat + src.length ≤ low + c.size)
    (hsep : start + text.length ≤ first.toNat ∨ first.toNat + src.length ≤ start) :
    (s.store first src).Holds start text := by
  have hstore := h.store_ofNat hlow hhigh hlow' hhigh' (fun i hi => by omega)
  rwa [UInt64.ofNat_toNat] at hstore

theorem overwrite {start : UInt64} {src : Bytes} (h : s.Holds start.toNat text)
    (hlen : text.length ≤ c.size) (hsrc : src.length ≤ c.size) :
    (s.store start src).Holds start.toNat (src ++ text.drop src.length) := by
  intro i b hb
  have hi : i < c.size := by
    have := (List.getElem?_eq_some_iff.mp hb).1
    simp at this
    omega
  rw [byteAt_store s start src hsrc hi, List.getD_eq_getElem?_getD]
  rcases Nat.lt_or_ge i src.length with hlt | hge
  · rw [List.getElem?_append_left hlt] at hb
    rw [hb, Option.getD_some]
  · rw [List.getElem?_append_right hge, List.getElem?_drop,
      show src.length + (i - src.length) = i by omega] at hb
    rw [List.getElem?_eq_none hge, Option.getD_none]
    exact h i b hb

end Holds

end Slots

end EntropySupply
