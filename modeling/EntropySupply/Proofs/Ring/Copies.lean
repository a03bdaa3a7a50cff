import EntropySupply.Proofs.Ring.Cells
import Mathlib.Data.List.GetD
import Mathlib.Tactic

/-!
# Copies between bytes and slots

Copies go in two runs of slots, and no run leaves the slots: with a check of each single access they
come to the same. Main statement: `copies_cellwise`, copying byte by byte to the remainders of the
positions is what the two runs do, and what was copied in is copied out again, whatever else was
copied in beside it.
-/

namespace EntropySupply

namespace Capacity

variable (c : Capacity)

theorem exists_cell_eq (p : ℕ) (k : Fin c.size) : ∃ i < c.size, c.cell (p + i) = k := by
  have hk := k.isLt
  have hp := Nat.mod_lt p c.size_pos
  rcases Nat.lt_or_ge k.val (p % c.size) with hbelow | habove
  · have hi : k.val + c.size - p % c.size < c.size := by omega
    refine ⟨_, hi, Fin.ext ?_⟩
    change (p + (k.val + c.size - p % c.size)) % c.size = k
    rw [c.mod_add p hi, if_neg (by omega)]
    omega
  · have hi : k.val - p % c.size < c.size := by omega
    refine ⟨_, hi, Fin.ext ?_⟩
    change (p + (k.val - p % c.size)) % c.size = k
    rw [c.mod_add p hi, if_pos (by omega)]
    omega

/-- Two ranges of positions that have no position in common and lie in one window of as many
positions as there are slots. -/
def Beside (p m q n : ℕ) : Prop :=
  (∀ i < m, ∀ j < n, p + i ≠ q + j) ∧
    ∃ low, low ≤ p ∧ p + m ≤ low + c.size ∧ low ≤ q ∧ q + n ≤ low + c.size

end Capacity

namespace Slots

variable {c : Capacity}

/-- A run of writes with a check of each slot; there is no result if a slot is missing. -/
def writeRun? (s : Slots c) (index : ℕ) : Bytes → Option (Slots c)
  | [] => some s
  | b :: bs => if h : index < c.size then writeRun? (s.set index b h) (index + 1) bs else none

def readRun? (s : Slots c) (index : ℕ) : ℕ → Option Bytes
  | 0 => some []
  | n + 1 =>
    if h : index < c.size then (readRun? s (index + 1) n).map (s[index] :: ·) else none

/-- Both runs of a copy in, checked. -/
def store? (s : Slots c) (start : UInt64) (src : Bytes) : Option (Slots c) :=
  let (index, first) := c.split start src.length
  (s.writeRun? index (src.take first)).bind (·.writeRun? 0 (src.drop first))

def load? (s : Slots c) (start : UInt64) (length : ℕ) : Option Bytes :=
  let (index, first) := c.split start length
  (s.readRun? index first).bind fun front => (s.readRun? 0 (length - first)).map (front ++ ·)

theorem writeRun?_eq (s : Slots c) {index : ℕ} {bs : Bytes} (h : index + bs.length ≤ c.size) :
    s.writeRun? index bs = some (s.writeRun index bs) := by
  induction bs generalizing s index with
  | nil => rfl
  | cons b bs ih =>
    simp only [List.length_cons] at h
    have hset : s.setIfInBounds index b = s.set index b := by
      apply Vector.ext
      intro j hj
      rw [Vector.getElem_setIfInBounds, Vector.getElem_set]
    rw [writeRun?, dif_pos (by omega), ih _ (by omega), writeRun, hset]

theorem readRun?_eq (s : Slots c) {index length : ℕ} (h : index + length ≤ c.size) :
    s.readRun? index length = some (s.readRun index length) := by
  induction length generalizing index with
  | zero => simp [readRun?, readRun]
  | succ n ih =>
    have hfront : s.byteAt (index + 0) = s[index] := byteAt_eq s _ (Nat.mod_eq_of_lt (by omega))
    have hlater (i : ℕ) : s.byteAt (index + 1 + i) = s.byteAt (index + (i + 1)) := by
      rw [Nat.add_assoc, Nat.add_comm 1]
    rw [readRun?, dif_pos (by omega), ih (by omega), readRun_eq_map s h,
      readRun_eq_map s (by omega), List.range_succ_eq_map, List.map_cons, hfront]
    simp [Function.comp_def, hlater]

/-- The runs of a copy of at most as many bytes as there are slots: the second one does not reach the
first one. -/
theorem split_bounds (start : UInt64) {length : ℕ} (h : length ≤ c.size) :
    (c.split start length).2 ≤ length ∧
      length - (c.split start length).2 ≤ (c.split start length).1 ∧
      (c.split start length).1 + (c.split start length).2 ≤ c.size := by
  refine ⟨Nat.min_le_left _ _, ?_, c.split_le start length⟩
  simp only [Capacity.split]
  omega

theorem store?_eq (s : Slots c) (start : UInt64) {src : Bytes} (h : src.length ≤ c.size) :
    s.store? start src = some (s.store start src) := by
  obtain ⟨hfirst, hrest, hbound⟩ := split_bounds start h
  simp only [store?, store]
  rw [writeRun?_eq s (by rw [List.length_take]; omega), Option.bind_some,
    writeRun?_eq _ (by rw [List.length_drop]; omega)]

theorem load?_eq (s : Slots c) (start : UInt64) {length : ℕ} (h : length ≤ c.size) :
    s.load? start length = some (s.load start length) := by
  obtain ⟨hfirst, hrest, hbound⟩ := split_bounds start h
  simp only [load?, load]
  rw [readRun?_eq s hbound, Option.bind_some, readRun?_eq s (by omega), Option.map_some]

theorem getElem_store (s : Slots c) (p : ℕ) {src : Bytes} (h : src.length ≤ c.size) {i : ℕ}
    (hi : i < src.length) : (s.store (UInt64.ofNat p) src)[c.cell (p + i)] = src[i] := by
  have hbyte := byteAt_store_ofNat s p src h (hi.trans_le h)
  rwa [List.getD_eq_getElem _ _ hi] at hbyte

theorem getElem_store_of_ne (s : Slots c) (p : ℕ) {src : Bytes} (h : src.length ≤ c.size)
    {k : Fin c.size} (hk : ∀ i < src.length, c.cell (p + i) ≠ k) :
    (s.store (UInt64.ofNat p) src)[k] = s[k] := by
  obtain ⟨i, hi, rfl⟩ := c.exists_cell_eq p k
  have hout : src.length ≤ i := by
    by_contra hin
    exact hk i (by omega) rfl
  have hbyte := byteAt_store_ofNat s p src h hi
  rwa [List.getD_eq_default _ _ hout] at hbyte

theorem load_ofNat (s : Slots c) (p : ℕ) {length : ℕ} (h : length ≤ c.size) :
    s.load (UInt64.ofNat p) length = (List.range length).map fun i => s[c.cell (p + i)] := by
  have hload := load_eq_map s (UInt64.ofNat p) h
  simp only [byteAt_ofNat_add] at hload
  exact hload

theorem Holds.of_store (s : Slots c) (p : ℕ) {src : Bytes} (h : src.length ≤ c.size) :
    (s.store (UInt64.ofNat p) src).Holds p src := by
  intro i b hb
  obtain ⟨hi, rfl⟩ := List.getElem?_eq_some_iff.mp hb
  exact getElem_store s p h hi

theorem Holds.load_ofNat {s : Slots c} {p : ℕ} {text : Bytes} (h : s.Holds p text)
    (hlen : text.length ≤ c.size) : s.load (UInt64.ofNat p) text.length = text := by
  apply Holds.load _ hlen
  intro i b hb
  rw [byteAt_ofNat_add]
  exact h i b hb

theorem Holds.store_beside {s : Slots c} {p q : ℕ} {text src : Bytes} (h : s.Holds p text)
    (hbeside : c.Beside p text.length q src.length) :
    (s.store (UInt64.ofNat q) src).Holds p text := by
  obtain ⟨hsep, low, hlow, hhigh, hlow', hhigh'⟩ := hbeside
  apply h.store_ofNat hlow hhigh hlow' hhigh'
  intro i hi
  by_contra hboth
  exact hsep i hi (p + i - q) (by omega) (by omega)

theorem Holds.foldl_store {s : Slots c} {p : ℕ} {text : Bytes} (h : s.Holds p text)
    {others : List (ℕ × Bytes)}
    (hbeside : ∀ o ∈ others, c.Beside p text.length o.1 o.2.length) :
    (others.foldl (fun s o => s.store (UInt64.ofNat o.1) o.2) s).Holds p text := by
  induction others generalizing s with
  | nil => exact h
  | cons o others ih =>
    apply ih (h.store_beside (hbeside o List.mem_cons_self))
    intro o' ho'
    exact hbeside o' (List.mem_cons_of_mem _ ho')

/-- A copy of at most as many bytes as there are slots stays within the slots and within its bytes.
Copied in, byte `i` goes to the slot of the position `i` further on, and all other slots are as
before; copied out, it comes from that slot. So what was copied in is copied out again, also after
copies in beside it. -/
theorem copies_cellwise (s : Slots c) (p : ℕ) {src : Bytes} (h : src.length ≤ c.size) :
    ((c.split (UInt64.ofNat p) src.length).2 ≤ src.length ∧
      s.store? (UInt64.ofNat p) src = some (s.store (UInt64.ofNat p) src) ∧
      s.load? (UInt64.ofNat p) src.length = some (s.load (UInt64.ofNat p) src.length)) ∧
    (∀ i (hi : i < src.length), (s.store (UInt64.ofNat p) src)[c.cell (p + i)] = src[i]) ∧
    (∀ k : Fin c.size, (∀ i < src.length, c.cell (p + i) ≠ k) →
      (s.store (UInt64.ofNat p) src)[k] = s[k]) ∧
    s.load (UInt64.ofNat p) src.length =
      (List.range src.length).map (fun i => s[c.cell (p + i)]) ∧
    (s.store (UInt64.ofNat p) src).load (UInt64.ofNat p) src.length = src ∧
    (∀ others : List (ℕ × Bytes),
      (∀ o ∈ others, c.Beside p src.length o.1 o.2.length) →
        (others.foldl (fun s o => s.store (UInt64.ofNat o.1) o.2)
          (s.store (UInt64.ofNat p) src)).load (UInt64.ofNat p) src.length = src) := by
  have hheld := Holds.of_store s p h
  refine ⟨⟨(split_bounds _ h).1, s.store?_eq _ h, s.load?_eq _ h⟩, ?_, ?_, s.load_ofNat p h,
    hheld.load_ofNat h, ?_⟩
  · intro i hi
    exact getElem_store s p h hi
  · intro k hk
    exact getElem_store_of_ne s p h hk
  · intro others hbeside
    exact (hheld.foldl_store hbeside).load_ofNat h

/-- Two bytes at the last position of a word and the first one of the next round, which are the last
slot and the first one; then two bytes behind them. -/
theorem copies_cellwise_around :
    let s : Slots .four := #v[1, 2, 3, 4]
    let stored := s.store (UInt64.ofNat (2 ^ 64 - 1)) [7, 8]
    ([7, 8] : Bytes).length ≤ Capacity.four.size ∧
      s.store? (UInt64.ofNat (2 ^ 64 - 1)) [7, 8] = some stored ∧
      stored[Capacity.four.cell (2 ^ 64 - 1 + 1)] = 8 ∧
      stored[Capacity.four.cell 1] = 2 ∧
      s.load (UInt64.ofNat (2 ^ 64 - 1)) 2 = [4, 1] ∧
      Capacity.four.Beside (2 ^ 64 - 1) 2 (2 ^ 64 + 1) 2 ∧
      (stored.store (UInt64.ofNat (2 ^ 64 + 1)) [9, 10]).load (UInt64.ofNat (2 ^ 64 - 1)) 2 =
        [7, 8] := by
  intro s stored
  have hlen : ([7, 8] : Bytes).length ≤ Capacity.four.size := by decide
  have hbeside : Capacity.four.Beside (2 ^ 64 - 1) 2 (2 ^ 64 + 1) 2 :=
    ⟨fun i hi j hj => by omega, 2 ^ 64 - 1, by decide⟩
  obtain ⟨⟨-, hstore, -⟩, hinside, houtside, hload, -, hother⟩ :=
    copies_cellwise s (2 ^ 64 - 1) hlen
  have hheld := hother [(2 ^ 64 + 1, [9, 10])] (by simpa using hbeside)
  exact ⟨hlen, hstore, hinside 1 (by decide), houtside (Capacity.four.cell 1) (by decide), hload,
    hbeside, hheld⟩

end Slots

end EntropySupply
