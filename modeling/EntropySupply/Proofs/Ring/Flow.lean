import EntropySupply.Proofs.Ring.Contents

/-!
# Flow through a quiet ring

While no writer holds a span of a ring, an offer puts as many bytes behind the others as there is
room for, and while no reader does, a poll takes as many from the front as there are. Main
statements: `offer?_level` and `poll?_level` say this with no steps in between, and bytes that flow
in or out of a ring with no span out in two parts leave the ring that they leave when they flow at
once.
-/

namespace EntropySupply

namespace Slots

variable {c : Capacity} {s t : Slots c}

/-- A window as long as the capacity sees every slot. -/
theorem eq_of_byteAt (start : ℕ)
    (h : ∀ i < c.size, s.byteAt (start + i) = t.byteAt (start + i)) : s = t := by
  apply Vector.ext
  intro k hk
  have hs := Nat.mod_lt start c.size_pos
  have hmod (i : ℕ) (hi : i < c.size) := c.mod_add start hi
  rcases Nat.lt_or_ge k (start % c.size) with hlt | hge
  · have hpos := hmod (k + c.size - start % c.size) (by omega)
    rw [if_neg (by omega),
      show start % c.size + (k + c.size - start % c.size) - c.size = k by omega] at hpos
    rw [← byteAt_eq s hk hpos, ← byteAt_eq t hk hpos]
    exact h _ (by omega)
  · have hpos := hmod (k - start % c.size) (by omega)
    rw [if_pos (by omega), show start % c.size + (k - start % c.size) = k by omega] at hpos
    rw [← byteAt_eq s hk hpos, ← byteAt_eq t hk hpos]
    exact h _ (by omega)

theorem store_append (s : Slots c) (start : UInt64) {a b : Bytes}
    (hlen : a.length + b.length ≤ c.size)
    (hstop : (start + UInt64.ofNat a.length).toNat = start.toNat + a.length) :
    (s.store start a).store (start + UInt64.ofNat a.length) b = s.store start (a ++ b) := by
  apply eq_of_byteAt start.toNat
  intro i hi
  rw [byteAt_store s start (a ++ b) (by rw [List.length_append]; exact hlen) hi]
  have hfirst := byteAt_store s start a (by omega) hi
  rcases Nat.lt_or_ge i a.length with hlt | hge
  · -- The second copy meets this slot, if at all, one capacity later.
    have hsecond := byteAt_store (s.store start a) (start + UInt64.ofNat a.length) b (by omega)
      (show i + c.size - a.length < c.size by omega)
    rw [hstop, show start.toNat + a.length + (i + c.size - a.length) = start.toNat + i + c.size by
      omega, byteAt_add_size, byteAt_add_size, List.getD_eq_getElem?_getD,
      List.getElem?_eq_none (by omega), Option.getD_none] at hsecond
    rw [hsecond, hfirst, List.getD_eq_getElem?_getD, List.getD_eq_getElem?_getD,
      List.getElem?_append_left hlt]
  · have hsecond := byteAt_store (s.store start a) (start + UInt64.ofNat a.length) b (by omega)
      (show i - a.length < c.size by omega)
    rw [hstop, show start.toNat + a.length + (i - a.length) = start.toNat + i by omega] at hsecond
    rw [hsecond, hfirst, List.getD_eq_getElem?_getD, List.getD_eq_getElem?_getD,
      List.getD_eq_getElem?_getD, List.getElem?_append_right hge, List.getElem?_eq_none hge,
      Option.getD_none]

theorem load_add (s : Slots c) (start : UInt64) {n m : ℕ} (hlen : n + m ≤ c.size)
    (hstop : (start + UInt64.ofNat n).toNat = start.toNat + n) :
    s.load start (n + m) = s.load start n ++ s.load (start + UInt64.ofNat n) m := by
  rw [load_eq_map s start hlen, load_eq_map s start (by omega), load_eq_map s _ (by omega),
    List.range_add, List.map_append, List.map_map]
  congr 1
  apply List.map_congr_left
  intro i _
  rw [hstop, Nat.add_assoc]
  rfl

end Slots

namespace Ring

variable {c : Capacity} {r : Ring c} {writes reads : List Span}

/-- How many bytes an offer can put in. -/
def room (r : Ring c) : ℕ := if r.closed then 0 else r.space.toNat

/-- How many bytes a poll can take out. -/
def stock (r : Ring c) : ℕ := r.available.toNat

def push (r : Ring c) (src : Bytes) : Ring c :=
  { r.store r.reserved src with
    reserved := r.reserved + UInt64.ofNat src.length
    committed := r.committed + UInt64.ofNat src.length }

def front (r : Ring c) (n : ℕ) : Bytes := r.slots.load r.claimed n

def pull (r : Ring c) (n : ℕ) : Ring c :=
  { r with
    claimed := r.claimed + UInt64.ofNat n
    released := r.released + UInt64.ofNat n }

theorem toNat_request (c : Capacity) (n : ℕ) : (request c n).toNat = min n c.size := by
  rw [request, UInt64.toNat_ofNat']
  exact Nat.mod_eq_of_lt (Nat.lt_of_le_of_lt (Nat.min_le_right _ _) c.size_lt)

theorem toNat_add_ofNat {low high : UInt64} {n : ℕ} (h : n ≤ (gap low high).toNat) :
    (low + UInt64.ofNat n).toNat = low.toNat + n := by
  have hlow := low.toNat_lt
  have hhigh := high.toNat_lt
  rw [toNat_gap] at h
  rw [UInt64.toNat_add, UInt64.toNat_ofNat', Nat.mod_eq_of_lt (by omega : n < 2 ^ 64)]
  exact Nat.mod_eq_of_lt (by omega)

theorem room_le_space (r : Ring c) : r.room ≤ r.space.toNat := by
  unfold room
  split_ifs
  · exact Nat.zero_le _
  · exact Nat.le_refl _

namespace Sound

theorem space_le (h : r.Sound writes reads) : r.space.toNat ≤ c.size := by
  have hreleased := h.released_le
  have hclaimed := h.claimed_le
  have hcommitted := h.committed_le
  rw [space, toNat_gap, UInt64.toNat_add, Capacity.toNat_word]
  have hmod := Nat.mod_le (r.released.toNat + c.size) (2 ^ 64)
  omega

theorem stock_le (h : r.Sound writes reads) : r.stock ≤ c.size := by
  have hreleased := h.released_le
  have hcommitted := h.committed_le
  have hreserved := h.reserved_le
  rw [stock, available, toNat_gap]
  omega

end Sound

theorem store_nil (s : Slots c) (start : UInt64) : s.store start [] = s := by
  simp [Slots.store, Slots.writeRun]

theorem push_nil (r : Ring c) : r.push [] = r := by
  simp [push, store, store_nil]

theorem pull_zero (r : Ring c) : r.pull 0 = r := by
  simp [pull]

theorem front_zero (r : Ring c) : r.front 0 = [] :=
  List.length_eq_zero_iff.mp (Slots.length_load r.slots r.claimed (Nat.zero_le _))

/-- An offer puts in what there is room for, as long as no writer holds a span. -/
theorem offer?_level (h : r.Sound writes reads) (hlevel : r.committed = r.reserved) (src : Bytes) :
    r.offer? src =
      some (min src.length r.room, [], r.push (src.take (min src.length r.room))) := by
  unfold offer?
  by_cases hskip : (src.isEmpty || r.closed) = true
  · have hnone : min src.length r.room = 0 := by
      rcases (Bool.or_eq_true _ _).mp hskip with hempty | hclosed
      · rw [List.isEmpty_iff.mp hempty]
        exact Nat.zero_min _
      · rw [room, if_pos hclosed]
        exact Nat.min_zero _
    rw [if_pos hskip, hnone, List.take_zero, push_nil]
  · have hopen : r.room = r.space.toNat := if_neg fun hclosed => hskip (by simp [hclosed])
    rw [if_neg hskip]
    by_cases hfull : r.space = 0
    · have hnone : min src.length r.room = 0 := by
        rw [hopen, hfull]
        exact Nat.min_zero _
      have hreserve : r.reserve? (request c src.length) = none := if_pos hfull
      rw [hreserve, hnone, List.take_zero, push_nil]
    · have hle := h.space_le
      have hn : (min (request c src.length) r.space).toNat = min src.length r.room := by
        rw [toNat_min, toNat_request, hopen]
        omega
      have hlen : (src.take (min src.length r.room)).length = min src.length r.room :=
        List.length_take_of_le (Nat.min_le_left _ _)
      have hreserve : r.reserve? (request c src.length) =
          some (⟨r.reserved, min (request c src.length) r.space⟩,
            { r with reserved := r.reserved + min (request c src.length) r.space }) := if_neg hfull
      simp only [hreserve, commit?, store, hlevel, if_true, hn, push, hlen, Span.stop]
      rw [← hn, UInt64.ofNat_toNat]

theorem poll?_level (h : r.Sound writes reads) (hlevel : r.released = r.claimed) (dst : Bytes) :
    r.poll? dst =
      some (min dst.length r.stock,
        r.front (min dst.length r.stock) ++ dst.drop (min dst.length r.stock),
        r.pull (min dst.length r.stock)) := by
  unfold poll?
  by_cases hskip : dst.isEmpty = true
  · have hnone : min dst.length r.stock = 0 := by
      rw [List.isEmpty_iff.mp hskip]
      exact Nat.zero_min _
    rw [if_pos hskip, hnone, pull_zero, front_zero]
    rfl
  · rw [if_neg hskip]
    by_cases hempty : r.available = 0
    · have hnone : min dst.length r.stock = 0 := by
        rw [stock, hempty]
        exact Nat.min_zero _
      have hclaim : r.claim? (request c dst.length) = none := if_pos hempty
      rw [hclaim, hnone, pull_zero, front_zero]
      rfl
    · have hle := h.stock_le
      have hn : (min (request c dst.length) r.available).toNat = min dst.length r.stock := by
        rw [toNat_min, toNat_request]
        change min (min dst.length c.size) r.stock = min dst.length r.stock
        omega
      have hclaim : r.claim? (request c dst.length) =
          some (⟨r.claimed, min (request c dst.length) r.available⟩,
            { r with claimed := r.claimed + min (request c dst.length) r.available }) :=
        if_neg hempty
      simp only [hclaim, release?, hlevel, if_true, load, hn, front, pull, Span.stop]
      rw [← hn, UInt64.ofNat_toNat]

theorem offer?_quiet (h : r.Sound [] []) (src : Bytes) :
    r.offer? src =
      some (min src.length r.room, [], r.push (src.take (min src.length r.room))) :=
  offer?_level h (h.writes_eq_nil_iff.mp rfl) src

theorem poll?_quiet (h : r.Sound [] []) (dst : Bytes) :
    r.poll? dst =
      some (min dst.length r.stock,
        r.front (min dst.length r.stock) ++ dst.drop (min dst.length r.stock),
        r.pull (min dst.length r.stock)) :=
  poll?_level h (h.reads_eq_nil_iff.mp rfl) dst

variable {a b : Bytes} {n m : ℕ}

theorem quiet_push (h : r.Sound [] []) (ha : a.length ≤ r.room) : (r.push a).Sound [] [] := by
  have ho := offer?_quiet h a
  rw [Nat.min_eq_left ha, List.take_length] at ho
  exact h.offer ho

theorem quiet_pull (h : r.Sound [] []) (hn : n ≤ r.stock) : (r.pull n).Sound [] [] := by
  have hp := poll?_quiet h (List.replicate n 0)
  rw [List.length_replicate, Nat.min_eq_left hn] at hp
  exact h.poll hp

theorem room_push (ha : a.length ≤ r.room) : (r.push a).room = r.room - a.length := by
  have hle := ha.trans r.room_le_space
  have hstop := toNat_add_ofNat hle
  unfold room at ha ⊢
  change (if r.closed then 0 else (r.push a).space.toNat) = _
  split_ifs at ha ⊢
  · omega
  · change (gap (r.reserved + UInt64.ofNat a.length) (r.released + c.word)).toNat =
      (gap r.reserved (r.released + c.word)).toNat - a.length
    rw [toNat_gap, toNat_gap, hstop]
    omega

theorem stock_pull (hn : n ≤ r.stock) : (r.pull n).stock = r.stock - n := by
  have hstop := toNat_add_ofNat hn
  change (gap (r.claimed + UInt64.ofNat n) r.committed).toNat =
    (gap r.claimed r.committed).toNat - n
  rw [toNat_gap, toNat_gap, hstop]
  omega

theorem push_append (h : r.Sound [] []) (hlen : a.length + b.length ≤ r.room) :
    r.push (a ++ b) = (r.push a).push b := by
  have hspace := hlen.trans r.room_le_space
  have hstop : (r.reserved + UInt64.ofNat a.length).toNat = r.reserved.toNat + a.length :=
    toNat_add_ofNat (Nat.le_of_add_right_le hspace)
  simp only [push, store, List.length_append, UInt64.ofNat_add, UInt64.add_assoc,
    Slots.store_append r.slots r.reserved (hspace.trans h.space_le) hstop]

theorem pull_add (r : Ring c) (n m : ℕ) : r.pull (n + m) = (r.pull n).pull m := by
  simp only [pull, UInt64.ofNat_add, UInt64.add_assoc]

theorem front_add (h : r.Sound [] []) (hlen : n + m ≤ r.stock) :
    r.front (n + m) = r.front n ++ (r.pull n).front m :=
  Slots.load_add r.slots r.claimed (hlen.trans h.stock_le)
    (toNat_add_ofNat (Nat.le_of_add_right_le hlen))

theorem length_front (h : r.Sound writes reads) (hn : n ≤ r.stock) : (r.front n).length = n :=
  Slots.length_load r.slots r.claimed (hn.trans h.stock_le)

end Ring

end EntropySupply
