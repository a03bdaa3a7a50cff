import EntropySupply.Proofs.Ring.Tiling

/-!
# The order of positions

Each step of a ring is described once by what its result says: which positions it needed and which
one it moved. From these descriptions every step keeps a ring sound, which means that the live spans
of its writers fill the positions from the committed to the reserved one, those of its readers the
positions from the released to the claimed one, and that nothing lies more than a capacity apart. No
bound on the positions is assumed: where the words end, writers are refused.
-/

namespace EntropySupply.Ring

variable {c : Capacity} {r r₁ : Ring c} {s : Span}

theorem toNat_min (a b : UInt64) : (min a b).toNat = min a.toNat b.toNat := by
  change (if a ≤ b then a else b).toNat = _
  split_ifs with h
  · rw [Nat.min_eq_left (UInt64.le_iff_toNat_le.mp h)]
  · rw [Nat.min_eq_right (by rw [UInt64.le_iff_toNat_le] at h; omega)]

/-- A granted span begins at `p` and stays below the bound that `n` was measured against. -/
theorem toNat_stop_of_le_gap {p n high : UInt64} (h : n.toNat ≤ (gap p high).toNat)
    (hn : n ≠ 0) :
    (p + n).toNat = p.toNat + n.toNat ∧ p.toNat + n.toNat ≤ high.toNat := by
  have hpos : 0 < n.toNat := Nat.pos_of_ne_zero fun h₀ => hn (UInt64.toNat.inj h₀)
  have hlt := high.toNat_lt
  rw [toNat_gap] at h
  rw [UInt64.toNat_add]
  exact ⟨Nat.mod_eq_of_lt (by omega), by omega⟩

theorem min_ne_zero {a b : UInt64} (ha : a ≠ 0) (hb : b ≠ 0) : min a b ≠ 0 := by
  change (if a ≤ b then a else b) ≠ 0
  split_ifs
  · exact ha
  · exact hb

theorem toNat_pos {w : UInt64} (h : w ≠ 0) : 0 < w.toNat :=
  Nat.pos_of_ne_zero fun h₀ => h (UInt64.toNat.inj h₀)

theorem reserve?_eq_some {want : UInt64} (hw : want ≠ 0) (h : r.reserve? want = some (s, r₁)) :
    s.start = r.reserved ∧ r₁ = { r with reserved := s.stop } ∧ 0 < s.length.toNat ∧
      s.stop.toNat = s.start.toNat + s.length.toNat ∧
      s.stop.toNat ≤ r.released.toNat + c.size := by
  unfold reserve? at h
  split_ifs at h with hspace
  cases h
  have hn := min_ne_zero hw hspace
  have hle : (min want r.space).toNat ≤ r.space.toNat := by
    rw [toNat_min]
    exact Nat.min_le_right _ _
  obtain ⟨hstop, hhigh⟩ := toNat_stop_of_le_gap hle hn
  have hroom : (r.released + c.word).toNat ≤ r.released.toNat + c.size := by
    rw [UInt64.toNat_add, Capacity.toNat_word]
    exact Nat.mod_le _ _
  exact ⟨rfl, rfl, toNat_pos hn, hstop, (hstop.trans_le hhigh).trans hroom⟩

theorem claim?_eq_some {want : UInt64} (hw : want ≠ 0) (h : r.claim? want = some (s, r₁)) :
    s.start = r.claimed ∧ r₁ = { r with claimed := s.stop } ∧ 0 < s.length.toNat ∧
      s.stop.toNat = s.start.toNat + s.length.toNat ∧ s.stop.toNat ≤ r.committed.toNat := by
  unfold claim? at h
  split_ifs at h with havail
  cases h
  have hn := min_ne_zero hw havail
  have hle : (min want r.available).toNat ≤ r.available.toNat := by
    rw [toNat_min]
    exact Nat.min_le_right _ _
  obtain ⟨hstop, hhigh⟩ := toNat_stop_of_le_gap hle hn
  exact ⟨rfl, rfl, toNat_pos hn, hstop, hstop.trans_le hhigh⟩

theorem commit?_published (h : r.commit? s = some (.published, r₁)) :
    r.committed = s.start ∧ r₁ = { r with committed := s.stop } := by
  unfold commit? at h
  split_ifs at h with hstart
  · cases h
    exact ⟨hstart, rfl⟩
  · cases h

theorem commit?_retracted (h : r.commit? s = some (.retracted, r₁)) :
    r.committed ≠ s.start ∧ r.rule = .abandon ∧ r.reserved = s.stop ∧
      r₁ = { r with reserved := s.start } := by
  unfold commit? at h
  split_ifs at h with hstart hback
  · cases h
  · cases h
    exact ⟨hstart, hback.1, hback.2, rfl⟩

theorem release?_eq_some (h : r.release? s = some r₁) :
    r.released = s.start ∧ r₁ = { r with released := s.stop } := by
  unfold release? at h
  split_ifs at h with hstart
  cases h
  exact ⟨hstart, rfl⟩

theorem request_ne_zero_of_ne {n : ℕ} (h : n ≠ 0) : request c n ≠ 0 := by
  have hc := c.size_pos
  have hlt := c.size_lt
  intro h₀
  have h₁ := congrArg UInt64.toNat h₀
  rw [request, UInt64.toNat_ofNat', UInt64.toNat_zero,
    Nat.mod_eq_of_lt (Nat.lt_of_le_of_lt (Nat.min_le_right _ _) hlt)] at h₁
  omega

theorem request_ne_zero {b : Bytes} (h : b ≠ []) : request c b.length ≠ 0 :=
  request_ne_zero_of_ne fun h₀ => h (List.length_eq_zero_iff.mp h₀)

/-- An offer either changes nothing or is a reservation, a copy and a commit. -/
theorem offer?_eq_some {src : Bytes} {n : ℕ} {ns : List Notice}
    (h : r.offer? src = some (n, ns, r₁)) :
    n = 0 ∧ r₁ = r ∨ ∃ s held how, src ≠ [] ∧
      r.reserve? (request c src.length) = some (s, held) ∧
      (held.store s.start (src.take s.length.toNat)).commit? s = some (how, r₁) ∧
      n = if how = .published then s.length.toNat else 0 := by
  unfold offer? at h
  split_ifs at h with hskip
  · cases h
    exact .inl ⟨rfl, rfl⟩
  · have hsrc : src ≠ [] := by
      rintro rfl
      simp at hskip
    split at h
    · cases h
      exact .inl ⟨rfl, rfl⟩
    · rename_i s held hr
      simp only at h
      split at h
      · cases h
      · rename_i hc
        cases h
        exact .inr ⟨s, held, _, hsrc, hr, hc, rfl⟩
      · rename_i hc
        cases h
        exact .inr ⟨s, held, _, hsrc, hr, hc, rfl⟩

theorem poll?_eq_some {dst b : Bytes} {n : ℕ} (h : r.poll? dst = some (n, b, r₁)) :
    n = 0 ∧ b = dst ∧ r₁ = r ∨ ∃ s held, dst ≠ [] ∧
      r.claim? (request c dst.length) = some (s, held) ∧ held.release? s = some r₁ ∧
      n = s.length.toNat ∧ b = held.load s ++ dst.drop n := by
  unfold poll? at h
  split_ifs at h with hskip
  · cases h
    exact .inl ⟨rfl, rfl, rfl⟩
  · have hdst : dst ≠ [] := by
      rintro rfl
      simp at hskip
    split at h
    · cases h
      exact .inl ⟨rfl, rfl, rfl⟩
    · rename_i s held hc
      split at h
      · cases h
      · rename_i hr
        cases h
        exact .inr ⟨s, held, hdst, hc, hr, rfl, rfl⟩

theorem rule_of_reserve? {want : UInt64} (h : r.reserve? want = some (s, r₁)) :
    r₁.rule = r.rule := by
  unfold reserve? at h
  split_ifs at h
  cases h
  rfl

theorem rule_of_claim? {want : UInt64} (h : r.claim? want = some (s, r₁)) :
    r₁.rule = r.rule := by
  unfold claim? at h
  split_ifs at h
  cases h
  rfl

theorem rule_of_commit? {how : Commit} (h : r.commit? s = some (how, r₁)) :
    r₁.rule = r.rule := by
  cases how with
  | published =>
    obtain ⟨-, rfl⟩ := commit?_published h
    rfl
  | retracted =>
    obtain ⟨-, -, -, rfl⟩ := commit?_retracted h
    rfl

/-- The positions of a ring fit the live spans of its writers and of its readers, each oldest
first. -/
structure Sound (r : Ring c) (writes reads : List Span) : Prop where
  claimed_le : r.claimed.toNat ≤ r.committed.toNat
  reserved_le : r.reserved.toNat ≤ r.released.toNat + c.size
  writes_tile : Tiles r.committed.toNat writes r.reserved.toNat
  reads_tile : Tiles r.released.toNat reads r.claimed.toNat

/-- The committed bytes that no reader has claimed. -/
def unclaimed (r : Ring c) : Span := ⟨r.claimed, r.available⟩

theorem sound_empty (c : Capacity) (rule : CommitRule) : (empty c rule).Sound [] [] where
  claimed_le := Nat.le_refl _
  reserved_le := Nat.zero_le _
  writes_tile := rfl
  reads_tile := rfl

namespace Sound

variable {writes reads front rest : List Span}

theorem released_le (h : r.Sound writes reads) : r.released.toNat ≤ r.claimed.toNat :=
  h.reads_tile.le

theorem committed_le (h : r.Sound writes reads) : r.committed.toNat ≤ r.reserved.toNat :=
  h.writes_tile.le

theorem writes_eq_nil_iff (h : r.Sound writes reads) : writes = [] ↔ r.committed = r.reserved := by
  have htile := h.writes_tile
  constructor
  · rintro rfl
    exact UInt64.toNat.inj htile
  · intro hlevel
    rw [hlevel] at htile
    exact htile.eq_nil

theorem reads_eq_nil_iff (h : r.Sound writes reads) : reads = [] ↔ r.released = r.claimed := by
  have htile := h.reads_tile
  constructor
  · rintro rfl
    exact UInt64.toNat.inj htile
  · intro hlevel
    rw [hlevel] at htile
    exact htile.eq_nil

theorem toNat_available (h : r.Sound writes reads) :
    r.claimed.toNat + r.available.toNat = r.committed.toNat := by
  rw [available, toNat_gap]
  have := h.claimed_le
  omega

theorem store (h : r.Sound writes reads) (start : UInt64) (src : Bytes) :
    (r.store start src).Sound writes reads :=
  ⟨h.claimed_le, h.reserved_le, h.writes_tile, h.reads_tile⟩

theorem close (h : r.Sound writes reads) : r.close.Sound writes reads :=
  ⟨h.claimed_le, h.reserved_le, h.writes_tile, h.reads_tile⟩

theorem reserve (h : r.Sound writes reads) {want : UInt64} (hw : want ≠ 0)
    (hr : r.reserve? want = some (s, r₁)) : r₁.Sound (writes ++ [s]) reads := by
  obtain ⟨hstart, rfl, hs, hstop, hroom⟩ := reserve?_eq_some hw hr
  refine ⟨h.claimed_le, hroom, ?_, h.reads_tile⟩
  change Tiles r.committed.toNat (writes ++ [s]) s.stop.toNat
  rw [hstop]
  exact Tiles.snoc (by rw [hstart]; exact h.writes_tile) hs

theorem claim (h : r.Sound writes reads) {want : UInt64} (hw : want ≠ 0)
    (hc : r.claim? want = some (s, r₁)) : r₁.Sound writes (reads ++ [s]) := by
  obtain ⟨hstart, rfl, hs, hstop, hle⟩ := claim?_eq_some hw hc
  refine ⟨hle, h.reserved_le, h.writes_tile, ?_⟩
  change Tiles r.released.toNat (reads ++ [s]) s.stop.toNat
  rw [hstop]
  exact Tiles.snoc (by rw [hstart]; exact h.reads_tile) hs

/-- Only the oldest reservation can be published. -/
theorem publish (h : r.Sound (front ++ s :: rest) reads)
    (hc : r.commit? s = some (.published, r₁)) : front = [] ∧ r₁.Sound rest reads := by
  obtain ⟨hstart, rfl⟩ := commit?_published hc
  have hstop := h.writes_tile.toNat_stop (s := s) (by simp) r.reserved.toNat_lt
  have hfront := h.writes_tile.front_eq_nil (congrArg UInt64.toNat hstart.symm)
  refine ⟨hfront, ?_, h.reserved_le, ?_, h.reads_tile⟩
  · have := h.claimed_le
    rw [hstart] at this
    change r.claimed.toNat ≤ s.stop.toNat
    omega
  · change Tiles s.stop.toNat rest r.reserved.toNat
    rw [hstop]
    exact h.writes_tile.split.2.2

/-- Only the newest reservation can be taken back, whether or not its turn to be published has
come. -/
theorem withdraw (h : r.Sound (front ++ s :: rest) reads) (hback : r.reserved = s.stop) :
    rest = [] ∧ ({ r with reserved := s.start } : Ring c).Sound front reads := by
  have hstop := h.writes_tile.toNat_stop (s := s) (by simp) r.reserved.toNat_lt
  have hrest := h.writes_tile.rest_eq_nil (by rw [← hstop, hback])
  obtain ⟨hf, hs, -⟩ := h.writes_tile.split
  refine ⟨hrest, h.claimed_le, ?_, hf, h.reads_tile⟩
  have := h.reserved_le
  rw [hback, hstop] at this
  change s.start.toNat ≤ r.released.toNat + c.size
  omega

theorem retract (h : r.Sound (front ++ s :: rest) reads)
    (hc : r.commit? s = some (.retracted, r₁)) : rest = [] ∧ r₁.Sound front reads := by
  obtain ⟨-, -, hback, rfl⟩ := commit?_retracted hc
  exact h.withdraw hback

theorem release (h : r.Sound writes (front ++ s :: rest)) (hr : r.release? s = some r₁) :
    front = [] ∧ r₁.Sound writes rest := by
  obtain ⟨hstart, rfl⟩ := release?_eq_some hr
  have hstop := h.reads_tile.toNat_stop (s := s) (by simp) r.claimed.toNat_lt
  have hfront := h.reads_tile.front_eq_nil (congrArg UInt64.toNat hstart.symm)
  refine ⟨hfront, h.claimed_le, ?_, h.writes_tile, ?_⟩
  · have := h.reserved_le
    rw [hstart] at this
    change r.reserved.toNat ≤ s.stop.toNat + c.size
    omega
  · change Tiles s.stop.toNat rest r.claimed.toNat
    rw [hstop]
    exact h.reads_tile.split.2.2

theorem offer (h : r.Sound writes reads) {src : Bytes} {n : ℕ} {ns : List Notice}
    (ho : r.offer? src = some (n, ns, r₁)) : r₁.Sound writes reads := by
  obtain ⟨-, rfl⟩ | ⟨s, held, how, hsrc, hr, hc, -⟩ := offer?_eq_some ho
  · exact h
  · have hheld := (h.reserve (request_ne_zero hsrc) hr).store s.start (src.take s.length.toNat)
    cases how with
    | published =>
      obtain ⟨rfl, hdone⟩ := hheld.publish hc
      exact hdone
    | retracted => exact (hheld.retract hc).2

theorem poll (h : r.Sound writes reads) {dst b : Bytes} {n : ℕ}
    (hp : r.poll? dst = some (n, b, r₁)) : r₁.Sound writes reads := by
  obtain ⟨-, -, rfl⟩ | ⟨s, held, hdst, hc, hr, -⟩ := poll?_eq_some hp
  · exact h
  · obtain ⟨rfl, hdone⟩ := (h.claim (request_ne_zero hdst) hc).release hr
    exact hdone

end Sound

end EntropySupply.Ring
