import EntropySupply.Proofs.Ring.Moves

/-!
# Exclusive slots

Whoever holds a span has its slots to itself: positions that are live at the same time lie in one
window of a capacity, so they have different slots as soon as they differ. Main statement: after any
run of steps the positions are in order, the live spans tile their two regions, the slots of live
spans are disjoint from each other and from those of the bytes that wait for a reader, and an audit
has nothing to complain about.
-/

namespace EntropySupply.Ring

variable {c : Capacity}

theorem slots_disjoint {s t : Span} {low : ℕ} (hs : low ≤ s.start.toNat)
    (hs' : s.start.toNat + s.length.toNat ≤ low + c.size) (ht : low ≤ t.start.toNat)
    (ht' : t.start.toNat + t.length.toNat ≤ low + c.size)
    (hsep : s.start.toNat + s.length.toNat ≤ t.start.toNat ∨
      t.start.toNat + t.length.toNat ≤ s.start.toNat) :
    Disjoint (s.slots c) (t.slots c) := by
  rw [Finset.disjoint_left]
  intro k hk hk'
  obtain ⟨p, ⟨hp, hp'⟩, hpk⟩ := Span.mem_slots.mp hk
  obtain ⟨q, ⟨hq, hq'⟩, hqk⟩ := Span.mem_slots.mp hk'
  have hcell : c.cell p = c.cell q := Fin.ext (hpk.trans hqk.symm)
  have := c.eq_of_cell_eq hcell (by omega) (by omega)
  omega

/-- What an audit accepts: loads in order, and a reserved region that fits the capacity. -/
theorem AuditLoads.alarm?_eq_none_iff {l : AuditLoads} :
    l.alarm? c = none ↔ l.released.toNat ≤ l.claimed.toNat ∧ l.claimed.toNat ≤ l.committed.toNat ∧
      l.committed.toNat ≤ l.reserved.toNat ∧ l.committed.toNat ≤ l.committedAgain.toNat ∧
      l.reservedAgain.toNat ≤ l.releasedAgain.toNat + c.size := by
  have hfits : c.word.toNat < (gap l.releasedAgain l.reservedAgain).toNat ↔
      l.releasedAgain.toNat + c.size < l.reservedAgain.toNat := by
    rw [Capacity.toNat_word, toNat_gap]
    omega
  simp only [alarm?, UInt64.lt_iff_toNat_lt, hfits]
  split_ifs <;> simp <;> omega

namespace Sound

variable {r : Ring c} {writes reads : List Span}

theorem audit (h : r.Sound writes reads) : r.audit? = none := by
  refine AuditLoads.alarm?_eq_none_iff.mpr ⟨h.released_le, h.claimed_le, h.committed_le, ?_, ?_⟩
  · exact Nat.le_refl _
  · exact h.reserved_le

end Sound

namespace Session

/-- What the users of a ring rely on: nobody else touches the slots of a span that they hold. -/
structure Exclusive (s : Session c) : Prop where
  released_le : s.ring.released ≤ s.ring.claimed
  claimed_le : s.ring.claimed ≤ s.ring.committed
  committed_le : s.ring.committed ≤ s.ring.reserved
  reserved_le : s.ring.reserved.toNat ≤ s.ring.released.toNat + c.size
  writes_tile : Tiles s.ring.committed.toNat s.writes s.ring.reserved.toNat
  reads_tile : Tiles s.ring.released.toNat s.reads s.ring.claimed.toNat
  held_disjoint : ∀ i j a b, i ≠ j → s.held? i = some a → s.held? j = some b →
    Disjoint (a.span.slots c) (b.span.slots c)
  unclaimed_disjoint : ∀ i a, s.held? i = some a →
    Disjoint (a.span.slots c) (s.ring.unclaimed.slots c)
  audit : s.ring.audit? = none

theorem mem_writes {s : Session c} {i : ℕ} {span : Span} (h : s.held? i = some (.writing span)) :
    span ∈ s.writes := by
  obtain ⟨front, rest, hw, -⟩ := giveUp_writing h
  simp [hw]

theorem mem_reads {s : Session c} {i : ℕ} {span : Span} (h : s.held? i = some (.reading span)) :
    span ∈ s.reads := by
  obtain ⟨front, rest, hr, -⟩ := giveUp_reading h
  simp [hr]

namespace Sound

variable {s : Session c} (h : s.Sound)
include h

/-- A live span lies on one side of the committed position, within a capacity of the released
one. -/
theorem held_bounds {i : ℕ} {a : Holding} (ha : s.held? i = some a) :
    match a with
    | .writing span => s.ring.committed.toNat ≤ span.start.toNat ∧
        span.start.toNat + span.length.toNat ≤ s.ring.reserved.toNat
    | .reading span => s.ring.released.toNat ≤ span.start.toNat ∧
        span.start.toNat + span.length.toNat ≤ s.ring.claimed.toNat := by
  cases a with
  | writing span => exact h.writes_tile.bounds (mem_writes ha)
  | reading span => exact h.reads_tile.bounds (mem_reads ha)

theorem held_apart_of_lt {i j : ℕ} {a b : Holding} (hij : i < j) (ha : s.held? i = some a)
    (hb : s.held? j = some b) :
    a.span.start.toNat + a.span.length.toNat ≤ b.span.start.toNat ∨
      b.span.start.toNat + b.span.length.toNat ≤ a.span.start.toNat := by
  have hle := h.claimed_le
  have ha' := h.held_bounds ha
  have hb' := h.held_bounds hb
  cases a with
  | writing a =>
    cases b with
    | writing b =>
      obtain ⟨front, rest, hw, hmem⟩ := live_of_lt Holding.written? ha hb hij
      have htile := h.writes_tile
      rw [writes, hw, List.append_assoc] at htile
      exact .inl (htile.stop_le (hmem b rfl))
    | reading b =>
      simp only [Holding.span] at ha' hb' ⊢
      omega
  | reading a =>
    cases b with
    | writing b =>
      simp only [Holding.span] at ha' hb' ⊢
      omega
    | reading b =>
      obtain ⟨front, rest, hr, hmem⟩ := live_of_lt Holding.read? ha hb hij
      have htile := h.reads_tile
      rw [reads, hr, List.append_assoc] at htile
      exact .inl (htile.stop_le (hmem b rfl))

theorem held_apart {i j : ℕ} {a b : Holding} (hij : i ≠ j) (ha : s.held? i = some a)
    (hb : s.held? j = some b) :
    a.span.start.toNat + a.span.length.toNat ≤ b.span.start.toNat ∨
      b.span.start.toNat + b.span.length.toNat ≤ a.span.start.toNat := by
  rcases Nat.lt_or_gt_of_ne hij with hlt | hlt
  · exact h.held_apart_of_lt hlt ha hb
  · exact (h.held_apart_of_lt hlt hb ha).symm

theorem held_window {i : ℕ} {a : Holding} (ha : s.held? i = some a) :
    s.ring.released.toNat ≤ a.span.start.toNat ∧
      a.span.start.toNat + a.span.length.toNat ≤ s.ring.released.toNat + c.size := by
  have h₁ := h.released_le
  have h₂ := h.claimed_le
  have h₃ := h.committed_le
  have h₄ := h.reserved_le
  have ha' := h.held_bounds ha
  cases a <;> simp only [Holding.span] at ha' ⊢ <;> omega

theorem held_disjoint {i j : ℕ} {a b : Holding} (hij : i ≠ j) (ha : s.held? i = some a)
    (hb : s.held? j = some b) : Disjoint (a.span.slots c) (b.span.slots c) := by
  have hwa := h.held_window ha
  have hwb := h.held_window hb
  exact slots_disjoint hwa.1 hwa.2 hwb.1 hwb.2 (h.held_apart hij ha hb)

theorem unclaimed_disjoint {i : ℕ} {a : Holding} (ha : s.held? i = some a) :
    Disjoint (a.span.slots c) (s.ring.unclaimed.slots c) := by
  have h₁ := h.released_le
  have h₃ := h.committed_le
  have h₄ := h.reserved_le
  have hav := h.toNat_available
  have hwa := h.held_window ha
  have ha' := h.held_bounds ha
  refine slots_disjoint hwa.1 hwa.2 h₁ ?_ ?_
  · change s.ring.claimed.toNat + s.ring.available.toNat ≤ _
    omega
  · cases a <;> simp only [Holding.span, unclaimed] at ha' ⊢ <;> omega

end Sound

/-- Every run of steps leaves exclusive spans, whatever the users do and however they take turns. -/
theorem run_exclusive (c : Capacity) (rule : CommitRule) (steps : List Step)
    (h : ∀ step ∈ steps, step.Asks) : ((start c rule).run steps).Exclusive := by
  have hs : ((start c rule).run steps).Sound := run_sound (sound_start c rule) h
  exact {
    released_le := UInt64.le_iff_toNat_le.mpr hs.released_le
    claimed_le := UInt64.le_iff_toNat_le.mpr hs.claimed_le
    committed_le := UInt64.le_iff_toNat_le.mpr hs.committed_le
    reserved_le := hs.reserved_le
    writes_tile := hs.writes_tile
    reads_tile := hs.reads_tile
    held_disjoint := fun _ _ _ _ hij ha hb => Sound.held_disjoint hs hij ha hb
    unclaimed_disjoint := fun _ _ ha => Sound.unclaimed_disjoint hs ha
    audit := hs.audit }

/-- A newest reservation is taken back, its positions are reserved again, and the last reservation
starts over at the first slot while an earlier claim is out. -/
def contended : List Step :=
  [.reserve 2, .reserve 1, .commit 1, .put 0 [1, 2], .commit 0, .claim 1, .reserve 5, .offer [9],
    .claim 3, .release 2, .reserve 1]

theorem run_exclusive_contended :
    (∀ step ∈ contended, step.Asks) ∧
      ((start ⟨2, by decide⟩ .abandon).run contended).writes = [⟨2, 2⟩, ⟨4, 1⟩] ∧
      ((start ⟨2, by decide⟩ .abandon).run contended).reads = [⟨1, 1⟩] ∧
      ((start ⟨2, by decide⟩ .abandon).run contended).Exclusive :=
  ⟨by decide, by decide, by decide, run_exclusive _ _ _ (by decide)⟩

end Session

end EntropySupply.Ring
