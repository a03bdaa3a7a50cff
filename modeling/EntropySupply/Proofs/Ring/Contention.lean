import EntropySupply.Proofs.Ring.Exclusion
import EntropySupply.Proofs.Ring.Flow

/-!
# Offers and polls among live spans

An offer that finds a reservation unpublished has reserved and copied already when it stands back.
Its copy lies behind all reservations, within a capacity of the released position, so it meets no
slot that anybody holds or has yet to read. Main statement: `run_serves`, after any run of steps an
offer says at once how many bytes it publishes, and does nothing else; likewise a poll while no
claim is out.
-/

namespace EntropySupply.Ring

variable {c : Capacity} {r r₁ : Ring c} {writes reads : List Span} {src : Bytes} {n : ℕ}
  {ns : List Notice}

namespace Sound

theorem offer_byteAt (h : r.Sound writes reads) (ho : r.offer? src = some (n, ns, r₁)) {p : ℕ}
    (hlow : r.released.toNat ≤ p) (hhigh : p < r.reserved.toNat) :
    r₁.slots.byteAt p = r.slots.byteAt p := by
  have hheld : r.slots.Holds p [r.slots.byteAt p] := by
    intro i b hb
    obtain ⟨rfl, rfl⟩ : i = 0 ∧ r.slots.byteAt p = b := by simpa [List.getElem?_singleton] using hb
    rfl
  exact h.offer_holds ho hheld hlow hhigh 0 _ rfl

theorem offer_slots (h : r.Sound writes reads) (ho : r.offer? src = some (n, ns, r₁)) {span : Span}
    (hlow : r.released.toNat ≤ span.start.toNat)
    (hhigh : span.start.toNat + span.length.toNat ≤ r.reserved.toNat) {k : ℕ}
    (hk : k ∈ span.slots c) : r₁.slots[k]? = r.slots[k]? := by
  obtain ⟨p, ⟨hp, hp'⟩, rfl⟩ := Span.mem_slots.mp hk
  have hlt := Nat.mod_lt p c.size_pos
  rw [Vector.getElem?_eq_getElem hlt, Vector.getElem?_eq_getElem hlt]
  exact congrArg some (h.offer_byteAt ho (hlow.trans hp) (hp'.trans_le hhigh))

end Sound

/-- An offer that finds a reservation unpublished takes its own one back. -/
theorem offer?_contended (hrule : r.rule = .abandon) (hlevel : r.committed ≠ r.reserved)
    (src : Bytes) : ∃ ns slots, r.offer? src = some (0, ns, { r with slots }) := by
  unfold offer?
  split_ifs with hskip
  · exact ⟨[], r.slots, rfl⟩
  · by_cases hfull : r.space = 0
    · have hreserve : r.reserve? (request c src.length) = none := if_pos hfull
      rw [hreserve]
      exact ⟨[], r.slots, rfl⟩
    · simp only [reserve?, if_neg hfull, commit?, store, if_neg hlevel, hrule, Span.stop, true_and,
        if_true]
      exact ⟨_, _, rfl⟩

theorem toNat_space (hfit : r.released.toNat + c.size < UInt64.size) :
    r.space.toNat = r.released.toNat + c.size - r.reserved.toNat := by
  rw [space, toNat_gap, UInt64.toNat_add, Capacity.toNat_word, Nat.mod_eq_of_lt hfit]

theorem room_eq_zero_iff (h : r.Sound writes reads)
    (hfit : r.released.toNat + c.size < UInt64.size) :
    r.room = 0 ↔ r.closed = true ∨ r.reserved.toNat = r.released.toNat + c.size := by
  have hle := h.reserved_le
  have hspace := toNat_space hfit
  unfold room
  split_ifs with hclosed
  · simp [hclosed]
  · rw [or_iff_right hclosed]
    omega

theorem room_eq (hfit : r.released.toNat + c.size < UInt64.size) (hroom : r.room ≠ 0) :
    r.room = r.released.toNat + c.size - r.reserved.toNat := by
  rw [← toNat_space hfit]
  unfold room at hroom ⊢
  split_ifs at hroom ⊢
  · exact absurd rfl hroom
  · rfl

theorem load_push (r : Ring c) {a : Bytes} (ha : a.length ≤ c.size) :
    (r.push a).load ⟨r.reserved, UInt64.ofNat a.length⟩ = a := by
  have hheld := (Slots.holds_nil r.slots r.reserved.toNat).overwrite (Nat.zero_le _) ha
  rw [List.drop_nil, List.append_nil] at hheld
  have hword : (UInt64.ofNat a.length).toNat = a.length := by
    rw [UInt64.toNat_ofNat']
    exact Nat.mod_eq_of_lt (ha.trans_lt c.size_lt)
  have hload := hheld.load ha
  rw [← hword] at hload
  exact hload

namespace Session

/-- What an offer made among live spans has done: it has moved both positions of the writers on by
the bytes that it accepted, which are there for readers then, and has left alone every slot that
somebody holds or that has yet to be read. -/
structure Offered (s : Session c) (src : Bytes) (n : ℕ) (ring : Ring c) : Prop where
  reserved : ring.reserved.toNat = s.ring.reserved.toNat + n
  committed : ring.committed.toNat = s.ring.committed.toNat + n
  claimed : ring.claimed = s.ring.claimed
  released : ring.released = s.ring.released
  closed : ring.closed = s.ring.closed
  text : ring.load ⟨s.ring.committed, UInt64.ofNat n⟩ = src.take n
  held : ∀ i a, s.held? i = some a → ∀ k ∈ a.span.slots c, ring.slots[k]? = s.ring.slots[k]?
  unclaimed : ∀ k ∈ s.ring.unclaimed.slots c, ring.slots[k]? = s.ring.slots[k]?

/-- What a poll has done: it has moved both positions of the readers on by the bytes that it
delivered, and has left the rest of its buffer and everything else in the ring alone. -/
structure Polled (s : Session c) (dst : Bytes) (n : ℕ) (b : Bytes) (ring : Ring c) : Prop where
  claimed : ring.claimed.toNat = s.ring.claimed.toNat + n
  released : ring.released.toNat = s.ring.released.toNat + n
  reserved : ring.reserved = s.ring.reserved
  committed : ring.committed = s.ring.committed
  closed : ring.closed = s.ring.closed
  slots : ring.slots = s.ring.slots
  length : b.length = dst.length
  text : b.take n = s.ring.load ⟨s.ring.claimed, UInt64.ofNat n⟩
  rest : b.drop n = dst.drop n

structure Serves (rule : CommitRule) (s : Session c) : Prop where
  level_iff : s.ring.committed = s.ring.reserved ↔ s.writes = []
  /-- An offer need not wait, and accepts nothing only for one of four reasons. -/
  offer : s.ring.released.toNat + c.size < UInt64.size →
    rule = .abandon ∨ s.ring.committed = s.ring.reserved → ∀ src, ∃ n ns ring,
      s.ring.offer? src = some (n, ns, ring) ∧ s.Offered src n ring ∧
      (n = 0 ↔ src = [] ∨ s.ring.closed = true ∨
        s.ring.reserved.toNat = s.ring.released.toNat + c.size ∨
        s.ring.committed ≠ s.ring.reserved) ∧
      (n ≠ 0 → n = min src.length (s.ring.released.toNat + c.size - s.ring.reserved.toNat))
  poll : s.ring.released = s.ring.claimed → ∀ dst, ∃ n b ring,
    s.ring.poll? dst = some (n, b, ring) ∧ s.Polled dst n b ring ∧
    n = min dst.length (s.ring.committed.toNat - s.ring.claimed.toNat)

namespace Sound

variable {s : Session c} (h : s.Sound)
include h

theorem offer_held {ring : Ring c} (ho : s.ring.offer? src = some (n, ns, ring)) (i : ℕ)
    (a : Holding) (ha : s.held? i = some a) (k : ℕ) (hk : k ∈ a.span.slots c) :
    ring.slots[k]? = s.ring.slots[k]? := by
  have h₁ := h.released_le
  have h₂ := h.claimed_le
  have h₃ := h.committed_le
  have hb := h.held_bounds ha
  apply Ring.Sound.offer_slots h ho _ _ hk
  · exact (h.held_window ha).1
  · cases a <;> simp only [Holding.span] at hb ⊢ <;> omega

theorem offer_unclaimed {ring : Ring c} (ho : s.ring.offer? src = some (n, ns, ring)) (k : ℕ)
    (hk : k ∈ s.ring.unclaimed.slots c) : ring.slots[k]? = s.ring.slots[k]? := by
  have h₁ := h.released_le
  have h₃ := h.committed_le
  have hav := h.toNat_available
  apply Ring.Sound.offer_slots h ho h₁ _ hk
  change s.ring.claimed.toNat + s.ring.available.toNat ≤ s.ring.reserved.toNat
  omega

/-- An offer that stands back leaves its mark in free slots only. -/
theorem offered_contended {slots : Slots c}
    (ho : s.ring.offer? src = some (0, ns, { s.ring with slots })) :
    s.Offered src 0 { s.ring with slots } where
  reserved := rfl
  committed := rfl
  claimed := rfl
  released := rfl
  closed := rfl
  text := List.length_eq_zero_iff.mp (Slots.length_load slots s.ring.committed (Nat.zero_le _))
  held := h.offer_held ho
  unclaimed := h.offer_unclaimed ho

theorem offered_level (hlevel : s.ring.committed = s.ring.reserved) (hn : n ≤ s.ring.room)
    (hlen : n ≤ src.length) (ho : s.ring.offer? src = some (n, ns, s.ring.push (src.take n))) :
    s.Offered src n (s.ring.push (src.take n)) := by
  have htake : (src.take n).length = n := List.length_take_of_le hlen
  have hspace := hn.trans s.ring.room_le_space
  have hstop : (s.ring.reserved + UInt64.ofNat n).toNat = s.ring.reserved.toNat + n :=
    toNat_add_ofNat hspace
  have htext := load_push s.ring (htake.trans_le (hspace.trans (Ring.Sound.space_le h)))
  refine ⟨?_, ?_, rfl, rfl, rfl, ?_, h.offer_held ho, h.offer_unclaimed ho⟩
  · simpa only [push, htake] using hstop
  · simpa only [push, htake, hlevel] using hstop
  · rwa [htake, ← hlevel] at htext

theorem polled_level (hlevel : s.ring.released = s.ring.claimed) (hn : n ≤ s.ring.stock)
    {dst : Bytes} (hlen : n ≤ dst.length) :
    s.Polled dst n (s.ring.front n ++ dst.drop n) (s.ring.pull n) := by
  have hfront := length_front h hn
  have hstop : (s.ring.claimed + UInt64.ofNat n).toNat = s.ring.claimed.toNat + n :=
    toNat_add_ofNat hn
  have hword : (UInt64.ofNat n).toNat = n := by
    have hstock := hn.trans (Ring.Sound.stock_le h)
    rw [UInt64.toNat_ofNat']
    exact Nat.mod_eq_of_lt (hstock.trans_lt c.size_lt)
  refine ⟨hstop, ?_, rfl, rfl, rfl, rfl, ?_, ?_, List.drop_left' hfront⟩
  · simpa only [pull, hlevel] using hstop
  · rw [List.length_append, hfront, List.length_drop]
    omega
  · rw [List.take_left' hfront, load, hword]
    rfl

end Sound

/-- Whatever spans are out, a ring serves whoever calls it next. -/
theorem run_serves (c : Capacity) (rule : CommitRule) (steps : List Step)
    (h : ∀ step ∈ steps, step.Asks) : ((start c rule).run steps).Serves rule := by
  have hs : ((start c rule).run steps).Sound := run_sound (sound_start c rule) h
  have hrule : ((start c rule).run steps).ring.rule = rule := rule_run _ steps
  generalize (start c rule).run steps = s at hs hrule
  refine ⟨hs.writes_eq_nil_iff.symm, ?_, ?_⟩
  · intro hfit hprompt src
    have hroom := room_eq_zero_iff hs hfit
    by_cases hlevel : s.ring.committed = s.ring.reserved
    · have ho := offer?_level hs hlevel src
      refine ⟨_, _, _, ho,
        hs.offered_level hlevel (Nat.min_le_right _ _) (Nat.min_le_left _ _) ho, ?_, ?_⟩
      · rw [← List.length_eq_zero_iff, or_iff_left (not_not_intro hlevel), ← hroom]
        omega
      · intro hn
        rw [← room_eq hfit fun hnone => hn (by rw [hnone, Nat.min_zero])]
    · have habandon := hrule.trans (hprompt.resolve_right hlevel)
      obtain ⟨ns, slots, ho⟩ := offer?_contended habandon hlevel src
      exact ⟨0, ns, _, ho, hs.offered_contended ho, by simp [hlevel], fun h₀ => absurd rfl h₀⟩
  · intro hlevel dst
    refine ⟨_, _, _, poll?_level hs hlevel dst,
      hs.polled_level hlevel (Nat.min_le_right _ _) (Nat.min_le_left _ _), ?_⟩
    rw [stock, available, toNat_gap]

/-- A claim is out, a byte waits for its reader, and a reservation is unpublished. -/
def busy : List Step := [.reserve 2, .put 0 [1, 2], .commit 0, .claim 1, .reserve 1]

theorem run_serves_busy :
    (∀ step ∈ busy, step.Asks) ∧
      ((start .four .abandon).run busy).writes = [⟨2, 1⟩] ∧
      ((start .four .abandon).run busy).reads = [⟨0, 1⟩] ∧
      ((start .four .abandon).run busy).ring.released.toNat + Capacity.four.size < UInt64.size ∧
      ((start .four .abandon).run busy).Serves .abandon :=
  ⟨by decide, by decide, by decide, by decide, run_serves _ _ _ (by decide)⟩

end Session

end EntropySupply.Ring
