import EntropySupply.Proofs.Ring.Order

/-!
# Contents of a ring

The committed bytes form a stream, one byte for each position from zero on. A ring keeps a stream if
its slots hold what readers have not handed back yet. Main statements: a published span lengthens
the stream by the bytes in its slots, a copy out of committed positions returns the bytes of the
stream there, an offer lengthens the stream by the bytes it accepts, and a poll delivers the bytes
of the stream behind the claimed position.
-/

namespace EntropySupply

namespace Span

variable {s : Span} {stream more : Bytes}

/-- The bytes at the positions of a span, in a stream that begins at position zero. -/
def piece (s : Span) (stream : Bytes) : Bytes :=
  (stream.drop s.start.toNat).take s.length.toNat

theorem length_piece (h : s.start.toNat + s.length.toNat ≤ stream.length) :
    (s.piece stream).length = s.length.toNat := by
  simp [piece]
  omega

theorem piece_append (h : s.start.toNat + s.length.toNat ≤ stream.length) :
    s.piece (stream ++ more) = s.piece stream := by
  rw [piece, List.drop_append_of_le_length (by omega),
    List.take_append_of_le_length (by rw [List.length_drop]; omega), piece]

end Span

theorem Tiles.flatten_piece {low high : ℕ} {spans : List Span} (h : Tiles low spans high)
    (stream : Bytes) : (spans.map fun s => s.piece stream).flatten = (stream.drop low).take (high - low) := by
  induction spans generalizing low with
  | nil =>
    have h : low = high := h
    simp [h]
  | cons s rest ih =>
    obtain ⟨rfl, hs, hrest⟩ := h
    have := hrest.le
    rw [List.map_cons, List.flatten_cons, ih hrest, Span.piece,
      show high - s.start.toNat = s.length.toNat + (high - (s.start.toNat + s.length.toNat)) by
        omega, List.take_add, List.drop_drop]

namespace Ring

variable {c : Capacity} {r r₁ : Ring c} {s : Span} {stream text : Bytes} {writes reads : List Span}

/-- The slots of a ring hold the stream of its committed bytes from the released position on. -/
structure Keeps (r : Ring c) (stream : Bytes) : Prop where
  length_eq : stream.length = r.committed.toNat
  held : r.slots.Holds r.released.toNat (stream.drop r.released.toNat)

theorem keeps_empty (c : Capacity) (rule : CommitRule) : (empty c rule).Keeps [] where
  length_eq := rfl
  held := Slots.holds_nil _ _

/-- An offer leaves alone whatever is held before the reserved position. -/
theorem Sound.offer_holds (hs : r.Sound writes reads) {src : Bytes} {n : ℕ} {ns : List Notice}
    (ho : r.offer? src = some (n, ns, r₁)) {start : ℕ} (ht : r.slots.Holds start text)
    (hlow : r.released.toNat ≤ start) (hhigh : start + text.length ≤ r.reserved.toNat) :
    r₁.slots.Holds start text := by
  obtain ⟨-, rfl⟩ | ⟨s, held, how, hsrc, hr, hc, -⟩ := offer?_eq_some ho
  · exact ht
  · obtain ⟨hstart, rfl, -, hstop, hroom⟩ := reserve?_eq_some (request_ne_zero hsrc) hr
    have hstart' := congrArg UInt64.toNat hstart
    have hlen : (src.take s.length.toNat).length ≤ s.length.toNat := List.length_take_le _ _
    have hkept : (r.slots.store s.start (src.take s.length.toNat)).Holds start text :=
      ht.store hlow (by omega) (by omega) (by omega) (.inl (by omega))
    cases how with
    | published =>
      obtain ⟨-, rfl⟩ := commit?_published hc
      exact hkept
    | retracted =>
      obtain ⟨-, -, -, rfl⟩ := commit?_retracted hc
      exact hkept

theorem offer?_claimed {src : Bytes} {n : ℕ} {ns : List Notice}
    (ho : r.offer? src = some (n, ns, r₁)) : r₁.claimed = r.claimed := by
  obtain ⟨-, rfl⟩ | ⟨s, held, how, hsrc, hr, hc, -⟩ := offer?_eq_some ho
  · rfl
  · obtain ⟨-, rfl, -⟩ := reserve?_eq_some (request_ne_zero hsrc) hr
    cases how with
    | published =>
      obtain ⟨-, rfl⟩ := commit?_published hc
      rfl
    | retracted =>
      obtain ⟨-, -, -, rfl⟩ := commit?_retracted hc
      rfl

theorem poll?_slots {dst b : Bytes} {n : ℕ} (hp : r.poll? dst = some (n, b, r₁)) :
    r₁.slots = r.slots := by
  obtain ⟨-, -, rfl⟩ | ⟨s, held, hdst, hc, hr, -⟩ := poll?_eq_some hp
  · rfl
  · obtain ⟨-, rfl, -⟩ := claim?_eq_some (request_ne_zero hdst) hc
    obtain ⟨-, rfl⟩ := release?_eq_some hr
    rfl

namespace Keeps

theorem store (h : r.Keeps stream) (hs : r.Sound writes reads) (first : UInt64) (src : Bytes)
    (hfirst : r.committed.toNat ≤ first.toNat)
    (hroom : first.toNat + src.length ≤ r.released.toNat + c.size) :
    (r.store first src).Keeps stream where
  length_eq := h.length_eq
  held := by
    have hle := hs.released_le
    have hle' := hs.claimed_le
    have hlen := h.length_eq
    have hbehind : r.released.toNat + (stream.drop r.released.toNat).length ≤ first.toNat := by
      rw [List.length_drop]
      omega
    exact h.held.store (Nat.le_refl _) (by omega) (by omega) hroom (.inl hbehind)

/-- A published span lengthens the stream by the bytes in its slots. -/
theorem publish (h : r.Keeps stream) (hs : r.Sound writes reads)
    (hc : r.commit? s = some (.published, r₁)) (ht : r.slots.Holds s.start.toNat text)
    (hlen : text.length = s.length.toNat) (hstop : s.stop.toNat = s.start.toNat + s.length.toNat) :
    r₁.Keeps (stream ++ text) := by
  obtain ⟨hstart, rfl⟩ := commit?_published hc
  have hstart' := congrArg UInt64.toNat hstart
  have hle := hs.released_le
  have hle' := hs.claimed_le
  have hlen' := h.length_eq
  constructor
  · change (stream ++ text).length = s.stop.toNat
    rw [List.length_append, hstop]
    omega
  · change r.slots.Holds r.released.toNat ((stream ++ text).drop r.released.toNat)
    rw [List.drop_append_of_le_length (by omega)]
    refine h.held.append ?_
    rw [List.length_drop, show r.released.toNat + (stream.length - r.released.toNat) =
      s.start.toNat by omega]
    exact ht

theorem release (h : r.Keeps stream) (hr : r.release? s = some r₁)
    (hstop : s.stop.toNat = s.start.toNat + s.length.toNat) : r₁.Keeps stream := by
  obtain ⟨hstart, rfl⟩ := release?_eq_some hr
  refine ⟨h.length_eq, ?_⟩
  have hd := h.held.drop s.length.toNat
  rw [List.drop_drop, congrArg UInt64.toNat hstart, ← hstop] at hd
  exact hd

theorem load (h : r.Keeps stream) (hs : r.Sound writes reads)
    (hlow : r.released.toNat ≤ s.start.toNat)
    (hhigh : s.start.toNat + s.length.toNat ≤ r.committed.toNat) : r.load s = s.piece stream := by
  have hlen := h.length_eq
  have hroom := hs.reserved_le
  have hle := hs.committed_le
  have hp : (s.piece stream).length = s.length.toNat := Span.length_piece (by omega)
  have hd := (h.held.drop (s.start.toNat - r.released.toNat)).take s.length.toNat
  rw [List.drop_drop, show r.released.toNat + (s.start.toNat - r.released.toNat) =
    s.start.toNat by omega] at hd
  have hload := Slots.Holds.load hd (by
    change (s.piece stream).length ≤ c.size
    omega)
  rw [show ((stream.drop s.start.toNat).take s.length.toNat).length = s.length.toNat from hp]
    at hload
  exact hload

theorem load_unclaimed (h : r.Keeps stream) (hs : r.Sound writes reads) :
    r.load r.unclaimed = stream.drop r.claimed.toNat := by
  have hav := hs.toNat_available
  have hlen := h.length_eq
  rw [h.load hs hs.released_le hav.le]
  apply List.take_of_length_le
  rw [List.length_drop]
  change stream.length - r.claimed.toNat ≤ r.available.toNat
  omega

theorem offer (h : r.Keeps stream) (hs : r.Sound writes reads) {src : Bytes} {n : ℕ}
    {ns : List Notice} (ho : r.offer? src = some (n, ns, r₁)) :
    r₁.Keeps (stream ++ src.take n) := by
  obtain ⟨rfl, rfl⟩ | ⟨s, held, how, hsrc, hr, hc, rfl⟩ := offer?_eq_some ho
  · simpa using h
  · have hsound := hs.reserve (request_ne_zero hsrc) hr
    have hn := reserve?_length hr
    have hreq := toNat_request_le c src.length
    obtain ⟨hstart, rfl, -, hstop, hroom⟩ := reserve?_eq_some (request_ne_zero hsrc) hr
    have hle := hs.committed_le
    rw [← congrArg UInt64.toNat hstart] at hle
    have hlen : (src.take s.length.toNat).length = s.length.toNat := by
      rw [List.length_take]
      omega
    have hheld : ({ r with reserved := s.stop } : Ring c).Keeps stream := ⟨h.length_eq, h.held⟩
    have hfilled := hheld.store hsound s.start (src.take s.length.toNat) hle (by
      rw [hlen, ← hstop]
      exact hroom)
    cases how with
    | published =>
      have htext := (Slots.holds_nil r.slots s.start.toNat).overwrite (Nat.zero_le _)
        (show (src.take s.length.toNat).length ≤ c.size by omega)
      rw [List.drop_nil, List.append_nil] at htext
      exact hfilled.publish (hsound.store _ _) hc htext hlen hstop
    | retracted =>
      obtain ⟨-, -, -, rfl⟩ := commit?_retracted hc
      rw [if_neg (by decide), List.take_zero, List.append_nil]
      exact ⟨hfilled.length_eq, hfilled.held⟩

theorem poll (h : r.Keeps stream) (hs : r.Sound writes reads) {dst b : Bytes} {n : ℕ}
    (hp : r.poll? dst = some (n, b, r₁)) :
    r₁.Keeps stream ∧ b = (stream.drop r.claimed.toNat).take n ++ dst.drop n ∧
      r₁.claimed.toNat = r.claimed.toNat + n := by
  obtain ⟨rfl, rfl, rfl⟩ | ⟨s, held, hdst, hc, hr, rfl, rfl⟩ := poll?_eq_some hp
  · exact ⟨h, by simp, rfl⟩
  · have hsound := hs.claim (request_ne_zero hdst) hc
    obtain ⟨hstart, rfl, -, hstop, hle⟩ := claim?_eq_some (request_ne_zero hdst) hc
    have hstart' := congrArg UInt64.toNat hstart
    have hheld : ({ r with claimed := s.stop } : Ring c).Keeps stream := ⟨h.length_eq, h.held⟩
    refine ⟨hheld.release hr hstop, ?_, ?_⟩
    · rw [hheld.load hsound (hs.released_le.trans_eq hstart'.symm) (hstop.symm.trans_le hle),
        Span.piece, hstart]
    · obtain ⟨-, rfl⟩ := release?_eq_some hr
      change s.stop.toNat = _
      rw [hstop, hstart]

/-- What stands in front of the buffer after a poll is a piece of the stream. -/
theorem poll_take (h : r.Keeps stream) (hs : r.Sound writes reads) {dst b : Bytes} {n : ℕ}
    (hp : r.poll? dst = some (n, b, r₁)) : b.take n = (stream.drop r.claimed.toNat).take n := by
  obtain ⟨hkeeps, hbuffer, hclaimed⟩ := h.poll hs hp
  have hle := (hs.poll hp).claimed_le
  have hlen := hkeeps.length_eq
  have hpiece : ((stream.drop r.claimed.toNat).take n).length = n := by
    rw [List.length_take, List.length_drop]
    omega
  rw [hbuffer, List.take_append_of_le_length hpiece.ge, List.take_take, Nat.min_self]

end Keeps

/-- No span of the ring is out, and `text` is what readers can still take. -/
def Contains (r : Ring c) (text : Bytes) : Prop :=
  r.Sound [] [] ∧ ∃ stream, r.Keeps stream ∧ text = stream.drop r.claimed.toNat

theorem contains_empty (c : Capacity) (rule : CommitRule) : (empty c rule).Contains [] :=
  ⟨sound_empty c rule, [], keeps_empty c rule, rfl⟩

namespace Contains

theorem load_unclaimed (h : r.Contains text) : r.load r.unclaimed = text := by
  obtain ⟨hs, stream, hk, rfl⟩ := h
  exact hk.load_unclaimed hs

theorem close (h : r.Contains text) : r.close.Contains text := by
  obtain ⟨hs, stream, hk, rfl⟩ := h
  exact ⟨hs.close, stream, ⟨hk.length_eq, hk.held⟩, rfl⟩

theorem offer (h : r.Contains text) {src : Bytes} {n : ℕ} {ns : List Notice}
    (ho : r.offer? src = some (n, ns, r₁)) : r₁.Contains (text ++ src.take n) := by
  obtain ⟨hs, stream, hk, rfl⟩ := h
  refine ⟨hs.offer ho, stream ++ src.take n, hk.offer hs ho, ?_⟩
  have hle := hs.claimed_le
  have hlen := hk.length_eq
  rw [offer?_claimed ho, List.drop_append_of_le_length (by omega)]

theorem poll (h : r.Contains text) {dst b : Bytes} {n : ℕ}
    (hp : r.poll? dst = some (n, b, r₁)) : ∃ rest, text = b.take n ++ rest ∧ r₁.Contains rest := by
  obtain ⟨hs, stream, hk, rfl⟩ := h
  obtain ⟨hkeeps, -, hclaimed⟩ := hk.poll hs hp
  refine ⟨stream.drop r₁.claimed.toNat, ?_, hs.poll hp, stream, hkeeps, rfl⟩
  rw [hk.poll_take hs hp, hclaimed, ← List.drop_drop, List.take_append_drop]

end Contains

end Ring

end EntropySupply
