import EntropySupply.Notice
import EntropySupply.Ring.Slots

/-!
# Byte rings

A ring passes bytes from writers to readers through a fixed number of slots. Four positions say how
far each side has come; they only ever count up, except that a reservation can be taken back:

    released ≤ claimed ≤ committed ≤ reserved ≤ released + capacity

A writer reserves a span, copies its bytes in and commits the span; a reader claims a span of
committed bytes, copies them out and releases it. Commits take effect in the order of the
reservations, and releases in the order of the claims. A step that has to wait for another
participant has no result here.
-/

namespace EntropySupply

/-- What a writer does whose span cannot be committed yet, because a span before it is not: take
the span back if it is the newest one, or wait. -/
inductive CommitRule where
  | abandon
  | wait
  deriving DecidableEq, Repr

namespace CommitRule

def name : CommitRule → String
  | .abandon => "abandon"
  | .wait => "spin"

def describe : CommitRule → String
  | .abandon => "Abandon"
  | .wait => "Spin"

end CommitRule

/-- A range of positions that one writer or reader has to itself. -/
structure Span where
  start : UInt64
  length : UInt64
  deriving DecidableEq, Repr

def Span.stop (s : Span) : UInt64 := s.start + s.length

/-- How far `high` lies above `low`; zero when it lies below. -/
def gap (low high : UInt64) : UInt64 := if low ≤ high then high - low else 0

theorem toNat_gap (low high : UInt64) : (gap low high).toNat = high.toNat - low.toNat := by
  unfold gap
  split
  · rename_i h
    exact UInt64.toNat_sub_of_le _ _ h
  · rename_i h
    rw [UInt64.le_iff_toNat_le] at h
    simp; omega

structure Ring (c : Capacity) where
  slots : Slots c
  rule : CommitRule
  /-- The end of the newest reservation of a writer. -/
  reserved : UInt64
  /-- The end of the bytes that readers may take. -/
  committed : UInt64
  /-- The end of the newest claim of a reader. -/
  claimed : UInt64
  /-- The end of the bytes that have been copied out. -/
  released : UInt64
  /-- Whether writes are refused. -/
  closed : Bool

/-- How a commit ends when it does not have to wait. -/
inductive Commit where
  | published
  | retracted
  deriving DecidableEq, Repr

namespace Ring

variable {c : Capacity}

def empty (c : Capacity) (rule : CommitRule) : Ring c where
  slots := Vector.replicate c.size 0
  rule
  reserved := 0
  committed := 0
  claimed := 0
  released := 0
  closed := false

/-- Bytes that are committed and that no reader has claimed. -/
def available (r : Ring c) : UInt64 := gap r.claimed r.committed

/-- Slots that writers may still reserve. -/
def space (r : Ring c) : UInt64 := gap r.reserved (r.released + c.word)

/-- Reserves up to `want` slots for a writer. -/
def reserve? (r : Ring c) (want : UInt64) : Option (Span × Ring c) :=
  if r.space = 0 then none
  else
    let n := min want r.space
    some (⟨r.reserved, n⟩, { r with reserved := r.reserved + n })

/-- Publishes a writer's span, or takes it back. There is no result while an earlier span is
unpublished and this one may not be taken back: the rule is to wait, or a later span exists. -/
def commit? (r : Ring c) (s : Span) : Option (Commit × Ring c) :=
  if r.committed = s.start then
    some (.published, { r with committed := s.stop })
  else if r.rule = .abandon ∧ r.reserved = s.stop then
    some (.retracted, { r with reserved := s.start })
  else none

/-- Claims up to `want` committed bytes for a reader. -/
def claim? (r : Ring c) (want : UInt64) : Option (Span × Ring c) :=
  if r.available = 0 then none
  else
    let n := min want r.available
    some (⟨r.claimed, n⟩, { r with claimed := r.claimed + n })

/-- Hands a reader's span back to writers. There is no result while an earlier span is out. -/
def release? (r : Ring c) (s : Span) : Option (Ring c) :=
  if r.released = s.start then some { r with released := s.stop } else none

def store (r : Ring c) (start : UInt64) (src : Bytes) : Ring c :=
  { r with slots := r.slots.store start src }

def load (r : Ring c) (s : Span) : Bytes := r.slots.load s.start s.length.toNat

def retractionNotice (s : Span) : Notice where
  level := .trace
  text := s!"ring pool: abandoned reservation {s.start}..{s.stop} behind an uncommitted writer"

/-- The largest number of bytes that one transfer of `n` bytes asks for. -/
def request (c : Capacity) (n : Nat) : UInt64 := UInt64.ofNat (min n c.size)

/-- Writes a first part of `src`: reserve, copy and commit. Says how many bytes were accepted and
what was reported. -/
def offer? (r : Ring c) (src : Bytes) : Option (Nat × List Notice × Ring c) :=
  if src.isEmpty || r.closed then some (0, [], r)
  else match r.reserve? (request c src.length) with
    | none => some (0, [], r)
    | some (span, held) =>
      let filled := held.store span.start (src.take span.length.toNat)
      match filled.commit? span with
      | none => none
      | some (.published, done) => some (span.length.toNat, [], done)
      | some (.retracted, done) => some (0, [retractionNotice span], done)

/-- Reads into the front of `dst`: claim, copy and release. Says how many bytes were delivered and
what the buffer holds then. -/
def poll? (r : Ring c) (dst : Bytes) : Option (Nat × Bytes × Ring c) :=
  if dst.isEmpty then some (0, dst, r)
  else match r.claim? (request c dst.length) with
    | none => some (0, dst, r)
    | some (span, held) =>
      match held.release? span with
      | none => none
      | some done =>
        some (span.length.toNat, held.load span ++ dst.drop span.length.toNat, done)

def close (r : Ring c) : Ring c := { r with closed := true }

theorem toNat_request_le (c : Capacity) (n : Nat) : (request c n).toNat ≤ min n c.size := by
  rw [request, UInt64.toNat_ofNat']
  exact Nat.mod_le _ _

theorem toNat_min_le_left (a b : UInt64) : (min a b).toNat ≤ a.toNat := by
  rw [← UInt64.le_iff_toNat_le]
  exact Std.min_le_left

theorem reserve?_length {r r₁ : Ring c} {want : UInt64} {s : Span}
    (h : r.reserve? want = some (s, r₁)) : s.length.toNat ≤ want.toNat := by
  unfold reserve? at h
  split at h
  · cases h
  · cases h
    exact toNat_min_le_left _ _

theorem claim?_length {r r₁ : Ring c} {want : UInt64} {s : Span}
    (h : r.claim? want = some (s, r₁)) : s.length.toNat ≤ want.toNat := by
  unfold claim? at h
  split at h
  · cases h
  · cases h
    exact toNat_min_le_left _ _

theorem offer?_le {r r₁ : Ring c} {src : Bytes} {n : Nat} {ns : List Notice}
    (h : r.offer? src = some (n, ns, r₁)) : n ≤ src.length := by
  unfold offer? at h
  split at h
  · cases h; omega
  · split at h
    · cases h; omega
    · rename_i span held hc
      have hn := reserve?_length hc
      have hr := toNat_request_le c src.length
      simp only at h
      split at h
      · cases h
      · cases h; omega
      · cases h; omega

theorem poll?_le {r r₁ : Ring c} {dst b : Bytes} {n : Nat}
    (h : r.poll? dst = some (n, b, r₁)) : n ≤ dst.length := by
  unfold poll? at h
  split at h
  · cases h; omega
  · split at h
    · cases h; omega
    · rename_i span held hc
      have hn := claim?_length hc
      have hr := toNat_request_le c dst.length
      split at h
      · cases h
      · cases h; omega

theorem poll?_buffer {r r₁ : Ring c} {dst b : Bytes} {n : Nat}
    (h : r.poll? dst = some (n, b, r₁)) : ∃ got : Bytes, got.length = n ∧ b = got ++ dst.drop n := by
  unfold poll? at h
  split at h
  · cases h; exact ⟨[], rfl, rfl⟩
  · split at h
    · cases h; exact ⟨[], rfl, rfl⟩
    · rename_i span held hc
      have hn := claim?_length hc
      have hr := toNat_request_le c dst.length
      split at h
      · cases h
      · cases h
        refine ⟨_, ?_, rfl⟩
        exact Slots.length_load _ _ (by omega)

end Ring

end EntropySupply
