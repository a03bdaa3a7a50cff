import EntropySupply.Notice
import EntropySupply.Entropy.Thresholds
import EntropySupply.Entropy.Tracked
import EntropySupply.Queue.Channel
import EntropySupply.Reseed.Basic

/-!
# Managed generators

A tracked generator that renews itself with bytes from a channel. Ahead of a draw it looks at the
budget that would be left: at or below the minimum it waits for a whole seed, below the desired
level it takes what is there and renews itself if that completes a seed. Bytes of an incomplete
seed are held for the next attempt. A byte string is drawn in segments that keep the budget above
the desired level.
-/

namespace EntropySupply

structure Managed (γ σ : Type) where
  tracked : Tracked γ
  /-- What the channel works on. -/
  site : σ
  thresholds : Thresholds
  /-- Room for one seed; its first `pending` bytes have been gathered. -/
  holder : Bytes
  pending : Nat := 0
  reseeds : Nat := 0
  /-- Why the last failed wait for a seed failed. -/
  lastFailure : Option Interruption := none

namespace Managed

variable {γ σ : Type} [Renewable γ]

/-- Starts with a budget of `initial` bits, or with the entropy that the generator claims. -/
def new (generator : γ) (initial : Option Int64) (thresholds : Thresholds) (site : σ) :
    Except SetupError (Managed γ σ) := do
  let fresh := Renewable.claimedBits generator
  thresholds.validate fresh
  .ok { tracked := ⟨generator, initial.getD fresh⟩, site, thresholds
        holder := List.replicate (Renewable.seedBytes generator) 0 }

def entropy (m : Managed γ σ) : Int64 := m.tracked.entropy

variable [Journal σ]

def note (n : Notice) (m : Managed γ σ) : Managed γ σ := { m with site := Journal.note n m.site }

def renewalNotice (strategy : String) (n : Nat) (fresh : Int64) : Notice where
  level := .debug
  text := s!"reseeded via {strategy} from {n} bytes, entropy now {fresh} bits"

def failureNotice (pending size : Nat) (e : Interruption) : Notice where
  level := .warn
  text := s!"forced reseed failed with {pending} of {size} seed bytes: {e.message}"

def renew (m : Managed γ σ) : Managed γ σ :=
  let size := m.holder.length
  let r := Renewable.renew m.tracked.generator m.holder
  let fresh := Renewable.claimedBits r.1
  { m with
    tracked := ⟨r.1, fresh⟩
    site := Journal.note (renewalNotice (Renewable.strategy γ) size fresh)
      (Journal.noteAll r.2 m.site)
    holder := List.replicate size 0
    pending := 0
    reseeds := m.reseeds + 1 }

/-- Takes bytes that are ready until the seed is complete or none are left. -/
def gather (q : Queue σ) (m : Managed γ σ) : Managed γ σ :=
  if m.holder.length ≤ m.pending then m
  else
    let p := q.poll m.site (m.holder.drop m.pending)
    let m' := { m with site := p.state, holder := m.holder.take m.pending ++ p.buffer
                       pending := m.pending + p.count }
    if p.count = 0 then m' else gather q m'
termination_by m.holder.length - m.pending
decreasing_by
  have hl := q.poll_length m.site (m.holder.drop m.pending)
  simp only [List.length_append, List.length_take, hl, List.length_drop]
  have : ¬(q.poll m.site (m.holder.drop m.pending)).count = 0 := ‹_›
  omega

/-- Renews the generator if the bytes that are ready complete a seed. -/
def renewFromReady (q : Queue σ) (m : Managed γ σ) : Managed γ σ :=
  let m := gather q m
  if m.pending < m.holder.length then m else m.renew

/-- Waits for a whole seed and renews the generator. When the wait is interrupted the bytes that
came are held, and the failure is recorded. -/
def renewWaiting (ch : Channel σ) (m : Managed γ σ) : Option Interruption × Managed γ σ :=
  let r := ch.read m.site (m.holder.drop m.pending)
  let m := { m with site := r.state, holder := m.holder.take m.pending ++ r.buffer }
  match r.stopped with
  | none => (none, m.renew)
  | some e =>
    let pending := m.pending + e.transferred
    (some e, note (failureNotice pending m.holder.length e)
      { m with pending, lastFailure := some e })

/-- Renews the generator as far as a draw of that cost calls for it. -/
def ensure (ch : Channel σ) (m : Managed γ σ) (bits : Int64) : Managed γ σ :=
  let after := m.entropy - bits
  if after ≤ m.thresholds.minimum then (renewWaiting ch m).2
  else if after < m.thresholds.desired then renewFromReady ch.toQueue m
  else m

def debit (ch : Channel σ) (m : Managed γ σ) (bits : Int64) : Managed γ σ :=
  let m := ensure ch m bits
  { m with tracked := m.tracked.debit bits }

def draw (ch : Channel σ) (d : Draw) (m : Managed γ σ) :
    Except EmptyDraw Sample × Managed γ σ :=
  match d.empty? with
  | some e => (.error e, m)
  | none =>
    let m := debit ch m d.cost
    let s := d.sample m.tracked.generator
    (.ok s.1, { m with tracked := { m.tracked with generator := s.2 } })

/-- The whole bytes that can be drawn while the budget stays above a level. -/
def spareBytes (m : Managed γ σ) (level : Int64) : Nat :=
  ((m.entropy - level - 1) / Cost.byte).toNatClampNeg

/-- The state ahead of the next segment of a byte string, and the most bytes the segment takes. -/
def nextSegment (ch : Channel σ) (m : Managed γ σ) : Nat × Managed γ σ :=
  let ready := m.spareBytes m.thresholds.desired
  if ready = 0 then
    let m := ensure ch m Cost.byte
    (max (m.spareBytes m.thresholds.desired) 1, m)
  else (ready, m)

theorem nextSegment_pos (ch : Channel σ) (m : Managed γ σ) : 0 < (nextSegment ch m).1 := by
  unfold nextSegment
  dsimp only
  split
  · exact Nat.lt_of_lt_of_le Nat.zero_lt_one (Nat.le_max_right _ _)
  · exact Nat.pos_of_ne_zero ‹_›

/-- Draws `n` bytes, segment by segment. -/
def drawBytes (ch : Channel σ) (n : Nat) (m : Managed γ σ) : Bytes × Managed γ σ :=
  if n = 0 then ([], m)
  else
    let s := nextSegment ch m
    let size := min n s.1
    let b := s.2.tracked.drawBytes size
    let r := drawBytes ch (n - size) { s.2 with tracked := b.2 }
    (b.1 ++ r.1, r.2)
termination_by n
decreasing_by
  have h := nextSegment_pos ch m
  omega

def describe (m : Managed γ σ) : String :=
  let failure := match m.lastFailure with
    | none => "None"
    | some e => s!"Some({e.describe})"
  s!"EntropyManager \x7b entropy_bits: {m.entropy}, thresholds: ReseedThresholds \x7b " ++
    s!"desired: {m.thresholds.desired}, minimum: {m.thresholds.minimum} \x7d, " ++
    s!"pending_seed_bytes: {m.pending}, reseeds: {m.reseeds}, last_error: {failure}, .. \x7d"

end Managed

end EntropySupply
