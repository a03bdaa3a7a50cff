import EntropySupply.Generator.Playback
import EntropySupply.Proofs.Entropy.Steps
import EntropySupply.Proofs.Queue.Turns
import EntropySupply.Queue.Room

/-!
# Ready bytes and a wait for them

A renewal from ready bytes polls until its seed is complete or a poll moves nothing. A wait reads
what the seed lacks, and can fail. At a quiet ring that either holds what is lacking or is closed,
the two make the same calls. Main statement: `renewals_agree`, they leave the same state if the seed
gets complete, and states that differ in the recorded failure if it does not.
-/

namespace EntropySupply

namespace Pool

variable {c : Capacity} {q : Queue (Pool c)}

theorem Pours.await_closed (hq : Pours q) {s : Site (Pool c)} (h : s.pool.ring.closed = true) :
    (Site.channel q bare).await s = s ∧ (Site.channel q bare).isClosed s = true := by
  have hclosed : q.isClosed s.pool = true := (hq.isClosed s.pool).trans h
  exact ⟨Site.await_closed hclosed, hclosed⟩

end Pool

theorem Site.ring_noteAll {c : Capacity} (ns : List Notice) (s : Site (Pool c)) :
    (Journal.noteAll ns s).pool.ring = s.pool.ring := by
  unfold Journal.noteAll
  induction ns generalizing s with
  | nil => rfl
  | cons n ns ih => exact ih (Journal.note n s)

namespace Managed

variable {γ : Type} {c : Capacity}

def lacking {σ : Type} (m : Managed γ σ) : ℕ := m.holder.length - m.pending

/-- The bytes of the ring, as many as the seed being gathered lacks. -/
def atHand (m : Managed γ (Site (Pool c))) : ℕ := min m.lacking m.site.pool.ring.stock

/-- A renewal need not wait for the others: the ring holds what is lacking, or they can put nothing
into it any more. -/
def Resolved (m : Managed γ (Site (Pool c))) : Prop :=
  m.lacking ≤ m.site.pool.ring.stock ∨ m.site.pool.ring.closed = true

/-- How a read of the lacking bytes ends without waiting, when `moved` bytes were read before. -/
def verdict (m : Managed γ (Site (Pool c))) (moved : ℕ) : Option Interruption :=
  if m.lacking ≤ m.site.pool.ring.stock then none else some (.closed (moved + m.atHand))

/-- `m'` holds what the read `r` of the lacking bytes has delivered. -/
structure Collected (m : Managed γ (Site (Pool c))) (moved : ℕ) (r : Received (Site (Pool c)))
    (m' : Managed γ (Site (Pool c))) : Prop where
  state_eq : m' = { m with site := r.state, holder := m.holder.take m.pending ++ r.buffer
                           pending := m.pending + m.atHand }
  stopped_eq : r.stopped = m.verdict moved
  took : m.site.pool.ring.TookOut (m.holder.drop m.pending) m.atHand r.buffer r.state.pool.ring

variable {q : Queue (Pool c)} {m : Managed γ (Site (Pool c))}

def receive (m : Managed γ (Site (Pool c))) (p : Delivered (Site (Pool c))) :
    Managed γ (Site (Pool c)) :=
  { m with site := p.state, holder := m.holder.take m.pending ++ p.buffer
           pending := m.pending + p.count }

section Receive

variable {p : Delivered (Site (Pool c))}

theorem receive_counts
    (h : m.site.pool.ring.TookOut (m.holder.drop m.pending) p.count p.buffer p.state.pool.ring)
    (hs : m.site.pool.ring.Sound [] []) (hroom : m.pending < m.holder.length) :
    (m.receive p).lacking + p.count = m.lacking ∧
      (m.receive p).site.pool.ring.stock + p.count = m.site.pool.ring.stock ∧
      (m.receive p).atHand + p.count = m.atHand := by
  have hstock := h.le_stock
  have hlen := h.le_length
  have hfront := Ring.length_front hs hstock
  rw [List.length_drop] at hlen
  have hlacking : (m.receive p).lacking + p.count = m.lacking := by
    simp only [lacking, receive, h.buffer_eq, List.length_append, List.length_take, hfront,
      List.length_drop]
    omega
  have hleft : (m.receive p).site.pool.ring.stock + p.count = m.site.pool.ring.stock := by
    change p.state.pool.ring.stock + p.count = _
    rw [h.ring_eq, Ring.stock_pull hstock]
    omega
  refine ⟨hlacking, hleft, ?_⟩
  unfold atHand
  omega

theorem receive_holder (p : Delivered (Site (Pool c))) (hroom : m.pending < m.holder.length) :
    (m.receive p).holder.take (m.receive p).pending =
        m.holder.take m.pending ++ p.buffer.take p.count ∧
      (m.receive p).holder.drop (m.receive p).pending = p.buffer.drop p.count := by
  have hfront : (m.holder.take m.pending).length = m.pending :=
    List.length_take_of_le (Nat.le_of_lt hroom)
  constructor
  · simp [receive, List.take_append, hfront]
  · simp [receive, List.drop_append, hfront]

theorem Collected.after_poll
    (h : m.site.pool.ring.TookOut (m.holder.drop m.pending) p.count p.buffer p.state.pool.ring)
    (hs : m.site.pool.ring.Sound [] []) (hroom : m.pending < m.holder.length) {moved : ℕ}
    {r : Received (Site (Pool c))} {m' : Managed γ (Site (Pool c))}
    (hrest : (m.receive p).Collected (moved + p.count) r m') :
    m.Collected moved ⟨r.stopped, p.buffer.take p.count ++ r.buffer, r.state⟩ m' := by
  obtain ⟨hlacking, hstock, hhand⟩ := receive_counts h hs hroom
  obtain ⟨htake, hdrop⟩ := receive_holder p hroom
  constructor
  · rw [hrest.state_eq, htake, List.append_assoc, ← hhand]
    simp only [receive, Nat.add_assoc, Nat.add_comm p.count]
  · change r.stopped = _
    rw [hrest.stopped_eq, verdict, verdict]
    by_cases hle : m.lacking ≤ m.site.pool.ring.stock
    · rw [if_pos (by omega), if_pos hle]
    · rw [if_neg (by omega), if_neg hle, ← hhand, Nat.add_assoc, Nat.add_comm p.count]
  · have hlater := hrest.took
    rw [hdrop] at hlater
    rw [← hhand, Nat.add_comm]
    exact h.append hs hlater

theorem collected_full (hfull : m.holder.length ≤ m.pending) (moved : ℕ) :
    m.Collected moved ⟨none, [], m.site⟩ m := by
  have hlacking : m.lacking = 0 := Nat.sub_eq_zero_of_le hfull
  have hnone : m.atHand = 0 := by rw [atHand, hlacking, Nat.zero_min]
  constructor
  · rw [hnone, List.append_nil, List.take_of_length_le hfull]
    rfl
  · rw [verdict, hlacking, if_pos (Nat.zero_le _)]
  · rw [List.drop_of_length_le hfull, hnone]
    exact .none _ _

theorem collected_dry
    (h : m.site.pool.ring.TookOut (m.holder.drop m.pending) 0 p.buffer p.state.pool.ring)
    (hcount : p.count = 0) (hroom : m.pending < m.holder.length)
    (hstock : m.site.pool.ring.stock = 0) (moved : ℕ) :
    m.Collected moved ⟨some (.closed moved), p.buffer, p.state⟩ (m.receive p) := by
  have hnone : m.atHand = 0 := by rw [atHand, hstock, Nat.min_zero]
  constructor
  · rw [hnone]
    simp only [receive, hcount]
  · rw [verdict, if_neg, hnone]
    · rfl
    · unfold lacking
      omega
  · rw [hnone]
    exact h

end Receive

/-- Polls until nothing is lacking or at hand, and one read, make the same calls. -/
theorem collected_gather (hq : Pool.Pours q) (hs : m.site.pool.ring.Sound [] [])
    (hlive : m.site.cancelled = false) (hresolved : m.Resolved) (moved : ℕ) :
    m.Collected moved
      ((Site.channel q Pool.bare).readFrom moved m.site (m.holder.drop m.pending))
      (gather (Site.channel q Pool.bare).toQueue m) := by
  fun_induction gather (Site.channel q Pool.bare).toQueue m generalizing moved with
  | case1 m hfull =>
    rw [List.drop_of_length_le hfull, Channel.readFrom_nil]
    exact collected_full hfull moved
  | case2 m hroom p m' hnone =>
    have hlt : m.pending < m.holder.length := Nat.lt_of_not_le hroom
    have hrest : m.holder.drop m.pending ≠ [] := by simpa using hlt
    have hlive' : ¬(Site.channel q Pool.bare).cancelled m.site = true := by
      simp [Site.channel, hlive]
    have hstock : m.site.pool.ring.stock = 0 := (hq.poll_stuck hs hnone).resolve_left hrest
    have htook := hq.poll (m.holder.drop m.pending) hs
    rw [show (q.poll m.site.pool (m.holder.drop m.pending)).count = 0 from hnone] at htook
    have hclosed : p.state.pool.ring.closed = true := by
      rw [show p.state.pool.ring = m.site.pool.ring.pull 0 from htook.ring_eq]
      apply hresolved.resolve_left
      unfold lacking
      omega
    obtain ⟨hawait, hisClosed⟩ := hq.await_closed hclosed
    have hcall : (Site.channel q Pool.bare).poll m.site (m.holder.drop m.pending) =
        ⟨0, p.buffer, p.state⟩ := by rw [← hnone]
    rw [Channel.readFrom_refused hrest hlive' hcall, hawait, if_pos hisClosed]
    exact collected_dry htook hnone hlt hstock moved
  | case3 m hroom p m' hsome ih =>
    have hlt : m.pending < m.holder.length := Nat.lt_of_not_le hroom
    have hrest : m.holder.drop m.pending ≠ [] := by simpa using hlt
    have hlive' : ¬(Site.channel q Pool.bare).cancelled m.site = true := by
      simp [Site.channel, hlive]
    have htook : m.site.pool.ring.TookOut (m.holder.drop m.pending) p.count p.buffer
        p.state.pool.ring := hq.poll (m.holder.drop m.pending) hs
    have hresolved' : (m.receive p).Resolved := by
      rcases hresolved with hle | hclosed
      · left
        obtain ⟨hlacking, hstock, -⟩ := receive_counts htook hs hlt
        omega
      · right
        change p.state.pool.ring.closed = true
        rw [htook.ring_eq]
        exact hclosed
    have hnext := ih (htook.quiet hs) hlive hresolved' (moved + p.count)
    rw [show m'.holder.drop m'.pending = p.buffer.drop p.count from (receive_holder p hlt).2]
      at hnext
    have hcall : (Site.channel q Pool.bare).poll m.site (m.holder.drop m.pending) =
        ⟨p.count, p.buffer, p.state⟩ := rfl
    rw [Channel.readFrom_moved hrest hlive' hcall (Nat.pos_of_ne_zero hsome)]
    exact hnext.after_poll htook hs hlt

variable [Renewable γ]

/-- `m'` is `m` renewed with its pending bytes and the next `n` bytes of its ring. -/
structure RenewedWith (m : Managed γ (Site (Pool c))) (n : ℕ) (m' : Managed γ (Site (Pool c))) :
    Prop where
  generator : m'.tracked.generator = (Renewable.renew m.tracked.generator
    (m.holder.take m.pending ++ m.site.pool.ring.front n)).1
  whole : (m.holder.take m.pending ++ m.site.pool.ring.front n).length = m.holder.length
  entropy : m'.entropy = Renewable.claimedBits m'.tracked.generator
  reseeds : m'.reseeds = m.reseeds + 1
  pending : m'.pending = 0
  wiped : m'.holder = List.replicate m.holder.length 0
  ring : m'.site.pool.ring = m.site.pool.ring.pull n
  lastFailure : m'.lastFailure = m.lastFailure

/-- `m'` is `m` with the next `n` bytes of its ring behind its pending bytes, and not renewed. -/
structure ToppedUp (m : Managed γ (Site (Pool c))) (n : ℕ) (m' : Managed γ (Site (Pool c))) :
    Prop where
  tracked : m'.tracked = m.tracked
  reseeds : m'.reseeds = m.reseeds
  pending : m'.pending = m.pending + n
  holder : m'.holder = m.holder.take m.pending ++ m.site.pool.ring.front n ++
    m.holder.drop (m.pending + n)
  ring : m'.site.pool.ring = m.site.pool.ring.pull n
  lastFailure : m'.lastFailure = m.lastFailure

section Collected

variable {r : Received (Site (Pool c))} {m' : Managed γ (Site (Pool c))} {moved : ℕ}

omit [Renewable γ] in
theorem Collected.toppedUp (h : m.Collected moved r m') : m.ToppedUp m.atHand m' := by
  have htook := h.took
  rw [h.state_eq]
  refine ⟨rfl, rfl, rfl, ?_, htook.ring_eq, rfl⟩
  change m.holder.take m.pending ++ r.buffer = _
  rw [htook.buffer_eq, List.drop_drop, List.append_assoc]

omit [Renewable γ] in
theorem Collected.length_holder (h : m.Collected moved r m')
    (hs : m.site.pool.ring.Sound [] []) : m'.holder.length = m.holder.length := by
  have hstock : m.atHand ≤ m.site.pool.ring.stock := Nat.min_le_right _ _
  have hlacking : m.atHand ≤ m.holder.length - m.pending := Nat.min_le_left _ _
  rw [h.toppedUp.holder, List.length_append, List.length_append, List.length_take,
    Ring.length_front hs hstock, List.length_drop]
  omega

theorem Collected.renewed (h : m.Collected moved r m') (hs : m.site.pool.ring.Sound [] [])
    (hall : m.lacking ≤ m.site.pool.ring.stock) : m.RenewedWith m.lacking m'.renew := by
  have htop := h.toppedUp
  have hlength := h.length_holder hs
  rw [atHand, Nat.min_eq_left hall] at htop
  have hrest : m.holder.drop (m.pending + m.lacking) = [] := by
    refine List.drop_of_length_le ?_
    unfold lacking
    omega
  have hholder : m'.holder = m.holder.take m.pending ++ m.site.pool.ring.front m.lacking := by
    rw [htop.holder, hrest, List.append_nil]
  refine ⟨?_, ?_, rfl, congrArg (· + 1) htop.reseeds, rfl, ?_, ?_, htop.lastFailure⟩
  · rw [← hholder, ← htop.tracked]
    rfl
  · rw [← hholder]
    exact hlength
  · rw [← hlength]
    rfl
  · rw [← htop.ring]
    exact Site.ring_noteAll _ m'.site

end Collected

/-- With enough bytes at hand a wait leaves what a renewal from ready bytes leaves. -/
theorem renewWaiting_enough (hq : Pool.Pours q) (hs : m.site.pool.ring.Sound [] [])
    (hlive : m.site.cancelled = false) (hall : m.lacking ≤ m.site.pool.ring.stock) :
    renewWaiting (Site.channel q Pool.bare) m =
        (none, renewFromReady (Site.channel q Pool.bare).toQueue m) ∧
      m.RenewedWith m.lacking (renewFromReady (Site.channel q Pool.bare).toQueue m) := by
  have h := collected_gather hq hs hlive (.inl hall) 0
  have hstop : (renewWaiting (Site.channel q Pool.bare) m).1 = none := by
    rw [renewWaiting_fst]
    exact h.stopped_eq.trans (if_pos hall)
  have hfull : ¬(gather (Site.channel q Pool.bare).toQueue m).pending <
      (gather (Site.channel q Pool.bare).toQueue m).holder.length := by
    rw [h.toppedUp.pending, h.length_holder hs, atHand, Nat.min_eq_left hall]
    unfold lacking
    omega
  rw [renewFromReady_full hfull]
  refine ⟨Prod.ext hstop ?_, h.renewed hs hall⟩
  rw [renewWaiting_none hstop, h.state_eq]
  rfl

/-- The state that a failed wait leaves where a renewal from ready bytes leaves `m'`. -/
def withFailure {σ : Type} [Journal σ] (m' : Managed γ σ) (e : Interruption) : Managed γ σ :=
  note (failureNotice m'.pending m'.holder.length e) { m' with lastFailure := some e }

/-- At a closed ring with too few bytes a wait fails holding what a renewal from ready bytes
holds. -/
theorem renewWaiting_dry (hq : Pool.Pours q) (hs : m.site.pool.ring.Sound [] [])
    (hlive : m.site.cancelled = false) (hshort : m.site.pool.ring.stock < m.lacking)
    (hclosed : m.site.pool.ring.closed = true) :
    renewWaiting (Site.channel q Pool.bare) m =
        (some (.closed m.site.pool.ring.stock),
          (renewFromReady (Site.channel q Pool.bare).toQueue m).withFailure
            (.closed m.site.pool.ring.stock)) ∧
      m.ToppedUp m.site.pool.ring.stock (renewFromReady (Site.channel q Pool.bare).toQueue m) := by
  have h := collected_gather hq hs hlive (.inr hclosed) 0
  have hhand : m.atHand = m.site.pool.ring.stock := Nat.min_eq_right (Nat.le_of_lt hshort)
  have htop := h.toppedUp
  have hlength := h.length_holder hs
  have hstop : (renewWaiting (Site.channel q Pool.bare) m).1 =
      some (.closed m.site.pool.ring.stock) := by
    rw [renewWaiting_fst, ← hhand, ← Nat.zero_add m.atHand]
    exact h.stopped_eq.trans (if_neg (Nat.not_le_of_lt hshort))
  rw [hhand] at htop
  have hless : (gather (Site.channel q Pool.bare).toQueue m).pending <
      (gather (Site.channel q Pool.bare).toQueue m).holder.length := by
    rw [htop.pending, hlength]
    unfold lacking at hshort
    omega
  rw [renewFromReady_short hless]
  refine ⟨Prod.ext hstop ?_, htop⟩
  rw [renewWaiting_some hstop, h.state_eq, hhand]
  rfl

/-- At a quiet ring whose user has not been called off, a renewal from ready bytes and one that
waits leave the same state, if the ring holds what the seed lacks. If it does not and is closed,
they differ in the failure that the wait puts on record. -/
theorem renewals_agree {layers : List Layer} (hfair : ∀ layer ∈ layers, layer.isCapped = false)
    (hvalid : Layer.validate layers = .ok ()) (hs : m.site.pool.ring.Sound [] [])
    (hlive : m.site.cancelled = false) :
    (m.holder.length ≤ m.pending + m.site.pool.ring.stock →
      renewWaiting (Site.layered layers) m =
          (none, renewFromReady (Site.layered layers).toQueue m) ∧
        m.RenewedWith (m.holder.length - m.pending)
          (renewFromReady (Site.layered layers).toQueue m)) ∧
    (m.pending + m.site.pool.ring.stock < m.holder.length → m.site.pool.ring.closed = true →
      renewWaiting (Site.layered layers) m =
          (some (.closed m.site.pool.ring.stock),
            (renewFromReady (Site.layered layers).toQueue m).withFailure
              (.closed m.site.pool.ring.stock)) ∧
        m.ToppedUp m.site.pool.ring.stock (renewFromReady (Site.layered layers).toQueue m)) := by
  have hq : Pool.Pours (Pool.layered layers : Queue (Pool c)) := Pool.layered_pours hfair hvalid
  constructor
  · intro hall
    exact renewWaiting_enough hq hs hlive (Nat.sub_le_iff_le_add'.mpr hall)
  · intro hshort hclosed
    exact renewWaiting_dry hq hs hlive (Nat.lt_sub_iff_add_lt'.mpr hshort) hclosed

/-- A generator that has a byte of its seed, at a ring with three bytes, the last of them in the
first slot. -/
def rounding (size : ℕ) (closed : Bool) : Managed Playback (Site (Pool .four)) where
  tracked := ⟨{ words := [7, 1, 5], seedBytes := size }, 70⟩
  site :=
    { pool := .ofRing { slots := #v[3, 0, 1, 2], rule := .abandon, closed
                        reserved := 5, committed := 5, claimed := 2, released := 2 } [] }
  thresholds := {}
  holder := 9 :: List.replicate (size - 1) 0
  pending := 1

theorem quiet_rounding (size : ℕ) (closed : Bool) :
    (rounding size closed).site.pool.ring.Sound [] [] :=
  ⟨show (2 : UInt64).toNat ≤ (5 : UInt64).toNat by decide,
    show (5 : UInt64).toNat ≤ (2 : UInt64).toNat + 4 by decide, rfl, rfl⟩

theorem renewals_agree_rounding :
    let layers : List Layer := [.fair .full ⟨2, 1⟩, .fair .reader ⟨1, 3⟩]
    (renewWaiting (Site.layered layers) (rounding 4 false) =
          (none, renewFromReady (Site.layered layers).toQueue (rounding 4 false)) ∧
        (rounding 4 false).RenewedWith 3
          (renewFromReady (Site.layered layers).toQueue (rounding 4 false))) ∧
      renewWaiting (Site.layered layers) (rounding 6 true) =
          (some (.closed 3),
            (renewFromReady (Site.layered layers).toQueue (rounding 6 true)).withFailure
              (.closed 3)) ∧
        (rounding 6 true).ToppedUp 3
          (renewFromReady (Site.layered layers).toQueue (rounding 6 true)) :=
  ⟨(renewals_agree (by decide) rfl (quiet_rounding 4 false) rfl).1 (by decide),
    (renewals_agree (by decide) rfl (quiet_rounding 6 true) rfl).2 (by decide) rfl⟩

end Managed

end EntropySupply
