import EntropySupply.Ring.Audit
import EntropySupply.Queue.Capped
import EntropySupply.Queue.Turn

/-!
# Pools

A pool is a ring with everything that the layers around it remember: how often each capped layer
has been called, and the notices made so far. The layers themselves are fixed, and a list of them,
outermost first, is a queue over the pool.
-/

namespace EntropySupply

structure Tally where
  offers : Nat := 0
  polls : Nat := 0
  deriving DecidableEq, Repr

structure Pool (c : Capacity) where
  ring : Ring c
  /-- The calls of the capped layers, innermost first. -/
  tallies : List Tally := []
  journal : List Notice := []

inductive Layer where
  | fair (arrangement : Arrangement) (limits : TurnBounds)
  /-- The `k`-th call of either kind is cut to the `k`-th cap, starting over at the end of the
  list. -/
  | capped (caps : List Nat)
  deriving DecidableEq, Repr

def Layer.isCapped : Layer → Bool
  | .capped _ => true
  | _ => false

namespace Pool

variable {c : Capacity}

instance : Journal (Pool c) where
  note n p := { p with journal := Journal.note n p.journal }

def ofRing (ring : Ring c) (layers : List Layer) : Pool c where
  ring
  tallies := List.replicate (layers.countP Layer.isCapped) {}

/-- The ring without its layers. A call that has to wait for a reservation to end moves nothing. -/
def bare : Queue (Pool c) where
  capacity _ := c.size
  offer p src :=
    match p.ring.offer? src with
    | none => ⟨0, p⟩
    | some (n, ns, ring) => ⟨n, Journal.noteAll ns { p with ring }⟩
  poll p dst :=
    match p.ring.poll? dst with
    | none => ⟨0, dst, p⟩
    | some (n, buffer, ring) => ⟨n, buffer, { p with ring }⟩
  close p := { p with ring := p.ring.close }
  isClosed p := p.ring.closed
  offer_le p src := by
    split
    · exact Nat.zero_le _
    · rename_i h
      exact Ring.offer?_le h
  poll_le p dst := by
    split
    · exact Nat.zero_le _
    · rename_i h
      exact Ring.poll?_le h
  poll_length p dst := by
    split
    · rfl
    · rename_i h
      obtain ⟨got, hg, hb⟩ := Ring.poll?_buffer h
      have hn := Ring.poll?_le h
      simp only [hb, List.length_append, List.length_drop]
      omega
  poll_rest p dst := by
    split
    · rfl
    · rename_i h
      obtain ⟨got, hg, hb⟩ := Ring.poll?_buffer h
      simp [hb, ← hg]

/-- The next cap of the `i`-th capped layer for offers, which counts the call. -/
def offerCap (i : Nat) (caps : List Nat) (p : Pool c) : Nat × Pool c :=
  let t := p.tallies.getD i {}
  (caps.getD (t.offers % caps.length) 0,
    { p with tallies := p.tallies.set i { t with offers := t.offers + 1 } })

def pollCap (i : Nat) (caps : List Nat) (p : Pool c) : Nat × Pool c :=
  let t := p.tallies.getD i {}
  (caps.getD (t.polls % caps.length) 0,
    { p with tallies := p.tallies.set i { t with polls := t.polls + 1 } })

/-- The ring inside its layers, the outermost one first. -/
def layered : List Layer → Queue (Pool c)
  | [] => bare
  | .fair a l :: inner => (layered inner).fair a l
  | .capped caps :: inner =>
    let i := inner.countP Layer.isCapped
    (layered inner).capped (offerCap i caps) (pollCap i caps)

theorem capacity_layered (layers : List Layer) (p : Pool c) :
    (layered layers).capacity p = c.size := by
  induction layers with
  | nil => rfl
  | cons layer inner ih => cases layer <;> exact ih

theorem close_layered (layers : List Layer) (p : Pool c) :
    ((layered layers).close p).ring = p.ring.close := by
  induction layers with
  | nil => rfl
  | cons layer inner ih => cases layer <;> exact ih

theorem isClosed_layered (layers : List Layer) (p : Pool c) :
    (layered layers).isClosed p = p.ring.closed := by
  induction layers with
  | nil => rfl
  | cons layer inner ih => cases layer <;> exact ih

def describe (p : Pool c) : List Layer → String
  | [] => p.ring.describe
  | .fair a l :: inner =>
    s!"FairQueue \x7b inner: {p.describe inner}, limits: {l.describe}, " ++
      s!"fair_reads: {a.locksReads}, fair_writes: {a.locksWrites}, " ++
      s!"shared_lock: {a.sharesLine} \x7d"
  | .capped _ :: _ => "Trickle"

end Pool

/-- Refuses layers whose turns could never move a byte, the innermost one first. -/
def Layer.validate : List Layer → Except SetupError Unit
  | [] => .ok ()
  | .fair _ l :: inner => do
    validate inner
    l.validate
  | .capped _ :: inner => validate inner

end EntropySupply
