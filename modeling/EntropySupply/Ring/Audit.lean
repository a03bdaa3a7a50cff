import EntropySupply.Ring.Basic

/-!
# Observing a ring

Observers load the positions of a ring one after another while its users go on, so what they see
need not have been there at one moment. The audit compares loads in an order in which no run of a
ring can raise an alarm; each observer is a function of the values it loaded.
-/

namespace EntropySupply.Ring

variable {c : Capacity}

inductive Alarm where
  | releasedAhead (released claimed : UInt64)
  | claimedAhead (claimed committed : UInt64)
  | committedAhead (committed reserved : UInt64)
  | committedBackwards (before after : UInt64)
  | overfull (inUse : UInt64) (capacity : Nat)
  deriving DecidableEq, Repr

def Alarm.message : Alarm → String
  | .releasedAhead released claimed =>
    s!"read_released {released} ahead of read_claimed {claimed}"
  | .claimedAhead claimed committed =>
    s!"read_claimed {claimed} ahead of write_committed {committed}"
  | .committedAhead committed reserved =>
    s!"write_committed {committed} ahead of write_claimed {reserved}"
  | .committedBackwards before after =>
    s!"write_committed went backwards: {before} -> {after}"
  | .overfull inUse capacity => s!"{inUse} bytes reserved in a {capacity}-byte pool"

/-- The loads of an audit in the order in which they happen: each position before the one that
bounds it, and the two ends of the reserved region last. -/
structure AuditLoads where
  released : UInt64
  claimed : UInt64
  committed : UInt64
  reserved : UInt64
  committedAgain : UInt64
  reservedAgain : UInt64
  releasedAgain : UInt64

/-- The first thing an audit of a ring with that capacity complains about. -/
def AuditLoads.alarm? (l : AuditLoads) (c : Capacity) : Option Alarm :=
  if l.claimed < l.released then some (.releasedAhead l.released l.claimed)
  else if l.committed < l.claimed then some (.claimedAhead l.claimed l.committed)
  else if l.reserved < l.committed then some (.committedAhead l.committed l.reserved)
  else if l.committedAgain < l.committed then
    some (.committedBackwards l.committed l.committedAgain)
  else
    let inUse := gap l.releasedAgain l.reservedAgain
    if c.word < inUse then some (.overfull inUse c.size) else none

def auditLoads (r : Ring c) : AuditLoads where
  released := r.released
  claimed := r.claimed
  committed := r.committed
  reserved := r.reserved
  committedAgain := r.committed
  reservedAgain := r.reserved
  releasedAgain := r.released

/-- The loads of an audit while the ring changes: `ring i` is the ring at the `i`th load. -/
def AuditLoads.across (ring : Nat → Ring c) : AuditLoads where
  released := (ring 0).released
  claimed := (ring 1).claimed
  committed := (ring 2).committed
  reserved := (ring 3).reserved
  committedAgain := (ring 4).committed
  reservedAgain := (ring 5).reserved
  releasedAgain := (ring 6).released

theorem auditLoads_eq_across (r : Ring c) : r.auditLoads = .across fun _ => r := rfl

def audit? (r : Ring c) : Option Alarm := r.auditLoads.alarm? c

/-- The positions as a monitor sees them, loaded from the oldest end of the ring to the newest. -/
structure Snapshot where
  capacity : Nat
  reserved : UInt64
  committed : UInt64
  claimed : UInt64
  released : UInt64
  closed : Bool
  deriving DecidableEq, Repr

def snapshot (r : Ring c) : Snapshot where
  capacity := c.size
  released := r.released
  claimed := r.claimed
  committed := r.committed
  reserved := r.reserved
  closed := r.closed

def Snapshot.across (ring : Nat → Ring c) : Snapshot where
  capacity := c.size
  released := (ring 0).released
  claimed := (ring 1).claimed
  committed := (ring 2).committed
  reserved := (ring 3).reserved
  closed := (ring 4).closed

theorem snapshot_eq_across (r : Ring c) : r.snapshot = .across fun _ => r := rfl

def Snapshot.describe (s : Snapshot) : String :=
  s!"PoolSnapshot \x7b capacity: {s.capacity}, write_claimed: {s.reserved}, " ++
    s!"write_committed: {s.committed}, read_claimed: {s.claimed}, " ++
    s!"read_released: {s.released}, closed: {s.closed} \x7d"

/-- The number of bytes that wait for a reader, from two loads of a ring that changes. -/
def lengthAcross (ring : Nat → Ring c) : UInt64 := gap (ring 0).claimed (ring 1).committed

theorem available_eq_across (r : Ring c) : r.available = lengthAcross fun _ => r := rfl

def describe (r : Ring c) : String :=
  s!"RingPool \x7b policy: {r.rule.describe}, snapshot: {r.snapshot.describe} \x7d"

end EntropySupply.Ring
