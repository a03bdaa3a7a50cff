import EntropySupply.Queue.Room

/-!
# Operations at a site

Everything that a user can do with a layered ring at a site, as one type, so that a run is a list of
operations. Transfers straight to the ring pass its layers by.
-/

namespace EntropySupply

inductive Operation where
  | offer (src : Bytes)
  | poll (dst : Bytes)
  /-- Writes all of `src`, waiting if need be. -/
  | write (src : Bytes)
  /-- Fills all of `dst`, waiting if need be. -/
  | read (dst : Bytes)
  /-- Writes through a handle that does not own the queue. -/
  | feed (src : Bytes)
  /-- Writes through such a handle when the queue it belonged to is gone. -/
  | feedGone (src : Bytes)
  | writeRing (src : Bytes)
  | readRing (dst : Bytes)
  | close
  /-- Calls the transfers off. -/
  | cancel
  /-- Lets later transfers go ahead again. -/
  | resume
  deriving DecidableEq, Repr

inductive Outcome where
  | done
  | accepted (count : Nat)
  | delivered (count : Nat) (buffer : Bytes)
  | sent (stopped : Option Interruption)
  | received (stopped : Option Interruption) (buffer : Bytes)
  deriving DecidableEq, Repr

namespace Site

variable {c : Capacity}

def send (ch : Channel (Site (Pool c))) (s : Site (Pool c)) (src : Bytes) :
    Outcome × Site (Pool c) :=
  let m := ch.write s src
  (.sent m.stopped, m.state)

def receive (ch : Channel (Site (Pool c))) (s : Site (Pool c)) (dst : Bytes) :
    Outcome × Site (Pool c) :=
  let m := ch.read s dst
  (.received m.stopped m.buffer, m.state)

/-- Does one operation at a site whose user calls the ring through `q`. -/
def operateOn (q : Queue (Pool c)) (s : Site (Pool c)) : Operation → Outcome × Site (Pool c)
  | .offer src =>
    let m := (channel q Pool.bare).offer s src
    (.accepted m.count, m.state)
  | .poll dst =>
    let m := (channel q Pool.bare).poll s dst
    (.delivered m.count m.buffer, m.state)
  | .write src => send (channel q Pool.bare) s src
  | .read dst => receive (channel q Pool.bare) s dst
  | .feed src =>
    let m := (channel q Pool.bare).feed s src
    (.accepted m.count, m.state)
  | .feedGone src =>
    let m := (channel q Pool.bare).feed { s with abandoned := true } src
    (.accepted m.count, { m.state with abandoned := s.abandoned })
  | .writeRing src => send (layered []) s src
  | .readRing dst => receive (layered []) s dst
  | .close => (.done, (channel q Pool.bare).close s)
  | .cancel => (.done, { s with cancelled := true })
  | .resume => (.done, { s with cancelled := false })

/-- Does one operation at a site whose ring has the given layers, the outermost one first. -/
def operate (layers : List Layer) (s : Site (Pool c)) (op : Operation) : Outcome × Site (Pool c) :=
  s.operateOn (Pool.layered layers) op

def runOn (q : Queue (Pool c)) (s : Site (Pool c)) (ops : List Operation) : Site (Pool c) :=
  ops.foldl (fun s op => (s.operateOn q op).2) s

def run (layers : List Layer) (s : Site (Pool c)) (ops : List Operation) : Site (Pool c) :=
  s.runOn (Pool.layered layers) ops

end Site

end EntropySupply
