import EntropySupply.Queue.Pool

/-!
# Exchanges

Writers that each send all their bytes through a queue while readers take them out in chunks. No
order between the writers is promised, so what is worth knowing afterwards is which bytes arrived
and which writers got rid of theirs.
-/

namespace EntropySupply

namespace Queue

variable {σ : Type}

def collect (q : Queue σ) (chunk : Nat) : (rounds expected : Nat) → σ → Bytes × σ
  | 0, _, s => ([], s)
  | rounds + 1, expected, s =>
    if expected = 0 then ([], s)
    else
      let m := q.poll s (List.replicate chunk 0)
      let r := q.collect chunk rounds (expected - m.count) m.state
      (m.buffer.take m.count ++ r.1, r.2)

/-- Sends the rest of a source in at most so many rounds, with a reader taking a chunk after each
offer. Says what arrived, and what was not sent. -/
def send (q : Queue σ) (chunk : Nat) : (rounds : Nat) → σ → Bytes → Bytes × Bytes × σ
  | 0, s, rest => ([], rest, s)
  | rounds + 1, s, rest =>
    if rest.isEmpty then ([], [], s)
    else
      let o := q.offer s rest
      let m := q.poll o.state (List.replicate chunk 0)
      let r := q.send chunk rounds m.state (rest.drop o.count)
      (m.buffer.take m.count ++ r.1, r.2)

/-- What an exchange ended with: the bytes that arrived, the writers that sent everything, and the
state of the queue. -/
structure Exchange (σ : Type) where
  arrived : Bytes
  finished : Nat
  state : σ

/-- The bytes that arrived in ascending order, which hides how the writers took turns. -/
def Exchange.sorted (x : Exchange σ) : Bytes := x.arrived.mergeSort fun a b => decide (a ≤ b)

def exchange (q : Queue σ) (chunk rounds : Nat) (s : σ) (writers : List Bytes) : Exchange σ :=
  let sent := writers.foldl (fun (x : Exchange σ) src =>
    let r := q.send chunk rounds x.state src
    ⟨x.arrived ++ r.1, x.finished + (if r.2.1.isEmpty then 1 else 0), r.2.2⟩) ⟨[], 0, s⟩
  let r := q.collect chunk rounds (writers.flatten.length - sent.arrived.length) sent.state
  ⟨sent.arrived ++ r.1, sent.finished, r.2⟩

end Queue

namespace Pool

variable {c : Capacity}

/-- The calls after which the caps of all layers have started over. -/
def period : List Layer → Nat
  | [] => 1
  | .fair _ _ :: inner => period inner
  | .capped caps :: inner => caps.length * period inner

/-- Lets the writers send their bytes through a layered ring. Every byte moves twice, and between
two moves the caps start over at most once. -/
def exchange (layers : List Layer) (chunk : Nat) (p : Pool c) (writers : List Bytes) :
    Queue.Exchange (Pool c) :=
  let rounds := 2 * (writers.flatten.length + 1) * period layers
  (layered layers).exchange chunk rounds p writers

end Pool

end EntropySupply
