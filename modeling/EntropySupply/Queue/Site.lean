import EntropySupply.Queue.Channel
import EntropySupply.Queue.Pool

/-!
# Sites

A site is a queue among others who use it too. What the others do is laid down in advance: a list
of acts, one of which happens each time a blocking transfer has to wait, and acts that happen when
a seed source is asked for the `k`-th time. Once the list is used up, whoever waits is called off.
-/

namespace EntropySupply

/-- Something that the others do. -/
inductive Act where
  /-- Nothing, that many times. -/
  | idle (times : Nat)
  /-- They take up to `n` bytes out of the ring. -/
  | poll (n : Nat)
  /-- They offer bytes to the ring. -/
  | offer (src : Bytes)
  | close
  /-- They call the transfers off. -/
  | cancel
  /-- They give up the last owning handle of the queue. -/
  | abandon
  deriving DecidableEq, Repr

/-- How many waits an act lasts for. -/
def Act.weight : Act → Nat
  | .idle times => max times 1
  | _ => 1

theorem Act.weight_pos (act : Act) : 0 < act.weight := by
  cases act with
  | idle times => exact Nat.lt_of_lt_of_le Nat.zero_lt_one (Nat.le_max_right times 1)
  | _ => exact Nat.zero_lt_one

structure Site (σ : Type) where
  pool : σ
  /-- What the others do while a transfer waits at the open queue, one act after another. -/
  schedule : List Act := []
  /-- What the others do when the source is asked, each with the number of the request. -/
  events : List (Nat × Act) := []
  /-- How often the source has been asked. -/
  requests : Nat := 0
  cancelled : Bool := false
  /-- Whether nobody owns the queue any more. -/
  abandoned : Bool := false
  /-- The bytes that the others have taken. -/
  drained : Bytes := []

namespace Site

variable {σ : Type}

instance [Journal σ] : Journal (Site σ) where
  note n s := { s with pool := Journal.note n s.pool }

def perform (others : Queue σ) (s : Site σ) : Act → Site σ
  | .idle _ => s
  | .poll n =>
    let m := others.poll s.pool (List.replicate n 0)
    { s with pool := m.state, drained := s.drained ++ m.buffer.take m.count }
  | .offer src => { s with pool := (others.offer s.pool src).state }
  | .close => { s with pool := others.close s.pool }
  | .cancel => { s with cancelled := true }
  | .abandon => { s with abandoned := true }

/-- What happens while a transfer waits: the next act, and if there is none the transfer is called
off. Transfers wait at an open queue only; an attempt that a closed one refuses is no wait, and
nobody acts behind it. -/
def await (queue others : Queue σ) (s : Site σ) : Site σ :=
  if queue.isClosed s.pool then s
  else match s.schedule with
    | [] => { s with cancelled := true }
    | .idle times :: rest =>
      if times ≤ 1 then { s with schedule := rest }
      else { s with schedule := .idle (times - 1) :: rest }
    | act :: rest => perform others { s with schedule := rest } act

theorem await_closed {queue others : Queue σ} {s : Site σ} (h : queue.isClosed s.pool = true) :
    await queue others s = s := if_pos h

/-- What happens before the source answers its next request. -/
def request (others : Queue σ) (s : Site σ) : Site σ :=
  let s := { s with requests := s.requests + 1 }
  match s.events.lookup s.requests with
  | none => s
  | some act => perform others s act

/-- The waits that the schedule covers, and the events that are still to come. -/
def patience (s : Site σ) : Nat :=
  s.schedule.foldr (fun act rest => act.weight + rest) 0 +
    s.events.countP (s.requests < ·.1)

theorem perform_patience (others : Queue σ) (s : Site σ) (act : Act) :
    (perform others s act).patience = s.patience := by
  cases act <;> rfl

theorem await_settles (queue others : Queue σ) (s : Site σ) :
    queue.isClosed (await queue others s).pool = true ∨
      (await queue others s).cancelled = true ∨
        (await queue others s).patience < s.patience := by
  unfold await
  split
  · exact .inl ‹_›
  · split
    · exact .inr (.inl rfl)
    · rename_i times rest hs
      refine .inr (.inr ?_)
      split
      · simp only [patience, hs, Act.weight, List.foldr_cons]
        omega
      · simp only [patience, hs, Act.weight, List.foldr_cons]
        omega
    · rename_i act rest hn hs
      refine .inr (.inr ?_)
      have hw := act.weight_pos
      rw [perform_patience]
      simp only [patience, hs, List.foldr_cons]
      omega

def queue (q : Queue σ) : Queue (Site σ) where
  capacity s := q.capacity s.pool
  offer s src :=
    let m := q.offer s.pool src
    ⟨m.count, { s with pool := m.state }⟩
  poll s dst :=
    let m := q.poll s.pool dst
    ⟨m.count, m.buffer, { s with pool := m.state }⟩
  close s := { s with pool := q.close s.pool }
  isClosed s := q.isClosed s.pool
  offer_le s := q.offer_le s.pool
  poll_le s := q.poll_le s.pool
  poll_length s := q.poll_length s.pool
  poll_rest s := q.poll_rest s.pool

/-- The channel of a site whose user calls `q` while the others act on `others`. -/
def channel (q others : Queue σ) : Channel (Site σ) where
  toQueue := queue q
  cancelled s := s.cancelled
  reachable s := !s.abandoned
  await := await q others
  patience := patience
  offer_settles s src _ _ _ := await_settles q others { s with pool := (q.offer s.pool src).state }
  poll_settles s dst _ _ _ := await_settles q others { s with pool := (q.poll s.pool dst).state }

end Site

end EntropySupply
