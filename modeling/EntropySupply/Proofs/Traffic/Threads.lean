import EntropySupply.Interruption
import EntropySupply.Proofs.Ring.Frame

/-!
# Threads on one ring

Senders that each run a blocking write on a source of their own, and takers that poll, over one
ring. An attempt of a sender is taken apart into its look at the ring's end, its reservation, its
copy and its commit, and a poll into its claim, its copy and its release; between any two of these
every other thread may act. A thread that would have to wait for another one stays where it is.
-/

namespace EntropySupply.Ring

/-- Where a sender stands in its blocking write. -/
inductive Sending where
  | ready
  /-- About to look whether the ring is closed, as the first thing in an offer. -/
  | offering
  | reserving
  | filling (holding : ℕ) (span : Span)
  | committing (holding : ℕ) (span : Span)
  /-- The offer moved nothing. -/
  | refused
  | returned (stopped : Option Interruption)
  deriving DecidableEq, Repr

structure Sender where
  source : Bytes
  /-- The token that calls the write off; senders may share one. -/
  token : ℕ := 0
  written : ℕ := 0
  phase : Sending := .ready
  deriving DecidableEq, Repr

namespace Sender

def rest (s : Sender) : Bytes := s.source.drop s.written

def holding? (s : Sender) : Option ℕ :=
  match s.phase with
  | .filling i _ => some i
  | .committing i _ => some i
  | _ => none

end Sender

/-- Where a taker stands in its polls. -/
inductive Taking where
  | idle
  | copying (holding : ℕ)
  | releasing (holding : ℕ)
  deriving DecidableEq, Repr

def Taking.holding? : Taking → Option ℕ
  | .idle => none
  | .copying i => some i
  | .releasing i => some i

/-- What can happen next: a thread goes on, the ring is closed, or a token is fired. -/
inductive Event (ι κ : Type) where
  | send (i : ι)
  /-- A taker that is idle begins a poll into a buffer of that length. -/
  | take (j : κ) (length : ℕ)
  | close
  | cancel (token : ℕ)

structure Traffic (c : Capacity) (ι κ : Type) where
  history : History c
  senders : ι → Sender
  takers : κ → Taking
  /-- The tokens that have been fired. -/
  fired : List ℕ := []
  /-- The published reservations in the order of their commits: who copied what in. -/
  published : List (ι × Bytes) := []

namespace Traffic

variable {c : Capacity} {ι κ : Type} [DecidableEq ι] [DecidableEq κ]

def start (c : Capacity) (rule : CommitRule) (sources : ι → Bytes) (tokens : ι → ℕ) :
    Traffic c ι κ where
  history := .start c rule
  senders i := { source := sources i, token := tokens i }
  takers _ := .idle

def ring (t : Traffic c ι κ) : Ring c := t.history.session.ring

def fresh (t : Traffic c ι κ) : ℕ := t.history.session.holdings.length

def answer (t : Traffic c ι κ) (step : Step) : Answer := (t.history.session.step step).1

/-- Sender `i` goes on as `s`, with the session one step further if there is a step. -/
def sender (t : Traffic c ι κ) (i : ι) (s : Sender) (step : Option Step := none) : Traffic c ι κ :=
  { t with
    history := step.elim t.history t.history.next
    senders := Function.update t.senders i s }

def taker (t : Traffic c ι κ) (j : κ) (phase : Taking) (step : Step) : Traffic c ι κ :=
  { t with
    history := t.history.next step
    takers := Function.update t.takers j phase }

def send (t : Traffic c ι κ) (i : ι) : Traffic c ι κ :=
  let s := t.senders i
  match s.phase with
  | .ready =>
    if s.rest = [] then t.sender i { s with phase := .returned none }
    else if s.token ∈ t.fired then
      t.sender i { s with phase := .returned (some (.cancelled s.written)) }
    else t.sender i { s with phase := .offering }
  | .offering => t.sender i { s with phase := if t.ring.closed then .refused else .reserving }
  | .reserving =>
    let step := .reserve (request c s.rest.length)
    match t.answer step with
    | .granted span => t.sender i { s with phase := .filling t.fresh span } step
    | _ => t.sender i { s with phase := .refused }
  | .filling k span =>
    t.sender i { s with phase := .committing k span } (some (.put k (s.rest.take span.length.toNat)))
  | .committing k span =>
    match t.answer (.commit k) with
    | .ended .published =>
      { t.sender i { s with written := s.written + span.length.toNat, phase := .ready }
          (some (.commit k)) with
        published := t.published ++ [(i, t.history.ledger.draft k)] }
    | .ended .retracted => t.sender i { s with phase := .refused } (some (.commit k))
    | _ => t
  | .refused =>
    if t.ring.closed then t.sender i { s with phase := .returned (some (.closed s.written)) }
    else t.sender i { s with phase := .ready }
  | .returned _ => t

def take (t : Traffic c ι κ) (j : κ) (length : ℕ) : Traffic c ι κ :=
  match t.takers j with
  | .idle =>
    if length = 0 then t
    else
      let step := .claim (request c length)
      match t.answer step with
      | .granted _ => t.taker j (.copying t.fresh) step
      | _ => t
  | .copying k => t.taker j (.releasing k) (.get k)
  | .releasing k =>
    match t.answer (.release k) with
    | .done => t.taker j .idle (.release k)
    | _ => t

def next (t : Traffic c ι κ) : Event ι κ → Traffic c ι κ
  | .send i => t.send i
  | .take j length => t.take j length
  | .close => { t with history := t.history.next .close }
  | .cancel token => { t with fired := token :: t.fired }

def run (t : Traffic c ι κ) (events : List (Event ι κ)) : Traffic c ι κ := events.foldl next t

def publishedBy (t : Traffic c ι κ) (i : ι) : Bytes :=
  ((t.published.filter fun x => x.1 = i).map Prod.snd).flatten

/-- The bytes of the takers' claims in their order. -/
def taken (t : Traffic c ι κ) : Bytes := t.history.taken

def waiting (t : Traffic c ι κ) : Bytes := t.ring.load t.ring.unclaimed

end Traffic

end EntropySupply.Ring
