import EntropySupply.Ring.Audit

/-!
# Sessions on a ring

A ring together with the spans that its users hold, and the steps that users can take in any order.
Holdings are numbered in the order in which they are granted, to writers and readers alike, and are
given up by their commit or release. A step that would have to wait for another user is not taken.
-/

namespace EntropySupply.Ring

inductive Holding where
  | writing (span : Span)
  | reading (span : Span)
  deriving DecidableEq, Repr

structure Session (c : Capacity) where
  ring : Ring c
  /-- The holdings granted so far; one that was given up has left its place empty. -/
  holdings : List (Option Holding) := []

inductive Step where
  | reserve (want : UInt64)
  | claim (want : UInt64)
  /-- Copies the first bytes of `src` into a writer's span, as many as it has room for. -/
  | put (holding : Nat) (src : Bytes)
  | get (holding : Nat)
  | commit (holding : Nat)
  | release (holding : Nat)
  | offer (src : Bytes)
  | poll (dst : Bytes)
  | close
  deriving DecidableEq, Repr

inductive Answer where
  | done
  | refused
  | granted (span : Span)
  | copied (count : Nat)
  | got (bytes : Bytes)
  | ended (how : Commit)
  | accepted (count : Nat)
  | delivered (count : Nat) (buffer : Bytes)
  /-- There is no such holding, it was given up, or it is of the other kind. -/
  | notHeld
  | wouldBlock
  deriving DecidableEq, Repr

namespace Session

variable {c : Capacity}

def start (c : Capacity) (rule : CommitRule) : Session c where
  ring := .empty c rule

def held? (s : Session c) (i : Nat) : Option Holding := (s.holdings[i]?).join

def grant (s : Session c) (holding : Holding) (ring : Ring c) : Session c :=
  { ring, holdings := s.holdings ++ [some holding] }

def giveUp (s : Session c) (i : Nat) (ring : Ring c) : Session c :=
  { ring, holdings := s.holdings.set i none }

/-- Whether an offer made now, whatever it offers, may have to wait for another writer. -/
def offerWaits (r : Ring c) : Bool := r.rule == .wait && r.committed != r.reserved

/-- Whether a poll made now may have to wait for another reader. -/
def pollWaits (r : Ring c) : Bool := r.released != r.claimed

/-- One step of some user: the answer, what was reported, and the session after it. -/
def step (s : Session c) : Step → Answer × List Notice × Session c
  | .reserve want =>
    match s.ring.reserve? want with
    | none => (.refused, [], s)
    | some (span, ring) => (.granted span, [], s.grant (.writing span) ring)
  | .claim want =>
    match s.ring.claim? want with
    | none => (.refused, [], s)
    | some (span, ring) => (.granted span, [], s.grant (.reading span) ring)
  | .put i src =>
    match s.held? i with
    | some (.writing span) =>
      let part := src.take span.length.toNat
      (.copied part.length, [], { s with ring := s.ring.store span.start part })
    | _ => (.notHeld, [], s)
  | .get i =>
    match s.held? i with
    | some (.reading span) => (.got (s.ring.load span), [], s)
    | _ => (.notHeld, [], s)
  | .commit i =>
    match s.held? i with
    | some (.writing span) =>
      match s.ring.commit? span with
      | none => (.wouldBlock, [], s)
      | some (.published, ring) => (.ended .published, [], s.giveUp i ring)
      | some (.retracted, ring) =>
        (.ended .retracted, [retractionNotice span], s.giveUp i ring)
    | _ => (.notHeld, [], s)
  | .release i =>
    match s.held? i with
    | some (.reading span) =>
      match s.ring.release? span with
      | none => (.wouldBlock, [], s)
      | some ring => (.done, [], s.giveUp i ring)
    | _ => (.notHeld, [], s)
  | .offer src =>
    if offerWaits s.ring then (.wouldBlock, [], s)
    else match s.ring.offer? src with
      | none => (.wouldBlock, [], s)
      | some (n, ns, ring) => (.accepted n, ns, { s with ring })
  | .poll dst =>
    if pollWaits s.ring then (.wouldBlock, [], s)
    else match s.ring.poll? dst with
      | none => (.wouldBlock, [], s)
      | some (n, buffer, ring) => (.delivered n buffer, [], { s with ring })
  | .close => (.done, [], { s with ring := s.ring.close })

def run (s : Session c) (steps : List Step) : Session c :=
  steps.foldl (fun s step => (s.step step).2.2) s

end Session

end EntropySupply.Ring
