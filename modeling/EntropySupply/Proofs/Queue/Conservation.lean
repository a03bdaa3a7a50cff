import EntropySupply.Proofs.Queue.Fifo
import EntropySupply.Proofs.Queue.Recording
import EntropySupply.Queue.Operation

/-!
# Conservation of bytes at a site

Whatever its users call and whatever the others do while they wait, a site with a ring in any layers
loses no byte and makes none up. Main statement: after any operations all accepted bytes, in the
order of time, are all delivered bytes followed by those in the ring, and every call says exactly
what it moved.
-/

namespace EntropySupply

namespace Channel

variable {σ : Type} {ch : Channel σ} {acted : σ → Bytes × Bytes} {Contains : σ → Bytes → Prop}

/-- A channel whose calls and waits keep what its state contains in order. -/
structure Conserves (ch : Channel σ) (acted : σ → Bytes × Bytes) (Contains : σ → Bytes → Prop) :
    Prop where
  fifo : ch.toQueue.Fifo Contains
  await : ∀ {s text}, Contains s text →
    ∃ rest, text ++ (acted s).1 = (acted s).2 ++ rest ∧ Contains (ch.await s) rest

end Channel

namespace Recorded

variable {σ : Type} {ch : Channel σ} {acted : σ → Bytes × Bytes} {Contains : σ → Bytes → Prop}

def newCall (r : Recorded σ) : Recorded σ := { r with sent := [], got := [] }

/-- Whatever was accepted has been delivered or is still there, in this order. -/
def Balanced (Contains : σ → Bytes → Prop) (r : Recorded σ) : Prop :=
  ∃ text, Contains r.state text ∧ r.accepted = r.delivered ++ text

theorem preserves_balanced (h : ch.Conserves acted Contains) :
    (ch.recorded acted).Preserves (Balanced Contains) where
  offer := by
    rintro r src ⟨text, hs, hb⟩
    refine ⟨_, h.fifo.offer src hs, ?_⟩
    simp only [Channel.recorded]
    rw [hb, List.append_assoc]
  poll := by
    rintro r dst ⟨text, hs, hb⟩
    obtain ⟨rest, rfl, hrest⟩ := h.fifo.poll dst hs
    refine ⟨rest, hrest, ?_⟩
    simp only [Channel.recorded]
    rw [hb, List.append_assoc]
  await := by
    rintro r ⟨text, hs, hb⟩
    obtain ⟨rest, htext, hrest⟩ := h.await hs
    refine ⟨rest, hrest, ?_⟩
    simp only [Channel.recorded]
    rw [hb, List.append_assoc, List.append_assoc, htext]

end Recorded

namespace Site

variable {σ : Type}

/-- The bytes that an act has accepted, and those that it takes. -/
def actMoves (others : Queue σ) (s : σ) : Act → Bytes × Bytes
  | .poll n =>
    let m := others.poll s (List.replicate n 0)
    ([], m.buffer.take m.count)
  | .offer src => (src.take (others.offer s src).count, [])
  | _ => ([], [])

/-- The bytes that the others move while a transfer waits. -/
def acted (queue others : Queue σ) (s : Site σ) : Bytes × Bytes :=
  if queue.isClosed s.pool then ([], [])
  else match s.schedule with
    | [] => ([], [])
    | act :: _ => actMoves others s.pool act

variable {q others : Queue σ} {Contains : σ → Bytes → Prop}

theorem perform_contains (ho : others.Fifo Contains) {s : Site σ} {text : Bytes}
    (hs : Contains s.pool text) (act : Act) :
    ∃ rest, text ++ (actMoves others s.pool act).1 = (actMoves others s.pool act).2 ++ rest ∧
      Contains (perform others s act).pool rest := by
  cases act with
  | poll n =>
    obtain ⟨rest, htext, hrest⟩ := ho.poll (List.replicate n 0) hs
    exact ⟨rest, (List.append_nil text).trans htext, hrest⟩
  | offer src => exact ⟨_, rfl, ho.offer src hs⟩
  | close => exact ⟨text, List.append_nil text, ho.close hs⟩
  | _ => exact ⟨text, List.append_nil text, hs⟩

theorem conserves_channel (hq : q.Fifo Contains) (ho : others.Fifo Contains) :
    (channel q others).Conserves (acted q others) fun s text => Contains s.pool text where
  fifo :=
    { offer := fun src hs => hq.offer src hs
      poll := fun dst hs => hq.poll dst hs
      close := fun hs => hq.close hs }
  await := by
    intro s text hs
    change ∃ rest, _ ∧ Contains (await q others s).pool rest
    unfold await acted
    split_ifs
    · exact ⟨text, List.append_nil text, hs⟩
    · cases hsched : s.schedule with
      | nil => exact ⟨text, List.append_nil text, hs⟩
      | cons act rest =>
        have hp := perform_contains ho (s := { s with schedule := rest }) hs act
        cases act with
        | idle times =>
          dsimp only
          split_ifs <;> exact hp
        | _ => exact hp

end Site

namespace Operation

def source : Operation → Bytes
  | .offer src | .write src | .feed src | .feedGone src | .writeRing src => src
  | _ => []

def buffer : Operation → Bytes
  | .poll dst | .read dst | .readRing dst => dst
  | _ => []

end Operation

namespace Outcome

def moved (length : ℕ) : Outcome → ℕ
  | .done => 0
  | .accepted n => n
  | .delivered n _ => n
  | .sent stopped => Channel.movedUntil length stopped
  | .received stopped _ => Channel.movedUntil length stopped

def buffer : Outcome → Bytes
  | .delivered _ b => b
  | .received _ b => b
  | _ => []

end Outcome

namespace Recorded

variable {c : Capacity}

def channel (q : Queue (Pool c)) : Channel (Recorded (Site (Pool c))) :=
  (Site.channel q Pool.bare).recorded (Site.acted q Pool.bare)

/-- Does one operation and takes down what moves; a new call has moved nothing. -/
def operate (q : Queue (Pool c)) (r : Recorded (Site (Pool c))) (op : Operation) :
    Outcome × Recorded (Site (Pool c)) :=
  let r := r.newCall
  match op with
  | .offer src =>
    let m := (channel q).offer r src
    (.accepted m.count, m.state)
  | .poll dst =>
    let m := (channel q).poll r dst
    (.delivered m.count m.buffer, m.state)
  | .write src =>
    let m := (channel q).write r src
    (.sent m.stopped, m.state)
  | .read dst =>
    let m := (channel q).read r dst
    (.received m.stopped m.buffer, m.state)
  | .feed src =>
    let m := (channel q).feed r src
    (.accepted m.count, m.state)
  | .feedGone src =>
    let m := (channel q).feed { r with state := { r.state with abandoned := true } } src
    (.accepted m.count,
      { m.state with state := { m.state.state with abandoned := r.state.abandoned } })
  | .writeRing src =>
    let m := (channel Pool.bare).write r src
    (.sent m.stopped, m.state)
  | .readRing dst =>
    let m := (channel Pool.bare).read r dst
    (.received m.stopped m.buffer, m.state)
  | .close => (.done, (channel q).close r)
  | .cancel => (.done, { r with state := { r.state with cancelled := true } })
  | .resume => (.done, { r with state := { r.state with cancelled := false } })

def run (q : Queue (Pool c)) (r : Recorded (Site (Pool c))) (ops : List Operation) :
    Recorded (Site (Pool c)) :=
  ops.foldl (fun r op => (r.operate q op).2) r

variable {q : Queue (Pool c)} {r : Recorded (Site (Pool c))}

/-- Taking down what moves changes nothing else. -/
theorem operate_state (q : Queue (Pool c)) (r : Recorded (Site (Pool c))) (op : Operation) :
    (r.operate q op).1 = (r.state.operateOn q op).1 ∧
      (r.operate q op).2.state = (r.state.operateOn q op).2 := by
  cases op with
  | write src =>
    obtain ⟨hstopped, hstate⟩ := Channel.writeFrom_recorded (Site.channel q Pool.bare)
      (Site.acted q Pool.bare) 0 r.newCall src
    exact ⟨congrArg Outcome.sent hstopped, hstate⟩
  | writeRing src =>
    obtain ⟨hstopped, hstate⟩ := Channel.writeFrom_recorded (Site.channel Pool.bare Pool.bare)
      (Site.acted Pool.bare Pool.bare) 0 r.newCall src
    exact ⟨congrArg Outcome.sent hstopped, hstate⟩
  | read dst =>
    obtain ⟨hstopped, hbuffer, hstate⟩ := Channel.readFrom_recorded (Site.channel q Pool.bare)
      (Site.acted q Pool.bare) 0 r.newCall dst
    exact ⟨congrArg₂ Outcome.received hstopped hbuffer, hstate⟩
  | readRing dst =>
    obtain ⟨hstopped, hbuffer, hstate⟩ :=
      Channel.readFrom_recorded (Site.channel Pool.bare Pool.bare)
        (Site.acted Pool.bare Pool.bare) 0 r.newCall dst
    exact ⟨congrArg₂ Outcome.received hstopped hbuffer, hstate⟩
  | feed src =>
    obtain ⟨hcount, hstate⟩ := Channel.feedFrom_recorded (Site.channel q Pool.bare)
      (Site.acted q Pool.bare) 0 r.newCall src
    exact ⟨congrArg Outcome.accepted hcount, hstate⟩
  | feedGone src =>
    obtain ⟨hcount, hstate⟩ := Channel.feedFrom_recorded (Site.channel q Pool.bare)
      (Site.acted q Pool.bare) 0
      { r.newCall with state := { r.state with abandoned := true } } src
    refine ⟨congrArg Outcome.accepted hcount, ?_⟩
    exact congrArg (fun s : Site (Pool c) => { s with abandoned := r.state.abandoned }) hstate
  | _ => exact ⟨rfl, rfl⟩

theorem run_state (q : Queue (Pool c)) (r : Recorded (Site (Pool c))) (ops : List Operation) :
    (r.run q ops).state = r.state.runOn q ops := by
  induction ops generalizing r with
  | nil => rfl
  | cons op ops ih =>
    have hop := (operate_state q r op).2
    exact (ih (r.operate q op).2).trans (congrArg (fun s => s.runOn q ops) hop)

/-- What the ring of a site contains. -/
def Holds (s : Site (Pool c)) (text : Bytes) : Prop := s.pool.Contains text

theorem channel_preserves (hq : q.Fifo Pool.Contains) :
    (channel q).Preserves (Balanced Holds) :=
  preserves_balanced (Site.conserves_channel hq Pool.bare_fifo)

theorem operate_balanced (hq : q.Fifo Pool.Contains) (hr : r.Balanced Holds) (op : Operation) :
    (r.operate q op).2.Balanced Holds := by
  have hch := channel_preserves hq
  have hring := channel_preserves (Pool.bare_fifo (c := c))
  obtain ⟨text, hs, hb⟩ := hr
  have hcall : Balanced Holds r.newCall := ⟨text, hs, hb⟩
  cases op with
  | offer src => exact hch.offer src hcall
  | poll dst => exact hch.poll dst hcall
  | write src => exact hch.writeFrom 0 src hcall
  | read dst => exact hch.readFrom 0 dst hcall
  | feed src => exact hch.feedFrom 0 src hcall
  | feedGone src =>
    have hgone : Balanced Holds
        { r.newCall with state := { r.state with abandoned := true } } :=
      ⟨text, hs, hb⟩
    exact hch.feedFrom 0 src hgone
  | writeRing src => exact hring.writeFrom 0 src hcall
  | readRing dst => exact hring.readFrom 0 dst hcall
  | close => exact ⟨text, hq.close hs, hb⟩
  | cancel => exact ⟨text, hs, hb⟩
  | resume => exact ⟨text, hs, hb⟩

theorem run_balanced (hq : q.Fifo Pool.Contains) (hr : r.Balanced Holds) (ops : List Operation) :
    (r.run q ops).Balanced Holds := by
  induction ops generalizing r with
  | nil => exact hr
  | cons op ops ih => exact ih (operate_balanced hq hr op)

/-- A call says what it moved: a front part of its source was accepted or of its buffer filled, and
the rest of the buffer is as it was. -/
structure Accounted (op : Operation) (outcome : Outcome) (n : ℕ) (r : Recorded (Site (Pool c))) :
    Prop where
  moved : outcome.moved (op.source.length + op.buffer.length) = n
  le : n ≤ op.source.length + op.buffer.length
  sent : r.sent = op.source.take n
  got : r.got = outcome.buffer.take n
  length : outcome.buffer.length = op.buffer.length
  untouched : outcome.buffer.drop n = op.buffer.drop n

theorem accounted_of_sent {before after : Recorded (Site (Pool c))} {op : Operation}
    {outcome : Outcome} {n : ℕ} (hbefore : before.sent = [] ∧ before.got = [])
    (h : Channel.SentFront before after op.source n) (hop : op.buffer = [])
    (hout : outcome.buffer = []) (hmoved : outcome.moved op.source.length = n) :
    Accounted op outcome n after where
  moved := by simpa [hop] using hmoved
  le := by simpa [hop] using h.le
  sent := by rw [h.sent, hbefore.1, List.nil_append]
  got := by rw [h.got, hbefore.2, hout, List.take_nil]
  length := by rw [hop, hout]
  untouched := by rw [hop, hout]

theorem accounted_of_got {before after : Recorded (Site (Pool c))} {op : Operation}
    {outcome : Outcome} {n : ℕ} (hbefore : before.sent = [] ∧ before.got = [])
    (h : Channel.GotFront before after op.buffer outcome.buffer n) (hop : op.source = [])
    (hmoved : outcome.moved op.buffer.length = n) : Accounted op outcome n after where
  moved := by simpa [hop] using hmoved
  le := by simpa [hop] using h.le
  sent := by rw [h.sent, hbefore.1, hop, List.take_nil]
  got := by rw [h.got, hbefore.2, List.nil_append]
  length := h.length
  untouched := h.untouched

theorem write_accounted (q : Queue (Pool c)) {r : Recorded (Site (Pool c))}
    (hnew : r.sent = [] ∧ r.got = []) (op : Operation) (hop : op.buffer = []) :
    ∃ n, Accounted op (.sent ((channel q).write r op.source).stopped) n
      ((channel q).write r op.source).state := by
  obtain ⟨n, hn, hmoved⟩ :=
    Channel.writeFrom_sent (Site.channel q Pool.bare) (Site.acted q Pool.bare) 0 r op.source
  rw [Nat.zero_add, Nat.zero_add] at hmoved
  exact ⟨n, accounted_of_sent hnew hn hop rfl hmoved⟩

theorem feed_accounted (q : Queue (Pool c)) {r : Recorded (Site (Pool c))}
    (hnew : r.sent = [] ∧ r.got = []) (op : Operation) (hop : op.buffer = []) :
    ∃ n, Accounted op (.accepted ((channel q).feed r op.source).count) n
      ((channel q).feed r op.source).state := by
  obtain ⟨n, hn, hmoved⟩ :=
    Channel.feedFrom_sent (Site.channel q Pool.bare) (Site.acted q Pool.bare) 0 r op.source
  rw [Nat.zero_add] at hmoved
  exact ⟨n, accounted_of_sent hnew hn hop rfl hmoved⟩

theorem read_accounted (q : Queue (Pool c)) {r : Recorded (Site (Pool c))}
    (hnew : r.sent = [] ∧ r.got = []) (op : Operation) (hop : op.source = []) :
    ∃ n, Accounted op
      (.received ((channel q).read r op.buffer).stopped ((channel q).read r op.buffer).buffer) n
      ((channel q).read r op.buffer).state := by
  obtain ⟨n, hn, hmoved⟩ :=
    Channel.readFrom_got (Site.channel q Pool.bare) (Site.acted q Pool.bare) 0 r op.buffer
  rw [Nat.zero_add, Nat.zero_add] at hmoved
  exact ⟨n, accounted_of_got hnew hn hop hmoved⟩

theorem operate_accounted (q : Queue (Pool c)) (r : Recorded (Site (Pool c))) (op : Operation) :
    ∃ n, Accounted op (r.operate q op).1 n (r.operate q op).2 := by
  have hnew : r.newCall.sent = [] ∧ r.newCall.got = [] := ⟨rfl, rfl⟩
  cases op with
  | offer src =>
    have hsent : Channel.SentFront r.newCall
        (r.operate q (.offer src)).2 src _ :=
      ⟨(channel q).offer_le r.newCall src, rfl, rfl⟩
    exact ⟨_, accounted_of_sent hnew hsent rfl rfl rfl⟩
  | poll dst =>
    have hgot : Channel.GotFront r.newCall (r.operate q (.poll dst)).2 dst
        (r.operate q (.poll dst)).1.buffer _ :=
      ⟨(channel q).poll_le r.newCall dst,
        (channel q).poll_length r.newCall dst, rfl,
        (channel q).poll_rest r.newCall dst, rfl⟩
    exact ⟨_, accounted_of_got hnew hgot rfl rfl⟩
  | write src => exact write_accounted q hnew (.write src) rfl
  | writeRing src => exact write_accounted Pool.bare hnew (.writeRing src) rfl
  | read dst => exact read_accounted q hnew (.read dst) rfl
  | readRing dst => exact read_accounted Pool.bare hnew (.readRing dst) rfl
  | feed src => exact feed_accounted q hnew (.feed src) rfl
  | feedGone src =>
    obtain ⟨n, hn⟩ := feed_accounted q
      (r := { r.newCall with state := { r.state with abandoned := true } }) hnew (.feedGone src) rfl
    exact ⟨n, hn.moved, hn.le, hn.sent, hn.got, hn.length, hn.untouched⟩
  | _ => exact ⟨0, rfl, Nat.zero_le _, rfl, rfl, rfl, rfl⟩

/-- What the recording of a run shows, next to the state `s` that the run itself has come to. -/
structure Reconciled (q : Queue (Pool c)) (s : Site (Pool c)) (r : Recorded (Site (Pool c))) :
    Prop where
  state_eq : r.state = s
  conserved : r.accepted = r.delivered ++ s.pool.ring.load s.pool.ring.unclaimed
  outcome_eq : ∀ op, (r.operate q op).1 = (s.operateOn q op).1
  accounted : ∀ op, ∃ n, Accounted op (s.operateOn q op).1 n (r.operate q op).2

/-- However a ring is layered, whatever its users do and whatever happens while they wait, no byte
is lost or made up, and every call accounts for what it moved. -/
theorem run_reconciled {q : Queue (Pool c)} (hq : Pool.Stack q) {rule : CommitRule}
    {s : Site (Pool c)} (hs : s.pool.ring = .empty c rule) (ops : List Operation) :
    Reconciled q (s.runOn q ops) (run q { state := s } ops) := by
  have hstate := run_state q { state := s } ops
  have hstart : Balanced Holds ({ state := s } : Recorded (Site (Pool c))) := by
    refine ⟨[], ?_, rfl⟩
    unfold Holds Pool.Contains
    rw [hs]
    exact Ring.contains_empty c rule
  obtain ⟨text, htext, hb⟩ := run_balanced hq.fifo hstart ops
  have houtcome : ∀ op, ((run q { state := s } ops).operate q op).1 =
      ((s.runOn q ops).operateOn q op).1 := by
    intro op
    rw [(operate_state q _ op).1, hstate]
  refine ⟨hstate, ?_, houtcome, fun op => ?_⟩
  · rw [hb, ← hstate]
    congr 1
    exact htext.load_unclaimed.symm
  · rw [← houtcome op]
    exact operate_accounted q _ op

/-- A fair layer around a layer with caps around four slots. -/
def narrow : List Layer := [.fair .full ⟨2, 2⟩, .capped [1, 0, 3]]

theorem run_reconciled_narrow :
    Reconciled (Pool.layered narrow)
      (Site.run narrow
        { pool := .ofRing (.empty ⟨2, by decide⟩ .abandon) narrow
          schedule := [.poll 2, .offer [9], .idle 2, .close] }
        [.write [1, 2, 3, 4, 5, 6], .poll [0, 0], .cancel, .feed [7], .readRing [0, 0, 0]])
      (run (Pool.layered narrow)
        { state :=
            { pool := .ofRing (.empty ⟨2, by decide⟩ .abandon) narrow
              schedule := [.poll 2, .offer [9], .idle 2, .close] } }
        [.write [1, 2, 3, 4, 5, 6], .poll [0, 0], .cancel, .feed [7], .readRing [0, 0, 0]]) :=
  run_reconciled (Pool.stack_layered narrow) rfl _

end Recorded

end EntropySupply
