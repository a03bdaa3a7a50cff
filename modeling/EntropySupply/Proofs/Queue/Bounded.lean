import EntropySupply.Proofs.Queue.Conservation
import EntropySupply.Proofs.Queue.Turns

/-!
# Rings as bounded queues

To one user at a time, a ring in fair queues is a list of bytes that holds so many of them and moves
so many in one call. The most that a call moves is worked out from the limits of the layers. Main
statement: `layered_bounded`, calls one after another have the outcomes that they have on the list,
wherever the positions of the ring stand.
-/

namespace EntropySupply

inductive Call where
  | offer (src : Bytes)
  | poll (dst : Bytes)
  | close
  deriving DecidableEq, Repr

namespace Queue

variable {σ : Type}

def call (q : Queue σ) (s : σ) : Call → Outcome × σ
  | .offer src =>
    let m := q.offer s src
    (.accepted m.count, m.state)
  | .poll dst =>
    let m := q.poll s dst
    (.delivered m.count m.buffer, m.state)
  | .close => (.done, q.close s)

def calls (q : Queue σ) : σ → List Call → List Outcome × σ
  | s, [] => ([], s)
  | s, call :: rest =>
    let m := q.call s call
    let r := q.calls m.2 rest
    (m.1 :: r.1, r.2)

end Queue

/-- Bytes in their order, and whether no more are taken in. -/
structure Backlog where
  text : Bytes := []
  closed : Bool := false
  deriving DecidableEq, Repr

/-- A list of at most `size` bytes, to which one call adds at most `offers` bytes at the end, and
from which one call removes at most `polls` bytes in front. -/
def Queue.bounded (size offers polls : ℕ) : Queue Backlog where
  capacity _ := size
  offer b src :=
    let n := if b.closed then 0 else min (min src.length offers) (size - b.text.length)
    ⟨n, { b with text := b.text ++ src.take n }⟩
  poll b dst :=
    let n := min (min dst.length polls) b.text.length
    ⟨n, b.text.take n ++ dst.drop n, { b with text := b.text.drop n }⟩
  close b := { b with closed := true }
  isClosed b := b.closed
  offer_le b src := by
    dsimp only
    split_ifs <;> omega
  poll_le b dst := by
    dsimp only
    omega
  poll_length b dst := by
    simp only [List.length_append, List.length_take, List.length_drop]
    omega
  poll_rest b dst := by
    dsimp only
    rw [List.drop_left' (by rw [List.length_take]; omega)]

/-- The most bytes that one call moves through fair layers around a ring; `locks` says which of them
take turns in its direction. -/
def Layer.most (c : Capacity) (locks : Arrangement → Bool) : List Layer → ℕ
  | [] => c.size
  | .fair a l :: inner =>
    if locks a then min (min l.maxBytes.toNat (l.maxCalls.toNat * most c locks inner)) c.size
    else most c locks inner
  | .capped _ :: inner => most c locks inner

namespace Queue

variable {σ : Type} {step : σ → Bytes → Delivered σ} {Good : σ → Prop} {room : σ → ℕ} {most n m : ℕ}
  {s s₁ s₂ : σ}

/-- A good state has been left for another one, and `n` bytes of its room are used up. -/
structure Spends (Good : σ → Prop) (room : σ → ℕ) (s : σ) (n : ℕ) (s₁ : σ) : Prop where
  good : Good s₁
  room_eq : room s₁ = room s - n

theorem Spends.none (h : Good s) : Spends Good room s 0 s := ⟨h, rfl⟩

theorem Spends.append (h : Spends Good room s n s₁) (h₁ : Spends Good room s₁ m s₂) :
    Spends Good room s (n + m) s₂ :=
  ⟨h₁.good, by rw [h₁.room_eq, h.room_eq, Nat.sub_sub]⟩

/-- Calls that each move what they are given, up to `most` bytes, as far as there is room. -/
structure Metered (step : σ → Bytes → Delivered σ) (Good : σ → Prop) (room : σ → ℕ) (most : ℕ) :
    Prop where
  count : ∀ {s} (w), Good s → (step s w).count = min (min w.length most) (room s)
  spends : ∀ {s} (w), Good s → Spends Good room s (step s w).count (step s w).state

namespace Metered

/-- A turn moves what its calls could move if there were no end to the bytes and the room. -/
theorem turn_moved (h : Metered step Good room most)
    (hlen : ∀ s w, (step s w).buffer.length = w.length) (limit : ℕ) {s : σ} (hs : Good s)
    (w : Bytes) :
    (turn step limit s w).moved = min (min w.length (limit * most)) (room s) := by
  induction limit generalizing s w with
  | zero =>
    rw [Nat.zero_mul, Nat.min_zero, Nat.zero_min]
    rfl
  | succ limit ih =>
    have hcount := h.count w hs
    rw [Nat.succ_mul]
    unfold turn
    dsimp only
    split_ifs with hempty hnone
    · rw [List.isEmpty_iff.mp hempty, List.length_nil, Nat.zero_min, Nat.zero_min]
    · have hw : 0 < w.length := by
        rw [List.length_pos_iff, ← List.isEmpty_eq_false_iff]
        exact Bool.eq_false_of_not_eq_true hempty
      -- A call that moves nothing found no room, unless it could not move a byte anyway.
      rcases Nat.eq_zero_or_pos most with rfl | hmost
      · dsimp only
        omega
      · dsimp only
        omega
    · dsimp only
      rw [ih (h.spends w hs).good, (h.spends w hs).room_eq, List.length_drop, hlen]
      omega

theorem turn_spends (h : Metered step Good room most) (limit : ℕ) {s : σ} (hs : Good s)
    (w : Bytes) :
    Spends Good room s (turn step limit s w).moved (turn step limit s w).state := by
  induction limit generalizing s w with
  | zero => exact .none hs
  | succ limit ih =>
    have hcall := h.spends w hs
    unfold turn
    dsimp only
    split_ifs with hempty hnone
    · exact .none hs
    · rw [hnone] at hcall
      exact hcall
    · exact hcall.append (ih hcall.good _)

variable [Journal σ]

theorem fairTurn (h : Metered step Good room most)
    (hlen : ∀ s w, (step s w).buffer.length = w.length)
    (hnote : ∀ n {s s₁}, Spends Good room s n s₁ → ∀ note,
      Spends Good room s n (Journal.note note s₁))
    {q : Queue σ} {size : ℕ} (hsize : ∀ s, q.capacity s = size) (l : TurnBounds)
    (direction : String) :
    Metered (q.fairTurn l direction step) Good room
      (min (min l.maxBytes.toNat (l.maxCalls.toNat * most)) size) where
  count := by
    intro s w hs
    change (turn step l.maxCalls.toNat s (w.take (q.turnBudget l s w.length))).moved = _
    rw [h.turn_moved hlen _ hs, List.length_take, turnBudget, hsize]
    omega
  spends := by
    intro s w hs
    have hturn := h.turn_spends l.maxCalls.toNat hs (w.take (q.turnBudget l s w.length))
    simp only [Queue.fairTurn]
    split_ifs
    · exact hnote _ hturn _
    · exact hturn

end Metered

end Queue

namespace Pool

variable {c : Capacity} {q : Queue (Pool c)} {closed : Bool} {low offers polls : ℕ} {p : Pool c}
  {b : Backlog}

open Queue (Metered Spends)

/-- No span of the ring is out, and its readers have handed back all positions before `low`. -/
structure Quiet (closed : Bool) (low : ℕ) (p : Pool c) : Prop where
  sound : p.ring.Sound [] []
  closed_eq : p.ring.closed = closed
  low_le : low ≤ p.ring.released.toNat

/-- A queue around a ring whose calls move at most so many bytes each. -/
structure Meters (q : Queue (Pool c)) (offers polls : ℕ) : Prop where
  offer : ∀ closed low, Metered q.offerStep (Quiet closed low) (fun p => p.ring.room) offers
  poll : ∀ closed low, Metered q.poll (Quiet closed low) (fun p => p.ring.stock) polls

theorem bare_meters : Meters (bare : Queue (Pool c)) c.size c.size where
  offer := by
    intro closed low
    constructor
    · intro p src hp
      have hle := p.ring.room_le_space.trans hp.sound.space_le
      simp only [Queue.offerStep, bare_offer hp.sound]
      omega
    · intro p src hp
      have hlen : (src.take (min src.length p.ring.room)).length = min src.length p.ring.room :=
        List.length_take_of_le (Nat.min_le_left _ _)
      have hroom := hlen.trans_le (Nat.min_le_right _ _)
      simp only [Queue.offerStep, bare_offer hp.sound]
      refine ⟨⟨Ring.quiet_push hp.sound hroom, hp.closed_eq, hp.low_le⟩, ?_⟩
      rw [Ring.room_push hroom, hlen]
  poll := by
    intro closed low
    constructor
    · intro p dst hp
      have hle := hp.sound.stock_le
      simp only [bare_poll hp.sound]
      omega
    · intro p dst hp
      have hstock : min dst.length p.ring.stock ≤ p.ring.stock := Nat.min_le_right _ _
      have hlow : low ≤ (p.ring.pull (min dst.length p.ring.stock)).released.toNat := by
        have hlevel : p.ring.released = p.ring.claimed := UInt64.toNat.inj hp.sound.reads_tile
        change low ≤ (p.ring.released + _).toNat
        rw [hlevel, Ring.toNat_add_ofNat hstock, ← hlevel]
        exact hp.low_le.trans (Nat.le_add_right _ _)
      simp only [bare_poll hp.sound]
      exact ⟨⟨Ring.quiet_pull hp.sound hstock, hp.closed_eq, hlow⟩, Ring.stock_pull hstock⟩

theorem Spends.note {room : Ring c → ℕ} {n : ℕ} {p p₁ : Pool c}
    (h : Spends (Quiet closed low) (fun p => room p.ring) p n p₁) (note : Notice) :
    Spends (Quiet closed low) (fun p => room p.ring) p n (Journal.note note p₁) :=
  ⟨⟨h.good.sound, h.good.closed_eq, h.good.low_le⟩, h.room_eq⟩

theorem Meters.fair (h : Meters q offers polls) (hsize : ∀ p, q.capacity p = c.size)
    (a : Arrangement) (l : TurnBounds) :
    Meters (q.fair a l)
      (if a.locksWrites then min (min l.maxBytes.toNat (l.maxCalls.toNat * offers)) c.size
        else offers)
      (if a.locksReads then min (min l.maxBytes.toNat (l.maxCalls.toNat * polls)) c.size
        else polls) where
  offer := by
    intro closed low
    rw [Queue.offerStep_fair]
    split_ifs
    · exact (h.offer closed low).fairTurn (fun _ _ => rfl)
        (fun _ _ _ hs note => Spends.note hs note) hsize l "write"
    · exact h.offer closed low
  poll := by
    intro closed low
    rw [Queue.poll_fair]
    split_ifs
    · exact (h.poll closed low).fairTurn q.poll_length
        (fun _ _ _ hs note => Spends.note hs note) hsize l "read"
    · exact h.poll closed low

theorem layered_meters {layers : List Layer} (hfair : ∀ layer ∈ layers, layer.isCapped = false) :
    Meters (layered layers : Queue (Pool c)) (Layer.most c Arrangement.locksWrites layers)
      (Layer.most c Arrangement.locksReads layers) := by
  induction layers with
  | nil => exact bare_meters
  | cons layer inner ih =>
    cases layer with
    | fair a l =>
      have h := ih fun layer hmem => hfair layer (List.mem_cons_of_mem _ hmem)
      exact h.fair (capacity_layered inner) a l
    | capped caps => exact absurd (hfair _ List.mem_cons_self) (by simp [Layer.isCapped])

/-- The ring holds the bytes of the list, in their order, and is closed if the list is. -/
structure Represents (p : Pool c) (b : Backlog) : Prop where
  contains : p.ring.Contains b.text
  closed_eq : p.ring.closed = b.closed

theorem represents_empty (c : Capacity) (rule : CommitRule) (layers : List Layer) :
    (Pool.ofRing (.empty c rule) layers).Represents {} :=
  ⟨Ring.contains_empty c rule, rfl⟩

namespace Represents

theorem quiet (h : p.Represents b) : Quiet b.closed p.ring.released.toNat p :=
  ⟨h.contains.1, h.closed_eq, Nat.le_refl _⟩

theorem stock_eq (h : p.Represents b) : p.ring.stock = b.text.length := by
  obtain ⟨⟨hs, stream, hkeeps, htext⟩, -⟩ := h
  have hlen := hkeeps.length_eq
  rw [htext, List.length_drop, hlen, Ring.stock, Ring.available, toNat_gap]

theorem length_le (h : p.Represents b) : b.text.length ≤ c.size :=
  h.stock_eq.symm.trans_le h.contains.1.stock_le

/-- What is left of the capacity, if no position runs over. -/
theorem room_eq (h : p.Represents b) (hwrap : p.ring.released.toNat + c.size < UInt64.size) :
    p.ring.room = if b.closed then 0 else c.size - b.text.length := by
  have hstock := h.stock_eq
  obtain ⟨⟨hs, -⟩, hclosed⟩ := h
  have hwrites : p.ring.committed.toNat = p.ring.reserved.toNat := hs.writes_tile
  have hreads : p.ring.released.toNat = p.ring.claimed.toNat := hs.reads_tile
  have hclaimed := hs.claimed_le
  have hlimit : (p.ring.released + c.word).toNat = p.ring.released.toNat + c.size := by
    rw [UInt64.toNat_add, Capacity.toNat_word]
    exact Nat.mod_eq_of_lt hwrap
  rw [Ring.stock, Ring.available, toNat_gap] at hstock
  rw [Ring.room, hclosed, Ring.space, toNat_gap, hlimit]
  split_ifs
  · rfl
  · omega

end Represents

variable {layers : List Layer}

/-- Readers never take back a position that they have handed back. -/
theorem calls_quiet (hq : Meters (layered layers : Queue (Pool c)) offers polls)
    (hp : Quiet closed low p) (calls : List Call) :
    ∃ closed', Quiet closed' low ((layered layers).calls p calls).2 := by
  induction calls generalizing closed p with
  | nil => exact ⟨closed, hp⟩
  | cons call calls ih =>
    cases call with
    | offer src => exact ih ((hq.offer closed low).spends src hp).good
    | poll dst => exact ih ((hq.poll closed low).spends dst hp).good
    | close =>
      have hclose := close_layered layers p
      have hquiet : Quiet true low ((layered layers).close p) := by
        constructor
        · rw [hclose]
          exact hp.sound.close
        · rw [hclose]
          rfl
        · rw [hclose]
          exact hp.low_le
      exact ih hquiet

theorem offer_bounded (hq : Meters (layered layers : Queue (Pool c)) offers polls)
    (hp : p.Represents b) (hwrap : p.ring.released.toNat + c.size < UInt64.size) (src : Bytes) :
    ((layered layers).offer p src).count =
        ((Queue.bounded c.size offers polls).offer b src).count ∧
      ((layered layers).offer p src).state.Represents
        ((Queue.bounded c.size offers polls).offer b src).state := by
  have hm := hq.offer b.closed p.ring.released.toNat
  have hcount : ((layered layers).offer p src).count =
      ((Queue.bounded c.size offers polls).offer b src).count := by
    have hroom := hm.count src hp.quiet
    rw [hp.room_eq hwrap] at hroom
    refine hroom.trans ?_
    dsimp only [Queue.bounded]
    split_ifs
    · exact Nat.min_zero _
    · rfl
  have hoffer := (stack_layered (c := c) layers).fifo.offer src hp.contains
  rw [hcount] at hoffer
  exact ⟨hcount, hoffer, (hm.spends src hp.quiet).good.closed_eq⟩

theorem poll_bounded (hq : Meters (layered layers : Queue (Pool c)) offers polls)
    (hp : p.Represents b) (dst : Bytes) :
    ((layered layers).poll p dst).count = ((Queue.bounded c.size offers polls).poll b dst).count ∧
      ((layered layers).poll p dst).buffer =
        ((Queue.bounded c.size offers polls).poll b dst).buffer ∧
      ((layered layers).poll p dst).state.Represents
        ((Queue.bounded c.size offers polls).poll b dst).state := by
  have hm := hq.poll b.closed p.ring.released.toNat
  have hcount : ((layered layers).poll p dst).count = min (min dst.length polls) b.text.length := by
    rw [← hp.stock_eq]
    exact hm.count dst hp.quiet
  obtain ⟨rest, htext, hrest⟩ := (stack_layered (c := c) layers).fifo.poll dst hp.contains
  have hlen : (((layered layers).poll p dst).buffer.take
      ((layered layers).poll p dst).count).length = ((layered layers).poll p dst).count := by
    rw [List.length_take, Queue.poll_length]
    exact Nat.min_eq_left (Queue.poll_le _ _ _)
  have hfront : b.text.take ((layered layers).poll p dst).count =
      ((layered layers).poll p dst).buffer.take ((layered layers).poll p dst).count := by
    rw [htext]
    exact List.take_left' hlen
  have hback : b.text.drop ((layered layers).poll p dst).count = rest := by
    rw [htext]
    exact List.drop_left' hlen
  refine ⟨hcount, ?_, ?_, (hm.spends dst hp.quiet).good.closed_eq⟩
  · rw [Queue.poll_buffer, ← hfront, hcount]
    rfl
  · rw [← hback, hcount] at hrest
    exact hrest

theorem close_bounded (offers polls : ℕ) (hp : p.Represents b) :
    ((layered layers).close p).Represents ((Queue.bounded c.size offers polls).close b) := by
  refine ⟨(stack_layered (c := c) layers).fifo.close hp.contains, ?_⟩
  rw [close_layered layers p]
  rfl

theorem call_bounded (hq : Meters (layered layers : Queue (Pool c)) offers polls)
    (hp : p.Represents b) (hwrap : p.ring.released.toNat + c.size < UInt64.size) (call : Call) :
    ((layered layers).call p call).1 = ((Queue.bounded c.size offers polls).call b call).1 ∧
      ((layered layers).call p call).2.Represents
        ((Queue.bounded c.size offers polls).call b call).2 := by
  cases call with
  | offer src =>
    obtain ⟨hcount, hstate⟩ := offer_bounded hq hp hwrap src
    exact ⟨congrArg Outcome.accepted hcount, hstate⟩
  | poll dst =>
    obtain ⟨hcount, hbuffer, hstate⟩ := poll_bounded hq hp dst
    exact ⟨congrArg₂ Outcome.delivered hcount hbuffer, hstate⟩
  | close => exact ⟨rfl, close_bounded offers polls hp⟩

/-- Fair queues around a ring are a bounded queue, whatever positions the ring has come to. -/
theorem layered_bounded (hfair : ∀ layer ∈ layers, layer.isCapped = false)
    (hp : p.Represents b) (calls : List Call)
    (hwrap : ((layered layers).calls p calls).2.ring.released.toNat + c.size < UInt64.size) :
    let list := Queue.bounded c.size (Layer.most c Arrangement.locksWrites layers)
      (Layer.most c Arrangement.locksReads layers)
    ((layered layers).calls p calls).1 = (list.calls b calls).1 ∧
      ((layered layers).calls p calls).2.Represents (list.calls b calls).2 ∧
      (list.calls b calls).2.text.length ≤ c.size := by
  have hq := layered_meters (c := c) hfair
  intro list
  suffices h : ((layered layers).calls p calls).1 = (list.calls b calls).1 ∧
      ((layered layers).calls p calls).2.Represents (list.calls b calls).2 from
    ⟨h.1, h.2, h.2.length_le⟩
  induction calls generalizing p b with
  | nil => exact ⟨rfl, hp⟩
  | cons call calls ih =>
    obtain ⟨closed, hquiet⟩ := calls_quiet hq hp.quiet (call :: calls)
    have hlow := hquiet.low_le
    obtain ⟨hout, hnext⟩ := call_bounded hq hp (by omega) call
    obtain ⟨houts, hlast⟩ := ih hnext hwrap
    exact ⟨congrArg₂ List.cons hout houts, hlast⟩

/-- One call writes at most three bytes and reads at most two. -/
def dripping : List Layer := [.fair .writer ⟨3, 2⟩, .fair .full ⟨2, 1⟩, .fair .reader ⟨8, 1⟩]

theorem layered_bounded_around :
    ((layered dripping).calls (.ofRing (.empty .four .abandon) dripping)
      [.offer [1, 2, 3, 4], .offer [4, 5, 6], .offer [5], .poll [0, 0, 0], .offer [5, 6, 7],
        .poll [9], .poll [9, 9], .offer [7, 8, 9], .close, .offer [1], .poll [0, 0, 0]]).1 =
      [.accepted 3, .accepted 1, .accepted 0, .delivered 2 [1, 2, 0], .accepted 2,
        .delivered 1 [3], .delivered 2 [4, 5], .accepted 3, .done, .accepted 0,
        .delivered 2 [6, 7, 0]] := by
  rw [(layered_bounded (by decide) (represents_empty _ _ _) _ (by decide +kernel)).1]
  decide

end Pool

end EntropySupply
