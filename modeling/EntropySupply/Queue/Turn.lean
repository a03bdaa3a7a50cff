import EntropySupply.Notice
import EntropySupply.SetupError
import EntropySupply.Queue.Basic

/-!
# Fair turns

A fair queue lets a user move only so many bytes in so many calls before the others get their turn.
A turn repeats one kind of call on the part that is still unmoved, until the limits are reached or
a call moves nothing. Main statement: a turn moves no more than it was given and leaves the rest of
its buffer alone.
-/

namespace EntropySupply

structure TurnBounds where
  maxBytes : UInt64 := 256
  maxCalls : UInt64 := 4
  deriving DecidableEq, Repr

namespace TurnBounds

/-- Refuses limits under which a turn could never move a byte. -/
def validate (l : TurnBounds) : Except SetupError Unit :=
  if l.maxBytes = 0 || l.maxCalls = 0 then .error (.emptyTurn l.maxBytes l.maxCalls) else .ok ()

def describe (l : TurnBounds) : String :=
  s!"TurnLimits \x7b max_bytes: {l.maxBytes}, max_calls: {l.maxCalls} \x7d"

end TurnBounds

/-- Which calls wait in line, and whether reads and writes wait in one line. -/
inductive Arrangement where
  | reader
  | writer
  | independent
  | full
  deriving DecidableEq, Repr

namespace Arrangement

def locksReads : Arrangement → Bool
  | .writer => false
  | _ => true

def locksWrites : Arrangement → Bool
  | .reader => false
  | _ => true

def sharesLine : Arrangement → Bool
  | .full => true
  | _ => false

end Arrangement

namespace Queue

structure Turn (σ : Type) where
  moved : Nat
  calls : Nat
  buffer : Bytes
  state : σ

variable {σ : Type}

/-- Calls `step` on the unmoved part of `window`, at most `limit` times. -/
def turn (step : σ → Bytes → Delivered σ) : (limit : Nat) → σ → Bytes → Turn σ
  | 0, s, window => ⟨0, 0, window, s⟩
  | limit + 1, s, window =>
    if window.isEmpty then ⟨0, 0, window, s⟩
    else
      let m := step s window
      if m.count = 0 then ⟨0, 1, m.buffer, m.state⟩
      else
        let t := turn step limit m.state (m.buffer.drop m.count)
        ⟨m.count + t.moved, t.calls + 1, m.buffer.take m.count ++ t.buffer, t.state⟩

def turnBudget (q : Queue σ) (l : TurnBounds) (s : σ) (n : Nat) : Nat :=
  min (min n l.maxBytes.toNat) (q.capacity s)

/-- Whether a turn ended at one of its limits and not because nothing was left to do. -/
def Turn.exhausted (t : Turn σ) (l : TurnBounds) (budget asked : Nat) : Bool :=
  (t.moved == budget && budget < asked) || t.calls == l.maxCalls.toNat

def turnNotice (direction : String) (moved calls : Nat) : Notice where
  level := .debug
  text := s!"fair {direction}: turn ended after {moved} bytes in {calls} calls"

/-- One reported turn over the front of a buffer. -/
def fairTurn [Journal σ] (q : Queue σ) (l : TurnBounds) (direction : String)
    (step : σ → Bytes → Delivered σ) (s : σ) (buffer : Bytes) : Delivered σ :=
  let budget := q.turnBudget l s buffer.length
  let t := turn step l.maxCalls.toNat s (buffer.take budget)
  { count := t.moved
    buffer := t.buffer ++ buffer.drop budget
    state :=
      if t.exhausted l budget buffer.length then
        Journal.note (turnNotice direction t.moved t.calls) t.state
      else t.state }

/-- An offer as a step of a turn, whose source stays as it is. -/
def offerStep (q : Queue σ) (s : σ) (src : Bytes) : Delivered σ :=
  let m := q.offer s src
  ⟨m.count, src, m.state⟩

/-- A kind of call that moves a first part of what it is given and leaves the rest alone. -/
structure MovesFront (step : σ → Bytes → Delivered σ) : Prop where
  count_le : ∀ s w, (step s w).count ≤ w.length
  length : ∀ s w, (step s w).buffer.length = w.length
  rest : ∀ s w, (step s w).buffer.drop (step s w).count = w.drop (step s w).count

theorem MovesFront.buffer_eq {step : σ → Bytes → Delivered σ} (hstep : MovesFront step) {s : σ}
    {w : Bytes} (hcount : (step s w).count = 0) : (step s w).buffer = w := by
  have hrest := hstep.rest s w
  rwa [hcount, List.drop_zero, List.drop_zero] at hrest

theorem movesFront_offerStep (q : Queue σ) : MovesFront q.offerStep :=
  ⟨q.offer_le, fun _ _ => rfl, fun _ _ => rfl⟩

theorem movesFront_poll (q : Queue σ) : MovesFront q.poll := ⟨q.poll_le, q.poll_length, q.poll_rest⟩

section Laws

variable {step : σ → Bytes → Delivered σ}

/-- What a turn moves comes out of any room that its calls use up by what they move. -/
theorem turn_room {room : σ → Nat}
    (hr : ∀ s w, (step s w).count + room (step s w).state ≤ room s) (limit : Nat) (s : σ)
    (w : Bytes) : (turn step limit s w).moved + room (turn step limit s w).state ≤ room s := by
  induction limit generalizing s w with
  | zero => exact Nat.le_of_eq (Nat.zero_add _)
  | succ limit ih =>
    unfold turn
    split
    · exact Nat.le_of_eq (Nat.zero_add _)
    · have h := hr s w
      dsimp only
      split
      · dsimp only
        omega
      · have h₁ := ih (step s w).state ((step s w).buffer.drop (step s w).count)
        dsimp only
        omega

theorem turn_length (hstep : MovesFront step) (limit : Nat) (s : σ) (w : Bytes) :
    (turn step limit s w).buffer.length = w.length := by
  induction limit generalizing s w with
  | zero => rfl
  | succ limit ih =>
    unfold turn
    split
    · rfl
    · dsimp only
      split
      · exact hstep.length _ _
      · simp only [List.length_append, ih, List.length_take, List.length_drop, hstep.length]
        omega

theorem turn_moved_le (hstep : MovesFront step) (limit : Nat) (s : σ) (w : Bytes) :
    (turn step limit s w).moved ≤ w.length := by
  induction limit generalizing s w with
  | zero => exact Nat.zero_le _
  | succ limit ih =>
    unfold turn
    split
    · exact Nat.zero_le _
    · dsimp only
      split
      · exact Nat.zero_le _
      · have h := ih (step s w).state ((step s w).buffer.drop (step s w).count)
        have h₁ := hstep.count_le s w
        simp only [List.length_drop, hstep.length] at h
        dsimp only
        omega

theorem turn_rest (hstep : MovesFront step) (limit : Nat) (s : σ) (w : Bytes) :
    (turn step limit s w).buffer.drop (turn step limit s w).moved =
      w.drop (turn step limit s w).moved := by
  induction limit generalizing s w with
  | zero => rfl
  | succ limit ih =>
    unfold turn
    split
    · rfl
    · dsimp only
      split
      · rename_i h0
        rw [hstep.buffer_eq h0]
      · have h₁ := hstep.count_le s w
        have h₂ : ((step s w).buffer.take (step s w).count).length = (step s w).count := by
          simp [hstep.length, h₁]
        dsimp only
        rw [List.drop_append, List.drop_of_length_le (by omega), h₂, List.nil_append,
          Nat.add_sub_cancel_left, ih, hstep.rest, List.drop_drop]

/-- Offers leave the source of a turn as it is. -/
theorem turn_offerStep (q : Queue σ) (limit : Nat) (s : σ) (w : Bytes) :
    (turn q.offerStep limit s w).buffer = w := by
  induction limit generalizing s w with
  | zero => rfl
  | succ limit ih =>
    unfold turn
    split
    · rfl
    · dsimp only
      split
      · rfl
      · dsimp only
        rw [ih]
        exact List.take_append_drop _ _

variable [Journal σ]

theorem fairTurn_offerStep (q : Queue σ) (l : TurnBounds) (direction : String) (s : σ)
    (src : Bytes) : (q.fairTurn l direction q.offerStep s src).buffer = src := by
  simp only [fairTurn, turn_offerStep]
  exact List.take_append_drop _ _

/-- A fair turn moves a first part of what it is given, as its calls do. -/
theorem MovesFront.fairTurn (hstep : MovesFront step) (q : Queue σ) (l : TurnBounds)
    (direction : String) : MovesFront (q.fairTurn l direction step) where
  count_le s b := by
    refine Nat.le_trans (turn_moved_le hstep _ _ _) ?_
    simp only [List.length_take]
    omega
  length s b := by
    simp only [Queue.fairTurn, List.length_append, turn_length hstep, List.length_take,
      List.length_drop]
    omega
  rest s b := by
    have h := turn_rest hstep l.maxCalls.toNat s (b.take (q.turnBudget l s b.length))
    have h₁ := turn_moved_le hstep l.maxCalls.toNat s (b.take (q.turnBudget l s b.length))
    have h₂ := turn_length hstep l.maxCalls.toNat s (b.take (q.turnBudget l s b.length))
    simp only [Queue.fairTurn]
    rw [List.drop_append_of_le_length (by omega), h, ← List.drop_append_of_le_length h₁,
      List.take_append_drop]

theorem fairTurn_room {room : σ → Nat} (hn : ∀ n s, room (Journal.note n s) = room s)
    (hr : ∀ s w, (step s w).count + room (step s w).state ≤ room s) (q : Queue σ) (l : TurnBounds)
    (direction : String) (s : σ) (b : Bytes) :
    (q.fairTurn l direction step s b).count + room (q.fairTurn l direction step s b).state ≤
      room s := by
  have h := turn_room hr l.maxCalls.toNat s (b.take (q.turnBudget l s b.length))
  simp only [fairTurn]
  split
  · rw [hn]
    exact h
  · exact h

end Laws

variable [Journal σ]

/-- The queue with its calls taken in turns, in the directions that the arrangement names. -/
def fair (q : Queue σ) (a : Arrangement) (l : TurnBounds) : Queue σ where
  capacity := q.capacity
  offer s src :=
    if a.locksWrites then
      let t := q.fairTurn l "write" q.offerStep s src
      ⟨t.count, t.state⟩
    else q.offer s src
  poll s dst := if a.locksReads then q.fairTurn l "read" q.poll s dst else q.poll s dst
  close := q.close
  isClosed := q.isClosed
  offer_le s src := by
    split
    · exact (q.movesFront_offerStep.fairTurn q l "write").count_le s src
    · exact q.offer_le s src
  poll_le s dst := by
    split
    · exact (q.movesFront_poll.fairTurn q l "read").count_le s dst
    · exact q.poll_le s dst
  poll_length s dst := by
    split
    · exact (q.movesFront_poll.fairTurn q l "read").length s dst
    · exact q.poll_length s dst
  poll_rest s dst := by
    split
    · exact (q.movesFront_poll.fairTurn q l "read").rest s dst
    · exact q.poll_rest s dst

theorem offerStep_fair (q : Queue σ) (a : Arrangement) (l : TurnBounds) :
    (q.fair a l).offerStep =
      if a.locksWrites then q.fairTurn l "write" q.offerStep else q.offerStep := by
  funext s src
  split
  · rename_i hlock
    have hoffer : (q.fair a l).offer s src =
        ⟨(q.fairTurn l "write" q.offerStep s src).count,
          (q.fairTurn l "write" q.offerStep s src).state⟩ := if_pos hlock
    rw [offerStep, hoffer]
    exact congrArg (Delivered.mk _ · _) (q.fairTurn_offerStep l "write" s src).symm
  · rename_i hlock
    have hoffer : (q.fair a l).offer s src = q.offer s src := if_neg hlock
    rw [offerStep, hoffer, offerStep]

theorem poll_fair (q : Queue σ) (a : Arrangement) (l : TurnBounds) :
    (q.fair a l).poll = if a.locksReads then q.fairTurn l "read" q.poll else q.poll := by
  funext s dst
  split
  · exact if_pos ‹_›
  · exact if_neg ‹_›

end Queue

end EntropySupply
