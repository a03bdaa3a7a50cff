import EntropySupply.Queue.Pool
import Mathlib.Tactic

/-!
# Attempts at a queue

A logged queue takes down each attempt to move bytes through it: what it was given, how much it said
it moved, and which bytes these were. Main statement: `fair_attempts`, a fair queue hands on what it
is asked for in attempts on the part that is still unmoved, until one of them moves nothing or a
limit is reached, whatever the queue inside answers to each.
-/

namespace EntropySupply

/-- An offer to a queue, or a poll of it. -/
structure Attempt where
  /-- The part of a source or buffer that was handed on. -/
  slice : Bytes
  /-- How many bytes the queue said it moved. -/
  count : ℕ
  /-- The bytes that stood in front afterwards, as many as that. -/
  moved : Bytes
  deriving DecidableEq, Repr

def Attempt.total (attempts : List Attempt) : ℕ :=
  attempts.foldr (fun attempt n => attempt.count + n) 0

def Attempt.bytes (attempts : List Attempt) : Bytes := (attempts.map Attempt.moved).flatten

@[simp] theorem Attempt.total_nil : Attempt.total [] = 0 := rfl

@[simp] theorem Attempt.total_cons (attempt : Attempt) (attempts : List Attempt) :
    Attempt.total (attempt :: attempts) = attempt.count + Attempt.total attempts := rfl

@[simp] theorem Attempt.bytes_cons (attempt : Attempt) (attempts : List Attempt) :
    Attempt.bytes (attempt :: attempts) = attempt.moved ++ Attempt.bytes attempts := rfl

/-- What an attempt at `slice` looks like from outside. -/
def Delivered.attempt {σ : Type} (m : Delivered σ) (slice : Bytes) : Attempt :=
  ⟨slice, m.count, m.buffer.take m.count⟩

/-- A state together with the attempts made so far. -/
structure Logged (σ : Type) where
  state : σ
  attempts : List Attempt := []

instance {σ : Type} [Journal σ] : Journal (Logged σ) where
  note n r := { r with state := Journal.note n r.state }

namespace Queue

variable {σ : Type}

def logging (step : σ → Bytes → Delivered σ) (r : Logged σ) (slice : Bytes) :
    Delivered (Logged σ) :=
  let m := step r.state slice
  ⟨m.count, m.buffer, ⟨m.state, r.attempts ++ [m.attempt slice]⟩⟩

def logged (q : Queue σ) : Queue (Logged σ) where
  capacity r := q.capacity r.state
  offer r src :=
    let m := logging q.offerStep r src
    ⟨m.count, m.state⟩
  poll := logging q.poll
  close r := { r with state := q.close r.state }
  isClosed r := q.isClosed r.state
  offer_le r := q.offer_le r.state
  poll_le r := q.poll_le r.state
  poll_length r := q.poll_length r.state
  poll_rest r := q.poll_rest r.state

theorem offerStep_logged (q : Queue σ) : q.logged.offerStep = logging q.offerStep := rfl

/-- What a series of attempts has done to the first `budget` bytes of `slice`: each was given the
part that was unmoved by then, and one that moved nothing was the last. -/
structure Served (limit budget : ℕ) (slice : Bytes) (attempts : List Attempt) (count : ℕ)
    (buffer : Bytes) : Prop where
  budget_le : budget ≤ slice.length
  attempts_le : attempts.length ≤ limit
  given : ∀ front attempt rest, attempts = front ++ attempt :: rest →
    Attempt.total front < budget ∧ attempt.slice = (slice.take budget).drop (Attempt.total front) ∧
      (attempt.count = 0 → rest = [])
  count_eq : count = Attempt.total attempts
  count_le : count ≤ budget
  length : buffer.length = slice.length
  moved : buffer.take count = Attempt.bytes attempts
  untouched : buffer.drop count = slice.drop count
  /-- The attempts end before the budget is used up only at one that moves nothing or at the
  limit. -/
  stops : count < budget →
    (∃ front attempt, attempts = front ++ [attempt] ∧ attempt.count = 0) ∨ attempts.length = limit

/-- The ways to cut a list at one of its members, by whether that is the first one. -/
theorem forall_cut_cons {α : Type} {P : List α → α → List α → Prop} {a : α} {as : List α}
    (hhead : P [] a as) (htail : ∀ front x rest, as = front ++ x :: rest → P (a :: front) x rest) :
    ∀ front x rest, a :: as = front ++ x :: rest → P front x rest := by
  intro front x rest h
  cases front with
  | nil =>
    cases h
    exact hhead
  | cons b front =>
    rw [List.cons_append, List.cons.injEq] at h
    obtain ⟨rfl, h⟩ := h
    exact htail front x rest h

namespace Served

variable {limit n count : ℕ} {window b buffer : Bytes} {attempts : List Attempt}

theorem none (h : window = [] ∨ limit = 0) : Served limit window.length window [] 0 window where
  budget_le := le_rfl
  attempts_le := Nat.zero_le _
  given := by simp
  count_eq := rfl
  count_le := Nat.zero_le _
  length := rfl
  moved := rfl
  untouched := rfl
  stops := by
    intro hlt
    rcases h with rfl | rfl
    · simp at hlt
    · exact .inr rfl

theorem refused (hwindow : window ≠ []) (hlen : b.length = window.length)
    (hrest : b.drop 0 = window.drop 0) :
    Served (limit + 1) window.length window [⟨window, 0, b.take 0⟩] 0 b where
  budget_le := le_rfl
  attempts_le := by simp
  given := by
    apply forall_cut_cons
    · simpa using List.length_pos_iff.mpr hwindow
    · simp
  count_eq := rfl
  count_le := Nat.zero_le _
  length := hlen
  moved := rfl
  untouched := hrest
  stops := fun _ => .inl ⟨[], _, rfl, rfl⟩

theorem cons (hn : n ≠ 0) (hle : n ≤ window.length) (hlen : b.length = window.length)
    (hrest : b.drop n = window.drop n)
    (h : Served limit (b.drop n).length (b.drop n) attempts count buffer) :
    Served (limit + 1) window.length window (⟨window, n, b.take n⟩ :: attempts) (n + count)
      (b.take n ++ buffer) := by
  have hfront : (b.take n).length = n := List.length_take_of_le (hle.trans_eq hlen.symm)
  rw [hrest] at h
  have hcount := h.count_le
  rw [List.length_drop] at hcount
  have hbuffer := h.length
  rw [List.length_drop] at hbuffer
  refine ⟨le_rfl, ?_, ?_, ?_, by omega, ?_, ?_, ?_, ?_⟩
  · simpa using h.attempts_le
  · apply forall_cut_cons
    · refine ⟨by simp; omega, by simp, fun h₀ => absurd h₀ hn⟩
    · intro front attempt rest hcut
      obtain ⟨hlt, hslice, hend⟩ := h.given front attempt rest hcut
      rw [List.length_drop] at hlt
      rw [List.take_length] at hslice ⊢
      refine ⟨?_, ?_, hend⟩
      · simp only [Attempt.total_cons]
        omega
      · rw [hslice, List.drop_drop, Attempt.total_cons]
  · rw [Attempt.total_cons, h.count_eq]
  · rw [List.length_append]
    omega
  · rw [Attempt.bytes_cons, ← h.moved, List.take_append, hfront, Nat.add_sub_cancel_left,
      List.take_take, Nat.min_eq_right (Nat.le_add_right n count)]
  · rw [List.drop_append, hfront, Nat.add_sub_cancel_left, h.untouched, List.drop_drop,
      List.drop_eq_nil_of_le (by omega), List.nil_append]
  · intro hlt
    rcases h.stops (by rw [List.length_drop]; omega) with ⟨front, attempt, rfl, hnone⟩ | hall
    · exact .inl ⟨_ :: front, attempt, rfl, hnone⟩
    · exact .inr (by simp [hall])

theorem of_take {budget : ℕ} {slice : Bytes} (hbudget : budget ≤ slice.length)
    (h : Served limit (slice.take budget).length (slice.take budget) attempts count buffer) :
    Served limit budget slice attempts count (buffer ++ slice.drop budget) := by
  have htake : (slice.take budget).length = budget := List.length_take_of_le hbudget
  have hcount := h.count_le
  have hgiven := h.given
  have hstops := h.stops
  have hlen := h.length.trans htake
  rw [htake] at hcount hgiven hstops
  refine ⟨hbudget, h.attempts_le, ?_, h.count_eq, hcount, ?_, ?_, ?_, hstops⟩
  · simpa only [List.take_take, Nat.min_self] using hgiven
  · rw [List.length_append, List.length_drop]
    omega
  · rw [List.take_append_of_le_length (by omega), h.moved]
  · rw [List.drop_append_of_le_length (by omega), h.untouched,
      ← List.drop_append_of_le_length (by omega), List.take_append_drop]

end Served

section Turns

variable {step : σ → Bytes → Delivered σ} {limit : ℕ} {s : σ} {w : Bytes}

theorem turn_refused (step : σ → Bytes → Delivered σ) (hw : w ≠ []) (h : (step s w).count = 0) :
    turn step (limit + 1) s w = ⟨0, 1, (step s w).buffer, (step s w).state⟩ := by
  rw [turn, if_neg fun hempty => hw (List.isEmpty_iff.mp hempty)]
  exact if_pos h

theorem turn_moved (step : σ → Bytes → Delivered σ) (hw : w ≠ []) (h : (step s w).count ≠ 0) :
    turn step (limit + 1) s w =
      let t := turn step limit (step s w).state ((step s w).buffer.drop (step s w).count)
      ⟨(step s w).count + t.moved, t.calls + 1,
        (step s w).buffer.take (step s w).count ++ t.buffer, t.state⟩ := by
  rw [turn, if_neg fun hempty => hw (List.isEmpty_iff.mp hempty)]
  exact if_neg h

/-- A turn goes on until its window is moved, an attempt moves nothing or no more are allowed. -/
theorem turn_logging (hstep : MovesFront step) (limit : ℕ) (r : Logged σ) (w : Bytes) :
    let t := turn step limit r.state w
    ∃ attempts, Served limit w.length w attempts t.moved t.buffer ∧
      turn (logging step) limit r w =
        ⟨t.moved, t.calls, t.buffer, ⟨t.state, r.attempts ++ attempts⟩⟩ := by
  induction limit generalizing r w with
  | zero => exact ⟨[], .none (.inr rfl), by simp [turn]⟩
  | succ limit ih =>
    have hlen := hstep.length r.state w
    have hrest := hstep.rest r.state w
    by_cases hw : w = []
    · subst hw
      exact ⟨[], .none (.inl rfl), by simp [turn]⟩
    by_cases hcount : (step r.state w).count = 0
    · rw [hcount] at hrest
      rw [turn_refused step hw hcount, turn_refused (logging step) hw hcount]
      refine ⟨[_], .refused hw hlen hrest, ?_⟩
      simp only [logging, Delivered.attempt, hcount]
    · obtain ⟨attempts, hserved, hturn⟩ := ih (logging step r w).state
        ((step r.state w).buffer.drop (step r.state w).count)
      rw [turn_moved step hw hcount, turn_moved (logging step) hw hcount]
      refine ⟨_ :: attempts, hserved.cons hcount (hstep.count_le _ _) hlen hrest, ?_⟩
      dsimp only
      rw [show (logging step r w).buffer.drop (logging step r w).count =
        (step r.state w).buffer.drop (step r.state w).count from rfl, hturn]
      simp only [logging, Delivered.attempt, List.append_assoc, List.cons_append, List.nil_append]

variable [Journal σ]

theorem fairTurn_logging (hstep : MovesFront step) (q : Queue σ) (l : TurnBounds)
    (direction : String) (r : Logged σ) (b : Bytes) :
    let m := q.fairTurn l direction step r.state b
    ∃ attempts,
      Served l.maxCalls.toNat (q.turnBudget l r.state b.length) b attempts m.count m.buffer ∧
      q.logged.fairTurn l direction (logging step) r b =
        ⟨m.count, m.buffer, ⟨m.state, r.attempts ++ attempts⟩⟩ := by
  have hbudget : q.turnBudget l r.state b.length ≤ b.length := by
    unfold turnBudget
    omega
  obtain ⟨attempts, hserved, hturn⟩ := turn_logging hstep l.maxCalls.toNat r
    (b.take (q.turnBudget l r.state b.length))
  refine ⟨attempts, hserved.of_take hbudget, ?_⟩
  simp only [fairTurn]
  rw [show q.logged.turnBudget l r b.length = q.turnBudget l r.state b.length from rfl, hturn]
  generalize turn step l.maxCalls.toNat r.state (b.take (q.turnBudget l r.state b.length)) = t
  -- Whether a turn is reported depends on what it moved and how often it called, not on its state.
  rw [show Turn.exhausted
      ⟨t.moved, t.calls, t.buffer, Logged.mk t.state (r.attempts ++ attempts)⟩ l
        (q.turnBudget l r.state b.length) b.length =
      t.exhausted l (q.turnBudget l r.state b.length) b.length from rfl]
  cases t.exhausted l (q.turnBudget l r.state b.length) b.length
  · rfl
  · rfl

end Turns

variable [Journal σ]

/-- A call of a fair queue, in a direction that waits in line, is a series of attempts at the queue
inside: at most as many as a turn allows, each on what is still unmoved of the first bytes that a
turn allows, and none behind one that moved nothing. -/
theorem fair_attempts (q : Queue σ) (a : Arrangement) (l : TurnBounds) (s : σ) :
    (a.locksWrites = true → ∀ src, ∃ attempts,
      Served l.maxCalls.toNat (q.turnBudget l s src.length) src attempts
        ((q.fair a l).offer s src).count src ∧
      (q.logged.fair a l).offer { state := s } src =
        ⟨((q.fair a l).offer s src).count, ⟨((q.fair a l).offer s src).state, attempts⟩⟩) ∧
    (a.locksReads = true → ∀ dst, ∃ attempts,
      Served l.maxCalls.toNat (q.turnBudget l s dst.length) dst attempts
        ((q.fair a l).poll s dst).count ((q.fair a l).poll s dst).buffer ∧
      (q.logged.fair a l).poll { state := s } dst =
        ⟨((q.fair a l).poll s dst).count, ((q.fair a l).poll s dst).buffer,
          ⟨((q.fair a l).poll s dst).state, attempts⟩⟩) := by
  constructor
  · intro hlock src
    obtain ⟨attempts, hserved, hturn⟩ := fairTurn_logging q.movesFront_offerStep q l "write"
      { state := s } src
    rw [fairTurn_offerStep] at hserved
    simp only [fair, hlock, if_true, offerStep_logged, hturn]
    exact ⟨attempts, hserved, rfl⟩
  · intro hlock dst
    obtain ⟨attempts, hserved, hturn⟩ := fairTurn_logging q.movesFront_poll q l "read"
      { state := s } dst
    simp only [fair, hlock, if_true]
    exact ⟨attempts, hserved, hturn⟩

/-- A ring that every other attempt gets through to, and with one byte only. -/
def stalling : Pool .four := .ofRing (.empty _ .abandon) [.capped [1, 0]]

theorem fair_attempts_stalling :
    Arrangement.full.locksWrites = true ∧
      (((Pool.layered [.capped [1, 0]]).fair .full ⟨3, 5⟩).offer stalling [7, 8, 9, 10]).count =
        1 ∧
      ∃ attempts, Served 5 3 [7, 8, 9, 10] attempts
          (((Pool.layered [.capped [1, 0]]).fair .full ⟨3, 5⟩).offer stalling
            [7, 8, 9, 10]).count [7, 8, 9, 10] ∧
        ((Pool.layered [.capped [1, 0]]).logged.fair .full ⟨3, 5⟩).offer { state := stalling }
            [7, 8, 9, 10] =
          ⟨(((Pool.layered [.capped [1, 0]]).fair .full ⟨3, 5⟩).offer stalling
              [7, 8, 9, 10]).count,
            ⟨(((Pool.layered [.capped [1, 0]]).fair .full ⟨3, 5⟩).offer stalling
              [7, 8, 9, 10]).state, attempts⟩⟩ :=
  ⟨rfl, by decide,
    (fair_attempts (Pool.layered [.capped [1, 0]]) .full ⟨3, 5⟩ stalling).1 rfl [7, 8, 9, 10]⟩

end Queue

end EntropySupply
