import EntropySupply.Proofs.Queue.Attempts
import EntropySupply.Queue.Channel

/-!
# Transfers among others

Others may act between any two steps of a blocking transfer: before it looks whether it has been
called off, before it calls the queue, and before it looks whether the queue is closed. Main
statement: `transfers_exact`, a transfer says exactly what it moved and stops for a reason that it
has seen, whatever the queue answers and whatever the others do. The writes and reads of a channel
are the transfers at which the others act before that last look only.
-/

namespace EntropySupply

/-- The step that a transfer is about to take. -/
inductive Moment where
  | token
  | attempt
  | flag
  deriving DecidableEq, Repr

structure Shared (σ : Type) extends Queue σ where
  /-- Whether the transfers through the queue have been called off. -/
  cancelled : σ → Bool
  /-- What the others may do before each step of a transfer. -/
  meanwhile : Moment → σ → σ → Prop

namespace Shared

variable {σ : Type}

/-- A step of a transfer. -/
inductive Event where
  /-- A look whether the transfer has been called off. -/
  | token (fired : Bool)
  | attempt (attempt : Attempt)
  /-- A look whether the queue is closed. -/
  | flag (closed : Bool)
  deriving DecidableEq, Repr

def Event.attempt? : Event → Option Attempt
  | .attempt a => some a
  | _ => none

/-- The bytes that all attempts of a transfer moved, one after another. -/
def moved (trace : List Event) : Bytes := Attempt.bytes (trace.filterMap Event.attempt?)

@[simp] theorem moved_nil : moved [] = [] := rfl

@[simp] theorem moved_token (fired : Bool) (trace : List Event) :
    moved (.token fired :: trace) = moved trace := rfl

@[simp] theorem moved_attempt (a : Attempt) (trace : List Event) :
    moved (.attempt a :: trace) = a.moved ++ moved trace := rfl

@[simp] theorem moved_flag (closed : Bool) (trace : List Event) :
    moved (.flag closed :: trace) = moved trace := rfl

/-- The runs of a blocking transfer that calls `step`: how many bytes it has moved before, the state
and the rest of its source or buffer, what it does from there on, why it stops, what its buffer
holds then, and the state after it. -/
inductive Transfer (q : Shared σ) (step : σ → Bytes → Delivered σ) :
    ℕ → σ → Bytes → List Event → Option Interruption → Bytes → σ → Prop
  | done {before s} : Transfer q step before s [] [] none [] s
  | cancelled {before s s₁ window} (hwindow : window ≠ []) (htoken : q.meanwhile .token s s₁)
      (hfired : q.cancelled s₁ = true) :
      Transfer q step before s window [.token true] (some (.cancelled before)) window s₁
  | closed {before s s₁ s₂ s₃ window} (hwindow : window ≠ []) (htoken : q.meanwhile .token s s₁)
      (hfired : q.cancelled s₁ = false) (hcall : q.meanwhile .attempt s₁ s₂)
      (hcount : (step s₂ window).count = 0) (hflag : q.meanwhile .flag (step s₂ window).state s₃)
      (hclosed : q.isClosed s₃ = true) :
      Transfer q step before s window
        [.token false, .attempt ((step s₂ window).attempt window), .flag true]
        (some (.closed before)) (step s₂ window).buffer s₃
  | refused {before s s₁ s₂ s₃ window trace stopped buffer t} (hwindow : window ≠ [])
      (htoken : q.meanwhile .token s s₁) (hfired : q.cancelled s₁ = false)
      (hcall : q.meanwhile .attempt s₁ s₂) (hcount : (step s₂ window).count = 0)
      (hflag : q.meanwhile .flag (step s₂ window).state s₃) (hclosed : q.isClosed s₃ = false)
      (hrest : Transfer q step before s₃ (step s₂ window).buffer trace stopped buffer t) :
      Transfer q step before s window
        (.token false :: .attempt ((step s₂ window).attempt window) :: .flag false :: trace)
        stopped buffer t
  | moved {before s s₁ s₂ window trace stopped buffer t} (hwindow : window ≠ [])
      (htoken : q.meanwhile .token s s₁) (hfired : q.cancelled s₁ = false)
      (hcall : q.meanwhile .attempt s₁ s₂) (hcount : (step s₂ window).count ≠ 0)
      (hrest : Transfer q step (before + (step s₂ window).count) (step s₂ window).state
        ((step s₂ window).buffer.drop (step s₂ window).count) trace stopped buffer t) :
      Transfer q step before s window
        (.token false :: .attempt ((step s₂ window).attempt window) :: trace)
        stopped ((step s₂ window).buffer.take (step s₂ window).count ++ buffer) t

/-- What a transfer that had moved `before` bytes says about the rest of it. -/
structure Exact (before : ℕ) (window : Bytes) (trace : List Event)
    (stopped : Option Interruption) (buffer : Bytes) : Prop where
  /-- The bytes that were moved stand in front, and the bytes behind them are as they were. -/
  buffer_eq : buffer = moved trace ++ window.drop (moved trace).length
  done_iff : stopped = none ↔ (moved trace).length = window.length
  transferred : ∀ e, stopped = some e →
    e.transferred = before + (moved trace).length ∧ (moved trace).length < window.length
  closed : ∀ n, stopped = some (.closed n) →
    ∃ front a, trace = front ++ [.attempt a, .flag true] ∧ a.count = 0
  cancelled : ∀ n, stopped = some (.cancelled n) → ∃ front, trace = front ++ [.token true]
  idle : window = [] → trace = [] ∧ stopped = none

namespace Exact

variable {before : ℕ} {window buffer : Bytes} {trace : List Event} {stopped : Option Interruption}
  {m : Delivered σ}

theorem done (before : ℕ) : Exact before [] [] none [] where
  buffer_eq := rfl
  done_iff := by simp
  transferred := by simp
  closed := by simp
  cancelled := by simp
  idle := fun _ => ⟨rfl, rfl⟩

theorem of_fired (hwindow : window ≠ []) :
    Exact before window [.token true] (some (.cancelled before)) window where
  buffer_eq := rfl
  done_iff := by simpa [eq_comm] using hwindow
  transferred := by
    rintro e ⟨⟩
    exact ⟨rfl, List.length_pos_iff.mpr hwindow⟩
  closed := by simp
  cancelled := fun _ _ => ⟨[], rfl⟩
  idle := fun h => absurd h hwindow

theorem of_closed (hwindow : window ≠ []) (hcount : m.count = 0) (hrest : m.buffer = window) :
    Exact before window [.token false, .attempt (m.attempt window), .flag true]
      (some (.closed before)) m.buffer where
  buffer_eq := by simp [Delivered.attempt, hcount, hrest]
  done_iff := by simpa [Delivered.attempt, hcount, eq_comm] using hwindow
  transferred := by
    rintro e ⟨⟩
    have hlen := List.length_pos_iff.mpr hwindow
    simpa [Delivered.attempt, hcount, Interruption.transferred] using hlen
  closed := fun _ _ => ⟨[.token false], _, rfl, hcount⟩
  cancelled := by simp
  idle := fun h => absurd h hwindow

theorem refused (hwindow : window ≠ []) (hcount : m.count = 0)
    (h : Exact before window trace stopped buffer) :
    Exact before window
      (.token false :: .attempt (m.attempt window) :: .flag false :: trace) stopped buffer := by
  have hmoved : moved (.token false :: .attempt (m.attempt window) :: .flag false :: trace) =
      moved trace := by
    simp [Delivered.attempt, hcount]
  constructor
  · rw [hmoved]
    exact h.buffer_eq
  · rw [hmoved]
    exact h.done_iff
  · rw [hmoved]
    exact h.transferred
  · intro n hn
    obtain ⟨front, a, rfl, ha⟩ := h.closed n hn
    exact ⟨_ :: _ :: _ :: front, a, rfl, ha⟩
  · intro n hn
    obtain ⟨front, rfl⟩ := h.cancelled n hn
    exact ⟨_ :: _ :: _ :: front, rfl⟩
  · exact fun hempty => absurd hempty hwindow

theorem moved_cons (hwindow : window ≠ []) (hle : m.count ≤ window.length)
    (hlen : m.buffer.length = window.length) (hrest : m.buffer.drop m.count = window.drop m.count)
    (h : Exact (before + m.count) (m.buffer.drop m.count) trace stopped buffer) :
    Exact before window (.token false :: .attempt (m.attempt window) :: trace) stopped
      (m.buffer.take m.count ++ buffer) := by
  have hfront : (m.buffer.take m.count).length = m.count :=
    List.length_take_of_le (hle.trans_eq hlen.symm)
  have hmoved : moved (.token false :: .attempt (m.attempt window) :: trace) =
      m.buffer.take m.count ++ moved trace := rfl
  have hall : (moved (.token false :: .attempt (m.attempt window) :: trace)).length =
      m.count + (moved trace).length := by
    rw [hmoved, List.length_append, hfront]
  rw [hrest] at h
  have hdrop : (window.drop m.count).length = window.length - m.count := List.length_drop
  constructor
  · rw [hall, hmoved, ← List.drop_drop, List.append_assoc, ← h.buffer_eq]
  · rw [h.done_iff, hall, hdrop]
    omega
  · intro e he
    have := h.transferred e he
    rw [hall]
    omega
  · intro n hn
    obtain ⟨front, a, rfl, ha⟩ := h.closed n hn
    exact ⟨_ :: _ :: front, a, rfl, ha⟩
  · intro n hn
    obtain ⟨front, rfl⟩ := h.cancelled n hn
    exact ⟨_ :: _ :: front, rfl⟩
  · exact fun hempty => absurd hempty hwindow

end Exact

section Runs

variable {q : Shared σ} {step : σ → Bytes → Delivered σ} {before : ℕ} {s t : σ}
  {window buffer : Bytes} {trace : List Event} {stopped : Option Interruption}

theorem Transfer.exact (hstep : Queue.MovesFront step)
    (h : q.Transfer step before s window trace stopped buffer t) :
    Exact before window trace stopped buffer := by
  induction h with
  | done => exact .done _
  | cancelled hwindow => exact .of_fired hwindow
  | closed hwindow _ _ _ hcount => exact .of_closed hwindow hcount (hstep.buffer_eq hcount)
  | refused hwindow _ _ _ hcount _ _ _ ih =>
    rw [hstep.buffer_eq hcount] at ih
    exact .refused hwindow hcount ih
  | moved hwindow _ _ _ _ _ ih =>
    exact .moved_cons hwindow (hstep.count_le _ _) (hstep.length _ _) (hstep.rest _ _) ih

theorem Transfer.buffer_offerStep
    (h : q.Transfer q.offerStep before s window trace stopped buffer t) : buffer = window := by
  induction h with
  | done => rfl
  | cancelled => rfl
  | closed => rfl
  | refused _ _ _ _ _ _ _ _ ih => exact ih
  | moved _ _ _ _ _ _ ih =>
    rw [ih]
    exact List.take_append_drop _ _

end Runs

end Shared

namespace Channel

open Shared (Transfer)

variable {σ : Type}

/-- The queue of a channel. The others act after a vain attempt, before the look that follows it. -/
def shared (ch : Channel σ) : Shared σ where
  toQueue := ch.toQueue
  cancelled := ch.cancelled
  meanwhile
    | .flag, s, t => t = ch.await s
    | _, s, t => t = s

section Runs

variable {ch : Channel σ} {moved : ℕ} {s t : σ} {rest buffer : Bytes} {trace : List Shared.Event}
  {stopped : Option Interruption}

theorem writeFrom_transfer (ch : Channel σ) (moved : ℕ) (s : σ) (rest : Bytes) :
    ∃ trace, ch.shared.Transfer ch.offerStep moved s rest trace (ch.writeFrom moved s rest).stopped
      rest (ch.writeFrom moved s rest).state := by
  fun_induction ch.writeFrom moved s rest with
  | case1 moved s => exact ⟨_, .done⟩
  | case2 moved s rest hrest hc => exact ⟨_, .cancelled hrest rfl hc⟩
  | case3 moved s rest hrest hc m hm s' ho =>
    exact ⟨_, .closed hrest rfl (Bool.eq_false_of_not_eq_true hc) rfl hm rfl ho⟩
  | case4 moved s rest hrest hc m hm s' ho ih =>
    obtain ⟨trace, h⟩ := ih
    exact ⟨_, .refused hrest rfl (Bool.eq_false_of_not_eq_true hc) rfl hm rfl
      (Bool.eq_false_of_not_eq_true ho) h⟩
  | case5 moved s rest hrest hc m hm ih =>
    obtain ⟨trace, h⟩ := ih
    have hall : ch.shared.Transfer ch.offerStep moved s rest _ _
        (rest.take m.count ++ rest.drop m.count) _ :=
      .moved hrest rfl (Bool.eq_false_of_not_eq_true hc) rfl hm h
    rw [List.take_append_drop] at hall
    exact ⟨_, hall⟩

/-- A write of a channel goes in one way only. -/
theorem eq_writeFrom
    (h : ch.shared.Transfer ch.offerStep moved s rest trace stopped buffer t) :
    stopped = (ch.writeFrom moved s rest).stopped ∧ t = (ch.writeFrom moved s rest).state := by
  induction h with
  | done =>
    rw [writeFrom_nil]
    exact ⟨rfl, rfl⟩
  | @cancelled _ s s₁ _ hrest htoken hc =>
    obtain rfl : s₁ = s := htoken
    rw [writeFrom_cancelled hrest hc]
    exact ⟨rfl, rfl⟩
  | @closed _ s s₁ s₂ s₃ rest hrest htoken hc hattempt hm hflag ho =>
    obtain rfl : s₁ = s := htoken
    obtain rfl : s₂ = s₁ := hattempt
    obtain rfl : s₃ = ch.await (ch.offer s₂ rest).state := hflag
    have hcall : ch.offer s₂ rest = ⟨0, (ch.offer s₂ rest).state⟩ := congrArg (Accepted.mk · _) hm
    have ho : ch.isClosed _ = true := ho
    rw [writeFrom_refused hrest (Bool.eq_false_iff.mp hc) hcall, if_pos ho]
    exact ⟨rfl, rfl⟩
  | @refused _ s s₁ s₂ s₃ rest _ _ _ _ hrest htoken hc hattempt hm hflag ho _ ih =>
    obtain rfl : s₁ = s := htoken
    obtain rfl : s₂ = s₁ := hattempt
    obtain rfl : s₃ = ch.await (ch.offer s₂ rest).state := hflag
    have hcall : ch.offer s₂ rest = ⟨0, (ch.offer s₂ rest).state⟩ := congrArg (Accepted.mk · _) hm
    have ho : ¬ch.isClosed _ = true := Bool.eq_false_iff.mp ho
    rw [writeFrom_refused hrest (Bool.eq_false_iff.mp hc) hcall, if_neg ho]
    exact ih
  | @moved _ s s₁ s₂ rest _ _ _ _ hrest htoken hc hattempt hm _ ih =>
    obtain rfl : s₁ = s := htoken
    obtain rfl : s₂ = s₁ := hattempt
    rw [writeFrom_moved hrest (Bool.eq_false_iff.mp hc) rfl (Nat.pos_of_ne_zero hm)]
    exact ih

theorem readFrom_transfer (ch : Channel σ) (moved : ℕ) (s : σ) (rest : Bytes) :
    ∃ trace, ch.shared.Transfer ch.poll moved s rest trace (ch.readFrom moved s rest).stopped
      (ch.readFrom moved s rest).buffer (ch.readFrom moved s rest).state := by
  fun_induction ch.readFrom moved s rest with
  | case1 moved s => exact ⟨_, .done⟩
  | case2 moved s rest hrest hc => exact ⟨_, .cancelled hrest rfl hc⟩
  | case3 moved s rest hrest hc m hm s' ho =>
    exact ⟨_, .closed hrest rfl (Bool.eq_false_of_not_eq_true hc) rfl hm rfl ho⟩
  | case4 moved s rest hrest hc m hm s' ho ih =>
    obtain ⟨trace, h⟩ := ih
    exact ⟨_, .refused hrest rfl (Bool.eq_false_of_not_eq_true hc) rfl hm rfl
      (Bool.eq_false_of_not_eq_true ho) h⟩
  | case5 moved s rest hrest hc m hm r ih =>
    obtain ⟨trace, h⟩ := ih
    exact ⟨_, .moved hrest rfl (Bool.eq_false_of_not_eq_true hc) rfl hm h⟩

theorem eq_readFrom (h : ch.shared.Transfer ch.poll moved s rest trace stopped buffer t) :
    stopped = (ch.readFrom moved s rest).stopped ∧ buffer = (ch.readFrom moved s rest).buffer ∧
      t = (ch.readFrom moved s rest).state := by
  induction h with
  | done =>
    rw [readFrom_nil]
    exact ⟨rfl, rfl, rfl⟩
  | @cancelled _ s s₁ _ hrest htoken hc =>
    obtain rfl : s₁ = s := htoken
    rw [readFrom_cancelled hrest hc]
    exact ⟨rfl, rfl, rfl⟩
  | @closed _ s s₁ s₂ s₃ rest hrest htoken hc hattempt hm hflag ho =>
    obtain rfl : s₁ = s := htoken
    obtain rfl : s₂ = s₁ := hattempt
    obtain rfl : s₃ = ch.await (ch.poll s₂ rest).state := hflag
    have hcall : ch.poll s₂ rest = ⟨0, (ch.poll s₂ rest).buffer, (ch.poll s₂ rest).state⟩ :=
      congrArg (Delivered.mk · _ _) hm
    have ho : ch.isClosed _ = true := ho
    rw [readFrom_refused hrest (Bool.eq_false_iff.mp hc) hcall, if_pos ho]
    exact ⟨rfl, rfl, rfl⟩
  | @refused _ s s₁ s₂ s₃ rest _ _ _ _ hrest htoken hc hattempt hm hflag ho _ ih =>
    obtain rfl : s₁ = s := htoken
    obtain rfl : s₂ = s₁ := hattempt
    obtain rfl : s₃ = ch.await (ch.poll s₂ rest).state := hflag
    have hcall : ch.poll s₂ rest = ⟨0, (ch.poll s₂ rest).buffer, (ch.poll s₂ rest).state⟩ :=
      congrArg (Delivered.mk · _ _) hm
    have ho : ¬ch.isClosed _ = true := Bool.eq_false_iff.mp ho
    rw [readFrom_refused hrest (Bool.eq_false_iff.mp hc) hcall, if_neg ho]
    exact ih
  | @moved _ s s₁ s₂ rest _ _ _ _ hrest htoken hc hattempt hm _ ih =>
    obtain rfl : s₁ = s := htoken
    obtain rfl : s₂ = s₁ := hattempt
    rw [readFrom_moved hrest (Bool.eq_false_iff.mp hc) rfl (Nat.pos_of_ne_zero hm)]
    exact ⟨ih.1, congrArg (_ ++ ·) ih.2.1, ih.2.2⟩

/-- The writes of a channel are the transfers that offer. -/
theorem write_iff_transfer (ch : Channel σ) (s : σ) (src : Bytes) (stopped : Option Interruption)
    (buffer : Bytes) (t : σ) :
    (∃ trace, ch.shared.Transfer ch.offerStep 0 s src trace stopped buffer t) ↔
      buffer = src ∧ ch.write s src = ⟨stopped, t⟩ := by
  constructor
  · rintro ⟨trace, h⟩
    obtain ⟨rfl, rfl⟩ := eq_writeFrom h
    exact ⟨h.buffer_offerStep, rfl⟩
  · rintro ⟨rfl, hwrite⟩
    have hrun := ch.writeFrom_transfer 0 s buffer
    rw [show ch.writeFrom 0 s buffer = ⟨stopped, t⟩ from hwrite] at hrun
    exact hrun

theorem read_iff_transfer (ch : Channel σ) (s : σ) (dst : Bytes) (stopped : Option Interruption)
    (buffer : Bytes) (t : σ) :
    (∃ trace, ch.shared.Transfer ch.poll 0 s dst trace stopped buffer t) ↔
      ch.read s dst = ⟨stopped, buffer, t⟩ := by
  constructor
  · rintro ⟨trace, h⟩
    obtain ⟨rfl, rfl, rfl⟩ := eq_readFrom h
    rfl
  · intro hread
    have hrun := ch.readFrom_transfer 0 s dst
    rw [show ch.readFrom 0 s dst = ⟨stopped, buffer, t⟩ from hread] at hrun
    exact hrun

end Runs

theorem writeFrom_short (ch : Channel σ) (moved : ℕ) (s : σ) (rest : Bytes) {e : Interruption}
    (h : (ch.writeFrom moved s rest).stopped = some e) : e.transferred < moved + rest.length := by
  obtain ⟨trace, hrun⟩ := ch.writeFrom_transfer moved s rest
  obtain ⟨htransferred, hlt⟩ := (hrun.exact ch.movesFront_offerStep).transferred e h
  omega

theorem readFrom_short (ch : Channel σ) (moved : ℕ) (s : σ) (rest : Bytes) {e : Interruption}
    (h : (ch.readFrom moved s rest).stopped = some e) : e.transferred < moved + rest.length := by
  obtain ⟨trace, hrun⟩ := ch.readFrom_transfer moved s rest
  obtain ⟨htransferred, hlt⟩ := (hrun.exact ch.movesFront_poll).transferred e h
  omega

end Channel

namespace Shared

variable {σ : Type}

/-- However others interfere, a write or a read that ends says how much it moved, and what it moved
is the front of its source or buffer; the writes and reads of channels are among these. -/
theorem transfers_exact :
    (∀ (q : Shared σ) s src trace stopped buffer t,
      q.Transfer q.offerStep 0 s src trace stopped buffer t →
        buffer = src ∧ Exact 0 src trace stopped src) ∧
    (∀ (q : Shared σ) s dst trace stopped buffer t,
      q.Transfer q.poll 0 s dst trace stopped buffer t → Exact 0 dst trace stopped buffer) ∧
    ∀ (ch : Channel σ) s,
      (∀ src stopped buffer t,
        (∃ trace, ch.shared.Transfer ch.offerStep 0 s src trace stopped buffer t) ↔
          buffer = src ∧ ch.write s src = ⟨stopped, t⟩) ∧
      ∀ dst stopped buffer t,
        (∃ trace, ch.shared.Transfer ch.poll 0 s dst trace stopped buffer t) ↔
          ch.read s dst = ⟨stopped, buffer, t⟩ := by
  refine ⟨?_, ?_, ?_⟩
  · intro q s src trace stopped buffer t h
    obtain rfl := h.buffer_offerStep
    exact ⟨rfl, h.exact q.movesFront_offerStep⟩
  · intro q s dst trace stopped buffer t h
    exact h.exact q.movesFront_poll
  · intro ch s
    exact ⟨ch.write_iff_transfer s, ch.read_iff_transfer s⟩

/-- A ring of four bytes around which anything may happen. -/
def troubled : Shared (Pool .four) where
  toQueue := Pool.bare
  cancelled p := !p.journal.isEmpty
  meanwhile _ _ _ := True

def vacant : Pool .four := .ofRing (.empty _ .abandon) []

def brimful : Pool .four := (Pool.bare.offer vacant [1, 2, 3, 4, 5, 6]).state

/-- The ring is closed behind the back of the second attempt. -/
theorem transfers_exact_troubled :
    troubled.Transfer troubled.offerStep 0 vacant [1, 2, 3, 4, 5, 6]
        [.token false, .attempt ⟨[1, 2, 3, 4, 5, 6], 4, [1, 2, 3, 4]⟩, .token false,
          .attempt ⟨[5, 6], 0, []⟩, .flag true]
        (some (.closed 4)) [1, 2, 3, 4, 5, 6] (Pool.bare.close brimful) ∧
      Exact 0 [1, 2, 3, 4, 5, 6]
        [.token false, .attempt ⟨[1, 2, 3, 4, 5, 6], 4, [1, 2, 3, 4]⟩, .token false,
          .attempt ⟨[5, 6], 0, []⟩, .flag true]
        (some (.closed 4)) [1, 2, 3, 4, 5, 6] := by
  have hlast : troubled.Transfer troubled.offerStep 4 brimful [5, 6]
      [.token false, .attempt ⟨[5, 6], 0, []⟩, .flag true] (some (.closed 4)) [5, 6]
      (Pool.bare.close brimful) :=
    @Transfer.closed _ troubled troubled.offerStep 4 _ brimful brimful _ _
      (List.cons_ne_nil _ _) trivial (by decide) trivial (by decide) trivial (by decide)
  have hall : troubled.Transfer troubled.offerStep 0 vacant [1, 2, 3, 4, 5, 6]
      [.token false, .attempt ⟨[1, 2, 3, 4, 5, 6], 4, [1, 2, 3, 4]⟩, .token false,
        .attempt ⟨[5, 6], 0, []⟩, .flag true]
      (some (.closed 4)) [1, 2, 3, 4, 5, 6] (Pool.bare.close brimful) :=
    @Transfer.moved _ troubled troubled.offerStep 0 _ vacant vacant _ _ _ _ _
      (List.cons_ne_nil _ _) trivial (by decide) trivial (by decide) hlast
  exact ⟨hall, (transfers_exact.1 troubled _ _ _ _ _ _ hall).2⟩

end Shared

end EntropySupply
