import EntropySupply.Queue.Channel
import EntropySupply.Queue.Turn
import Mathlib.Tactic

/-!
# Recordings of channels

A recording goes with the state of a channel: it takes down all bytes as they are accepted and
delivered, those that the others move while a transfer waits among them, and those of the user's
call by themselves. Main statements: a recorded transfer is the transfer, and what it sent or got is
the front of its source or buffer, as long as it says.
-/

namespace EntropySupply

structure Recorded (σ : Type) where
  state : σ
  /-- All bytes that were accepted, in the order of time. -/
  accepted : Bytes := []
  /-- All bytes that were delivered, in the order of time. -/
  delivered : Bytes := []
  /-- What the user's call has had accepted. -/
  sent : Bytes := []
  /-- What has been delivered to the user's call. -/
  got : Bytes := []

instance {σ : Type} [Journal σ] : Journal (Recorded σ) where
  note n r := { r with state := Journal.note n r.state }

theorem noteAll_recorded {σ : Type} [Journal σ] (ns : List Notice) (r : Recorded σ) :
    Journal.noteAll ns r = { r with state := Journal.noteAll ns r.state } := by
  unfold Journal.noteAll
  induction ns generalizing r with
  | nil => rfl
  | cons n ns ih => exact ih (Journal.note n r)

namespace Channel

variable {σ : Type}

/-- A channel that takes down what moves; `acted` says what the others have accepted and delivered
to them while a transfer waits. -/
def recorded (ch : Channel σ) (acted : σ → Bytes × Bytes) : Channel (Recorded σ) where
  capacity r := ch.capacity r.state
  offer r src :=
    let m := ch.offer r.state src
    ⟨m.count, { r with
      state := m.state
      accepted := r.accepted ++ src.take m.count
      sent := r.sent ++ src.take m.count }⟩
  poll r dst :=
    let m := ch.poll r.state dst
    ⟨m.count, m.buffer, { r with
      state := m.state
      delivered := r.delivered ++ m.buffer.take m.count
      got := r.got ++ m.buffer.take m.count }⟩
  close r := { r with state := ch.close r.state }
  isClosed r := ch.isClosed r.state
  offer_le r := ch.offer_le r.state
  poll_le r := ch.poll_le r.state
  poll_length r := ch.poll_length r.state
  poll_rest r := ch.poll_rest r.state
  cancelled r := ch.cancelled r.state
  reachable r := ch.reachable r.state
  await r :=
    { r with
      state := ch.await r.state
      accepted := r.accepted ++ (acted r.state).1
      delivered := r.delivered ++ (acted r.state).2 }
  patience r := ch.patience r.state
  offer_settles r := ch.offer_settles r.state
  poll_settles r := ch.poll_settles r.state

section Projection

variable (ch : Channel σ) (acted : σ → Bytes × Bytes) (moved : ℕ) (r : Recorded σ) (rest : Bytes)

theorem writeFrom_recorded :
    ((ch.recorded acted).writeFrom moved r rest).stopped =
        (ch.writeFrom moved r.state rest).stopped ∧
      ((ch.recorded acted).writeFrom moved r rest).state.state =
        (ch.writeFrom moved r.state rest).state := by
  fun_induction (ch.recorded acted).writeFrom moved r rest with
  | case1 moved r =>
    rw [writeFrom_nil]
    exact ⟨rfl, rfl⟩
  | case2 moved r rest hrest hc =>
    rw [writeFrom_cancelled (s := r.state) hrest hc]
    exact ⟨rfl, rfl⟩
  | case3 moved r rest hrest hc m hm s ho =>
    have hcall : ch.offer r.state rest = ⟨0, m.state.state⟩ := congrArg (Accepted.mk · _) hm
    have ho : ch.isClosed (ch.await m.state.state) = true := ho
    rw [writeFrom_refused (s := r.state) hrest hc hcall, if_pos ho]
    exact ⟨rfl, rfl⟩
  | case4 moved r rest hrest hc m hm s ho ih =>
    have hcall : ch.offer r.state rest = ⟨0, m.state.state⟩ := congrArg (Accepted.mk · _) hm
    have ho : ¬ch.isClosed (ch.await m.state.state) = true := ho
    rw [writeFrom_refused (s := r.state) hrest hc hcall, if_neg ho]
    exact ih
  | case5 moved r rest hrest hc m hm ih =>
    rw [writeFrom_moved (s := r.state) hrest hc rfl (Nat.pos_of_ne_zero hm)]
    exact ih

theorem readFrom_recorded :
    ((ch.recorded acted).readFrom moved r rest).stopped =
        (ch.readFrom moved r.state rest).stopped ∧
      ((ch.recorded acted).readFrom moved r rest).buffer =
        (ch.readFrom moved r.state rest).buffer ∧
      ((ch.recorded acted).readFrom moved r rest).state.state =
        (ch.readFrom moved r.state rest).state := by
  fun_induction (ch.recorded acted).readFrom moved r rest with
  | case1 moved r =>
    rw [readFrom_nil]
    exact ⟨rfl, rfl, rfl⟩
  | case2 moved r rest hrest hc =>
    rw [readFrom_cancelled (s := r.state) hrest hc]
    exact ⟨rfl, rfl, rfl⟩
  | case3 moved r rest hrest hc m hm s ho =>
    have hcall : ch.poll r.state rest = ⟨0, m.buffer, m.state.state⟩ :=
      congrArg (Delivered.mk · _ _) hm
    have ho : ch.isClosed (ch.await m.state.state) = true := ho
    rw [readFrom_refused (s := r.state) hrest hc hcall, if_pos ho]
    exact ⟨rfl, rfl, rfl⟩
  | case4 moved r rest hrest hc m hm s ho ih =>
    have hcall : ch.poll r.state rest = ⟨0, m.buffer, m.state.state⟩ :=
      congrArg (Delivered.mk · _ _) hm
    have ho : ¬ch.isClosed (ch.await m.state.state) = true := ho
    rw [readFrom_refused (s := r.state) hrest hc hcall, if_neg ho]
    exact ih
  | case5 moved r rest hrest hc m hm r' ih =>
    rw [readFrom_moved (s := r.state) hrest hc rfl (Nat.pos_of_ne_zero hm)]
    exact ⟨ih.1, congrArg _ ih.2.1, ih.2.2⟩

theorem feedFrom_recorded :
    ((ch.recorded acted).feedFrom moved r rest).count = (ch.feedFrom moved r.state rest).count ∧
      ((ch.recorded acted).feedFrom moved r rest).state.state =
        (ch.feedFrom moved r.state rest).state := by
  fun_induction (ch.recorded acted).feedFrom moved r rest with
  | case1 moved r =>
    rw [feedFrom_stop (s := r.state) (.inl rfl)]
    exact ⟨rfl, rfl⟩
  | case2 moved r rest hrest hc =>
    rw [feedFrom_stop (s := r.state) (.inr (.inl hc))]
    exact ⟨rfl, rfl⟩
  | case3 moved r rest hrest hc hu =>
    rw [feedFrom_stop (s := r.state) (.inr (.inr (.inl hu)))]
    exact ⟨rfl, rfl⟩
  | case4 moved r rest hrest hc hu ho =>
    rw [feedFrom_stop (s := r.state) (.inr (.inr (.inr ho)))]
    exact ⟨rfl, rfl⟩
  | case5 moved r rest hrest hc hu ho m hm ih =>
    have hcall : ch.offer r.state rest = ⟨0, m.state.state⟩ := congrArg (Accepted.mk · _) hm
    rw [feedFrom_refused (s := r.state) hrest hc hu ho hcall]
    exact ih
  | case6 moved r rest hrest hc hu ho m hm ih =>
    rw [feedFrom_moved (s := r.state) hrest hc hu ho rfl (Nat.pos_of_ne_zero hm)]
    exact ih

end Projection

section Calls

variable {ch : Channel σ} {acted : σ → Bytes × Bytes}

/-- The recording of a call that sent a front part of `src`. -/
structure SentFront (before after : Recorded σ) (src : Bytes) (n : ℕ) : Prop where
  le : n ≤ src.length
  sent : after.sent = before.sent ++ src.take n
  got : after.got = before.got

theorem SentFront.none (r : Recorded σ) (src : Bytes) : SentFront r r src 0 :=
  ⟨Nat.zero_le _, by simp, rfl⟩

/-- An attempt that moved nothing and the wait after it leave no trace in the call. -/
theorem SentFront.wait {r after : Recorded σ} {rest : Bytes} {n : ℕ}
    (hm : (ch.offer r.state rest).count = 0)
    (h : SentFront ((ch.recorded acted).await ((ch.recorded acted).offer r rest).state) after rest n) :
    SentFront r after rest n := by
  refine ⟨h.le, h.sent.trans ?_, h.got⟩
  simp [recorded, hm]

theorem SentFront.append {r after : Recorded σ} {rest : Bytes} {n : ℕ}
    (h : SentFront ((ch.recorded acted).offer r rest).state after
      (rest.drop (ch.offer r.state rest).count) n) :
    SentFront r after rest ((ch.offer r.state rest).count + n) := by
  have hle := ch.offer_le r.state rest
  have hn := h.le
  rw [List.length_drop] at hn
  refine ⟨by omega, h.sent.trans ?_, h.got⟩
  simp only [recorded]
  rw [List.append_assoc, ← List.take_add]

/-- How much of a call of `length` bytes was moved, if it stopped like that. -/
def movedUntil (length : ℕ) : Option Interruption → ℕ
  | none => length
  | some e => e.transferred

theorem writeFrom_sent (ch : Channel σ) (acted : σ → Bytes × Bytes) (moved : ℕ) (r : Recorded σ)
    (rest : Bytes) :
    ∃ n, SentFront r ((ch.recorded acted).writeFrom moved r rest).state rest n ∧
      movedUntil (moved + rest.length) ((ch.recorded acted).writeFrom moved r rest).stopped =
        moved + n := by
  fun_induction (ch.recorded acted).writeFrom moved r rest with
  | case1 moved r => exact ⟨0, .none r _, rfl⟩
  | case2 moved r rest => exact ⟨0, .none r _, rfl⟩
  | case3 moved r rest hrest hc m hm s ho => exact ⟨0, .wait hm (.none _ _), rfl⟩
  | case4 moved r rest hrest hc m hm s ho ih =>
    obtain ⟨n, hn, hmoved⟩ := ih
    exact ⟨n, .wait hm hn, hmoved⟩
  | case5 moved r rest hrest hc m hm ih =>
    obtain ⟨n, hn, hmoved⟩ := ih
    refine ⟨m.count + n, .append hn, ?_⟩
    have hle : m.count ≤ rest.length := ch.offer_le r.state rest
    rw [List.length_drop] at hmoved
    rw [show moved + rest.length = moved + m.count + (rest.length - m.count) by omega, hmoved]
    omega

theorem feedFrom_sent (ch : Channel σ) (acted : σ → Bytes × Bytes) (moved : ℕ) (r : Recorded σ)
    (rest : Bytes) :
    ∃ n, SentFront r ((ch.recorded acted).feedFrom moved r rest).state rest n ∧
      ((ch.recorded acted).feedFrom moved r rest).count = moved + n := by
  fun_induction (ch.recorded acted).feedFrom moved r rest with
  | case5 moved r rest hrest hc hu ho m hm ih =>
    obtain ⟨n, hn, hmoved⟩ := ih
    exact ⟨n, .wait hm hn, hmoved⟩
  | case6 moved r rest hrest hc hu ho m hm ih =>
    obtain ⟨n, hn, hmoved⟩ := ih
    exact ⟨m.count + n, .append hn, by rw [hmoved, Nat.add_assoc]⟩
  | _ => exact ⟨0, .none _ _, rfl⟩

structure GotFront (before after : Recorded σ) (dst buffer : Bytes) (n : ℕ) : Prop where
  le : n ≤ dst.length
  length : buffer.length = dst.length
  got : after.got = before.got ++ buffer.take n
  untouched : buffer.drop n = dst.drop n
  sent : after.sent = before.sent

theorem GotFront.none (r : Recorded σ) (dst : Bytes) : GotFront r r dst dst 0 :=
  ⟨Nat.zero_le _, rfl, by simp, rfl, rfl⟩

theorem GotFront.wait {r after : Recorded σ} {rest buffer : Bytes} {n : ℕ}
    (hm : (ch.poll r.state rest).count = 0)
    (h : GotFront ((ch.recorded acted).await ((ch.recorded acted).poll r rest).state) after
      (ch.poll r.state rest).buffer buffer n) :
    GotFront r after rest buffer n := by
  rw [ch.movesFront_poll.buffer_eq hm] at h
  refine ⟨h.le, h.length, h.got.trans ?_, h.untouched, h.sent⟩
  simp [recorded, hm]

theorem GotFront.append {r after : Recorded σ} {rest buffer : Bytes} {n : ℕ}
    (h : GotFront ((ch.recorded acted).poll r rest).state after
      ((ch.poll r.state rest).buffer.drop (ch.poll r.state rest).count) buffer n) :
    GotFront r after rest
      ((ch.poll r.state rest).buffer.take (ch.poll r.state rest).count ++ buffer)
      ((ch.poll r.state rest).count + n) := by
  have hle := ch.poll_le r.state rest
  have hlen := ch.poll_length r.state rest
  have hfront : ((ch.poll r.state rest).buffer.take (ch.poll r.state rest).count).length =
      (ch.poll r.state rest).count := by
    rw [List.length_take]
    omega
  have hn := h.le
  have hbuffer := h.length
  rw [List.length_drop] at hn hbuffer
  refine ⟨by omega, by rw [List.length_append]; omega, h.got.trans ?_, ?_, h.sent⟩
  · simp only [recorded]
    rw [List.take_append, hfront, Nat.add_sub_cancel_left, List.take_take,
      Nat.min_eq_right (Nat.le_add_right _ _), List.append_assoc]
  · rw [List.drop_append, hfront, Nat.add_sub_cancel_left, h.untouched,
      List.drop_eq_nil_of_le (by omega), List.nil_append, ch.poll_rest, List.drop_drop]

theorem readFrom_got (ch : Channel σ) (acted : σ → Bytes × Bytes) (moved : ℕ) (r : Recorded σ)
    (rest : Bytes) :
    ∃ n, GotFront r ((ch.recorded acted).readFrom moved r rest).state rest
        ((ch.recorded acted).readFrom moved r rest).buffer n ∧
      movedUntil (moved + rest.length) ((ch.recorded acted).readFrom moved r rest).stopped =
        moved + n := by
  fun_induction (ch.recorded acted).readFrom moved r rest with
  | case1 moved r => exact ⟨0, .none r _, rfl⟩
  | case2 moved r rest => exact ⟨0, .none r _, rfl⟩
  | case3 moved r rest hrest hc m hm s ho => exact ⟨0, .wait hm (.none _ _), rfl⟩
  | case4 moved r rest hrest hc m hm s ho ih =>
    obtain ⟨n, hn, hmoved⟩ := ih
    have hlen : m.buffer.length = rest.length := ch.poll_length r.state rest
    rw [hlen] at hmoved
    exact ⟨n, .wait hm hn, hmoved⟩
  | case5 moved r rest hrest hc m hm r' ih =>
    obtain ⟨n, hn, hmoved⟩ := ih
    refine ⟨m.count + n, .append hn, ?_⟩
    have hle : m.count ≤ rest.length := ch.poll_le r.state rest
    have hlen : m.buffer.length = rest.length := ch.poll_length r.state rest
    rw [List.length_drop, hlen] at hmoved
    rw [show moved + rest.length = moved + m.count + (rest.length - m.count) by omega, hmoved]
    omega

end Calls

/-- Whether single calls and waits keep a property of the state. -/
structure Preserves (ch : Channel σ) (P : σ → Prop) : Prop where
  offer : ∀ {s} (src), P s → P (ch.offer s src).state
  poll : ∀ {s} (dst), P s → P (ch.poll s dst).state
  await : ∀ {s}, P s → P (ch.await s)

namespace Preserves

variable {ch : Channel σ} {P : σ → Prop}

theorem writeFrom (h : ch.Preserves P) (moved : ℕ) {s : σ} (rest : Bytes) (hs : P s) :
    P (ch.writeFrom moved s rest).state := by
  fun_induction ch.writeFrom moved s rest with
  | case1 => exact hs
  | case2 => exact hs
  | case3 moved s rest => exact h.await (h.offer rest hs)
  | case4 moved s rest hrest hc m hm s' ho ih => exact ih (h.await (h.offer rest hs))
  | case5 moved s rest hrest hc m hm ih => exact ih (h.offer rest hs)

theorem readFrom (h : ch.Preserves P) (moved : ℕ) {s : σ} (rest : Bytes) (hs : P s) :
    P (ch.readFrom moved s rest).state := by
  fun_induction ch.readFrom moved s rest with
  | case1 => exact hs
  | case2 => exact hs
  | case3 moved s rest => exact h.await (h.poll rest hs)
  | case4 moved s rest hrest hc m hm s' ho ih => exact ih (h.await (h.poll rest hs))
  | case5 moved s rest hrest hc m hm r ih => exact ih (h.poll rest hs)

theorem feedFrom (h : ch.Preserves P) (moved : ℕ) {s : σ} (rest : Bytes) (hs : P s) :
    P (ch.feedFrom moved s rest).state := by
  fun_induction ch.feedFrom moved s rest with
  | case5 moved s rest hrest hc hu ho m hm ih => exact ih (h.await (h.offer rest hs))
  | case6 moved s rest hrest hc hu ho m hm ih => exact ih (h.offer rest hs)
  | _ => exact hs

end Preserves

end Channel

end EntropySupply
