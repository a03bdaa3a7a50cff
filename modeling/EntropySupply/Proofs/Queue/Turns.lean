import EntropySupply.Proofs.Queue.Fifo
import EntropySupply.Proofs.Ring.Flow

/-!
# Turns at a quiet ring

A fair queue moves fewer bytes in a turn than the ring inside could, but it moves some unless the
ring itself would move none, and it leaves the ring as if just these bytes had been asked for. Main
statement: `layered_pours`, so it is with fair queues in fair queues, whatever their limits are.
-/

namespace EntropySupply

namespace Ring

variable {c : Capacity} {r r₁ r₂ : Ring c} {src dst b b₁ : Bytes} {n m : ℕ}

/-- The first `n` bytes of `src` were put into a ring. -/
structure PutIn (r : Ring c) (src : Bytes) (n : ℕ) (r₁ : Ring c) : Prop where
  le_room : n ≤ r.room
  le_length : n ≤ src.length
  ring_eq : r₁ = r.push (src.take n)

structure TookOut (r : Ring c) (dst : Bytes) (n : ℕ) (b : Bytes) (r₁ : Ring c) : Prop where
  le_stock : n ≤ r.stock
  le_length : n ≤ dst.length
  buffer_eq : b = r.front n ++ dst.drop n
  ring_eq : r₁ = r.pull n

namespace PutIn

theorem none (r : Ring c) (src : Bytes) : r.PutIn src 0 r :=
  ⟨Nat.zero_le _, Nat.zero_le _, (push_nil r).symm⟩

theorem quiet (h : r.PutIn src n r₁) (hr : r.Sound [] []) : r₁.Sound [] [] := by
  rw [h.ring_eq]
  refine quiet_push hr ?_
  rw [List.length_take_of_le h.le_length]
  exact h.le_room

theorem append (h : r.PutIn src n r₁) (hr : r.Sound [] [])
    (h₁ : r₁.PutIn (src.drop n) m r₂) : r.PutIn src (n + m) r₂ := by
  obtain ⟨hroom, hlen, rfl⟩ := h
  obtain ⟨hroom₁, hlen₁, rfl⟩ := h₁
  have htake : (src.take n).length = n := List.length_take_of_le hlen
  rw [room_push (htake.trans_le hroom), htake] at hroom₁
  rw [List.length_drop] at hlen₁
  refine ⟨by omega, by omega, ?_⟩
  rw [List.take_add, push_append hr]
  rw [htake, List.length_take, List.length_drop]
  omega

theorem of_take {budget : ℕ} (h : r.PutIn (src.take budget) n r₁) : r.PutIn src n r₁ := by
  obtain ⟨hroom, hlen, rfl⟩ := h
  rw [List.length_take] at hlen
  exact ⟨hroom, by omega, by rw [List.take_take, Nat.min_eq_left (by omega)]⟩

end PutIn

namespace TookOut

theorem none (r : Ring c) (dst : Bytes) : r.TookOut dst 0 dst r :=
  ⟨Nat.zero_le _, Nat.zero_le _, by rw [front_zero]; rfl, (pull_zero r).symm⟩

theorem quiet (h : r.TookOut dst n b r₁) (hr : r.Sound [] []) : r₁.Sound [] [] := by
  rw [h.ring_eq]
  exact quiet_pull hr h.le_stock

theorem take_drop (h : r.TookOut dst n b r₁) (hr : r.Sound [] []) :
    b.take n = r.front n ∧ b.drop n = dst.drop n := by
  have hfront := length_front hr h.le_stock
  rw [h.buffer_eq]
  exact ⟨List.take_left' hfront, List.drop_left' hfront⟩

theorem append (h : r.TookOut dst n b r₁) (hr : r.Sound [] [])
    (h₁ : r₁.TookOut (b.drop n) m b₁ r₂) : r.TookOut dst (n + m) (b.take n ++ b₁) r₂ := by
  obtain ⟨htake, hdrop⟩ := h.take_drop hr
  have hroom := h.le_stock
  have hlen := h.le_length
  obtain ⟨hroom₁, hlen₁, rfl, rfl⟩ := h₁
  rw [h.ring_eq, stock_pull h.le_stock] at hroom₁
  rw [hdrop, List.length_drop] at hlen₁
  refine ⟨by omega, by omega, ?_, ?_⟩
  · rw [htake, hdrop, h.ring_eq, front_add hr (by omega), List.drop_drop, List.append_assoc]
  · rw [h.ring_eq, pull_add]

theorem of_take {budget : ℕ} (h : r.TookOut (dst.take budget) n b r₁) :
    r.TookOut dst n (b ++ dst.drop budget) r₁ := by
  obtain ⟨hroom, hlen, rfl, rfl⟩ := h
  have hle := hlen
  rw [List.length_take] at hlen
  refine ⟨hroom, by omega, ?_, rfl⟩
  rw [List.append_assoc, ← List.drop_append_of_le_length hle, List.take_append_drop]

end TookOut

end Ring

namespace Pool

variable {c : Capacity}

/-- A queue around a ring that moves what it moves as the ring itself would, and moves nothing only
if the ring itself would move nothing. -/
structure Pours (q : Queue (Pool c)) : Prop where
  capacity : ∀ p, q.capacity p = c.size
  isClosed : ∀ p, q.isClosed p = p.ring.closed
  close : ∀ p, (q.close p).ring = p.ring.close
  offer : ∀ {p : Pool c} (src), p.ring.Sound [] [] →
    p.ring.PutIn src (q.offer p src).count (q.offer p src).state.ring
  poll : ∀ {p : Pool c} (dst), p.ring.Sound [] [] →
    p.ring.TookOut dst (q.poll p dst).count (q.poll p dst).buffer (q.poll p dst).state.ring
  offer_stuck : ∀ {p : Pool c} {src}, p.ring.Sound [] [] → (q.offer p src).count = 0 →
    src = [] ∨ p.ring.room = 0
  poll_stuck : ∀ {p : Pool c} {dst}, p.ring.Sound [] [] → (q.poll p dst).count = 0 →
    dst = [] ∨ p.ring.stock = 0

theorem bare_offer {p : Pool c} (h : p.ring.Sound [] []) (src : Bytes) :
    bare.offer p src = ⟨min src.length p.ring.room,
      { p with ring := p.ring.push (src.take (min src.length p.ring.room)) }⟩ := by
  simp only [bare, Ring.offer?_quiet h]
  rfl

theorem bare_poll {p : Pool c} (h : p.ring.Sound [] []) (dst : Bytes) :
    bare.poll p dst = ⟨min dst.length p.ring.stock,
      p.ring.front (min dst.length p.ring.stock) ++ dst.drop (min dst.length p.ring.stock),
      { p with ring := p.ring.pull (min dst.length p.ring.stock) }⟩ := by
  simp only [bare, Ring.poll?_quiet h]

theorem min_eq_zero_imp {b : Bytes} {k : ℕ} (h : min b.length k = 0) : b = [] ∨ k = 0 := by
  rw [← List.length_eq_zero_iff]
  omega

theorem bare_pours : Pours (bare : Queue (Pool c)) where
  capacity _ := rfl
  isClosed _ := rfl
  close _ := rfl
  offer src h := by
    rw [bare_offer h]
    exact ⟨Nat.min_le_right _ _, Nat.min_le_left _ _, rfl⟩
  poll dst h := by
    rw [bare_poll h]
    exact ⟨Nat.min_le_right _ _, Nat.min_le_left _ _, rfl, rfl⟩
  offer_stuck h hcount := by
    rw [bare_offer h] at hcount
    exact min_eq_zero_imp hcount
  poll_stuck h hcount := by
    rw [bare_poll h] at hcount
    exact min_eq_zero_imp hcount

section Turns

open Queue (turn)

variable {q : Queue (Pool c)}

theorem Pours.turn_offer (hq : Pours q) (limit : ℕ) {p : Pool c} (hp : p.ring.Sound [] [])
    (window : Bytes) :
    p.ring.PutIn window (turn q.offerStep limit p window).moved
      (turn q.offerStep limit p window).state.ring := by
  induction limit generalizing p window with
  | zero => exact .none _ _
  | succ limit ih =>
    have hcall := hq.offer window hp
    unfold turn
    dsimp only
    split_ifs with hempty hcount
    · exact .none _ _
    · have hcount : (q.offer p window).count = 0 := hcount
      rw [hcount] at hcall
      exact hcall
    · exact hcall.append hp (ih (hcall.quiet hp) _)

theorem Pours.turn_poll (hq : Pours q) (limit : ℕ) {p : Pool c} (hp : p.ring.Sound [] [])
    (window : Bytes) :
    p.ring.TookOut window (turn q.poll limit p window).moved
      (turn q.poll limit p window).buffer (turn q.poll limit p window).state.ring := by
  induction limit generalizing p window with
  | zero => exact .none _ _
  | succ limit ih =>
    have hcall := hq.poll window hp
    unfold turn
    dsimp only
    split_ifs with hempty hcount
    · exact .none _ _
    · rw [hcount] at hcall
      exact hcall
    · exact hcall.append hp (ih (hcall.quiet hp) _)

/-- A turn that may call at all moves nothing only if its first call does. -/
theorem turn_stuck {step : Pool c → Bytes → Delivered (Pool c)} {limit : ℕ} (hlimit : limit ≠ 0)
    {p : Pool c} {window : Bytes} (h : (turn step limit p window).moved = 0) :
    window = [] ∨ (step p window).count = 0 := by
  obtain ⟨limit, rfl⟩ := Nat.exists_eq_succ_of_ne_zero hlimit
  unfold turn at h
  dsimp only at h
  split_ifs at h with hempty hcount
  · exact .inl (List.isEmpty_iff.mp hempty)
  · exact .inr hcount
  · exact absurd (Nat.eq_zero_of_add_eq_zero_right h) hcount

theorem ring_fairTurn (q : Queue (Pool c)) (l : TurnBounds) (direction : String)
    (step : Pool c → Bytes → Delivered (Pool c)) (p : Pool c) (b : Bytes) :
    (q.fairTurn l direction step p b).state.ring =
      (turn step l.maxCalls.toNat p (b.take (q.turnBudget l p b.length))).state.ring := by
  simp only [Queue.fairTurn]
  split_ifs
  · rfl
  · rfl

theorem Pours.window_eq_nil (hq : Pours q) {l : TurnBounds} (hbytes : l.maxBytes ≠ 0) {p : Pool c}
    {b : Bytes} (h : b.take (q.turnBudget l p b.length) = []) : b = [] := by
  have hsize := c.size_pos
  have hmax := Ring.toNat_pos hbytes
  have hlen := congrArg List.length h
  rw [Queue.turnBudget, hq.capacity, List.length_take, List.length_nil] at hlen
  exact List.length_eq_zero_iff.mp (by omega)

theorem Pours.fair (hq : Pours q) (a : Arrangement) {l : TurnBounds} (hbytes : l.maxBytes ≠ 0)
    (hcalls : l.maxCalls ≠ 0) : Pours (q.fair a l) where
  capacity := hq.capacity
  isClosed := hq.isClosed
  close := hq.close
  offer := by
    intro p src hp
    simp only [Queue.fair]
    split_ifs with hlock
    · rw [ring_fairTurn]
      exact (hq.turn_offer l.maxCalls.toNat hp _).of_take
    · exact hq.offer src hp
  poll := by
    intro p dst hp
    simp only [Queue.fair]
    split_ifs with hlock
    · rw [ring_fairTurn]
      exact (hq.turn_poll l.maxCalls.toNat hp _).of_take
    · exact hq.poll dst hp
  offer_stuck := by
    intro p src hp hcount
    simp only [Queue.fair] at hcount
    split_ifs at hcount with hlock
    · rcases turn_stuck (Ring.toNat_pos hcalls).ne' hcount with hwindow | hcall
      · exact .inl (hq.window_eq_nil hbytes hwindow)
      · exact (hq.offer_stuck hp hcall).imp_left (hq.window_eq_nil hbytes)
    · exact hq.offer_stuck hp hcount
  poll_stuck := by
    intro p dst hp hcount
    simp only [Queue.fair] at hcount
    split_ifs at hcount with hlock
    · rcases turn_stuck (Ring.toNat_pos hcalls).ne' hcount with hwindow | hcall
      · exact .inl (hq.window_eq_nil hbytes hwindow)
      · exact (hq.poll_stuck hp hcall).imp_left (hq.window_eq_nil hbytes)
    · exact hq.poll_stuck hp hcount

end Turns

theorem ne_zero_of_validate {l : TurnBounds} (h : l.validate = .ok ()) :
    l.maxBytes ≠ 0 ∧ l.maxCalls ≠ 0 := by
  unfold TurnBounds.validate at h
  split_ifs at h with hzero
  simpa using hzero

theorem validate_fair {a : Arrangement} {l : TurnBounds} {inner : List Layer}
    (h : Layer.validate (.fair a l :: inner) = .ok ()) :
    Layer.validate inner = .ok () ∧ l.validate = .ok () := by
  simp only [Layer.validate] at h
  cases hinner : Layer.validate inner with
  | error e =>
    rw [hinner] at h
    cases h
  | ok _ =>
    rw [hinner] at h
    exact ⟨rfl, h⟩

/-- Fair queues in fair queues pour as the ring inside does, if their limits are accepted. -/
theorem layered_pours {layers : List Layer} (hfair : ∀ layer ∈ layers, layer.isCapped = false)
    (hvalid : Layer.validate layers = .ok ()) : Pours (layered layers : Queue (Pool c)) := by
  induction layers with
  | nil => exact bare_pours
  | cons layer inner ih =>
    cases layer with
    | fair a l =>
      obtain ⟨hinner, hlimits⟩ := validate_fair hvalid
      obtain ⟨hbytes, hcalls⟩ := ne_zero_of_validate hlimits
      have h := ih (fun layer hmem => hfair layer (List.mem_cons_of_mem _ hmem)) hinner
      exact h.fair a hbytes hcalls
    | capped caps => exact absurd (hfair _ List.mem_cons_self) (by simp [Layer.isCapped])

end Pool

end EntropySupply
