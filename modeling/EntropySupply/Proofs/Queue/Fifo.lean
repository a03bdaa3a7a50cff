import EntropySupply.Proofs.Ring.Contents
import EntropySupply.Queue.Pool

/-!
# First in, first out

A queue passes bytes on in order if an offer puts what it accepts behind what the state holds, and a
poll takes what it delivers from the front. Caps and turns split a call into smaller ones and put
the parts together again, so they keep this, and every stack of layers around a ring has it.
-/

namespace EntropySupply

namespace Queue

variable {σ : Type} {q : Queue σ} {Contains : σ → Bytes → Prop}

/-- Calls keep what a state contains in order. -/
structure Fifo (q : Queue σ) (Contains : σ → Bytes → Prop) : Prop where
  offer : ∀ {s text} (src), Contains s text →
    Contains (q.offer s src).state (text ++ src.take (q.offer s src).count)
  poll : ∀ {s text} (dst), Contains s text →
    ∃ rest, text = (q.poll s dst).buffer.take (q.poll s dst).count ++ rest ∧
      Contains (q.poll s dst).state rest
  close : ∀ {s text}, Contains s text → Contains (q.close s) text

theorem Fifo.capped (h : q.Fifo Contains) {offerCap pollCap : σ → ℕ × σ}
    (ho : ∀ {s text}, Contains s text → Contains (offerCap s).2 text)
    (hp : ∀ {s text}, Contains s text → Contains (pollCap s).2 text) :
    (q.capped offerCap pollCap).Fifo Contains where
  offer := by
    intro s text src hs
    have hle := q.offer_le (offerCap s).2 (src.take (offerCap s).1)
    have hs' := h.offer (src.take (offerCap s).1) (ho hs)
    rw [List.length_take] at hle
    rw [List.take_take, Nat.min_eq_left (by omega)] at hs'
    exact hs'
  poll := by
    intro s text dst hs
    have hle := q.poll_le (pollCap s).2 (dst.take (pollCap s).1)
    have hlen := q.poll_length (pollCap s).2 (dst.take (pollCap s).1)
    obtain ⟨rest, htext, hrest⟩ := h.poll (dst.take (pollCap s).1) (hp hs)
    refine ⟨rest, ?_, hrest⟩
    simp only [Queue.capped]
    rw [List.take_append_of_le_length (by omega)]
    exact htext
  close := h.close

theorem Fifo.turn_offer (h : q.Fifo Contains) (limit : ℕ) (window : Bytes) {s : σ} {text : Bytes}
    (hs : Contains s text) :
    Contains (turn q.offerStep limit s window).state
      (text ++ window.take (turn q.offerStep limit s window).moved) := by
  induction limit generalizing s window text with
  | zero => simpa [turn] using hs
  | succ limit ih =>
    have hm := h.offer window hs
    unfold turn
    dsimp only
    split_ifs with hempty hcount
    · simpa using hs
    · have hcount : (q.offer s window).count = 0 := hcount
      simpa [hcount, offerStep] using hm
    · have ht := ih (window.drop (q.offer s window).count) hm
      rw [List.append_assoc, ← List.take_add] at ht
      exact ht

/-- A turn of polls delivers what comes out of the front, call after call. -/
theorem Fifo.turn_poll (h : q.Fifo Contains) (limit : ℕ) (window : Bytes) {s : σ} {text : Bytes}
    (hs : Contains s text) :
    ∃ rest, text = (turn q.poll limit s window).buffer.take (turn q.poll limit s window).moved ++
        rest ∧ Contains (turn q.poll limit s window).state rest := by
  induction limit generalizing s window text with
  | zero => exact ⟨text, rfl, hs⟩
  | succ limit ih =>
    obtain ⟨rest, htext, hrest⟩ := h.poll window hs
    unfold turn
    dsimp only
    split_ifs with hempty hcount
    · exact ⟨text, rfl, hs⟩
    · rw [hcount] at htext
      exact ⟨rest, htext, hrest⟩
    · obtain ⟨rest', hfront, hrest'⟩ :=
        ih ((q.poll s window).buffer.drop (q.poll s window).count) hrest
      refine ⟨rest', ?_, hrest'⟩
      have hlen : ((q.poll s window).buffer.take (q.poll s window).count).length =
          (q.poll s window).count := by
        rw [List.length_take, q.poll_length, Nat.min_eq_left (q.poll_le s window)]
      rw [htext, hfront, ← List.append_assoc]
      congr 1
      dsimp only
      rw [List.take_append, hlen, Nat.add_sub_cancel_left, List.take_take,
        Nat.min_eq_right (Nat.le_add_right _ _)]

variable [Journal σ]

theorem Fifo.fair (h : q.Fifo Contains)
    (hnote : ∀ {s text} (n : Notice), Contains s text → Contains (Journal.note n s) text)
    (a : Arrangement) (l : TurnBounds) : (q.fair a l).Fifo Contains where
  offer := by
    intro s text src hs
    simp only [Queue.fair]
    split_ifs with hlock
    · have hturn := h.turn_offer l.maxCalls.toNat (src.take (q.turnBudget l s src.length)) hs
      have hle := turn_moved_le q.movesFront_offerStep l.maxCalls.toNat s
        (src.take (q.turnBudget l s src.length))
      rw [List.length_take] at hle
      rw [List.take_take, Nat.min_eq_left (by omega)] at hturn
      simp only [fairTurn]
      split_ifs
      · exact hnote _ hturn
      · exact hturn
    · exact h.offer src hs
  poll := by
    intro s text dst hs
    simp only [Queue.fair]
    split_ifs with hlock
    · obtain ⟨rest, htext, hrest⟩ := h.turn_poll l.maxCalls.toNat
        (dst.take (q.turnBudget l s dst.length)) hs
      have hle := turn_moved_le q.movesFront_poll l.maxCalls.toNat s
        (dst.take (q.turnBudget l s dst.length))
      have hlen := turn_length q.movesFront_poll l.maxCalls.toNat s
        (dst.take (q.turnBudget l s dst.length))
      refine ⟨rest, ?_, ?_⟩
      · simp only [fairTurn]
        rw [List.take_append_of_le_length (by omega)]
        exact htext
      · simp only [fairTurn]
        split_ifs
        · exact hnote _ hrest
        · exact hrest
    · exact h.poll dst hs
  close := h.close

end Queue

namespace Pool

variable {c : Capacity}

def Contains (p : Pool c) (text : Bytes) : Prop := p.ring.Contains text

theorem ring_noteAll (ns : List Notice) (p : Pool c) : (Journal.noteAll ns p).ring = p.ring := by
  unfold Journal.noteAll
  induction ns generalizing p with
  | nil => rfl
  | cons n ns ih => exact ih (Journal.note n p)

theorem bare_fifo : (bare : Queue (Pool c)).Fifo Contains where
  offer := by
    intro p text src hp
    simp only [bare]
    split
    · simpa using hp
    · rename_i ho
      unfold Contains
      rw [ring_noteAll]
      exact hp.offer ho
  poll := by
    intro p text dst hp
    simp only [bare]
    split
    · exact ⟨text, rfl, hp⟩
    · rename_i ho
      exact hp.poll ho
  close := fun hp => hp.close

/-- Queues that are a ring in any layers; a layer may draw its caps from anything but the ring. -/
inductive Stack : Queue (Pool c) → Prop
  | bare : Stack bare
  | fair {q : Queue (Pool c)} (a : Arrangement) (l : TurnBounds) : Stack q → Stack (q.fair a l)
  | capped {q : Queue (Pool c)} {offerCap pollCap : Pool c → ℕ × Pool c} :
    (∀ p, (offerCap p).2.ring = p.ring) → (∀ p, (pollCap p).2.ring = p.ring) → Stack q →
      Stack (q.capped offerCap pollCap)

theorem stack_layered (layers : List Layer) : Stack (layered layers : Queue (Pool c)) := by
  induction layers with
  | nil => exact .bare
  | cons layer inner ih =>
    cases layer with
    | fair a l => exact ih.fair a l
    | capped caps => exact ih.capped (fun _ => rfl) fun _ => rfl

theorem Stack.fifo {q : Queue (Pool c)} (h : Stack q) : q.Fifo Contains := by
  induction h with
  | bare => exact bare_fifo
  | fair a l _ ih => exact ih.fair (fun _ hp => hp) a l
  | capped ho hp _ ih =>
    refine ih.capped ?_ ?_
    · intro p text h
      unfold Contains
      rw [ho]
      exact h
    · intro p text h
      unfold Contains
      rw [hp]
      exact h

end Pool

end EntropySupply
