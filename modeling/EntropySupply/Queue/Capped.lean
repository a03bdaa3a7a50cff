import EntropySupply.Queue.Basic

/-!
# Capped queues

A queue that passes on at most so many bytes of every call. The caps come out of the state, so they
may follow any schedule; the queue inside is called even when the cap is zero.
-/

namespace EntropySupply.Queue

variable {σ : Type}

/-- The queue with its offers and polls cut to the caps that the state gives out. -/
def capped (q : Queue σ) (offerCap pollCap : σ → Nat × σ) : Queue σ where
  capacity := q.capacity
  offer s src :=
    let cap := offerCap s
    q.offer cap.2 (src.take cap.1)
  poll s dst :=
    let cap := pollCap s
    let m := q.poll cap.2 (dst.take cap.1)
    ⟨m.count, m.buffer ++ dst.drop cap.1, m.state⟩
  close := q.close
  isClosed := q.isClosed
  offer_le s src := by
    refine Nat.le_trans (q.offer_le _ _) ?_
    rw [List.length_take]
    exact Nat.min_le_right _ _
  poll_le s dst := by
    refine Nat.le_trans (q.poll_le _ _) ?_
    rw [List.length_take]
    exact Nat.min_le_right _ _
  poll_length s dst := by
    simp only [List.length_append, q.poll_length, List.length_take, List.length_drop]
    omega
  poll_rest s dst := by
    have hn := q.poll_le (pollCap s).2 (dst.take (pollCap s).1)
    have hl := q.poll_length (pollCap s).2 (dst.take (pollCap s).1)
    dsimp only
    rw [List.drop_append_of_le_length (by omega), q.poll_rest,
      ← List.drop_append_of_le_length hn, List.take_append_drop]

end EntropySupply.Queue
