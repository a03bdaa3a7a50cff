import EntropySupply.Bytes

/-!
# Byte queues

A queue over a state is given by what one call does to the state. An offer accepts a first part of
its source, and a poll fills a first part of its buffer; both may move nothing. The laws that the
type carries say no more than that.
-/

namespace EntropySupply

/-- What an offer did: how many bytes were accepted, and the state after it. -/
structure Accepted (σ : Type) where
  count : Nat
  state : σ

/-- What a poll did: how many bytes were delivered, what its buffer holds then, and the state after
it. -/
structure Delivered (σ : Type) where
  count : Nat
  buffer : Bytes
  state : σ

structure Queue (σ : Type) where
  /-- The largest number of bytes that the queue can hold. -/
  capacity : σ → Nat
  offer : σ → Bytes → Accepted σ
  poll : σ → Bytes → Delivered σ
  /-- Refuses all later offers. -/
  close : σ → σ
  isClosed : σ → Bool
  offer_le : ∀ s src, (offer s src).count ≤ src.length
  poll_le : ∀ s dst, (poll s dst).count ≤ dst.length
  poll_length : ∀ s dst, (poll s dst).buffer.length = dst.length
  poll_rest : ∀ s dst, (poll s dst).buffer.drop (poll s dst).count = dst.drop (poll s dst).count

theorem Queue.poll_buffer {σ : Type} (q : Queue σ) (s : σ) (dst : Bytes) :
    (q.poll s dst).buffer =
      (q.poll s dst).buffer.take (q.poll s dst).count ++ dst.drop (q.poll s dst).count := by
  rw [← q.poll_rest, List.take_append_drop]

end EntropySupply
