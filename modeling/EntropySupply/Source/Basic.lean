import EntropySupply.Bytes
import EntropySupply.Source.Failure

/-!
# Seed sources

A source fills buffers, or fails and leaves them in any state. It keeps a state of its own, and
what goes on around it may change while it works.
-/

namespace EntropySupply

/-- What one fill did: why it failed, if it did, what the buffer holds then, the source after it
and what is around it. -/
structure Filled (τ ε : Type) where
  failure : Option Source.Failure
  buffer : Bytes
  source : τ
  around : ε

structure Source (τ ε : Type) where
  /-- What the source is called in notices. -/
  name : String
  /-- The longest buffer that one fill accepts. -/
  maxRequest : Nat
  /-- The wait that the source asked for with its latest answer. -/
  advised : τ → Option Duration
  fill : τ → ε → Bytes → Filled τ ε
  fill_length : ∀ t e b, (fill t e b).buffer.length = b.length

namespace Source

variable {τ ε : Type}

/-- The largest length of a buffer, for sources that accept any. -/
def unlimited : Nat := UInt64.size - 1

def fillAll (src : Source τ ε) (t : τ) (e : ε) : List Bytes → Filled τ ε
  | [] => ⟨none, [], t, e⟩
  | b :: bs =>
    let f := src.fill t e b
    match f.failure with
    | some err => ⟨some err, f.buffer ++ bs.flatten, f.source, f.around⟩
    | none =>
      let r := src.fillAll f.source f.around bs
      { r with buffer := f.buffer ++ r.buffer }

theorem length_fillAll (src : Source τ ε) (t : τ) (e : ε) (bs : List Bytes) :
    (src.fillAll t e bs).buffer.length = bs.flatten.length := by
  induction bs generalizing t e with
  | nil => rfl
  | cons b bs ih =>
    simp only [fillAll]
    split <;> simp [src.fill_length, ih]

/-- Fills one buffer of `n` bytes by requests of a length that the source accepts. -/
def fetch (src : Source τ ε) (t : τ) (e : ε) (n : Nat) : Filled τ ε :=
  src.fillAll t e (Bytes.chunks (max src.maxRequest 1) (List.replicate n 0))

theorem length_fetch (src : Source τ ε) (t : τ) (e : ε) (n : Nat) :
    (src.fetch t e n).buffer.length = n := by
  rw [fetch, length_fillAll, Bytes.flatten_chunks, List.length_replicate]

end Source

end EntropySupply
