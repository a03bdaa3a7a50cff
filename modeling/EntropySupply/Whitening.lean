import EntropySupply.Sha256

/-!
# Whitening

What happens to a chunk of source bytes before it reaches a queue: nothing, or whitening. A
whitened chunk is cut from a chain of hashes, each over the hash before it, a window of the raw
bytes and a counter; the windows walk through the raw bytes and start over at their end.
-/

namespace EntropySupply

inductive Whitening where
  | raw
  | sha256
  deriving DecidableEq, Repr

namespace Whitening

def name : Whitening → String
  | .raw => "raw"
  | .sha256 => "sha256"

def describe : Whitening → String
  | .raw => "Raw"
  | .sha256 => "Sha256"

def windowSize : Nat := 64

def blockSize : Nat := 32

/-- The next `blocks` hashes of the chain, one after another. The window starts at `offset`, and
`previous` is the hash before. -/
def chain (hash : Bytes → Bytes) (raw : Bytes) :
    (blocks : Nat) → (counter : UInt64) → (offset : Nat) → (previous : Bytes) → Bytes
  | 0, _, _, _ => []
  | blocks + 1, counter, offset, previous =>
    let stop := min (offset + windowSize) raw.length
    let window := (raw.take stop).drop offset
    let block := hash (previous ++ window ++ Bytes.ofWordLE counter)
    block ++ chain hash raw blocks (counter + 1) (if stop = raw.length then 0 else stop) block

/-- `n` bytes of the chain over `raw` with the given hash. -/
def whiten (hash : Bytes → Bytes) (raw : Bytes) (n : Nat) : Bytes :=
  (chain hash raw ((n + blockSize - 1) / blockSize) 0 0 (List.replicate blockSize 0)).take n

/-- The `n` bytes that a chunk of raw bytes becomes. -/
def apply (mode : Whitening) (raw : Bytes) (n : Nat) : Bytes :=
  match mode with
  | .raw => Bytes.fit n raw
  | .sha256 => whiten Sha256.digest raw n

theorem length_chain {hash : Bytes → Bytes} (hh : ∀ m, (hash m).length = blockSize) (raw : Bytes)
    (blocks : Nat) (counter : UInt64) (offset : Nat) (previous : Bytes) :
    (chain hash raw blocks counter offset previous).length = blocks * blockSize := by
  induction blocks generalizing counter offset previous with
  | zero => simp [chain]
  | succ blocks ih =>
    simp only [chain, List.length_append, hh, ih, Nat.succ_mul]
    omega

theorem length_whiten {hash : Bytes → Bytes} (hh : ∀ m, (hash m).length = blockSize) (raw : Bytes)
    (n : Nat) : (whiten hash raw n).length = n := by
  rw [whiten, List.length_take, length_chain hh, blockSize]
  omega

@[simp] theorem length_apply (mode : Whitening) (raw : Bytes) (n : Nat) :
    (mode.apply raw n).length = n := by
  cases mode with
  | raw => exact Bytes.length_fit n raw
  | sha256 => exact length_whiten Sha256.length_digest raw n

end Whitening

end EntropySupply
