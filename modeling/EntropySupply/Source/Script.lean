import EntropySupply.Generator.Basic
import EntropySupply.Source.Basic

/-!
# Scripted sources

A source that follows a script: each entry says whether the request with its number succeeds, and
what wait comes with it. Bytes come from the numbers of the request and of the byte, or from a
generator.
-/

namespace EntropySupply.Source

structure Entry where
  failure : Option Failure := none
  advised : Option Duration := none
  deriving DecidableEq, Repr

/-- Where the bytes of a scripted source come from. -/
structure Supply (γ : Type) where
  name : String
  /-- Whether the waits of the script are passed on. -/
  advises : Bool
  /-- `n` bytes for the `k`-th request. -/
  bytes : (k n : Nat) → γ → Bytes × γ
  length_bytes : ∀ k n g, (bytes k n g).1.length = n

/-- Byte `i` of the answer to request `k` is `16 * k + i`, modulo 256. -/
def counting (name : String) : Supply Unit where
  name
  advises := true
  bytes k n u := ((List.range n).map fun i => UInt8.ofNat (16 * k + i), u)
  length_bytes := by simp

/-- Bytes from a generator, which has no waits to advise. -/
def drawing (γ : Type) [Generator γ] : Supply γ where
  name := "rng"
  advises := false
  bytes _ n g := Generator.fill n g
  length_bytes _ n g := Generator.length_fill n g

/-- Bytes of the operating system, which come from outside as one long stream. -/
def system : Supply (Nat → UInt8) where
  name := "os"
  advises := false
  bytes _ n stream := ((List.range n).map stream, fun i => stream (n + i))
  length_bytes := by simp

/-- A scripted source under way. -/
structure Script (γ : Type) where
  /-- The entries not used yet; every request after the last one succeeds. -/
  entries : List Entry := []
  generator : γ
  /-- The sizes of the requests so far. -/
  requests : List Nat := []
  advised : Option Duration := none

/-- What a failed request leaves in the buffer. -/
def spoilt (n : Nat) : Bytes := List.replicate n 0xee

/-- The source that follows a script. `before` is what happens around it ahead of each answer. -/
def scripted {γ ε : Type} (supply : Supply γ) (maxRequest : Nat) (before : ε → ε) :
    Source (Script γ) ε where
  name := supply.name
  maxRequest
  advised s := if supply.advises then s.advised else none
  fill s e b :=
    let entry := s.entries.headD {}
    let s := { s with entries := s.entries.drop 1, requests := s.requests ++ [b.length]
                      advised := entry.advised }
    match entry.failure with
    | some err => ⟨some err, spoilt b.length, s, before e⟩
    | none =>
      let r := supply.bytes s.requests.length b.length s.generator
      ⟨none, r.1, { s with generator := r.2 }, before e⟩
  fill_length s e b := by
    dsimp only
    split
    · simp [spoilt]
    · simp [supply.length_bytes]

end EntropySupply.Source
