/-!
# Byte strings

Seed material, draws and queue contents are lists of bytes. This module fixes how a list is cut
or padded to a length and how words are laid out in bytes: `toNatLE` and `toNatBE` read a list as
a base-256 numeral, least or most significant byte first, and `ofNatLE` writes one.
-/

namespace EntropySupply

abbrev Bytes := List UInt8

namespace Bytes

/-- The first `n` bytes, with zero bytes appended when there are fewer. -/
def fit (n : Nat) (b : Bytes) : Bytes :=
  b.take n ++ List.replicate (n - b.length) 0

@[simp] theorem length_fit (n : Nat) (b : Bytes) : (fit n b).length = n := by
  simp [fit]; omega

theorem fit_of_length_eq {n : Nat} {b : Bytes} (h : b.length = n) : fit n b = b := by
  simp [fit, h, List.take_of_length_le (Nat.le_of_eq h)]

/-- The `n` low base-256 digits of a number, least significant first. -/
def ofNatLE : Nat → Nat → Bytes
  | 0, _ => []
  | n + 1, v => UInt8.ofNat v :: ofNatLE n (v / 256)

@[simp] theorem length_ofNatLE (n v : Nat) : (ofNatLE n v).length = n := by
  induction n generalizing v with
  | zero => rfl
  | succ n ih => simp [ofNatLE, ih]

def toNatLE : Bytes → Nat
  | [] => 0
  | b :: bs => b.toNat + 256 * toNatLE bs

/-- The number whose base-256 digits, most significant first, are the bytes. -/
def toNatBE (b : Bytes) : Nat :=
  b.foldl (fun v d => 256 * v + d.toNat) 0

def ofWordLE (w : UInt64) : Bytes := ofNatLE 8 w.toNat

def ofWordBE (w : UInt64) : Bytes := (ofWordLE w).reverse

/-- Byte-wise exclusive or of two strings, as long as the shorter one. -/
def xor (a b : Bytes) : Bytes := List.zipWith (· ^^^ ·) a b

/-- The string cut into pieces of `n` bytes, the last one possibly shorter; one piece per byte
when `n` is zero. -/
def chunks (n : Nat) (b : Bytes) : List Bytes :=
  match b with
  | [] => []
  | x :: xs => (x :: xs.take (n - 1)) :: chunks n (xs.drop (n - 1))
termination_by b.length
decreasing_by simp only [List.length_drop, List.length_cons]; omega

theorem flatten_chunks (n : Nat) (b : Bytes) : (chunks n b).flatten = b := by
  fun_induction chunks n b with
  | case1 => rfl
  | case2 x xs ih => simp [ih]

theorem length_mem_chunks {n : Nat} {b p : Bytes} (h : p ∈ chunks n b) :
    0 < p.length ∧ p.length ≤ max n 1 := by
  fun_induction chunks n b with
  | case1 => cases h
  | case2 x xs ih =>
    rcases List.mem_cons.mp h with rfl | h
    · simp only [List.length_cons, List.length_take]
      omega
    · exact ih h

end Bytes

end EntropySupply
