import EntropySupply.Bytes

/-!
# Generators

A generator turns a state into words and a next state. Bytes are cut from its words: eight from
each 64-bit word, and a rest of one to four from a 32-bit word.
-/

namespace EntropySupply

class Generator (γ : Type) where
  next32 : γ → UInt32 × γ
  next64 : γ → UInt64 × γ

class Seedable (γ : Type) extends Generator γ where
  /-- The length of a seed in bytes. -/
  seedLength : Nat
  /-- The generator of a seed. A shorter seed counts as followed by zeros, and of a longer one only
  the first `seedLength` bytes count. -/
  ofSeed : Bytes → γ
  /-- The generator of a seed that is expanded from one word. -/
  ofWord : UInt64 → γ

namespace Generator

variable {γ : Type} [Generator γ]

/-- `n` bytes cut from the words of a generator. -/
def fill (n : Nat) (g : γ) : Bytes × γ :=
  if n = 0 then ([], g)
  else if n ≤ 4 then
    let w := next32 g
    ((Bytes.ofNatLE 4 w.1.toNat).take n, w.2)
  else if n < 8 then
    let w := next64 g
    ((Bytes.ofWordLE w.1).take n, w.2)
  else
    let w := next64 g
    let r := fill (n - 8) w.2
    (Bytes.ofWordLE w.1 ++ r.1, r.2)
termination_by n
decreasing_by omega

theorem length_fill (n : Nat) (g : γ) : (fill n g).1.length = n := by
  fun_induction fill n g with
  | case1 => rfl
  | case2 n g h0 h w => simp; omega
  | case3 n g h0 h h8 w => simp [Bytes.ofWordLE]; omega
  | case4 n g h0 h h8 w r ih =>
    show (Bytes.ofWordLE w.1 ++ (fill (n - 8) w.2).1).length = n
    simp [Bytes.ofWordLE, ih]; omega

def peek : Nat → γ → List UInt64
  | 0, _ => []
  | n + 1, g =>
    let w := next64 g
    w.1 :: peek n w.2

end Generator

namespace Seed

/-- The bytes that a word is expanded to, four for each step of a linear congruence whose state is
permuted before it is given out. A last part of fewer than four bytes takes the first bytes of one
more output. -/
def expand (n : Nat) (w : UInt64) : Bytes :=
  if n = 0 then []
  else
    let w := w * 6364136223846793005 + 11634580027462260723
    let folded := (((w >>> 18) ^^^ w) >>> 27).toUInt32
    let turn := (w >>> 59).toUInt32
    let out := folded >>> turn ||| folded <<< (32 - turn)
    (Bytes.ofNatLE 4 out.toNat).take n ++ expand (n - 4) w
termination_by n
decreasing_by omega

end Seed

end EntropySupply
