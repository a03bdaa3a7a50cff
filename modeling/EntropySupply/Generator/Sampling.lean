import EntropySupply.Generator.Basic

/-!
# Samples from words

How words become truth values, fractions and members of a range. A range is sampled by scaling: the
word times the number of members, whose high half selects the member; when the low half leaves the
selection open, a second word adds its share.
-/

namespace EntropySupply.Sampling

variable {γ : Type} [Generator γ]

def flagOf (w : UInt32) : Bool := w >>> 31 == 1

/-- The number `k / 2 ^ 24` for the 24 high bits `k` of a word. -/
def singleOf (w : UInt32) : Float32 := (w >>> 8).toFloat32 * Float32.ofBits 0x33800000

/-- The number `k / 2 ^ 53` for the 53 high bits `k` of a word. -/
def doubleOf (w : UInt64) : Float := (w >>> 11).toFloat * Float.ofBits 0x3ca0000000000000

def flag (g : γ) : Bool × γ :=
  let w := Generator.next32 g
  (flagOf w.1, w.2)

def single (g : γ) : Float32 × γ :=
  let w := Generator.next32 g
  (singleOf w.1, w.2)

def double (g : γ) : Float × γ :=
  let w := Generator.next64 g
  (doubleOf w.1, w.2)

/-- The index of a member among `size` of them, from words below `modulus`. -/
def indexOf (modulus size : Nat) (next : γ → Nat × γ) (g : γ) : Nat × γ :=
  let w := next g
  let product := w.1 * size
  if modulus - size < product % modulus then
    let v := next w.2
    let carry := product % modulus + v.1 * size / modulus
    (product / modulus + (if modulus ≤ carry then 1 else 0), v.2)
  else (product / modulus, w.2)

def next32Nat (g : γ) : Nat × γ :=
  let w := Generator.next32 g
  (w.1.toNat, w.2)

def next64Nat (g : γ) : Nat × γ :=
  let w := Generator.next64 g
  (w.1.toNat, w.2)

def below32 (bound : UInt32) (g : γ) : UInt32 × γ :=
  let i := indexOf UInt32.size bound.toNat next32Nat g
  (UInt32.ofNat i.1, i.2)

def below64 (bound : UInt64) (g : γ) : UInt64 × γ :=
  let i := indexOf UInt64.size bound.toNat next64Nat g
  (UInt64.ofNat i.1, i.2)

/-- A number from `origin` up to but not including `bound`. -/
def range32 (origin bound : Int32) (g : γ) : Int32 × γ :=
  let i := indexOf UInt32.size (bound.toInt - origin.toInt).toNat next32Nat g
  (origin + Int32.ofNat i.1, i.2)

def range64 (origin bound : Int64) (g : γ) : Int64 × γ :=
  let i := indexOf UInt64.size (bound.toInt - origin.toInt).toNat next64Nat g
  (origin + Int64.ofNat i.1, i.2)

end EntropySupply.Sampling
