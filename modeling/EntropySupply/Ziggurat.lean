import EntropySupply.Generator.Sampling
import EntropySupply.Ziggurat.NormalLayers
import EntropySupply.Ziggurat.ExponentialLayers

/-!
# Continuous distributions by layers

Samples of the standard normal and the unit exponential distribution. A word picks a layer under
the density and a point across it. A point inside the layer above is taken at once; otherwise it is
taken with the probability that it lies under the density, and the widest layer stands for the tail
beyond its edge. Hardly any sample needs a second try; the number of tries is limited so that a
generator that never yields an acceptable point gets its last one.
-/

namespace EntropySupply.Ziggurat

variable {γ : Type} [Generator γ]

/-- Tries before the last point is taken as it is. -/
def maxTries : Nat := 0x1000000

/-- A double in the half-open interval of the given binary exponent, from the 52 high bits of a
word. -/
def withExponent (exponent w : UInt64) : Float := Float.ofBits (w >>> 12 ||| exponent <<< 52)

def justBelowOne : Float := Float.ofBits 0x3fefffffffffffff

def openUnit (g : γ) : Float × γ :=
  let w := Generator.next64 g
  (withExponent 1023 w.1 - justBelowOne, w.2)

/-- A density covered by layers. -/
structure Shape (γ : Type) where
  edges : Array UInt64
  heights : Array UInt64
  /-- Where across its layer a word puts the point, as a share of the width. -/
  share : UInt64 → Float
  /-- The distance of a point from the peak. -/
  extent : Float → Float
  density : Float → Float
  /-- A sample beyond the edge of the widest layer, on the side of the share. -/
  tail : Float → γ → Float × γ

namespace Shape

def edge (s : Shape γ) (i : Nat) : Float := Float.ofBits (s.edges.getD i 0)

def height (s : Shape γ) (i : Nat) : Float := Float.ofBits (s.heights.getD i 0)

/-- A sample in at most `tries + 1` tries. -/
def sample (s : Shape γ) : (tries : Nat) → γ → Float × γ
  | 0, g =>
    let w := Generator.next64 g
    (s.share w.1 * s.edge (w.1 &&& 255).toNat, w.2)
  | tries + 1, g =>
    let w := Generator.next64 g
    let i := (w.1 &&& 255).toNat
    let u := s.share w.1
    let x := u * s.edge i
    if s.extent x < s.edge (i + 1) then (x, w.2)
    else if i = 0 then s.tail u w.2
    else
      let v := Sampling.double w.2
      if s.height (i + 1) + (s.height i - s.height (i + 1)) * v.1 < s.density x then (x, v.2)
      else sample s tries v.2

end Shape

/-- The edge of the widest layer's body under the normal density. -/
def normalEdge : Float := Float.ofBits (normalEdges.getD 1 0)

/-- The edge of the widest layer's body under the exponential density. -/
def exponentialEdge : Float := Float.ofBits (exponentialEdges.getD 1 0)

/-- Pairs of exponential samples until one lies under the normal tail; the distance beyond the
edge. -/
def normalExcess : (tries : Nat) → γ → Float × γ
  | 0, g => (0, g)
  | tries + 1, g =>
    let a := openUnit g
    let c := openUnit a.2
    let x := Float.log a.1 / normalEdge
    let y := Float.log c.1
    if -2.0 * y < x * x then normalExcess tries c.2 else (x, c.2)

def normalShape : Shape γ where
  edges := normalEdges
  heights := normalHeights
  share w := withExponent 1024 w - 3.0
  extent := Float.abs
  density x := Float.exp (-x * x / 2.0)
  tail u g :=
    let x := normalExcess maxTries g
    (if u < 0.0 then x.1 - normalEdge else normalEdge - x.1, x.2)

def exponentialShape : Shape γ where
  edges := exponentialEdges
  heights := exponentialHeights
  share w := withExponent 1023 w - justBelowOne
  extent x := x
  density x := Float.exp (-x)
  tail _ g :=
    let v := Sampling.double g
    (exponentialEdge - Float.log v.1, v.2)

def normal (g : γ) : Float × γ := normalShape.sample maxTries g

def exponential (g : γ) : Float × γ := exponentialShape.sample maxTries g

end EntropySupply.Ziggurat
