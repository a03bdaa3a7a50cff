import EntropySupply.Entropy.Cost
import EntropySupply.Ziggurat

/-!
# Draws

The kinds of draws that are paid for, with what each costs and how it is sampled. Byte strings are
the one kind whose cost has no fixed limit, and are treated apart.
-/

namespace EntropySupply

inductive Draw where
  | flag
  | word32
  | word64
  | below32 (bound : UInt32)
  | below64 (bound : UInt64)
  | range32 (origin bound : Int32)
  | range64 (origin bound : Int64)
  | single
  | double
  | normal
  | exponential
  deriving DecidableEq, Repr

inductive Sample where
  | flag (b : Bool)
  | word32 (w : UInt32)
  | word64 (w : UInt64)
  | int32 (i : Int32)
  | int64 (i : Int64)
  | single (x : Float32)
  | double (x : Float)

/-- A draw that has no value to choose from. -/
inductive EmptyDraw where
  | zeroBound
  | emptyRange (origin bound : Int)
  deriving DecidableEq, Repr

def EmptyDraw.message : EmptyDraw → String
  | .zeroBound => "bound must be positive"
  | .emptyRange origin bound => s!"empty range {origin}..{bound}"

namespace Draw

/-- Why a draw has no value to choose from, if it has none. -/
def empty? : Draw → Option EmptyDraw
  | .below32 bound => if bound = 0 then some .zeroBound else none
  | .below64 bound => if bound = 0 then some .zeroBound else none
  | .range32 origin bound =>
    if origin < bound then none else some (.emptyRange origin.toInt bound.toInt)
  | .range64 origin bound =>
    if origin < bound then none else some (.emptyRange origin.toInt bound.toInt)
  | _ => none

def cost : Draw → Int64
  | .flag => Cost.flag
  | .word32 => Cost.word32
  | .word64 => Cost.word64
  | .below32 bound => Cost.below bound.toUInt64
  | .below64 bound => Cost.below bound
  | .range32 origin bound => Cost.inRange32 origin bound
  | .range64 origin bound => Cost.inRange64 origin bound
  | .single => Cost.single
  | .double => Cost.double
  | .normal => Cost.normal
  | .exponential => Cost.exponential

variable {γ : Type} [Generator γ]

def sample : Draw → γ → Sample × γ
  | .flag, g => let s := Sampling.flag g; (.flag s.1, s.2)
  | .word32, g => let s := Generator.next32 g; (.word32 s.1, s.2)
  | .word64, g => let s := Generator.next64 g; (.word64 s.1, s.2)
  | .below32 bound, g => let s := Sampling.below32 bound g; (.word32 s.1, s.2)
  | .below64 bound, g => let s := Sampling.below64 bound g; (.word64 s.1, s.2)
  | .range32 origin bound, g => let s := Sampling.range32 origin bound g; (.int32 s.1, s.2)
  | .range64 origin bound, g => let s := Sampling.range64 origin bound g; (.int64 s.1, s.2)
  | .single, g => let s := Sampling.single g; (.single s.1, s.2)
  | .double, g => let s := Sampling.double g; (.double s.1, s.2)
  | .normal, g => let s := Ziggurat.normal g; (.double s.1, s.2)
  | .exponential, g => let s := Ziggurat.exponential g; (.double s.1, s.2)

end Draw

end EntropySupply
