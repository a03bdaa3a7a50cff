import EntropySupply.Whitening
import EntropySupply.SetupError

/-!
# Producers

A producer moves bytes from a source into a queue, chunk by chunk. Here are its settings and what
it says about a finished run.
-/

namespace EntropySupply

structure Production where
  /-- Bytes fetched from the source at a time. -/
  chunkSize : UInt64 := 256
  whitening : Whitening := .raw
  deriving DecidableEq, Repr

namespace Production

def validate (p : Production) : Except SetupError Unit :=
  if p.chunkSize = 0 then .error .zeroChunk else .ok ()

def describe (p : Production) : String :=
  s!"ProducerConfig \x7b chunk_size: {p.chunkSize}, " ++
    s!"conditioning: {p.whitening.describe} \x7d"

end Production

/-- Why a producer stopped without an error. -/
inductive Ending where
  /-- Nobody owns the queue any more. -/
  | dropped
  | closed
  | cancelled
  deriving DecidableEq, Repr

namespace Ending

def name : Ending → String
  | .dropped => "pool_dropped"
  | .closed => "pool_closed"
  | .cancelled => "cancelled"

def text : Ending → String
  | .dropped => "pool dropped"
  | .closed => "pool closed"
  | .cancelled => "cancelled"

end Ending

structure ProducerReport where
  /-- Chunks written whole. -/
  chunks : Nat
  /-- Bytes that the queue accepted, those of a partial chunk included. -/
  bytesWritten : Nat
  stop : Ending
  deriving DecidableEq, Repr

end EntropySupply
