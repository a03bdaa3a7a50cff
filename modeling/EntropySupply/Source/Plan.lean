import EntropySupply.Text.Duration

/-!
# Retry plans

How often a request to a source is repeated, and how long to wait in between. A source may advise
a wait of its own, which counts when it is shorter than the plan's.
-/

namespace EntropySupply.Source

structure RetryPlan where
  /-- Requests after the first one. -/
  maxRetries : UInt32 := 5
  /-- The longest wait between two requests, in milliseconds. -/
  retryDelayMillis : UInt64 := 250
  deriving DecidableEq, Repr

namespace RetryPlan

def delay (p : RetryPlan) : Duration := Duration.ofMillis p.retryDelayMillis.toNat

/-- The wait before the next request, given what the source advised. -/
def waitFor (p : RetryPlan) : Option Duration → Duration
  | some advised => min advised p.delay
  | none => p.delay

/-- Requests made for one fill before giving up; the count is a 32-bit number and stays at its
largest value rather than wrap. -/
def attempts (p : RetryPlan) : Nat := min (p.maxRetries.toNat + 1) (UInt32.size - 1)

end RetryPlan

end EntropySupply.Source
