import EntropySupply.Entropy.Thresholds
import EntropySupply.Producer.Basic
import EntropySupply.Queue.Turn
import EntropySupply.Ring.Basic
import EntropySupply.Settings.Format
import EntropySupply.Source.Plan

/-!
# The settings of the library

The formats of the settings that the parts of the library are built from.
-/

namespace EntropySupply

structure RingSettings where
  capacity : UInt64 := 4096
  rule : CommitRule := .abandon
  deriving DecidableEq, Repr

namespace Settings

def commitRule : Format CommitRule := choice [.abandon, .wait] CommitRule.name

def whitening : Format Whitening := choice [.raw, .sha256] Whitening.name

def ending : Format Ending := choice [.dropped, .closed, .cancelled] Ending.name

def ring : Format RingSettings :=
  record {}
    [.of "capacity" word64 (·.capacity) fun v s => { s with capacity := v },
      .of "commit_policy" commitRule (·.rule) fun v s => { s with rule := v }]

def turnLimits : Format TurnBounds :=
  record {}
    [.of "max_bytes" word64 (·.maxBytes) fun v s => { s with maxBytes := v },
      .of "max_calls" word64 (·.maxCalls) fun v s => { s with maxCalls := v }]

def thresholds : Format Thresholds :=
  record {}
    [.of "desired" int64 (·.desired) fun v s => { s with desired := v },
      .of "minimum" int64 (·.minimum) fun v s => { s with minimum := v }]

def retryPlan : Format Source.RetryPlan :=
  record {}
    [.of "max_retries" word32 (·.maxRetries) fun v s => { s with maxRetries := v },
      .of "retry_delay_ms" word64 (·.retryDelayMillis) fun v s =>
        { s with retryDelayMillis := v }]

def production : Format Production :=
  record {}
    [.of "chunk_size" word64 (·.chunkSize) fun v s => { s with chunkSize := v },
      .of "conditioning" whitening (·.whitening) fun v s => { s with whitening := v }]

end Settings

end EntropySupply
