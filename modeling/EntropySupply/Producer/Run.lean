import EntropySupply.Producer.Basic
import EntropySupply.Producer.Line

/-!
# Runs of a producer

A run fetches a chunk, whitens it and writes it, over and over, until the queue is gone or closed
or the run is called off. A failing source ends the run with an error, and leaves the queue alone.
A chunk that could not be written whole is the last one, because what has cut it short ends the run.
-/

namespace EntropySupply

/-- Settings that a producer accepts. -/
structure Producer where
  settings : Production
  chunk_ne_zero : settings.chunkSize ≠ 0

structure ProducerRun (τ ε : Type) where
  outcome : Except Source.Failure ProducerReport
  source : τ
  around : ε

namespace Producer

variable {τ ε : Type}

def new (settings : Production) : Except SetupError Producer :=
  if h : settings.chunkSize = 0 then .error .zeroChunk else .ok ⟨settings, h⟩

def chunkLength (p : Producer) : Nat := p.settings.chunkSize.toNat

theorem chunkLength_pos (p : Producer) : 0 < p.chunkLength := by
  refine Nat.pos_of_ne_zero fun h => p.chunk_ne_zero ?_
  exact UInt64.toNat.inj h

/-- Why the producer should stop before its next chunk, if it should. -/
def ending? (ch : Channel ε) (e : ε) : Option Ending :=
  if ch.cancelled e then some .cancelled
  else if ch.reachable e = false then some .dropped
  else if ch.isClosed e then some .closed
  else none

theorem ending?_isSome {ch : Channel ε} {e : ε}
    (h : ch.cancelled e = true ∨ ch.reachable e = false ∨ ch.isClosed e = true) :
    (ending? ch e).isSome = true := by
  unfold ending?
  split
  · rfl
  · split
    · rfl
    · split
      · rfl
      · simp_all

/-- After a chunk that was not written whole there is a reason to stop. -/
theorem feed_ending {ch : Channel ε} {e : ε} {src : Bytes}
    (h : ¬(ch.feed e src).count = src.length) : (ending? ch (ch.feed e src).state).isSome = true :=
  ending?_isSome (ch.feedFrom_stops 0 e src (by rwa [Nat.zero_add]))

def startNotice (p : Producer) (name : String) : Notice where
  level := .info
  text := s!"seed producer '{name}' starting (chunk={p.settings.chunkSize} bytes, " ++
    s!"conditioning={p.settings.whitening.name})"

def failureNotice (name : String) (written : Nat) (err : Source.Failure) : Notice where
  level := .error
  text := s!"seed producer '{name}' stopping after {written} bytes: {err.message}"

def partialNotice (p : Producer) (name : String) (n : Nat) : Notice where
  level := .debug
  text := s!"seed producer '{name}' wrote {n} of {p.settings.chunkSize} bytes before stopping"

def stopNotice (name : String) (s : ProducerReport) : Notice where
  level := .info
  text := s!"seed producer '{name}' stopped ({s.stop.text}) after {s.chunks} chunks, " ++
    s!"{s.bytesWritten} bytes"

variable [Journal ε]

def finish (name : String) (s : ProducerReport) (t : τ) (e : ε) : ProducerRun τ ε :=
  ⟨.ok s, t, Journal.note (stopNotice name s) e⟩

theorem ending?_note (l : Line τ ε) (n : Notice) (e : ε) :
    ending? l.channel (Journal.note n e) = ending? l.channel e := by
  rw [ending?, l.cancelled_note, l.reachable_note, l.isClosed_note]
  rfl

/-- Continues a run that has written `chunks` whole chunks and `written` bytes. -/
def runFrom (p : Producer) (l : Line τ ε) (chunks written : Nat) (t : τ) (e : ε) :
    ProducerRun τ ε :=
  match _ : ending? l.channel e with
  | some stop => finish l.source.name ⟨chunks, written, stop⟩ t e
  | none =>
    let f := l.source.fetch t e p.chunkLength
    match f.failure with
    | some err =>
      if l.channel.cancelled f.around then
        finish l.source.name ⟨chunks, written, .cancelled⟩ f.source f.around
      else
        ⟨.error err, f.source, Journal.note (failureNotice l.source.name written err) f.around⟩
    | none =>
      let out := p.settings.whitening.apply f.buffer p.chunkLength
      let m := l.channel.feed f.around out
      if _ : m.count = out.length then
        runFrom p l (chunks + 1) (written + m.count) f.source m.state
      else
        runFrom p l chunks (written + m.count) f.source
          (Journal.note (partialNotice p l.source.name m.count) m.state)
termination_by
  (if (ending? l.channel e).isSome then 0 else 1, l.channel.patience e, l.room.room e)
decreasing_by
  · have ho : p.settings.whitening.apply (l.source.fetch t e p.chunkLength).buffer
        p.chunkLength ≠ [] := by
      refine List.ne_nil_of_length_pos ?_
      rw [Whitening.length_apply]
      exact p.chunkLength_pos
    have hf : l.room.slack.NoMore (l.source.fetch t e p.chunkLength).around e :=
      Source.fillAll_noMore l.fill_noMore _ _ _
    have hlex := ((Channel.feed_less l.room ho ‹_›).trans_noMore hf).lex
    rw [‹ending? l.channel e = none›]
    split
    · exact .left _ _ Nat.zero_lt_one
    · exact .right _ hlex
  · have hstop := feed_ending ‹¬_ = _›
    rw [ending?_note, ‹ending? l.channel e = none›, hstop]
    exact .left _ _ Nat.zero_lt_one

def run (p : Producer) (l : Line τ ε) (t : τ) (e : ε) : ProducerRun τ ε :=
  runFrom p l 0 0 t (Journal.note (startNotice p l.source.name) e)

def threadName (l : Line τ ε) : String := s!"seed-producer-{l.source.name}"

def describe (p : Producer) (l : Line τ ε) (e : ε) : String :=
  s!"SeedProducer \x7b source: {Text.quoted l.source.name}, config: {p.settings.describe}, " ++
    s!"cancelled: {l.channel.cancelled e}, .. \x7d"

end Producer

end EntropySupply
