import EntropySupply.Notice
import EntropySupply.Source.Basic
import EntropySupply.Source.Plan

/-!
# Retrying sources

A source that repeats the requests of another one after a failure to reach it, and serves the waits
that come with the answers. The wait after an answer is served ahead of the next request. Requests
and waits are recorded in the order in which they happen.
-/

namespace EntropySupply.Source

/-- What a retrying source does: it asks the source inside, or it waits. -/
inductive Move where
  | asked (failure : Option Failure) (advised : Option Duration)
  | waited (time : Duration)
  deriving DecidableEq, Repr

structure Retrying (τ : Type) where
  inner : τ
  /-- The wait to serve ahead of the next request. -/
  pending : Option Duration := none
  /-- What was done so far, in order. -/
  record : List Move := []

def Retrying.waits {τ : Type} (t : Retrying τ) : List Duration :=
  t.record.filterMap fun
    | .waited time => some time
    | _ => none

def Failure.advised : Failure → Option Duration
  | .unreachable _ advised => advised
  | _ => none

def waitNotice (name : String) (wait : Duration) : Notice where
  level := .debug
  text := s!"{name}: waiting {Duration.text wait} as advised"

def retryNotice (name : String) (attempt attempts : Nat) (err : Failure) (wait : Duration) :
    Notice where
  level := .warn
  text := s!"{name}: attempt {attempt}/{attempts} failed ({err.message}), " ++
    s!"retrying in {Duration.text wait}"

def exhaustedNotice (name : String) (attempt : Nat) (err : Failure) : Notice where
  level := .warn
  text := s!"{name}: giving up after {attempt} attempts: {err.message}"

variable {τ ε : Type} [Journal ε]

namespace Retrying

/-- Serves the pending wait, if there is one. -/
def settle (name : String) (t : Retrying τ) (e : ε) : Retrying τ × ε :=
  match t.pending with
  | none => (t, e)
  | some wait =>
    ({ t with pending := none, record := t.record ++ [.waited wait] },
      Journal.note (waitNotice name wait) e)

/-- Makes the request number `attempt`, and up to `left` more while they fail to reach the source. -/
def attempt (src : Source τ ε) (plan : RetryPlan) :
    (left number : Nat) → Retrying τ → ε → Bytes → Filled (Retrying τ) ε
  | left, number, t, e, b =>
    let f := src.fill t.inner e b
    let asked := Move.asked f.failure (src.advised f.source)
    let t := { t with inner := f.source, record := t.record ++ [asked] }
    match f.failure with
    | none =>
      let pending := (src.advised f.source).map fun advised => plan.waitFor (some advised)
      ⟨none, f.buffer, { t with pending }, f.around⟩
    | some err =>
      if err.isTransient then
        match left with
        | 0 =>
          ⟨some (.exhausted number err), f.buffer, t,
            Journal.note (exhaustedNotice src.name number err) f.around⟩
        | left + 1 =>
          let wait := plan.waitFor err.advised
          attempt src plan left (number + 1) { t with record := t.record ++ [.waited wait] }
            (Journal.note (retryNotice src.name number plan.attempts err wait) f.around) f.buffer
      else ⟨some err, f.buffer, t, f.around⟩

theorem length_attempt (src : Source τ ε) (plan : RetryPlan) (left number : Nat) (t : Retrying τ)
    (e : ε) (b : Bytes) : (attempt src plan left number t e b).buffer.length = b.length := by
  induction left generalizing number t e b with
  | zero =>
    unfold attempt
    dsimp only
    split
    · exact src.fill_length _ _ _
    · split <;> exact src.fill_length _ _ _
  | succ left ih =>
    unfold attempt
    dsimp only
    split
    · exact src.fill_length _ _ _
    · split
      · rw [ih]
        exact src.fill_length _ _ _
      · exact src.fill_length _ _ _

end Retrying

def retrying (src : Source τ ε) (plan : RetryPlan) : Source (Retrying τ) ε where
  name := src.name
  maxRequest := src.maxRequest
  advised t := t.pending
  fill t e b :=
    let s := t.settle src.name e
    Retrying.attempt src plan (plan.attempts - 1) 1 s.1 s.2 b
  fill_length _ _ b := Retrying.length_attempt src plan _ _ _ _ b

/-- The state of a source under a list of retry plans, the outermost first. -/
def Layered (τ : Type) : List RetryPlan → Type
  | [] => τ
  | _ :: plans => Retrying (Layered τ plans)

namespace Layered

def start (t : τ) : (plans : List RetryPlan) → Layered τ plans
  | [] => t
  | _ :: plans => ({ inner := start t plans } : Retrying (Layered τ plans))

def base : (plans : List RetryPlan) → Layered τ plans → τ
  | [], t => t
  | _ :: plans, (t : Retrying (Layered τ plans)) => base plans t.inner

/-- The waits of each layer, the innermost first. -/
def waits : (plans : List RetryPlan) → Layered τ plans → List (List Duration)
  | [], _ => []
  | _ :: plans, (t : Retrying (Layered τ plans)) => waits plans t.inner ++ [t.waits]

end Layered

/-- The source under a list of retry plans, the outermost first. -/
def layered (src : Source τ ε) : (plans : List RetryPlan) → Source (Layered τ plans) ε
  | [] => src
  | plan :: plans => (layered src plans).retrying plan

end EntropySupply.Source
