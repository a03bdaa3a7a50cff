import EntropySupply.Proofs.Queue.Recording
import EntropySupply.Source.Basic

/-!
# Answers of a source

A source can take down its answers without anybody noticing. Main statements: the answers to the
requests for a chunk are either all of its bytes, in pieces that the source accepts, or they end
with a failure.
-/

namespace EntropySupply

namespace Source

variable {τ ε : Type} {src : Source τ ε} {n : ℕ} {err : Failure}

/-- How a source answered one request: why it failed, if it did, and what the buffer held then. -/
structure Answer where
  failure : Option Failure
  bytes : Bytes
  deriving DecidableEq, Repr

/-- A source with its answers so far. -/
structure Asked (τ : Type) where
  source : τ
  answers : List Answer := []

def raw (answers : List Answer) : Bytes := (answers.map Answer.bytes).flatten

/-- A chunk of `n` bytes, fetched by requests of at most `limit` bytes. -/
structure Whole (limit n : ℕ) (answers : List Answer) : Prop where
  answered : ∀ a ∈ answers, a.failure = none
  sizes : ∀ a ∈ answers, 0 < a.bytes.length ∧ a.bytes.length ≤ limit
  length_raw : (raw answers).length = n

/-- Such a chunk as far as it was asked for, up to a failure. -/
structure Broken (limit n : ℕ) (err : Failure) (answers : List Answer) : Prop where
  failed : ∃ front last, answers = front ++ [last] ∧ (∀ a ∈ front, a.failure = none) ∧
    last.failure = some err
  sizes : ∀ a ∈ answers, 0 < a.bytes.length ∧ a.bytes.length ≤ limit
  length_raw : (raw answers).length ≤ n

/-- What a fill did, with the answers to it put down behind the others. -/
def takenDown (t : Asked τ) (r : Recorded ε) (f : Filled τ ε) (answers : List Answer) :
    Filled (Asked τ) (Recorded ε) :=
  ⟨f.failure, f.buffer, ⟨f.source, t.answers ++ answers⟩, { r with state := f.around }⟩

/-- A source that takes down its answers, in surroundings with a record of their own. -/
def recorded (src : Source τ ε) : Source (Asked τ) (Recorded ε) where
  name := src.name
  maxRequest := src.maxRequest
  advised t := src.advised t.source
  fill t r b :=
    let f := src.fill t.source r.state b
    takenDown t r f [⟨f.failure, f.buffer⟩]
  fill_length t r := src.fill_length t.source r.state

def answers (src : Source τ ε) (t : τ) (e : ε) : List Bytes → List Answer
  | [] => []
  | b :: bs =>
    let f := src.fill t e b
    ⟨f.failure, f.buffer⟩ :: if f.failure = none then src.answers f.source f.around bs else []

theorem fillAll_recorded (src : Source τ ε) (t : Asked τ) (r : Recorded ε) (bs : List Bytes) :
    src.recorded.fillAll t r bs =
      takenDown t r (src.fillAll t.source r.state bs) (src.answers t.source r.state bs) := by
  induction bs generalizing t r with
  | nil => simp [fillAll, answers, takenDown]
  | cons b bs ih =>
    have hfill : src.recorded.fill t r b = takenDown t r (src.fill t.source r.state b)
        [⟨(src.fill t.source r.state b).failure, (src.fill t.source r.state b).buffer⟩] := rfl
    simp only [fillAll, answers, hfill]
    cases hf : (src.fill t.source r.state b).failure with
    | some err => simp [takenDown, hf]
    | none => simp [takenDown, hf, ih]

theorem length_mem_answers {t : τ} {e : ε} {bs : List Bytes} {a : Answer}
    (h : a ∈ src.answers t e bs) : ∃ b ∈ bs, a.bytes.length = b.length := by
  induction bs generalizing t e with
  | nil => cases h
  | cons b bs ih =>
    simp only [answers] at h
    rcases List.mem_cons.mp h with rfl | h
    · exact ⟨b, List.mem_cons_self, src.fill_length t e b⟩
    · split_ifs at h
      · obtain ⟨b', hb', hlen⟩ := ih h
        exact ⟨b', List.mem_cons_of_mem _ hb', hlen⟩
      · cases h

theorem length_raw_answers_le (t : τ) (e : ε) (bs : List Bytes) :
    (raw (src.answers t e bs)).length ≤ bs.flatten.length := by
  induction bs generalizing t e with
  | nil => exact Nat.le_refl _
  | cons b bs ih =>
    have hlen := src.fill_length t e b
    have hrest := ih (src.fill t e b).source (src.fill t e b).around
    simp only [answers, raw] at hrest ⊢
    split_ifs
    · simp only [List.map_cons, List.flatten_cons, List.length_append]
      omega
    · simp only [List.map_cons, List.map_nil, List.flatten_cons, List.flatten_nil,
        List.append_nil, List.length_append]
      omega

theorem raw_answers {t : τ} {e : ε} {bs : List Bytes} (h : (src.fillAll t e bs).failure = none) :
    (∀ a ∈ src.answers t e bs, a.failure = none) ∧
      raw (src.answers t e bs) = (src.fillAll t e bs).buffer := by
  induction bs generalizing t e with
  | nil => exact ⟨fun _ ha => absurd ha List.not_mem_nil, rfl⟩
  | cons b bs ih =>
    cases hf : (src.fill t e b).failure with
    | some err => simp [fillAll, hf] at h
    | none =>
      simp only [fillAll, hf] at h
      obtain ⟨hall, hraw⟩ := ih h
      simp only [answers, fillAll, hf, if_true]
      constructor
      · exact List.forall_mem_cons.mpr ⟨rfl, hall⟩
      · rw [raw, List.map_cons, List.flatten_cons, ← hraw, raw]

theorem answers_failed {t : τ} {e : ε} {bs : List Bytes}
    (h : (src.fillAll t e bs).failure = some err) :
    ∃ front last, src.answers t e bs = front ++ [last] ∧ (∀ a ∈ front, a.failure = none) ∧
      last.failure = some err := by
  induction bs generalizing t e with
  | nil => cases h
  | cons b bs ih =>
    simp only [answers]
    cases hf : (src.fill t e b).failure with
    | some err' =>
      simp only [fillAll, hf] at h
      exact ⟨[], ⟨some err', (src.fill t e b).buffer⟩, by simp, by simp, h⟩
    | none =>
      simp only [fillAll, hf] at h
      obtain ⟨front, last, heq, hall, hlast⟩ := ih h
      refine ⟨⟨none, (src.fill t e b).buffer⟩ :: front, last, ?_, ?_, hlast⟩
      · rw [if_pos rfl, heq, List.cons_append]
      · exact List.forall_mem_cons.mpr ⟨rfl, hall⟩

def chunkAnswers (src : Source τ ε) (t : τ) (e : ε) (n : ℕ) : List Answer :=
  src.answers t e (Bytes.chunks (max src.maxRequest 1) (List.replicate n 0))

theorem fetch_recorded (src : Source τ ε) (t : Asked τ) (r : Recorded ε) (n : ℕ) :
    src.recorded.fetch t r n =
      takenDown t r (src.fetch t.source r.state n) (src.chunkAnswers t.source r.state n) :=
  fillAll_recorded src t r _

theorem chunkAnswers_sizes (t : τ) (e : ε) (n : ℕ) :
    ∀ a ∈ src.chunkAnswers t e n,
      0 < a.bytes.length ∧ a.bytes.length ≤ max src.maxRequest 1 := by
  intro a ha
  obtain ⟨b, hb, hlen⟩ := length_mem_answers ha
  have hpiece := Bytes.length_mem_chunks hb
  omega

theorem chunkAnswers_whole {t : τ} {e : ε} (h : (src.fetch t e n).failure = none) :
    Whole (max src.maxRequest 1) n (src.chunkAnswers t e n) ∧
      raw (src.chunkAnswers t e n) = (src.fetch t e n).buffer := by
  obtain ⟨hall, hraw⟩ := raw_answers h
  refine ⟨⟨hall, chunkAnswers_sizes t e n, ?_⟩, hraw⟩
  exact (congrArg List.length hraw).trans (src.length_fetch t e n)

theorem chunkAnswers_broken {t : τ} {e : ε} (h : (src.fetch t e n).failure = some err) :
    Broken (max src.maxRequest 1) n err (src.chunkAnswers t e n) := by
  refine ⟨answers_failed h, chunkAnswers_sizes t e n, ?_⟩
  refine (length_raw_answers_le t e _).trans ?_
  rw [Bytes.flatten_chunks, List.length_replicate]

end Source

end EntropySupply
