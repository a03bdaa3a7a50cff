import EntropySupply.Proofs.Ring.Contents
import EntropySupply.Proofs.Ring.Moves

/-!
# Ledgers of a session

A ledger is kept beside a session by someone who sees its steps and their answers: what was copied
into each reserved span, the bytes of the published spans in the order of their commits, and the
claims of readers in their order with what was copied out. The session does not depend on it.
-/

namespace EntropySupply.Ring

variable {c : Capacity}

/-- A claim of a reader. Whole polls have no number among the holdings. -/
structure Withdrawal where
  holding : Option ℕ
  span : Span
  copied : Option Bytes
  deriving DecidableEq, Repr

namespace Withdrawal

/-- Enters what was copied out, if the claim is the holding with that number. -/
def mark (i : ℕ) (bytes : Bytes) (w : Withdrawal) : Withdrawal :=
  if w.holding = some i then { w with copied := some bytes } else w

@[simp] theorem span_mark (i : ℕ) (bytes : Bytes) (w : Withdrawal) :
    (w.mark i bytes).span = w.span := by
  unfold mark
  split_ifs <;> rfl

@[simp] theorem holding_mark (i : ℕ) (bytes : Bytes) (w : Withdrawal) :
    (w.mark i bytes).holding = w.holding := by
  unfold mark
  split_ifs <;> rfl

end Withdrawal

structure Ledger where
  /-- What has been copied into the span of each holding, as far as it reaches. -/
  drafts : List Bytes := []
  /-- The bytes of the published spans in the order of their commits. -/
  stream : Bytes := []
  withdrawals : List Withdrawal := []
  deriving DecidableEq, Repr

namespace Ledger

def draft (l : Ledger) (i : ℕ) : Bytes := l.drafts.getD i []

/-- Enters one step of a session and its answer. -/
def note (l : Ledger) (s : Session c) : Step → Answer → Ledger
  | .reserve _, .granted _ => { l with drafts := l.drafts ++ [[]] }
  | .claim _, .granted span =>
    { l with
      drafts := l.drafts ++ [[]]
      withdrawals := l.withdrawals ++ [⟨some l.drafts.length, span, none⟩] }
  | .put i src, .copied n =>
    { l with drafts := l.drafts.set i (src.take n ++ (l.draft i).drop n) }
  | .get i, .got bytes => { l with withdrawals := l.withdrawals.map (Withdrawal.mark i bytes) }
  | .commit i, .ended .published => { l with stream := l.stream ++ l.draft i }
  | .offer src, .accepted n => { l with stream := l.stream ++ src.take n }
  | .poll _, .delivered n buffer =>
    if n = 0 then l
    else
      { l with
        withdrawals := l.withdrawals ++
          [⟨none, ⟨s.ring.claimed, UInt64.ofNat n⟩, some (buffer.take n)⟩] }
  | _, _ => l

theorem note_idle (l : Ledger) (s : Session c) (step : Step) {answer : Answer}
    (h : answer.Idle) : l.note s step answer = l := by
  cases answer with
  | refused => cases step <;> rfl
  | notHeld => cases step <;> rfl
  | wouldBlock => cases step <;> rfl
  | _ => exact h.elim

theorem draft_of_le {l : Ledger} {i : ℕ} (h : l.drafts.length ≤ i) : l.draft i = [] := by
  rw [draft, List.getD_eq_getElem?_getD, List.getElem?_eq_none h]
  rfl

theorem draft_snoc {l l₁ : Ledger} (h : l₁.drafts = l.drafts ++ [[]]) (i : ℕ) :
    l₁.draft i = l.draft i := by
  simp only [draft, h, List.getD_eq_getElem?_getD]
  rcases Nat.lt_trichotomy i l.drafts.length with hi | rfl | hi
  · rw [List.getElem?_append_left hi]
  · simp
  · rw [List.getElem?_eq_none (by simp; omega), List.getElem?_eq_none (by omega)]

theorem draft_put {l l₁ : Ledger} {i : ℕ} {d : Bytes} (h : l₁.drafts = l.drafts.set i d)
    (hi : i < l.drafts.length) (j : ℕ) : l₁.draft j = if i = j then d else l.draft j := by
  simp only [draft, h, List.getD_eq_getElem?_getD, List.getElem?_set]
  split_ifs <;> rfl

end Ledger

/-- Whether the span of a writer's holding has its draft in all its slots. -/
def Filled : Option Holding → Bytes → Prop
  | some (.writing span), draft => draft.length = span.length.toNat
  | _, _ => True

instance decidableFilled : (a : Option Holding) → (draft : Bytes) → Decidable (Filled a draft)
  | some (.writing span), draft => inferInstanceAs (Decidable (draft.length = span.length.toNat))
  | some (.reading _), _ => inferInstanceAs (Decidable True)
  | none, _ => inferInstanceAs (Decidable True)

structure History (c : Capacity) where
  session : Session c
  ledger : Ledger := {}

namespace History

def start (c : Capacity) (rule : CommitRule) : History c where
  session := .start c rule

def next (h : History c) (step : Step) : History c :=
  let m := h.session.step step
  ⟨m.2.2, h.ledger.note h.session step m.1⟩

/-- A step is a move of the session whose answer is noted. -/
theorem exists_move (h : History c) (step : Step) :
    ∃ t, h.session.Move step (h.session.step step).1 t ∧
      h.next step = ⟨t, h.ledger.note h.session step (h.session.step step).1⟩ :=
  ⟨_, h.session.step_move step, rfl⟩

def run (h : History c) (steps : List Step) : History c := steps.foldl next h

/-- Whether a user may take the step: spans are not empty, and a span that is to be committed has
been filled. -/
def Allows (h : History c) : Step → Prop
  | .commit i => Filled (h.session.held? i) (h.ledger.draft i)
  | step => step.Asks

instance (h : History c) : DecidablePred h.Allows
  | .commit i => inferInstanceAs (Decidable (Filled (h.session.held? i) (h.ledger.draft i)))
  | .reserve want | .claim want => inferInstanceAs (Decidable (want ≠ 0))
  | .put _ _ | .get _ | .release _ | .offer _ | .poll _ | .close =>
    inferInstanceAs (Decidable True)

/-- Whether users may take the steps one after another. -/
def Careful : History c → List Step → Prop
  | _, [] => True
  | h, step :: steps => h.Allows step ∧ Careful (h.next step) steps

instance decidableCareful : (h : History c) → DecidablePred h.Careful
  | _, [] => inferInstanceAs (Decidable True)
  | h, step :: steps =>
    have := decidableCareful (h.next step) steps
    inferInstanceAs (Decidable (h.Allows step ∧ Careful (h.next step) steps))

theorem Allows.asks {h : History c} {step : Step} (ha : h.Allows step) : step.Asks := by
  cases step with
  | commit => trivial
  | _ => exact ha

theorem session_run (h : History c) (steps : List Step) :
    (h.run steps).session = h.session.run steps := by
  induction steps generalizing h with
  | nil => rfl
  | cons step steps ih => exact ih (h.next step)

end History

end EntropySupply.Ring
