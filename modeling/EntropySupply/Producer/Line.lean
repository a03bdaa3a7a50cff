import EntropySupply.Queue.Room
import EntropySupply.Source.Retrying
import EntropySupply.Source.Script

/-!
# Supply lines

A source and a channel that share their surroundings. What happens around the source while it
answers counts against the same slack as the waits of the channel, so a producer between the two
comes to an end. Notices have no effect on whether the transfers go on.
-/

namespace EntropySupply

structure Line (τ ε : Type) [Journal ε] where
  source : Source τ ε
  channel : Channel ε
  room : channel.Room
  fill_noMore : ∀ t e b, room.slack.NoMore (source.fill t e b).around e
  cancelled_note : ∀ n e, channel.cancelled (Journal.note n e) = channel.cancelled e
  reachable_note : ∀ n e, channel.reachable (Journal.note n e) = channel.reachable e
  isClosed_note : ∀ n e, channel.isClosed (Journal.note n e) = channel.isClosed e

namespace Source

variable {τ ε : Type} {src : Source τ ε} {k : Slack ε}

theorem fillAll_noMore (h : ∀ t e b, k.NoMore (src.fill t e b).around e) (t : τ) (e : ε)
    (bs : List Bytes) : k.NoMore (src.fillAll t e bs).around e := by
  induction bs generalizing t e with
  | nil => exact .refl _ _
  | cons b bs ih =>
    unfold fillAll
    dsimp only
    split
    · exact h t e b
    · exact (ih _ _).trans (h t e b)

theorem scripted_noMore {γ : Type} {supply : Supply γ} {maxRequest : Nat} {before : ε → ε}
    (h : ∀ e, k.NoMore (before e) e) (t : Script γ) (e : ε) (b : Bytes) :
    k.NoMore ((scripted supply maxRequest before).fill t e b).around e := by
  simp only [scripted]
  split <;> exact h e

section Retries

variable [Journal ε]

theorem Retrying.attempt_noMore (hn : ∀ n e, k.NoMore (Journal.note n e) e)
    (h : ∀ t e b, k.NoMore (src.fill t e b).around e) (plan : RetryPlan) (left number : Nat)
    (t : Retrying τ) (e : ε) (b : Bytes) :
    k.NoMore (Retrying.attempt src plan left number t e b).around e := by
  induction left generalizing number t e b with
  | zero =>
    unfold Retrying.attempt
    dsimp only
    split
    · exact h _ _ _
    · split
      · exact (hn _ _).trans (h _ _ _)
      · exact h _ _ _
  | succ left ih =>
    unfold Retrying.attempt
    dsimp only
    split
    · exact h _ _ _
    · split
      · exact ((ih _ _ _ _).trans (hn _ _)).trans (h _ _ _)
      · exact h _ _ _

theorem retrying_noMore (hn : ∀ n e, k.NoMore (Journal.note n e) e)
    (h : ∀ t e b, k.NoMore (src.fill t e b).around e) (plan : RetryPlan) (t : Retrying τ) (e : ε)
    (b : Bytes) : k.NoMore ((src.retrying plan).fill t e b).around e := by
  refine (Retrying.attempt_noMore hn h plan _ _ _ _ b).trans ?_
  unfold Retrying.settle
  split
  · exact .refl _ _
  · exact hn _ _

theorem layered_noMore (hn : ∀ n e, k.NoMore (Journal.note n e) e)
    (h : ∀ t e b, k.NoMore (src.fill t e b).around e) (plans : List RetryPlan)
    (t : Layered τ plans) (e : ε) (b : Bytes) :
    k.NoMore ((src.layered plans).fill t e b).around e := by
  induction plans generalizing e b with
  | nil => exact h t e b
  | cons plan plans ih => exact retrying_noMore hn ih plan t e b

end Retries

end Source

namespace Site

variable {c : Capacity} {γ : Type}

/-- The line from a scripted source under retry plans to a layered ring, both of whose others act
at one site. The outermost layer and the outermost plan come first. -/
def line (layers : List Layer) (supply : Source.Supply γ) (maxRequest : Nat)
    (plans : List Source.RetryPlan) :
    Line (Source.Layered (Source.Script γ) plans) (Site (Pool c)) where
  source := (Source.scripted supply maxRequest (request Pool.bare)).layered plans
  channel := layered layers
  room := room layers
  fill_noMore t e b :=
    Source.layered_noMore (fun _ _ => .inr ⟨rfl, Nat.le_refl _⟩)
      (Source.scripted_noMore (request_noMore rfl rfl)) plans t e b
  cancelled_note _ _ := rfl
  reachable_note _ _ := rfl
  isClosed_note n s :=
    (Pool.isClosed_layered layers (Journal.note n s.pool)).trans
      (Pool.isClosed_layered layers s.pool).symm

end Site

end EntropySupply
