import EntropySupply.Queue.Channel

/-!
# Slack

How much can still happen on a channel: how often its user can be made to wait, and, between two
waits, how many bytes the queue has room for. Main statement: a source written whole through a
handle that does not own the queue leaves strictly less slack.
-/

namespace EntropySupply

structure Slack (ε : Type) where
  patience : ε → Nat
  room : ε → Nat

namespace Slack

variable {ε : Type}

/-- Fewer waits are left, or as many waits and no more room. -/
def NoMore (k : Slack ε) (after before : ε) : Prop :=
  k.patience after < k.patience before ∨
    k.patience after = k.patience before ∧ k.room after ≤ k.room before

def Less (k : Slack ε) (after before : ε) : Prop :=
  k.patience after < k.patience before ∨
    k.patience after = k.patience before ∧ k.room after < k.room before

variable {k : Slack ε} {a b d : ε}

theorem NoMore.refl (k : Slack ε) (a : ε) : k.NoMore a a := .inr ⟨rfl, Nat.le_refl _⟩

theorem NoMore.trans (h₁ : k.NoMore a b) (h₂ : k.NoMore b d) : k.NoMore a d := by
  unfold NoMore at *
  omega

theorem Less.trans_noMore (h₁ : k.Less a b) (h₂ : k.NoMore b d) : k.Less a d := by
  unfold NoMore at h₂
  unfold Less at *
  omega

theorem NoMore.trans_less (h₁ : k.NoMore a b) (h₂ : k.Less b d) : k.Less a d := by
  unfold NoMore at h₁
  unfold Less at *
  omega

theorem Less.noMore (h : k.Less a b) : k.NoMore a b := by
  unfold Less at h
  unfold NoMore
  omega

theorem Less.lex (h : k.Less a b) :
    Prod.Lex (· < ·) (· < ·) (k.patience a, k.room a) (k.patience b, k.room b) := by
  rcases h with h | ⟨h, h'⟩
  · exact .left _ _ h
  · rw [h]
    exact .right _ h'

end Slack

namespace Channel

variable {ε : Type}

/-- Room that is used up by what an offer accepts, and by nothing else that an offer does. -/
structure Room (ch : Channel ε) where
  room : ε → Nat
  offer_patience : ∀ s src, ch.patience (ch.offer s src).state = ch.patience s
  offer_room : ∀ s src, (ch.offer s src).count + room (ch.offer s src).state ≤ room s

def Room.slack {ch : Channel ε} (r : ch.Room) : Slack ε := ⟨ch.patience, r.room⟩

theorem feedFrom_stopped {ch : Channel ε} {moved : Nat} {s : ε} {rest : Bytes}
    (h : ch.isClosed s = true ∨ ch.cancelled s = true) :
    (ch.feedFrom moved s rest).count = moved := by
  unfold feedFrom
  split
  · rfl
  · split
    · rfl
    · split
      · rfl
      · split
        · rfl
        · simp_all

theorem feedFrom_noMore {ch : Channel ε} (r : ch.Room) (moved : Nat) (s : ε) (rest : Bytes)
    (h : (ch.feedFrom moved s rest).count = moved + rest.length) :
    r.slack.NoMore (ch.feedFrom moved s rest).state s ∧
      (rest ≠ [] → r.slack.Less (ch.feedFrom moved s rest).state s) := by
  fun_induction ch.feedFrom moved s rest with
  | case1 => exact ⟨.refl _ _, fun hn => absurd rfl hn⟩
  | case2 moved s rest hr hc =>
    have hl := List.length_pos_iff.2 hr
    have h : moved = moved + rest.length := h
    omega
  | case3 moved s rest hr hc hu =>
    have hl := List.length_pos_iff.2 hr
    have h : moved = moved + rest.length := h
    omega
  | case4 moved s rest hr hc hu ho =>
    have hl := List.length_pos_iff.2 hr
    have h : moved = moved + rest.length := h
    omega
  | case5 moved s rest hr hc hu ho m h0 ih =>
    have hl := List.length_pos_iff.2 hr
    obtain ⟨_, hless⟩ := ih h
    have hw : r.slack.NoMore (ch.await m.state) s := by
      rcases ch.offer_settles s rest hr (by simpa using hc) h0 with hs | hs | hs
      · have := @feedFrom_stopped _ ch moved _ rest (Or.inl hs)
        exact absurd (this.symm.trans h) (by omega)
      · have := @feedFrom_stopped _ ch moved _ rest (Or.inr hs)
        exact absurd (this.symm.trans h) (by omega)
      · exact .inl hs
    have := (hless hr).trans_noMore hw
    exact ⟨this.noMore, fun _ => this⟩
  | case6 moved s rest hr hc hu ho m h0 ih =>
    have hm : m.count + r.room m.state ≤ r.room s := r.offer_room s rest
    have hle : m.count ≤ rest.length := ch.offer_le s rest
    have hlt : r.slack.Less m.state s := .inr ⟨r.offer_patience s rest, by
      show r.room m.state < r.room s
      omega⟩
    have hd : (rest.drop m.count).length = rest.length - m.count := List.length_drop
    obtain ⟨hno, _⟩ := ih (h.trans (by omega))
    have := hno.trans_less hlt
    exact ⟨this.noMore, fun _ => this⟩

theorem feed_less {ch : Channel ε} (r : ch.Room) {s : ε} {src : Bytes} (hs : src ≠ [])
    (h : (ch.feed s src).count = src.length) : r.slack.Less (ch.feed s src).state s :=
  (feedFrom_noMore r 0 s src (by rw [Nat.zero_add]; exact h)).2 hs

end Channel

end EntropySupply
