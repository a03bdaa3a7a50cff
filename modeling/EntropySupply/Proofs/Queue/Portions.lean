import EntropySupply.Queue.Channel
import Mathlib.Tactic

/-!
# Transfers in portions

A blocking transfer tries again and again, so it makes no difference to it whether a channel moves
its bytes in few large portions or in many small ones, if only an attempt moves nothing at the same
states. Main statements: `Portions.writeFrom`, `Portions.feedFrom` and `Portions.readFrom`.
-/

namespace EntropySupply

namespace Channel

variable {σ τ : Type} {ch : Channel σ} {ch' : Channel τ}

/-- Calls leave alone what transfers look at between their attempts. -/
structure Undisturbed (ch : Channel σ) (s s₁ : σ) : Prop where
  cancelled : ch.cancelled s₁ = ch.cancelled s
  reachable : ch.reachable s₁ = ch.reachable s
  isClosed : ch.isClosed s₁ = ch.isClosed s

/-- An offer of `src` that does what an offer of `n` bytes, which leads to `s₁`, and another one of
the rest do. -/
structure OfferSplits (ch : Channel σ) (s : σ) (src : Bytes) (n : ℕ) (s₁ : σ) : Prop where
  undisturbed : ch.Undisturbed s s₁
  parts : ∃ more s₂, ch.offer s src = ⟨n + more, s₂⟩ ∧ ch.offer s₁ (src.drop n) = ⟨more, s₂⟩ ∧
    (more = 0 → s₂ = s₁)

structure PollSplits (ch : Channel σ) (s : σ) (dst : Bytes) (n : ℕ) (b : Bytes) (s₁ : σ) :
    Prop where
  undisturbed : ch.Undisturbed s s₁
  parts : ∃ more b' s₂, ch.poll s dst = ⟨n + more, b.take n ++ b', s₂⟩ ∧
    ch.poll s₁ (b.drop n) = ⟨more, b', s₂⟩ ∧ (more = 0 → b' = b.drop n ∧ s₂ = s₁)

section Splits

variable {moved n : ℕ} {s s₁ : σ} {src dst b : Bytes}

theorem OfferSplits.writeFrom (h : ch.OfferSplits s src n s₁) (hc : ¬ch.cancelled s = true)
    (hsrc : src ≠ []) (hn : 0 < n) :
    ch.writeFrom moved s src = ch.writeFrom (moved + n) s₁ (src.drop n) := by
  obtain ⟨more, s₂, hall, hrest, hdone⟩ := h.parts
  rw [writeFrom_moved hsrc hc hall (Nat.add_pos_left hn more)]
  -- If nothing more moves, the offer of the whole did what the offer of the first part did.
  rcases Nat.eq_zero_or_pos more with rfl | hmore
  · rw [hdone rfl, Nat.add_zero]
  · have hle := ch.offer_le s₁ (src.drop n)
    rw [hrest] at hle
    have hne : src.drop n ≠ [] := List.length_pos_iff.mp (hmore.trans_le hle)
    have hc₁ : ¬ch.cancelled s₁ = true := by
      rw [h.undisturbed.cancelled]
      exact hc
    rw [writeFrom_moved hne hc₁ hrest hmore, List.drop_drop, Nat.add_assoc]

theorem OfferSplits.feedFrom (h : ch.OfferSplits s src n s₁) (hc : ¬ch.cancelled s = true)
    (hu : ¬ch.reachable s = false) (ho : ¬ch.isClosed s = true) (hsrc : src ≠ []) (hn : 0 < n) :
    ch.feedFrom moved s src = ch.feedFrom (moved + n) s₁ (src.drop n) := by
  obtain ⟨more, s₂, hall, hrest, hdone⟩ := h.parts
  rw [feedFrom_moved hsrc hc hu ho hall (Nat.add_pos_left hn more)]
  rcases Nat.eq_zero_or_pos more with rfl | hmore
  · rw [hdone rfl, Nat.add_zero]
  · have hle := ch.offer_le s₁ (src.drop n)
    rw [hrest] at hle
    have hne : src.drop n ≠ [] := List.length_pos_iff.mp (hmore.trans_le hle)
    have hc₁ : ¬ch.cancelled s₁ = true := by
      rw [h.undisturbed.cancelled]
      exact hc
    have hu₁ : ¬ch.reachable s₁ = false := by
      rw [h.undisturbed.reachable]
      exact hu
    have ho₁ : ¬ch.isClosed s₁ = true := by
      rw [h.undisturbed.isClosed]
      exact ho
    rw [feedFrom_moved hne hc₁ hu₁ ho₁ hrest hmore, List.drop_drop, Nat.add_assoc]

theorem PollSplits.readFrom (h : ch.PollSplits s dst n b s₁) (hc : ¬ch.cancelled s = true)
    (hdst : dst ≠ []) (hn : 0 < n) (hb : n ≤ b.length) :
    ch.readFrom moved s dst =
      let r := ch.readFrom (moved + n) s₁ (b.drop n)
      ⟨r.stopped, b.take n ++ r.buffer, r.state⟩ := by
  obtain ⟨more, b', s₂, hall, hrest, hdone⟩ := h.parts
  have htake : (b.take n).length = n := List.length_take_of_le hb
  have hfront : (b.take n ++ b').take (n + more) = b.take n ++ b'.take more := by
    rw [List.take_append, htake, Nat.add_sub_cancel_left, List.take_of_length_le (by omega)]
  have hback : (b.take n ++ b').drop (n + more) = b'.drop more := by
    rw [List.drop_append, htake, Nat.add_sub_cancel_left, List.drop_of_length_le (by omega),
      List.nil_append]
  rw [readFrom_moved hdst hc hall (Nat.add_pos_left hn more), hfront, hback]
  rcases Nat.eq_zero_or_pos more with rfl | hmore
  · obtain ⟨rfl, rfl⟩ := hdone rfl
    simp only [List.take_zero, List.append_nil, List.drop_zero, Nat.add_zero]
  · have hle := ch.poll_le s₁ (b.drop n)
    rw [hrest] at hle
    have hne : b.drop n ≠ [] := List.length_pos_iff.mp (hmore.trans_le hle)
    have hc₁ : ¬ch.cancelled s₁ = true := by
      rw [h.undisturbed.cancelled]
      exact hc
    rw [readFrom_moved hne hc₁ hrest hmore]
    simp only [Nat.add_assoc, List.append_assoc]

end Splits

/-- The channel `ch` moves in portions what `ch'` moves at once, on states that `R` relates. -/
structure Portions (ch : Channel σ) (ch' : Channel τ) (R : σ → τ → Prop) : Prop where
  cancelled : ∀ {s t}, R s t → ch.cancelled s = ch'.cancelled t
  reachable : ∀ {s t}, R s t → ch.reachable s = ch'.reachable t
  isClosed : ∀ {s t}, R s t → ch.isClosed s = ch'.isClosed t
  await : ∀ {s t}, R s t → R (ch.await s) (ch'.await t)
  offer_refused : ∀ {s t src}, R s t → src ≠ [] → (ch.offer s src).count = 0 →
    ch'.offer t src = ⟨0, t⟩ ∧ R (ch.offer s src).state t
  offer_moved : ∀ {s t} (src), R s t → ∃ t₁,
    ch'.OfferSplits t src (ch.offer s src).count t₁ ∧ R (ch.offer s src).state t₁
  poll_refused : ∀ {s t dst}, R s t → dst ≠ [] → (ch.poll s dst).count = 0 →
    (ch.poll s dst).buffer = dst ∧ ch'.poll t dst = ⟨0, dst, t⟩ ∧ R (ch.poll s dst).state t
  poll_moved : ∀ {s t} (dst), R s t → ∃ t₁,
    ch'.PollSplits t dst (ch.poll s dst).count (ch.poll s dst).buffer t₁ ∧
      R (ch.poll s dst).state t₁

namespace Portions

variable {R : σ → τ → Prop}

theorem writeFrom (p : ch.Portions ch' R) (moved : ℕ) {s : σ} {t : τ} (rest : Bytes) (h : R s t) :
    (ch.writeFrom moved s rest).stopped = (ch'.writeFrom moved t rest).stopped ∧
      R (ch.writeFrom moved s rest).state (ch'.writeFrom moved t rest).state := by
  fun_induction ch.writeFrom moved s rest generalizing t
  case case1 moved s =>
    rw [writeFrom_nil]
    exact ⟨rfl, h⟩
  case case2 moved s rest hrest hc =>
    rw [writeFrom_cancelled hrest ((p.cancelled h).symm.trans hc)]
    exact ⟨rfl, h⟩
  case case3 moved s rest hrest hc m hm s' ho =>
    obtain ⟨hcall, hstate⟩ := p.offer_refused h hrest hm
    have hafter := p.await hstate
    have hc' : ¬ch'.cancelled t = true := fun h' => hc ((p.cancelled h).trans h')
    rw [writeFrom_refused hrest hc' hcall, if_pos ((p.isClosed hafter).symm.trans ho)]
    exact ⟨rfl, hafter⟩
  case case4 moved s rest hrest hc m hm s' ho ih =>
    obtain ⟨hcall, hstate⟩ := p.offer_refused h hrest hm
    have hafter := p.await hstate
    have hc' : ¬ch'.cancelled t = true := fun h' => hc ((p.cancelled h).trans h')
    rw [writeFrom_refused (s := t) hrest hc' hcall,
      if_neg fun h' => ho ((p.isClosed hafter).trans h')]
    exact ih hafter
  case case5 moved s rest hrest hc m hm ih =>
    obtain ⟨t₁, hsplit, hstate⟩ := p.offer_moved rest h
    have hc' : ¬ch'.cancelled t = true := fun h' => hc ((p.cancelled h).trans h')
    rw [hsplit.writeFrom hc' hrest (Nat.pos_of_ne_zero hm)]
    exact ih hstate

theorem feedFrom (p : ch.Portions ch' R) (moved : ℕ) {s : σ} {t : τ} (rest : Bytes) (h : R s t) :
    (ch.feedFrom moved s rest).count = (ch'.feedFrom moved t rest).count ∧
      R (ch.feedFrom moved s rest).state (ch'.feedFrom moved t rest).state := by
  fun_induction ch.feedFrom moved s rest generalizing t
  case case1 moved s =>
    rw [feedFrom_stop (.inl rfl)]
    exact ⟨rfl, h⟩
  case case2 moved s rest hrest hc =>
    rw [feedFrom_stop (.inr (.inl ((p.cancelled h).symm.trans hc)))]
    exact ⟨rfl, h⟩
  case case3 moved s rest hrest hc hu =>
    rw [feedFrom_stop (.inr (.inr (.inl ((p.reachable h).symm.trans hu))))]
    exact ⟨rfl, h⟩
  case case4 moved s rest hrest hc hu ho =>
    rw [feedFrom_stop (.inr (.inr (.inr ((p.isClosed h).symm.trans ho))))]
    exact ⟨rfl, h⟩
  case case5 moved s rest hrest hc hu ho m hm ih =>
    obtain ⟨hcall, hstate⟩ := p.offer_refused h hrest hm
    have hc' : ¬ch'.cancelled t = true := fun h' => hc ((p.cancelled h).trans h')
    have hu' : ¬ch'.reachable t = false := fun h' => hu ((p.reachable h).trans h')
    have ho' : ¬ch'.isClosed t = true := fun h' => ho ((p.isClosed h).trans h')
    rw [feedFrom_refused (s := t) hrest hc' hu' ho' hcall]
    exact ih (p.await hstate)
  case case6 moved s rest hrest hc hu ho m hm ih =>
    obtain ⟨t₁, hsplit, hstate⟩ := p.offer_moved rest h
    have hc' : ¬ch'.cancelled t = true := fun h' => hc ((p.cancelled h).trans h')
    have hu' : ¬ch'.reachable t = false := fun h' => hu ((p.reachable h).trans h')
    have ho' : ¬ch'.isClosed t = true := fun h' => ho ((p.isClosed h).trans h')
    rw [hsplit.feedFrom hc' hu' ho' hrest (Nat.pos_of_ne_zero hm)]
    exact ih hstate

theorem readFrom (p : ch.Portions ch' R) (moved : ℕ) {s : σ} {t : τ} (rest : Bytes) (h : R s t) :
    (ch.readFrom moved s rest).stopped = (ch'.readFrom moved t rest).stopped ∧
      (ch.readFrom moved s rest).buffer = (ch'.readFrom moved t rest).buffer ∧
      R (ch.readFrom moved s rest).state (ch'.readFrom moved t rest).state := by
  fun_induction ch.readFrom moved s rest generalizing t
  case case1 moved s =>
    rw [readFrom_nil]
    exact ⟨rfl, rfl, h⟩
  case case2 moved s rest hrest hc =>
    rw [readFrom_cancelled hrest ((p.cancelled h).symm.trans hc)]
    exact ⟨rfl, rfl, h⟩
  case case3 moved s rest hrest hc m hm s' ho =>
    obtain ⟨hbuffer, hcall, hstate⟩ := p.poll_refused h hrest hm
    have hafter := p.await hstate
    have hc' : ¬ch'.cancelled t = true := fun h' => hc ((p.cancelled h).trans h')
    rw [readFrom_refused hrest hc' hcall, if_pos ((p.isClosed hafter).symm.trans ho)]
    exact ⟨rfl, hbuffer, hafter⟩
  case case4 moved s rest hrest hc m hm s' ho ih =>
    obtain ⟨hbuffer, hcall, hstate⟩ := p.poll_refused h hrest hm
    have hafter := p.await hstate
    have hc' : ¬ch'.cancelled t = true := fun h' => hc ((p.cancelled h).trans h')
    rw [readFrom_refused (s := t) hrest hc' hcall,
      if_neg fun h' => ho ((p.isClosed hafter).trans h')]
    have hnext := ih hafter
    rw [show m.buffer = rest from hbuffer] at hnext ⊢
    exact hnext
  case case5 moved s rest hrest hc m hm r ih =>
    obtain ⟨t₁, hsplit, hstate⟩ := p.poll_moved rest h
    have hc' : ¬ch'.cancelled t = true := fun h' => hc ((p.cancelled h).trans h')
    have hle : m.count ≤ m.buffer.length :=
      (ch.poll_le s rest).trans_eq (ch.poll_length s rest).symm
    obtain ⟨hstopped, hbuffer, hlast⟩ := ih hstate
    rw [hsplit.readFrom hc' hrest (Nat.pos_of_ne_zero hm) hle]
    exact ⟨hstopped, congrArg (m.buffer.take m.count ++ ·) hbuffer, hlast⟩

end Portions

end Channel

end EntropySupply
