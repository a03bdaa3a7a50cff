import EntropySupply.Proofs.Ring.Delivery

/-!
# What a step leaves alone

A step that concerns no holding, or another one, leaves a holding with its span, its draft and what
was copied out of it. A claim that has not been copied out stays live as long as nobody releases
such a claim; then what readers took, with the slots of these claims in place of a copy, is the
front of the stream.
-/

namespace EntropySupply.Ring

variable {c : Capacity}

def Step.holding? : Step → Option ℕ
  | .put i _ | .get i | .commit i | .release i => some i
  | _ => none

namespace History

/-- Whether every claim with that number has been copied out. -/
def Copied (h : History c) (i : ℕ) : Prop :=
  ∀ w ∈ h.ledger.withdrawals, w.holding = some i → w.copied ≠ none

structure Spares (h h' : History c) (i : ℕ) : Prop where
  held : h'.session.held? i = h.session.held? i
  draft : h'.ledger.draft i = h.ledger.draft i
  copied : h.Copied i → h'.Copied i

theorem spares_refl (h : History c) (i : ℕ) : h.Spares h i := ⟨rfl, rfl, id⟩

theorem copied_mark {l : List Withdrawal} {i k : ℕ} {bytes : Bytes}
    (h : ∀ w ∈ l, w.holding = some k → w.copied ≠ none) :
    ∀ w ∈ l.map (Withdrawal.mark i bytes), w.holding = some k → w.copied ≠ none := by
  intro w hw hk
  obtain ⟨v, hv, rfl⟩ := List.mem_map.mp hw
  rw [Withdrawal.holding_mark] at hk
  unfold Withdrawal.mark
  split_ifs
  · simp
  · exact h v hv hk

/-- A new claim with another number, or with a copy, asks for nothing. -/
theorem copied_snoc {l : List Withdrawal} {v : Withdrawal} {k : ℕ}
    (h : ∀ w ∈ l, w.holding = some k → w.copied ≠ none) (hv : v.holding ≠ some k) :
    ∀ w ∈ l ++ [v], w.holding = some k → w.copied ≠ none := by
  intro w hw hk
  rcases List.mem_append.mp hw with hw | hw
  · exact h w hw hk
  · obtain rfl := List.mem_singleton.mp hw
    exact absurd hk hv

theorem spares_next {h : History c} (hf : Faithful h.session h.ledger) {step : Step} {i : ℕ}
    {a : Holding} (hi : h.session.held? i = some a) (hstep : step.holding? ≠ some i) :
    h.Spares (h.next step) i := by
  have hlt := Session.held?_lt hi
  have hne : i ≠ h.session.holdings.length := Nat.ne_of_lt hlt
  obtain ⟨t, hm, hnext⟩ := h.exists_move step
  rw [hnext]
  generalize (h.session.step step).1 = answer at hm
  cases hm with
  | idle hidle =>
    rw [Ledger.note_idle _ _ _ hidle]
    exact h.spares_refl i
  | reserve =>
    refine ⟨?_, Ledger.draft_snoc rfl i, id⟩
    exact (Session.held?_grant _ i).trans (if_neg hne)
  | claim =>
    refine ⟨?_, Ledger.draft_snoc rfl i, fun hc => copied_snoc hc ?_⟩
    · exact (Session.held?_grant _ i).trans (if_neg hne)
    · rw [hf.drafts_length]
      exact fun hnum => hne (Option.some.inj hnum).symm
  | @put j _ _ hj =>
    have hji : j ≠ i := fun hji => hstep (congrArg some hji)
    have hjlt := (Session.held?_lt hj).trans_eq hf.drafts_length.symm
    exact ⟨rfl, (Ledger.draft_put rfl hjlt i).trans (if_neg hji), id⟩
  | get => exact ⟨rfl, rfl, copied_mark⟩
  | @commit j _ how ring =>
    have hji : j ≠ i := fun hji => hstep (congrArg some hji)
    have hheld : (h.session.giveUp j ring).held? i = h.session.held? i := by
      rw [Session.held?_giveUp, if_neg hji]
    cases how with
    | published => exact ⟨hheld, rfl, id⟩
    | retracted => exact ⟨hheld, rfl, id⟩
  | @release j =>
    have hji : j ≠ i := fun hji => hstep (congrArg some hji)
    exact ⟨(Session.held?_giveUp _ i).trans (if_neg hji), rfl, id⟩
  | offer => exact ⟨rfl, rfl, id⟩
  | poll =>
    simp only [Ledger.note]
    split_ifs
    · exact ⟨rfl, rfl, id⟩
    · exact ⟨rfl, rfl, fun hc => copied_snoc hc (by simp)⟩
  | close => exact ⟨rfl, rfl, id⟩

/-- Whether every claim that has not been copied out is still live. -/
def Attentive (h : History c) : Prop :=
  ∀ w ∈ h.ledger.withdrawals, w.copied = none →
    ∃ i, w.holding = some i ∧ h.session.held? i = some (.reading w.span)

theorem attentive_next {h : History c} (hf : Faithful h.session h.ledger) (ha : h.Attentive)
    {step : Step} (hstep : ∀ i, step = .release i → h.Copied i) : (h.next step).Attentive := by
  obtain ⟨t, hm, hnext⟩ := h.exists_move step
  rw [hnext]
  generalize (h.session.step step).1 = answer at hm
  cases hm with
  | idle hidle =>
    rw [Ledger.note_idle _ _ _ hidle]
    exact ha
  | reserve =>
    intro w hw hc
    obtain ⟨i, hnum, hheld⟩ := ha w hw hc
    exact ⟨i, hnum, Session.held?_grant_of_held? hheld _ _⟩
  | claim =>
    intro w hw hc
    rcases List.mem_append.mp hw with hw | hw
    · obtain ⟨i, hnum, hheld⟩ := ha w hw hc
      exact ⟨i, hnum, Session.held?_grant_of_held? hheld _ _⟩
    · obtain rfl := List.mem_singleton.mp hw
      exact ⟨_, rfl, (Session.held?_grant _ _).trans (if_pos hf.drafts_length)⟩
  | put => exact ha
  | get =>
    intro w hw hc
    obtain ⟨v, hv, rfl⟩ := List.mem_map.mp hw
    unfold Withdrawal.mark at hc ⊢
    split_ifs at hc ⊢
    exact ha v hv hc
  | @commit j span how ring hj =>
    have hkept : ∀ w ∈ h.ledger.withdrawals, w.copied = none →
        ∃ i, w.holding = some i ∧ (h.session.giveUp j ring).held? i = some (.reading w.span) := by
      intro w hw hc
      obtain ⟨i, hnum, hheld⟩ := ha w hw hc
      refine ⟨i, hnum, Session.held?_giveUp_of_ne hheld ?_ _⟩
      rintro rfl
      cases hj.symm.trans hheld
    cases how with
    | published => exact hkept
    | retracted => exact hkept
  | @release j span ring hj =>
    intro w hw hc
    obtain ⟨i, hnum, hheld⟩ := ha w hw hc
    refine ⟨i, hnum, Session.held?_giveUp_of_ne hheld ?_ _⟩
    rintro rfl
    exact hstep j rfl w hw hnum hc
  | offer => exact ha
  | poll =>
    simp only [Ledger.note]
    split_ifs
    · exact ha
    · intro w hw hc
      rcases List.mem_append.mp hw with hw | hw
      · exact ha w hw hc
      · obtain rfl := List.mem_singleton.mp hw
        cases hc
  | close => exact ha

/-- The bytes of the claims in their order: what was copied out, and before that the contents of
the slots. -/
def taken (h : History c) : Bytes :=
  (h.ledger.withdrawals.map fun w => w.copied.getD (h.session.ring.load w.span)).flatten

/-- What readers took is the front of the stream, and what nobody claimed is the rest. -/
theorem taken_append_unclaimed {h : History c} (hf : Faithful h.session h.ledger)
    (ha : h.Attentive) :
    h.taken ++ h.session.ring.load h.session.ring.unclaimed = h.ledger.stream := by
  have htaken : h.taken = h.ledger.stream.take h.session.ring.claimed.toNat := by
    apply hf.flatten_withdrawals
    intro w hw
    cases hc : w.copied with
    | none =>
      obtain ⟨i, -, hheld⟩ := ha w hw hc
      exact (hf.load_eq hheld).2
    | some b => exact hf.copied w hw b hc
  rw [htaken, hf.keeps.load_unclaimed hf.sound, List.take_append_drop]

section Steps

variable {h : History c} {k : ℕ} {span : Span}

theorem stream_next {step : Step} (ho : ∀ src, step ≠ .offer src)
    (hp : (h.session.step step).1 ≠ .ended .published) :
    (h.next step).ledger.stream = h.ledger.stream := by
  obtain ⟨t, hm, hnext⟩ := h.exists_move step
  rw [hnext]
  generalize (h.session.step step).1 = answer at hm hp
  cases hm with
  | idle hidle => rw [Ledger.note_idle _ _ _ hidle]
  | @commit _ _ how =>
    cases how with
    | published => exact absurd rfl hp
    | retracted => rfl
  | offer => exact absurd rfl (ho _)
  | poll =>
    simp only [Ledger.note]
    split_ifs <;> rfl
  | _ => rfl

theorem next_reserve {want : UInt64} (ha : (h.session.step (.reserve want)).1 = .granted span) :
    (h.next (.reserve want)).session.held? h.session.holdings.length = some (.writing span) ∧
      span.length.toNat ≤ want.toNat := by
  obtain ⟨t, hm, hnext⟩ := h.exists_move (.reserve want)
  rw [ha] at hm hnext
  rw [hnext]
  cases hm with
  | idle hidle => exact hidle.elim
  | reserve hr => exact ⟨(Session.held?_grant _ _).trans (if_pos rfl), reserve?_length hr⟩

theorem next_claim {want : UInt64} (ha : (h.session.step (.claim want)).1 = .granted span) :
    (h.next (.claim want)).session.held? h.session.holdings.length = some (.reading span) := by
  obtain ⟨t, hm, hnext⟩ := h.exists_move (.claim want)
  rw [ha] at hm hnext
  rw [hnext]
  cases hm with
  | idle hidle => exact hidle.elim
  | claim => exact (Session.held?_grant _ _).trans (if_pos rfl)

theorem held?_next_copy {step : Step} (hstep : (∃ src, step = .put k src) ∨ step = .get k) (i : ℕ) :
    (h.next step).session.held? i = h.session.held? i := by
  obtain ⟨t, hm, hnext⟩ := h.exists_move step
  rw [hnext]
  generalize (h.session.step step).1 = answer at hm
  rcases hstep with ⟨src, rfl⟩ | rfl <;> cases hm <;> rfl

theorem next_put (hf : Faithful h.session h.ledger) (hk : h.session.held? k = some (.writing span))
    {src : Bytes} (hsrc : src.length = span.length.toNat) :
    (h.next (.put k src)).ledger.draft k = src := by
  have hans : (h.session.step (.put k src)).1 = .copied src.length := by
    simp only [Session.step, hk]
    rw [← hsrc, List.take_length]
  have hlt := (Session.held?_lt hk).trans_eq hf.drafts_length.symm
  have hdraft := (hf.drafted k span hk).1
  change (h.ledger.note h.session (.put k src) (h.session.step (.put k src)).1).draft k = src
  rw [hans, Ledger.draft_put rfl hlt k, if_pos rfl, List.take_length,
    List.drop_eq_nil_of_le (by omega), List.append_nil]

theorem next_get (hk : h.session.held? k = some (.reading span)) : (h.next (.get k)).Copied k := by
  have hans : (h.session.step (.get k)).1 = .got (h.session.ring.load span) := by
    simp only [Session.step, hk]
  have hafter : (h.next (.get k)).ledger.withdrawals =
      h.ledger.withdrawals.map (Withdrawal.mark k (h.session.ring.load span)) := by
    change (h.ledger.note h.session (.get k) (h.session.step (.get k)).1).withdrawals = _
    rw [hans]
    rfl
  intro w hw hnum
  rw [hafter] at hw
  obtain ⟨v, hv, rfl⟩ := List.mem_map.mp hw
  rw [Withdrawal.holding_mark] at hnum
  simp [Withdrawal.mark, hnum]

theorem next_published (ha : (h.session.step (.commit k)).1 = .ended .published) :
    (h.next (.commit k)).ledger.stream = h.ledger.stream ++ h.ledger.draft k := by
  obtain ⟨t, -, hnext⟩ := h.exists_move (.commit k)
  rw [ha] at hnext
  rw [hnext]
  rfl

end Steps

end History

end EntropySupply.Ring
