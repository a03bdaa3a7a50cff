import EntropySupply.Proofs.Traffic.Threads

/-!
# The books of the threads

What a thread's phase says about the ring stays true while others act, because nobody else has its
holding. The books of all threads agree with the ring if this holds of every thread, the ledger is
faithful, the published reservations make up its stream, and every sender has counted what it
published. Main statements: a thread that goes on within its own holding leaves the books of all
others in agreement.
-/

namespace EntropySupply

namespace Ring

variable {c : Capacity}

namespace Sender

variable {s : Sender} {h h' : History c} {i : ℕ}

/-- What a sender's phase says about the ring. -/
def Fits (s : Sender) (h : History c) : Prop :=
  s.written ≤ s.source.length ∧
    match s.phase with
    | .ready | .refused => True
    | .offering | .reserving => s.rest ≠ []
    | .filling i span =>
      h.session.held? i = some (.writing span) ∧ span.length.toNat ≤ s.rest.length
    | .committing i span =>
      h.session.held? i = some (.writing span) ∧ span.length.toNat ≤ s.rest.length ∧
        h.ledger.draft i = s.rest.take span.length.toNat
    | .returned none => s.written = s.source.length
    | .returned (some e) => s.written = e.transferred

theorem Fits.writing (hf : s.Fits h) (hi : s.holding? = some i) :
    ∃ span, h.session.held? i = some (.writing span) := by
  obtain ⟨source, token, written, phase⟩ := s
  cases phase with
  | filling k span =>
    obtain rfl := Option.some.inj hi
    exact ⟨span, hf.2.1⟩
  | committing k span =>
    obtain rfl := Option.some.inj hi
    exact ⟨span, hf.2.1⟩
  | _ => cases hi

theorem Fits.spared (hf : s.Fits h) (hs : ∀ i, s.holding? = some i → h.Spares h' i) :
    s.Fits h' := by
  obtain ⟨source, token, written, phase⟩ := s
  refine ⟨hf.1, ?_⟩
  cases phase with
  | filling k span =>
    have hk := hs k rfl
    exact ⟨hk.held.trans hf.2.1, hf.2.2⟩
  | committing k span =>
    have hk := hs k rfl
    exact ⟨hk.held.trans hf.2.1, hf.2.2.1, hk.draft.trans hf.2.2.2⟩
  | returned stopped => cases stopped <;> exact hf.2
  | _ => exact hf.2

end Sender

namespace Taking

variable {p : Taking} {h h' : History c} {i : ℕ}

def Fits (p : Taking) (h : History c) : Prop :=
  match p with
  | .idle => True
  | .copying i => ∃ span, h.session.held? i = some (.reading span)
  | .releasing i => (∃ span, h.session.held? i = some (.reading span)) ∧ h.Copied i

theorem Fits.reading (hf : p.Fits h) (hi : p.holding? = some i) :
    ∃ span, h.session.held? i = some (.reading span) := by
  cases p with
  | idle => cases hi
  | copying k =>
    obtain rfl := Option.some.inj hi
    exact hf
  | releasing k =>
    obtain rfl := Option.some.inj hi
    exact hf.1

theorem Fits.spared (hf : p.Fits h) (hs : ∀ i, p.holding? = some i → h.Spares h' i) :
    p.Fits h' := by
  cases p with
  | idle => trivial
  | copying k =>
    have hk := hs k rfl
    obtain ⟨span, hspan⟩ := hf
    exact ⟨span, hk.held.trans hspan⟩
  | releasing k =>
    have hk := hs k rfl
    obtain ⟨⟨span, hspan⟩, hcopied⟩ := hf
    exact ⟨⟨span, hk.held.trans hspan⟩, hk.copied hcopied⟩

end Taking

namespace History

variable {h h' : History c} {mine : Option ℕ}

/-- A later history that spares all holdings but one. -/
structure Advances (h h' : History c) (mine : Option ℕ) : Prop where
  faithful : Faithful h'.session h'.ledger
  attentive : h'.Attentive
  spares : ∀ k a, h.session.held? k = some a → mine ≠ some k → h.Spares h' k

theorem advances_refl (hf : Faithful h.session h.ledger) (ha : h.Attentive) :
    h.Advances h mine :=
  ⟨hf, ha, fun k _ _ _ => h.spares_refl k⟩

theorem advances_next (hf : Faithful h.session h.ledger) (ha : h.Attentive) {step : Step}
    (hallow : h.Allows step) (hcopied : ∀ i, step = .release i → h.Copied i)
    (hmine : ∀ k, step.holding? = some k → mine = some k) : h.Advances (h.next step) mine := by
  refine ⟨next_faithful hf hallow, attentive_next hf ha hcopied, ?_⟩
  intro k a hk hne
  exact spares_next hf hk fun hstep => hne (hmine k hstep)

end History

namespace Traffic

variable {ι κ : Type} [DecidableEq ι] {t : Traffic c ι κ} {sources : ι → Bytes}

/-- No number is held twice. -/
def Apart {ι : Type} (held : ι → Option ℕ) : Prop :=
  ∀ i j k, held i = some k → held j = some k → i = j

theorem Apart.update {ι : Type} [DecidableEq ι] {held : ι → Option ℕ} (h : Apart held) {i : ι}
    {mine : Option ℕ} (hmine : ∀ k, mine = some k → held i = some k ∨ ∀ j, held j ≠ some k) :
    Apart (Function.update held i mine) := by
  have hother : ∀ j k, j ≠ i → held j = some k → mine ≠ some k := by
    intro j k hj hjk hik
    rcases hmine k hik with hold | hnew
    · exact hj (h j i k hjk hold)
    · exact hnew j hjk
  intro j j' k hj hj'
  by_cases hji : j = i
  · by_cases hji' : j' = i
    · rw [hji, hji']
    · subst hji
      rw [Function.update_self] at hj
      rw [Function.update_of_ne hji'] at hj'
      exact absurd hj (hother j' k hji' hj')
  · rw [Function.update_of_ne hji] at hj
    by_cases hji' : j' = i
    · subst hji'
      rw [Function.update_self] at hj'
      exact absurd hj' (hother j k hji hj)
    · rw [Function.update_of_ne hji'] at hj'
      exact h j j' k hj hj'

/-- Everybody's books agree with the ring. -/
structure Consistent (t : Traffic c ι κ) (sources : ι → Bytes) : Prop where
  faithful : Faithful t.history.session t.history.ledger
  attentive : t.history.Attentive
  stream_eq : t.history.ledger.stream = (t.published.map Prod.snd).flatten
  source_eq : ∀ i, (t.senders i).source = sources i
  sent : ∀ i, t.publishedBy i = (sources i).take (t.senders i).written
  sender_fits : ∀ i, (t.senders i).Fits t.history
  taker_fits : ∀ j, (t.takers j).Fits t.history
  senders_apart : Apart (Sender.holding? ∘ t.senders)
  takers_apart : Apart (Taking.holding? ∘ t.takers)

theorem consistent_start (c : Capacity) (rule : CommitRule) (sources : ι → Bytes)
    (tokens : ι → ℕ) : (start c rule sources tokens : Traffic c ι κ).Consistent sources where
  faithful := faithful_start c rule
  attentive := by
    intro w hw
    simp [start, History.start] at hw
  stream_eq := rfl
  source_eq := fun _ => rfl
  sent := fun _ => rfl
  sender_fits := fun i => ⟨Nat.zero_le _, trivial⟩
  taker_fits := fun _ => trivial
  senders_apart := by
    intro i j k hi
    cases hi
  takers_apart := by
    intro i j k hi
    cases hi

namespace Consistent

theorem holding_ne (hc : t.Consistent sources) {i : ι} {j : κ} {k : ℕ}
    (hj : (t.takers j).holding? = some k) : (t.senders i).holding? ≠ some k := by
  intro hi
  obtain ⟨s, hs⟩ := (hc.sender_fits i).writing hi
  obtain ⟨r, hr⟩ := (hc.taker_fits j).reading hj
  cases hs.symm.trans hr

theorem sender_ne_fresh (hc : t.Consistent sources) (i : ι) :
    (t.senders i).holding? ≠ some t.fresh := by
  intro hi
  obtain ⟨s, hs⟩ := (hc.sender_fits i).writing hi
  exact Nat.lt_irrefl _ (Session.held?_lt hs)

theorem taker_ne_fresh (hc : t.Consistent sources) (j : κ) :
    (t.takers j).holding? ≠ some t.fresh := by
  intro hj
  obtain ⟨r, hr⟩ := (hc.taker_fits j).reading hj
  exact Nat.lt_irrefl _ (Session.held?_lt hr)

/-- Threads do not notice a step that concerns none of their holdings. -/
theorem sender_spared (hc : t.Consistent sources) {h' : History c} {mine : Option ℕ}
    (ha : t.history.Advances h' mine) {i : ι}
    (hmine : ∀ k, (t.senders i).holding? = some k → mine ≠ some k) : (t.senders i).Fits h' := by
  apply (hc.sender_fits i).spared
  intro k hk
  obtain ⟨span, hspan⟩ := (hc.sender_fits i).writing hk
  exact ha.spares k _ hspan (hmine k hk)

theorem taker_spared (hc : t.Consistent sources) {h' : History c} {mine : Option ℕ}
    (ha : t.history.Advances h' mine) {j : κ}
    (hmine : ∀ k, (t.takers j).holding? = some k → mine ≠ some k) : (t.takers j).Fits h' := by
  apply (hc.taker_fits j).spared
  intro k hk
  obtain ⟨span, hspan⟩ := (hc.taker_fits j).reading hk
  exact ha.spares k _ hspan (hmine k hk)

/-- A sender that goes on does not disturb the others. -/
theorem sender (hc : t.Consistent sources) {i : ι} {s : Sender} {h' : History c}
    {published : List (ι × Bytes)} (ha : t.history.Advances h' (t.senders i).holding?)
    (hsource : s.source = sources i) (hfits : s.Fits h')
    (hhold : ∀ k, s.holding? = some k → (t.senders i).holding? = some k ∨ k = t.fresh)
    (hstream : h'.ledger.stream = (published.map Prod.snd).flatten)
    (hsent : ∀ j, ((published.filter fun x => x.1 = j).map Prod.snd).flatten =
      (sources j).take (Function.update t.senders i s j).written) :
    Consistent
      { t with history := h', senders := Function.update t.senders i s, published } sources where
  faithful := ha.faithful
  attentive := ha.attentive
  stream_eq := hstream
  source_eq := by
    intro j
    by_cases hj : j = i
    · subst hj
      simpa using hsource
    · simpa [hj] using hc.source_eq j
  sent := hsent
  sender_fits := by
    intro j
    by_cases hj : j = i
    · subst hj
      simpa using hfits
    · change (Function.update t.senders i s j).Fits h'
      rw [Function.update_of_ne hj]
      apply hc.sender_spared ha
      intro k hk hi
      exact hj (hc.senders_apart j i k hk hi)
  taker_fits := by
    intro j
    apply hc.taker_spared ha
    intro k hk
    exact hc.holding_ne hk
  senders_apart := by
    change Apart (Sender.holding? ∘ Function.update t.senders i s)
    rw [Function.comp_update]
    apply hc.senders_apart.update
    intro k hk
    rcases hhold k hk with hold | rfl
    · exact .inl hold
    · exact .inr fun j hj => hc.sender_ne_fresh j hj
  takers_apart := hc.takers_apart

theorem sender_silent (hc : t.Consistent sources) {i : ι} {s : Sender} {h' : History c}
    (ha : t.history.Advances h' (t.senders i).holding?) (hsource : s.source = (t.senders i).source)
    (hwritten : s.written = (t.senders i).written) (hfits : s.Fits h')
    (hhold : ∀ k, s.holding? = some k → (t.senders i).holding? = some k ∨ k = t.fresh)
    (hstream : h'.ledger.stream = t.history.ledger.stream) :
    Consistent { t with history := h', senders := Function.update t.senders i s } sources := by
  refine hc.sender ha (hsource.trans (hc.source_eq i)) hfits hhold (hstream.trans hc.stream_eq) ?_
  intro j
  refine (hc.sent j).trans ?_
  by_cases hj : j = i
  · subst hj
    rw [Function.update_self, hwritten]
  · rw [Function.update_of_ne hj]

theorem taker [DecidableEq κ] (hc : t.Consistent sources) {j : κ} {p : Taking} {h' : History c}
    (ha : t.history.Advances h' (t.takers j).holding?) (hfits : p.Fits h')
    (hhold : ∀ k, p.holding? = some k → (t.takers j).holding? = some k ∨ k = t.fresh)
    (hstream : h'.ledger.stream = t.history.ledger.stream) :
    Consistent { t with history := h', takers := Function.update t.takers j p } sources where
  faithful := ha.faithful
  attentive := ha.attentive
  stream_eq := hstream.trans hc.stream_eq
  source_eq := hc.source_eq
  sent := hc.sent
  sender_fits := by
    intro i
    apply hc.sender_spared ha
    intro k hk hj
    exact hc.holding_ne hj hk
  taker_fits := by
    intro i
    by_cases hi : i = j
    · subst hi
      simpa using hfits
    · change (Function.update t.takers j p i).Fits h'
      rw [Function.update_of_ne hi]
      apply hc.taker_spared ha
      intro k hk hj
      exact hi (hc.takers_apart i j k hk hj)
  senders_apart := hc.senders_apart
  takers_apart := by
    change Apart (Taking.holding? ∘ Function.update t.takers j p)
    rw [Function.comp_update]
    apply hc.takers_apart.update
    intro k hk
    rcases hhold k hk with hold | rfl
    · exact .inl hold
    · exact .inr fun i hi => hc.taker_ne_fresh i hi

/-- What concerns no holding leaves all threads as they are. -/
theorem untouched (hc : t.Consistent sources) {h' : History c} (ha : t.history.Advances h' none)
    (hstream : h'.ledger.stream = t.history.ledger.stream) :
    Consistent { t with history := h' } sources where
  faithful := ha.faithful
  attentive := ha.attentive
  stream_eq := hstream.trans hc.stream_eq
  source_eq := hc.source_eq
  sent := hc.sent
  sender_fits := fun i => hc.sender_spared ha (by simp)
  taker_fits := fun j => hc.taker_spared ha (by simp)
  senders_apart := hc.senders_apart
  takers_apart := hc.takers_apart

end Consistent

end Traffic

end Ring

end EntropySupply
