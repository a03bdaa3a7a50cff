import EntropySupply.Proofs.Traffic.Books

/-!
# Accounts of senders

A reservation is its sender's own until its commit, so what was copied in is what is published, and
one that is taken back leaves no trace in the count. Main statement: after any events the takers'
bytes, followed by the bytes that wait, are a shuffle of one front part of each source, which is as
long as its sender has counted.
-/

namespace EntropySupply

/-- Whether `all` is made of the parts, each in its own order: its entries can be labelled so that
those with label `i` are part `i`. -/
def Shuffle {ι α : Type} [DecidableEq ι] (parts : ι → List α) (all : List α) : Prop :=
  ∃ labelled : List (ι × α), labelled.map Prod.snd = all ∧
    ∀ i, (labelled.filter fun x => x.1 = i).map Prod.snd = parts i

theorem shuffle_flatten {ι α : Type} [DecidableEq ι] (pieces : List (ι × List α)) :
    Shuffle (fun i => ((pieces.filter fun x => x.1 = i).map Prod.snd).flatten)
      (pieces.map Prod.snd).flatten := by
  refine ⟨pieces.flatMap fun x => x.2.map (Prod.mk x.1), ?_, fun i => ?_⟩
  · induction pieces with
    | nil => rfl
    | cons x pieces ih => simp [ih, Function.comp_def]
  · induction pieces with
    | nil => rfl
    | cons x pieces ih =>
      by_cases hx : x.1 = i
      · simp [hx, ih, List.filter_map, Function.comp_def]
      · simp [hx, ih, List.filter_map, Function.comp_def]

namespace Ring.Traffic

variable {c : Capacity} {ι κ : Type} [DecidableEq ι] {t : Traffic c ι κ} {sources : ι → Bytes}

namespace Consistent

/-- A step of the session that concerns no holding but one's own. -/
theorem advances (hc : t.Consistent sources) (mine : Option ℕ) {step : Step}
    (hallow : t.history.Allows step) (hcopied : ∀ k, step = .release k → t.history.Copied k)
    (hmine : ∀ k, step.holding? = some k → mine = some k) :
    t.history.Advances (t.history.next step) mine :=
  History.advances_next hc.faithful hc.attentive hallow hcopied hmine

theorem send_still (hc : t.Consistent sources) {i : ι} {phase : Sending}
    (hfits : { t.senders i with phase }.Fits t.history)
    (hnone : { t.senders i with phase }.holding? = none) :
    (t.sender i { t.senders i with phase }).Consistent sources :=
  hc.sender_silent (History.advances_refl hc.faithful hc.attentive) rfl rfl hfits
    (by simp [hnone]) rfl

theorem send_ready (hc : t.Consistent sources) {i : ι} (hi : (t.senders i).phase = .ready) :
    (t.send i).Consistent sources := by
  have hle := (hc.sender_fits i).1
  simp only [Traffic.send, hi]
  split_ifs with hrest hfired
  · refine hc.send_still ⟨hle, ?_⟩ rfl
    have hlen : (t.senders i).source.length ≤ (t.senders i).written := List.drop_eq_nil_iff.mp hrest
    exact Nat.le_antisymm hle hlen
  · exact hc.send_still ⟨hle, rfl⟩ rfl
  · exact hc.send_still ⟨hle, hrest⟩ rfl

theorem send_offering (hc : t.Consistent sources) {i : ι} (hi : (t.senders i).phase = .offering) :
    (t.send i).Consistent sources := by
  have hfit := hc.sender_fits i
  simp only [Sender.Fits, hi] at hfit
  simp only [Traffic.send, hi]
  split_ifs
  · exact hc.send_still ⟨hfit.1, trivial⟩ rfl
  · exact hc.send_still hfit rfl

theorem send_reserving (hc : t.Consistent sources) {i : ι}
    (hi : (t.senders i).phase = .reserving) : (t.send i).Consistent sources := by
  have hfit := hc.sender_fits i
  simp only [Sender.Fits, hi] at hfit
  obtain ⟨hle, hrest⟩ := hfit
  simp only [Traffic.send, hi]
  split
  · rename_i span hans
    have hallow : t.history.Allows (.reserve (request c (t.senders i).rest.length)) :=
      request_ne_zero hrest
    have hadv := hc.advances (t.senders i).holding? hallow (fun _ h => by cases h)
      (fun _ h => by cases h)
    obtain ⟨hheld, hlen⟩ := History.next_reserve hans
    have hreq := toNat_request_le c (t.senders i).rest.length
    refine hc.sender_silent hadv rfl rfl ⟨hle, hheld, ?_⟩ ?_ ?_
    · change span.length.toNat ≤ (t.senders i).rest.length
      omega
    · intro k hk
      exact .inr (Option.some.inj hk).symm
    · exact History.stream_next (by simp) fun hp => absurd (hans.symm.trans hp) (by simp)
  · exact hc.send_still ⟨hle, trivial⟩ rfl

theorem send_filling (hc : t.Consistent sources) {i : ι} {k : ℕ} {span : Span}
    (hi : (t.senders i).phase = .filling k span) : (t.send i).Consistent sources := by
  have hfit := hc.sender_fits i
  simp only [Sender.Fits, hi] at hfit
  obtain ⟨hle, hheld, hlen⟩ := hfit
  have hmine : (t.senders i).holding? = some k := by simp [Sender.holding?, hi]
  have hsrc : ((t.senders i).rest.take span.length.toNat).length = span.length.toNat := by
    rw [List.length_take, Nat.min_eq_left hlen]
  simp only [Traffic.send, hi]
  have hallow : t.history.Allows (.put k ((t.senders i).rest.take span.length.toNat)) := trivial
  have hadv := hc.advances (t.senders i).holding? hallow (fun _ h => by cases h)
    (fun j h => hmine.trans h)
  refine hc.sender_silent hadv rfl rfl ⟨hle, ?_, hlen, ?_⟩ ?_ ?_
  · exact (History.held?_next_copy (.inl ⟨_, rfl⟩) k).trans hheld
  · exact History.next_put hc.faithful hheld hsrc
  · intro j hj
    exact .inl (hmine.trans hj)
  · refine History.stream_next (by simp) fun hp => ?_
    simp only [Session.step, hheld] at hp
    cases hp

theorem publishedBy_snoc (published : List (ι × Bytes)) (i j : ι) (b : Bytes) :
    (((published ++ [(i, b)]).filter fun x => x.1 = j).map Prod.snd).flatten =
      ((published.filter fun x => x.1 = j).map Prod.snd).flatten ++ if i = j then b else [] := by
  by_cases hij : i = j <;> simp [List.filter_append, hij]

theorem send_committing (hc : t.Consistent sources) {i : ι} {k : ℕ} {span : Span}
    (hi : (t.senders i).phase = .committing k span) : (t.send i).Consistent sources := by
  have hfit := hc.sender_fits i
  simp only [Sender.Fits, hi] at hfit
  obtain ⟨hle, hheld, hlen, hdraft⟩ := hfit
  have hmine : (t.senders i).holding? = some k := by simp [Sender.holding?, hi]
  have hfull : (t.history.ledger.draft k).length = span.length.toNat := by
    rw [hdraft, List.length_take, Nat.min_eq_left hlen]
  have hallow : t.history.Allows (.commit k) := by
    simpa [History.Allows, hheld, Filled] using hfull
  have hadv := hc.advances (t.senders i).holding? hallow (fun _ h => by cases h)
    (fun j h => hmine.trans h)
  simp only [Traffic.send, hi]
  split
  · rename_i hans
    have hrest : (t.senders i).rest.length = (t.senders i).source.length - (t.senders i).written :=
      List.length_drop
    refine hc.sender hadv (hc.source_eq i) ⟨?_, trivial⟩ ?_ ?_ ?_
    · change (t.senders i).written + span.length.toNat ≤ (t.senders i).source.length
      omega
    · intro j hj
      cases hj
    · rw [List.map_append, List.flatten_append, ← hc.stream_eq]
      exact (History.next_published hans).trans (by simp)
    · intro j
      rw [publishedBy_snoc]
      by_cases hij : i = j
      · subst hij
        rw [if_pos rfl, Function.update_self]
        change t.publishedBy i ++ _ = (sources i).take ((t.senders i).written + span.length.toNat)
        rw [hc.sent i, hdraft, List.take_add, Sender.rest, hc.source_eq i]
      · rw [if_neg hij, List.append_nil, Function.update_of_ne (Ne.symm hij)]
        exact hc.sent j
  · rename_i hans
    refine hc.sender_silent hadv rfl rfl ⟨hle, trivial⟩ ?_ ?_
    · intro j hj
      cases hj
    · exact History.stream_next (by simp) fun hp => absurd (hans.symm.trans hp) (by simp)
  · exact hc

theorem send (hc : t.Consistent sources) (i : ι) : (t.send i).Consistent sources := by
  cases hi : (t.senders i).phase with
  | ready => exact hc.send_ready hi
  | offering => exact hc.send_offering hi
  | reserving => exact hc.send_reserving hi
  | filling k span => exact hc.send_filling hi
  | committing k span => exact hc.send_committing hi
  | refused =>
    have hle := (hc.sender_fits i).1
    simp only [Traffic.send, hi]
    split_ifs
    · exact hc.send_still ⟨hle, rfl⟩ rfl
    · exact hc.send_still ⟨hle, trivial⟩ rfl
  | returned stopped =>
    simp only [Traffic.send, hi]
    exact hc

variable [DecidableEq κ]

theorem take (hc : t.Consistent sources) (j : κ) (length : ℕ) :
    (t.take j length).Consistent sources := by
  have hfit := hc.taker_fits j
  cases hj : t.takers j with
  | idle =>
    simp only [Traffic.take, hj]
    split_ifs with hlength
    · exact hc
    · split
      · rename_i span hans
        have hallow : t.history.Allows (.claim (request c length)) :=
          request_ne_zero_of_ne hlength
        have hadv := hc.advances (t.takers j).holding? hallow (fun _ h => by cases h)
          (fun _ h => by cases h)
        refine hc.taker hadv ⟨span, History.next_claim hans⟩ ?_ ?_
        · intro k hk
          exact .inr (Option.some.inj hk).symm
        · exact History.stream_next (by simp) fun hp => absurd (hans.symm.trans hp) (by simp)
      · exact hc
  | copying k =>
    rw [hj] at hfit
    obtain ⟨span, hheld⟩ := hfit
    have hmine : (t.takers j).holding? = some k := by rw [hj]; rfl
    simp only [Traffic.take, hj]
    have hallow : t.history.Allows (.get k) := trivial
    have hadv := hc.advances (t.takers j).holding? hallow (fun _ h => by cases h)
      (fun i h => hmine.trans h)
    refine hc.taker hadv ⟨⟨span, ?_⟩, History.next_get hheld⟩ ?_ ?_
    · exact (History.held?_next_copy (.inr rfl) k).trans hheld
    · intro i hi
      exact .inl (hmine.trans hi)
    · refine History.stream_next (by simp) fun hp => ?_
      simp only [Session.step, hheld] at hp
      cases hp
  | releasing k =>
    rw [hj] at hfit
    obtain ⟨-, hcopied⟩ := hfit
    have hmine : (t.takers j).holding? = some k := by rw [hj]; rfl
    simp only [Traffic.take, hj]
    split
    · rename_i hans
      have hallow : t.history.Allows (.release k) := trivial
      have hadv := hc.advances (t.takers j).holding? hallow (fun i h => by cases h; exact hcopied)
        (fun i h => hmine.trans h)
      refine hc.taker hadv trivial ?_ ?_
      · intro i hi
        cases hi
      · exact History.stream_next (by simp) fun hp => absurd (hans.symm.trans hp) (by simp)
    · exact hc

theorem next (hc : t.Consistent sources) (event : Event ι κ) :
    (t.next event).Consistent sources := by
  cases event with
  | send i => exact hc.send i
  | take j length => exact hc.take j length
  | close =>
    have hallow : t.history.Allows .close := trivial
    refine hc.untouched (hc.advances none hallow (fun _ h => by cases h) fun _ h => by cases h) ?_
    exact History.stream_next (by simp) (by simp [Session.step])
  | cancel token =>
    exact ⟨hc.faithful, hc.attentive, hc.stream_eq, hc.source_eq, hc.sent, hc.sender_fits,
      hc.taker_fits, hc.senders_apart, hc.takers_apart⟩

theorem run (hc : t.Consistent sources) (events : List (Event ι κ)) :
    (t.run events).Consistent sources := by
  induction events generalizing t with
  | nil => exact hc
  | cons event events ih => exact ih (hc.next event)

end Consistent

/-- What the owners of the sources can rely on. -/
structure Accounts (t : Traffic c ι κ) (sources : ι → Bytes) : Prop where
  shuffled : Shuffle (fun i => (sources i).take (t.senders i).written) (t.taken ++ t.waiting)
  published : ∀ i, t.publishedBy i = (sources i).take (t.senders i).written
  written_le : ∀ i, (t.senders i).written ≤ (sources i).length
  finished : ∀ i, (t.senders i).phase = .returned none →
    (t.senders i).written = (sources i).length
  stopped : ∀ i e, (t.senders i).phase = .returned (some e) →
    (t.senders i).written = e.transferred

theorem accounts_of_consistent (hc : t.Consistent sources) : t.Accounts sources where
  shuffled := by
    have hparts : (fun i => (sources i).take (t.senders i).written) = t.publishedBy :=
      funext fun i => (hc.sent i).symm
    rw [hparts, taken, waiting, ring, History.taken_append_unclaimed hc.faithful hc.attentive,
      hc.stream_eq]
    exact shuffle_flatten t.published
  published := hc.sent
  written_le := fun i => (hc.sender_fits i).1.trans_eq (congrArg List.length (hc.source_eq i))
  finished := by
    intro i hi
    have hfit := hc.sender_fits i
    simp only [Sender.Fits, hi] at hfit
    rw [hfit.2, hc.source_eq i]
  stopped := by
    intro i e hi
    have hfit := hc.sender_fits i
    simp only [Sender.Fits, hi] at hfit
    exact hfit.2

/-- However the threads take turns, whoever closes the ring and whichever writes are called off, no
byte is lost, repeated or made up. -/
theorem run_accounts [DecidableEq κ] (c : Capacity) (rule : CommitRule) (sources : ι → Bytes)
    (tokens : ι → ℕ) (events : List (Event ι κ)) :
    ((start c rule sources tokens : Traffic c ι κ).run events).Accounts sources :=
  accounts_of_consistent ((consistent_start c rule sources tokens).run events)

end Ring.Traffic

end EntropySupply
