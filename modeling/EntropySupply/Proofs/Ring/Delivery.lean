import EntropySupply.Proofs.Ring.Exclusion
import EntropySupply.Proofs.Ring.Ledger

/-!
# Delivery in commit order

A ledger is faithful to its session if the ring keeps the ledger's stream, every live reservation
has its draft in its slots, and the claims of readers cut the stream into successive pieces. Main
statement: after any run of careful steps the slots of a live claim hold the bytes of the stream at
its positions, and whatever was copied out of a claim is its piece of the stream.
-/

namespace EntropySupply.Ring

variable {c : Capacity}

/-- A ledger that says what has become of the bytes of its session. -/
structure Faithful (s : Session c) (l : Ledger) : Prop where
  sound : s.Sound
  keeps : s.ring.Keeps l.stream
  drafts_length : l.drafts.length = s.holdings.length
  drafted : ∀ i span, s.held? i = some (.writing span) →
    (l.draft i).length ≤ span.length.toNat ∧ s.ring.slots.Holds span.start.toNat (l.draft i)
  withdrawn : Tiles 0 (l.withdrawals.map Withdrawal.span) s.ring.claimed.toNat
  numbered : ∀ w ∈ l.withdrawals, ∀ i, w.holding = some i →
    i < s.holdings.length ∧ ∀ a, s.held? i = some a → a = .reading w.span
  recorded : ∀ i span, s.held? i = some (.reading span) →
    ∃ w ∈ l.withdrawals, w.holding = some i ∧ w.span = span
  copied : ∀ w ∈ l.withdrawals, ∀ b, w.copied = some b → b = w.span.piece l.stream

theorem faithful_start (c : Capacity) (rule : CommitRule) : Faithful (.start c rule) {} where
  sound := Session.sound_start c rule
  keeps := keeps_empty c rule
  drafts_length := rfl
  drafted := by
    intro i span h
    simp [Session.held?, Session.start] at h
  withdrawn := rfl
  numbered := by simp
  recorded := by
    intro i span h
    simp [Session.held?, Session.start] at h
  copied := by simp

namespace Faithful

variable {s : Session c} {l : Ledger}

theorem withdrawal_le (h : Faithful s l) {w : Withdrawal} (hw : w ∈ l.withdrawals) :
    w.span.start.toNat + w.span.length.toNat ≤ l.stream.length := by
  have := (h.withdrawn.bounds (List.mem_map_of_mem hw)).2
  have := h.sound.claimed_le
  have := h.keeps.length_eq
  omega

/-- The slots of a live claim hold its piece of the stream. -/
theorem load_eq (h : Faithful s l) {i : ℕ} {span : Span}
    (hi : s.held? i = some (.reading span)) :
    span.start.toNat + span.length.toNat ≤ l.stream.length ∧
      s.ring.load span = span.piece l.stream := by
  have hb := h.sound.held_bounds hi
  have hle := h.sound.claimed_le
  have hlen := h.keeps.length_eq
  exact ⟨by omega, h.keeps.load h.sound hb.1 (hb.2.trans hle)⟩

/-- The pieces of the claims in their order are the front of the stream. -/
theorem flatten_withdrawals (h : Faithful s l) {f : Withdrawal → Bytes}
    (hpiece : ∀ w ∈ l.withdrawals, f w = w.span.piece l.stream) :
    (l.withdrawals.map f).flatten = l.stream.take s.ring.claimed.toNat := by
  have hspans : l.withdrawals.map f =
      (l.withdrawals.map Withdrawal.span).map fun s => s.piece l.stream := by
    rw [List.map_map]
    exact List.map_congr_left hpiece
  rw [hspans, h.withdrawn.flatten_piece, List.drop_zero, Nat.sub_zero]

theorem drafted_grant (h : Faithful s l) (a : Holding) (ring : Ring c)
    (hslots : ring.slots = s.ring.slots) (i : ℕ) (span : Span)
    (hi : (s.grant a ring).held? i = some (.writing span)) :
    (l.draft i).length ≤ span.length.toNat ∧ ring.slots.Holds span.start.toNat (l.draft i) := by
  rw [Session.held?_grant] at hi
  rw [hslots]
  split_ifs at hi with heq
  · rw [l.draft_of_le (by rw [h.drafts_length, heq])]
    exact ⟨Nat.zero_le _, Slots.holds_nil _ _⟩
  · exact h.drafted i span hi

theorem numbered_grant (h : Faithful s l) (a : Holding) (ring : Ring c) (w : Withdrawal)
    (hw : w ∈ l.withdrawals) (i : ℕ) (hi : w.holding = some i) :
    i < (s.grant a ring).holdings.length ∧
      ∀ b, (s.grant a ring).held? i = some b → b = .reading w.span := by
  obtain ⟨hlt, hb⟩ := h.numbered w hw i hi
  refine ⟨by simp [Session.grant]; omega, ?_⟩
  intro b hheld
  rw [Session.held?_grant, if_neg (by omega)] at hheld
  exact hb b hheld

theorem numbered_giveUp (h : Faithful s l) (i : ℕ) (ring : Ring c) (w : Withdrawal)
    (hw : w ∈ l.withdrawals) (j : ℕ) (hj : w.holding = some j) :
    j < (s.giveUp i ring).holdings.length ∧
      ∀ b, (s.giveUp i ring).held? j = some b → b = .reading w.span := by
  obtain ⟨hlt, hb⟩ := h.numbered w hw j hj
  refine ⟨by simpa [Session.giveUp] using hlt, ?_⟩
  intro b hheld
  exact hb b (Session.held?_of_giveUp hheld)

theorem recorded_giveUp (h : Faithful s l) (i : ℕ) (ring : Ring c) (j : ℕ) (span : Span)
    (hj : (s.giveUp i ring).held? j = some (.reading span)) :
    ∃ w ∈ l.withdrawals, w.holding = some j ∧ w.span = span :=
  h.recorded j span (Session.held?_of_giveUp hj)

theorem drafted_giveUp (h : Faithful s l) (i : ℕ) (ring : Ring c)
    (hslots : ring.slots = s.ring.slots) (j : ℕ) (span : Span)
    (hj : (s.giveUp i ring).held? j = some (.writing span)) :
    (l.draft j).length ≤ span.length.toNat ∧ ring.slots.Holds span.start.toNat (l.draft j) := by
  rw [hslots]
  exact h.drafted j span (Session.held?_of_giveUp hj)

theorem reserve (h : Faithful s l) {want : UInt64} {span : Span} {ring : Ring c} (hw : want ≠ 0)
    (hr : s.ring.reserve? want = some (span, ring)) :
    Faithful (s.grant (.writing span) ring) { l with drafts := l.drafts ++ [[]] } := by
  have hsound := (Session.Move.reserve hr).sound h.sound hw
  obtain ⟨-, rfl, -⟩ := reserve?_eq_some hw hr
  refine ⟨hsound, ⟨h.keeps.length_eq, h.keeps.held⟩, ?_, ?_, h.withdrawn, ?_, ?_, h.copied⟩
  · simp [Session.grant, h.drafts_length]
  · intro i span' hi
    rw [Ledger.draft_snoc rfl]
    exact h.drafted_grant _ _ rfl i span' hi
  · exact h.numbered_grant _ _
  · intro i span' hi
    rw [Session.held?_grant] at hi
    split_ifs at hi
    · cases hi
    · exact h.recorded i span' hi

theorem claim (h : Faithful s l) {want : UInt64} {span : Span} {ring : Ring c} (hw : want ≠ 0)
    (hc : s.ring.claim? want = some (span, ring)) :
    Faithful (s.grant (.reading span) ring)
      { l with
        drafts := l.drafts ++ [[]]
        withdrawals := l.withdrawals ++ [⟨some l.drafts.length, span, none⟩] } := by
  have hsound := (Session.Move.claim hc).sound h.sound hw
  obtain ⟨hstart, rfl, hpos, hstop, -⟩ := claim?_eq_some hw hc
  refine ⟨hsound, ⟨h.keeps.length_eq, h.keeps.held⟩, ?_, ?_, ?_, ?_, ?_, ?_⟩
  · simp [Session.grant, h.drafts_length]
  · intro i span' hi
    rw [Ledger.draft_snoc rfl]
    exact h.drafted_grant _ _ rfl i span' hi
  · change Tiles 0 ((l.withdrawals ++ [_]).map Withdrawal.span) span.stop.toNat
    rw [List.map_append, hstop]
    exact Tiles.snoc (by rw [hstart]; exact h.withdrawn) hpos
  · intro w hmem i hi
    rcases List.mem_append.mp hmem with hmem | hmem
    · exact h.numbered_grant _ _ w hmem i hi
    · obtain rfl := List.mem_singleton.mp hmem
      obtain rfl := Option.some.inj hi
      refine ⟨by simp [Session.grant, h.drafts_length], ?_⟩
      intro b hb
      rw [Session.held?_grant, if_pos h.drafts_length] at hb
      exact (Option.some.inj hb).symm
  · intro i span' hi
    rw [Session.held?_grant] at hi
    split_ifs at hi with heq
    · cases hi
      exact ⟨_, List.mem_append_right _ (List.mem_singleton.mpr rfl),
        by rw [h.drafts_length, heq], rfl⟩
    · obtain ⟨w, hw, hnum, hspan⟩ := h.recorded i span' hi
      exact ⟨w, List.mem_append_left _ hw, hnum, hspan⟩
  · intro w hmem b hb
    rcases List.mem_append.mp hmem with hmem | hmem
    · exact h.copied w hmem b hb
    · obtain rfl := List.mem_singleton.mp hmem
      cases hb

theorem put (h : Faithful s l) {i : ℕ} {span : Span} (hi : s.held? i = some (.writing span))
    {part : Bytes} (hpart : part.length ≤ span.length.toNat) :
    Faithful { s with ring := s.ring.store span.start part }
      { l with drafts := l.drafts.set i (part ++ (l.draft i).drop part.length) } := by
  have hb := h.sound.held_bounds hi
  have hwin := h.sound.held_window hi
  simp only [Holding.span] at hb hwin
  refine ⟨Ring.Sound.store h.sound _ _, h.keeps.store h.sound _ _ hb.1 (by omega), ?_, ?_,
    h.withdrawn, h.numbered, h.recorded, h.copied⟩
  · simpa using h.drafts_length
  · intro j span' hj
    have hlt : i < l.drafts.length := by
      rw [h.drafts_length]
      exact Session.held?_lt hi
    obtain ⟨hlen, hheld⟩ := h.drafted j span' hj
    rw [Ledger.draft_put rfl hlt]
    split_ifs with hij
    · subst hij
      cases hi.symm.trans hj
      refine ⟨by rw [List.length_append, List.length_drop]; omega, ?_⟩
      exact hheld.overwrite (by omega) (by omega)
    · have hwin' := h.sound.held_window hj
      have hsep := h.sound.held_apart hij hi hj
      simp only [Holding.span] at hwin' hsep
      exact ⟨hlen, hheld.store hwin'.1 (by omega) hwin.1 (by omega) (by omega)⟩

theorem get (h : Faithful s l) {i : ℕ} {span : Span} (hi : s.held? i = some (.reading span)) :
    Faithful s { l with withdrawals := l.withdrawals.map (Withdrawal.mark i (s.ring.load span)) } := by
  refine ⟨h.sound, h.keeps, h.drafts_length, h.drafted, ?_, ?_, ?_, ?_⟩
  · simpa [Function.comp_def] using h.withdrawn
  · intro w hmem j hj
    obtain ⟨v, hv, rfl⟩ := List.mem_map.mp hmem
    rw [Withdrawal.holding_mark] at hj
    rw [Withdrawal.span_mark]
    exact h.numbered v hv j hj
  · intro j span' hj
    obtain ⟨w, hw, hnum, hspan⟩ := h.recorded j span' hj
    exact ⟨_, List.mem_map_of_mem hw, by rw [Withdrawal.holding_mark, hnum],
      by rw [Withdrawal.span_mark, hspan]⟩
  · intro w hmem b hb
    obtain ⟨v, hv, rfl⟩ := List.mem_map.mp hmem
    rw [Withdrawal.span_mark]
    unfold Withdrawal.mark at hb
    split_ifs at hb with hvi
    · have hspan := (h.numbered v hv i hvi).2 _ hi
      cases hspan
      rw [← Option.some.inj hb]
      exact (h.load_eq hi).2
    · exact h.copied v hv b hb

theorem copied_append (h : Faithful s l) (more : Bytes) (w : Withdrawal)
    (hw : w ∈ l.withdrawals) (b : Bytes) (hb : w.copied = some b) :
    b = w.span.piece (l.stream ++ more) := by
  rw [h.copied w hw b hb]
  exact (Span.piece_append (h.withdrawal_le hw)).symm

theorem publish (h : Faithful s l) {i : ℕ} {span : Span} {ring : Ring c}
    (hi : s.held? i = some (.writing span)) (hfull : (l.draft i).length = span.length.toNat)
    (hc : s.ring.commit? span = some (.published, ring)) :
    Faithful (s.giveUp i ring) { l with stream := l.stream ++ l.draft i } := by
  have hsound := (Session.Move.commit hi hc).sound h.sound trivial
  have hstop := h.sound.writes_tile.toNat_stop (Session.mem_writes hi) s.ring.reserved.toNat_lt
  have hkeeps := h.keeps.publish h.sound hc (h.drafted i span hi).2 hfull hstop
  obtain ⟨-, rfl⟩ := commit?_published hc
  refine ⟨hsound, hkeeps, ?_, h.drafted_giveUp i _ rfl, h.withdrawn, h.numbered_giveUp i _,
    h.recorded_giveUp i _, h.copied_append _⟩
  simpa [Session.giveUp] using h.drafts_length

theorem retract (h : Faithful s l) {i : ℕ} {span : Span} {ring : Ring c}
    (hi : s.held? i = some (.writing span))
    (hc : s.ring.commit? span = some (.retracted, ring)) : Faithful (s.giveUp i ring) l := by
  have hsound := (Session.Move.commit hi hc).sound h.sound trivial
  obtain ⟨-, -, -, rfl⟩ := commit?_retracted hc
  refine ⟨hsound, ⟨h.keeps.length_eq, h.keeps.held⟩, ?_, h.drafted_giveUp i _ rfl, h.withdrawn,
    h.numbered_giveUp i _, h.recorded_giveUp i _, h.copied⟩
  simpa [Session.giveUp] using h.drafts_length

theorem release (h : Faithful s l) {i : ℕ} {span : Span} {ring : Ring c}
    (hi : s.held? i = some (.reading span)) (hr : s.ring.release? span = some ring) :
    Faithful (s.giveUp i ring) l := by
  have hsound := (Session.Move.release hi hr).sound h.sound trivial
  have hstop := h.sound.reads_tile.toNat_stop (Session.mem_reads hi) s.ring.claimed.toNat_lt
  have hkeeps := h.keeps.release hr hstop
  obtain ⟨-, rfl⟩ := release?_eq_some hr
  refine ⟨hsound, hkeeps, ?_, h.drafted_giveUp i _ rfl, h.withdrawn, h.numbered_giveUp i _,
    h.recorded_giveUp i _, h.copied⟩
  simpa [Session.giveUp] using h.drafts_length

theorem offer (h : Faithful s l) {src : Bytes} {n : ℕ} {ns : List Notice} {ring : Ring c}
    (ho : s.ring.offer? src = some (n, ns, ring)) :
    Faithful { s with ring } { l with stream := l.stream ++ src.take n } := by
  have hsound := (Session.Move.offer ho).sound h.sound trivial
  refine ⟨hsound, h.keeps.offer h.sound ho, h.drafts_length, ?_, ?_, h.numbered, h.recorded,
    h.copied_append _⟩
  · intro i span hi
    obtain ⟨hlen, hheld⟩ := h.drafted i span hi
    have hwin := h.sound.held_window hi
    have hb := h.sound.held_bounds hi
    simp only [Holding.span] at hb hwin
    have hhigh : span.start.toNat + (l.draft i).length ≤ s.ring.reserved.toNat := by omega
    exact ⟨hlen, h.sound.offer_holds ho hheld hwin.1 hhigh⟩
  · rw [offer?_claimed ho]
    exact h.withdrawn

/-- A poll that delivers bytes is a claim that is copied out and released at once. -/
theorem poll (h : Faithful s l) {dst buffer : Bytes} {n : ℕ} {ring : Ring c}
    (hp : s.ring.poll? dst = some (n, buffer, ring)) :
    Faithful { s with ring }
      (if n = 0 then l
      else
        { l with
          withdrawals := l.withdrawals ++
            [⟨none, ⟨s.ring.claimed, UInt64.ofNat n⟩, some (buffer.take n)⟩] }) := by
  have hsound := (Session.Move.poll hp).sound h.sound trivial
  obtain ⟨hkeeps, -, hclaimed⟩ := h.keeps.poll h.sound hp
  have hslots := poll?_slots hp
  have hlt := ring.claimed.toNat_lt
  have hdrafted : ∀ i span, s.held? i = some (.writing span) →
      (l.draft i).length ≤ span.length.toNat ∧
        ring.slots.Holds span.start.toNat (l.draft i) := by
    rw [hslots]
    exact h.drafted
  split_ifs with hn
  · refine ⟨hsound, hkeeps, h.drafts_length, hdrafted, ?_, h.numbered, h.recorded, h.copied⟩
    rw [hn, Nat.add_zero] at hclaimed
    rw [hclaimed]
    exact h.withdrawn
  · have hword : (UInt64.ofNat n).toNat = n := by
      rw [UInt64.toNat_ofNat', Nat.mod_eq_of_lt (by omega)]
    refine ⟨hsound, hkeeps, h.drafts_length, hdrafted, ?_, ?_, ?_, ?_⟩
    · rw [List.map_append, hclaimed]
      have hsnoc := h.withdrawn.snoc (s := ⟨s.ring.claimed, UInt64.ofNat n⟩) (by
        rw [hword]
        exact Nat.pos_of_ne_zero hn)
      rwa [hword] at hsnoc
    · intro w hmem i hi
      rcases List.mem_append.mp hmem with hmem | hmem
      · exact h.numbered w hmem i hi
      · obtain rfl := List.mem_singleton.mp hmem
        cases hi
    · intro i span hi
      obtain ⟨w, hw, hnum, hspan⟩ := h.recorded i span hi
      exact ⟨w, List.mem_append_left _ hw, hnum, hspan⟩
    · intro w hmem b hb
      rcases List.mem_append.mp hmem with hmem | hmem
      · exact h.copied w hmem b hb
      · obtain rfl := List.mem_singleton.mp hmem
        obtain rfl := Option.some.inj hb
        change buffer.take n = (l.stream.drop s.ring.claimed.toNat).take (UInt64.ofNat n).toNat
        rw [hword, h.keeps.poll_take h.sound hp]

theorem move (h : Faithful s l) {t : Session c} {step : Step} {answer : Answer}
    (hm : s.Move step answer t) (ha : History.Allows ⟨s, l⟩ step) :
    Faithful t (l.note s step answer) := by
  cases hm with
  | idle hi =>
    rw [Ledger.note_idle l s step hi]
    exact h
  | reserve hr => exact h.reserve ha hr
  | claim hc => exact h.claim ha hc
  | @put i src span hi =>
    have hput := h.put hi (List.length_take_le span.length.toNat src)
    have htake : src.take (src.take span.length.toNat).length = src.take span.length.toNat := by
      rw [List.length_take, ← List.take_eq_take_min]
    simp only [Ledger.note, htake]
    exact hput
  | get hi => exact h.get hi
  | @commit i span how ring hi hc =>
    have hfull : (l.draft i).length = span.length.toNat := by
      simpa [History.Allows, hi, Filled] using ha
    cases how with
    | published => exact h.publish hi hfull hc
    | retracted => exact h.retract hi hc
  | release hi hr => exact h.release hi hr
  | offer ho => exact h.offer ho
  | poll hp => exact h.poll hp
  | close => exact ⟨Ring.Sound.close h.sound, ⟨h.keeps.length_eq, h.keeps.held⟩,
      h.drafts_length, h.drafted, h.withdrawn, h.numbered, h.recorded, h.copied⟩

end Faithful

namespace History

theorem next_faithful {h : History c} {step : Step} (hf : Faithful h.session h.ledger)
    (ha : h.Allows step) : Faithful (h.next step).session (h.next step).ledger :=
  hf.move (h.session.step_move step) ha

theorem run_faithful {h : History c} {steps : List Step} (hf : Faithful h.session h.ledger)
    (hs : h.Careful steps) : Faithful (h.run steps).session (h.run steps).ledger := by
  induction steps generalizing h with
  | nil => exact hf
  | cons step steps ih => exact ih (next_faithful hf hs.1) hs.2

/-- What readers rely on. A claim that is still out has its piece of the committed stream in its
slots, every claim follows the one before it, and what was copied out of a claim is its piece. -/
structure Delivers (h : History c) : Prop where
  live : ∀ i span, h.session.held? i = some (.reading span) →
    span.start.toNat + span.length.toNat ≤ h.ledger.stream.length ∧
      h.session.ring.load span = span.piece h.ledger.stream ∧
      ∃ w ∈ h.ledger.withdrawals, w.holding = some i ∧ w.span = span
  claims_tile : Tiles 0 (h.ledger.withdrawals.map Withdrawal.span) h.session.ring.claimed.toNat
  claimed_le : h.session.ring.claimed.toNat ≤ h.ledger.stream.length
  copied : ∀ w ∈ h.ledger.withdrawals, ∀ b, w.copied = some b → b = w.span.piece h.ledger.stream
  in_order : (h.ledger.withdrawals.map fun w =>
    w.copied.getD (w.span.piece h.ledger.stream)).flatten =
      h.ledger.stream.take h.session.ring.claimed.toNat

theorem delivers_of_faithful {h : History c} (hf : Faithful h.session h.ledger) : h.Delivers where
  live := fun i span hi => ⟨(hf.load_eq hi).1, (hf.load_eq hi).2, hf.recorded i span hi⟩
  claims_tile := hf.withdrawn
  claimed_le := hf.sound.claimed_le.trans_eq hf.keeps.length_eq.symm
  copied := hf.copied
  in_order := by
    apply hf.flatten_withdrawals
    intro w hw
    cases hc : w.copied with
    | none => rfl
    | some b => exact hf.copied w hw b hc

/-- However its users take turns, a ring delivers the bytes that were committed, once each and in
the order of the commits. -/
theorem run_delivers (c : Capacity) (rule : CommitRule) (steps : List Step)
    (hs : (start c rule).Careful steps) :
    ((start c rule).run steps).session = (Session.start c rule).run steps ∧
      ((start c rule).run steps).Delivers :=
  ⟨session_run _ steps, delivers_of_faithful (run_faithful (faithful_start c rule) hs)⟩

/-- A reservation is taken back after bytes were copied into it, its positions are used again, and
an offer starts over at the first slot while a claim is out. -/
def reused : List Step :=
  [.reserve 2, .reserve 1, .put 1 [9], .commit 1, .put 0 [1, 2], .commit 0, .claim 1, .reserve 5,
    .put 3 [3, 4], .get 2, .commit 3, .claim 9, .release 2, .offer [5, 6]]

theorem run_delivers_reused :
    (start ⟨2, by decide⟩ .abandon).Careful reused ∧
      ((start ⟨2, by decide⟩ .abandon).run reused).ledger.stream = [1, 2, 3, 4, 5] ∧
      ((start ⟨2, by decide⟩ .abandon).run reused).session.reads = [⟨1, 3⟩] ∧
      ((start ⟨2, by decide⟩ .abandon).run reused).Delivers :=
  ⟨by decide, by decide, by decide, (run_delivers _ _ _ (by decide)).2⟩

end History

end EntropySupply.Ring
