import EntropySupply.Proofs.Ring.Order
import EntropySupply.Ring.Session

/-!
# Moves of a session

What a step of a session can do, as one relation: it is idle, or its answer says which operation of
the ring took place and whose holding it concerned. The live spans of either kind are read off the
holdings, oldest first, and a run of steps keeps them and the positions of the ring sound.
-/

namespace EntropySupply.Ring

variable {c : Capacity}

namespace Holding

@[simp] def span : Holding → Span
  | .writing span => span
  | .reading span => span

@[simp] def written? : Holding → Option Span
  | .writing span => some span
  | .reading _ => none

@[simp] def read? : Holding → Option Span
  | .writing _ => none
  | .reading span => some span

end Holding

/-- Whether a step asks for at least one slot or byte, if it asks for any. -/
def Step.Asks : Step → Prop
  | .reserve want => want ≠ 0
  | .claim want => want ≠ 0
  | _ => True

instance : DecidablePred Step.Asks
  | .reserve want | .claim want => inferInstanceAs (Decidable (want ≠ 0))
  | .put _ _ | .get _ | .commit _ | .release _ | .offer _ | .poll _ | .close =>
    inferInstanceAs (Decidable True)

/-- Answers of steps that did nothing. -/
def Answer.Idle : Answer → Prop
  | .refused | .notHeld | .wouldBlock => True
  | _ => False

namespace Session

/-- The live spans of one kind, oldest first. -/
def live (kind : Holding → Option Span) (s : Session c) : List Span :=
  s.holdings.filterMap fun h => h.bind kind

def writes (s : Session c) : List Span := s.live Holding.written?

def reads (s : Session c) : List Span := s.live Holding.read?

/-- What a step can answer, and the session that it leaves. -/
inductive Move (s : Session c) : Step → Answer → Session c → Prop
  | idle {step answer} : answer.Idle → Move s step answer s
  | reserve {want span ring} : s.ring.reserve? want = some (span, ring) →
    Move s (.reserve want) (.granted span) (s.grant (.writing span) ring)
  | claim {want span ring} : s.ring.claim? want = some (span, ring) →
    Move s (.claim want) (.granted span) (s.grant (.reading span) ring)
  | put {i src span} : s.held? i = some (.writing span) →
    Move s (.put i src) (.copied (src.take span.length.toNat).length)
      { s with ring := s.ring.store span.start (src.take span.length.toNat) }
  | get {i span} : s.held? i = some (.reading span) → Move s (.get i) (.got (s.ring.load span)) s
  | commit {i span how ring} : s.held? i = some (.writing span) →
    s.ring.commit? span = some (how, ring) → Move s (.commit i) (.ended how) (s.giveUp i ring)
  | release {i span ring} : s.held? i = some (.reading span) →
    s.ring.release? span = some ring → Move s (.release i) .done (s.giveUp i ring)
  | offer {src n ns ring} : s.ring.offer? src = some (n, ns, ring) →
    Move s (.offer src) (.accepted n) { s with ring }
  | poll {dst n buffer ring} : s.ring.poll? dst = some (n, buffer, ring) →
    Move s (.poll dst) (.delivered n buffer) { s with ring }
  | close : Move s .close .done { s with ring := s.ring.close }

theorem step_move (s : Session c) (step : Step) :
    s.Move step (s.step step).1 (s.step step).2.2 := by
  cases step with
  | reserve want =>
    simp only [Session.step]
    split
    · exact .idle trivial
    · exact .reserve ‹_›
  | claim want =>
    simp only [Session.step]
    split
    · exact .idle trivial
    · exact .claim ‹_›
  | put i src =>
    simp only [Session.step]
    split
    · exact .put ‹_›
    · exact .idle trivial
  | get i =>
    simp only [Session.step]
    split
    · exact .get ‹_›
    · exact .idle trivial
  | commit i =>
    simp only [Session.step]
    split
    · split
      · exact .idle trivial
      · exact .commit ‹_› ‹_›
      · exact .commit ‹_› ‹_›
    · exact .idle trivial
  | release i =>
    simp only [Session.step]
    split
    · split
      · exact .idle trivial
      · exact .release ‹_› ‹_›
    · exact .idle trivial
  | offer src =>
    simp only [Session.step]
    split
    · exact .idle trivial
    · split
      · exact .idle trivial
      · exact .offer ‹_›
  | poll dst =>
    simp only [Session.step]
    split
    · exact .idle trivial
    · split
      · exact .idle trivial
      · exact .poll ‹_›
  | close => exact .close

section Live

variable {s : Session c} {i : ℕ} {h : Holding}

@[simp] theorem ring_grant (ring : Ring c) : (s.grant h ring).ring = ring := rfl

@[simp] theorem ring_giveUp (ring : Ring c) : (s.giveUp i ring).ring = ring := rfl

theorem held?_lt (hi : s.held? i = some h) : i < s.holdings.length :=
  (List.getElem?_eq_some_iff.mp (Option.join_eq_some_iff.mp hi)).1

theorem held?_grant (ring : Ring c) (j : ℕ) :
    (s.grant h ring).held? j = if j = s.holdings.length then some h else s.held? j := by
  simp only [held?, grant]
  split_ifs with hj
  · simp [hj]
  · rcases Nat.lt_or_gt_of_ne hj with hlt | hgt
    · rw [List.getElem?_append_left hlt]
    · rw [List.getElem?_eq_none (by simp; omega), List.getElem?_eq_none (by omega)]

theorem held?_giveUp (ring : Ring c) (j : ℕ) :
    (s.giveUp i ring).held? j = if i = j then none else s.held? j := by
  simp only [held?, giveUp, List.getElem?_set]
  split_ifs <;> rfl

theorem held?_grant_of_held? (hi : s.held? i = some h) (a : Holding) (ring : Ring c) :
    (s.grant a ring).held? i = some h := by
  rw [held?_grant, if_neg (Nat.ne_of_lt (held?_lt hi))]
  exact hi

theorem held?_of_giveUp {j : ℕ} {ring : Ring c} (hi : (s.giveUp j ring).held? i = some h) :
    s.held? i = some h := by
  rw [held?_giveUp] at hi
  split_ifs at hi
  exact hi

theorem held?_giveUp_of_ne {j : ℕ} (hi : s.held? i = some h) (hj : j ≠ i) (ring : Ring c) :
    (s.giveUp j ring).held? i = some h := by
  rw [held?_giveUp, if_neg hj]
  exact hi

variable (kind : Holding → Option Span)

@[simp] theorem live_grant (ring : Ring c) :
    (s.grant h ring).live kind = s.live kind ++ (kind h).toList := by
  cases hk : kind h <;> simp [live, grant, hk]

theorem exists_holdings_eq (hi : s.held? i = some h) :
    ∃ front rest, s.holdings = front ++ some h :: rest ∧ front.length = i := by
  have hget : s.holdings[i]? = some (some h) := Option.join_eq_some_iff.mp hi
  obtain ⟨hlt, heq⟩ := List.getElem?_eq_some_iff.mp hget
  refine ⟨s.holdings.take i, s.holdings.drop (i + 1), ?_, by simp; omega⟩
  rw [← heq, List.getElem_cons_drop, List.take_append_drop]

/-- A holding that is given up takes its span out of those of its kind, and no other one. -/
theorem live_giveUp (hi : s.held? i = some h) :
    ∃ front rest, s.live kind = front ++ (kind h).toList ++ rest ∧
      ∀ ring, (s.giveUp i ring).live kind = front ++ rest := by
  obtain ⟨front, rest, hs, rfl⟩ := exists_holdings_eq hi
  refine ⟨front.filterMap fun h => h.bind kind, rest.filterMap fun h => h.bind kind, ?_, ?_⟩
  · cases hk : kind h <;> simp [live, hs, hk]
  · intro ring
    simp [live, giveUp, hs]

theorem giveUp_writing {span : Span} (hi : s.held? i = some (.writing span)) :
    ∃ front rest, s.writes = front ++ span :: rest ∧ ∀ ring,
      (s.giveUp i ring).writes = front ++ rest ∧ (s.giveUp i ring).reads = s.reads := by
  obtain ⟨front, rest, hw, hw'⟩ := live_giveUp Holding.written? hi
  obtain ⟨front', rest', hr, hr'⟩ := live_giveUp Holding.read? hi
  refine ⟨front, rest, by simpa [writes] using hw, fun ring => ⟨hw' ring, ?_⟩⟩
  exact (hr' ring).trans (by simpa [reads] using hr.symm)

theorem giveUp_reading {span : Span} (hi : s.held? i = some (.reading span)) :
    ∃ front rest, s.reads = front ++ span :: rest ∧ ∀ ring,
      (s.giveUp i ring).reads = front ++ rest ∧ (s.giveUp i ring).writes = s.writes := by
  obtain ⟨front, rest, hr, hr'⟩ := live_giveUp Holding.read? hi
  obtain ⟨front', rest', hw, hw'⟩ := live_giveUp Holding.written? hi
  refine ⟨front, rest, by simpa [reads] using hr, fun ring => ⟨hr' ring, ?_⟩⟩
  exact (hw' ring).trans (by simpa [writes] using hw.symm)

theorem live_of_lt {j : ℕ} {h' : Holding} (hi : s.held? i = some h) (hj : s.held? j = some h')
    (hij : i < j) : ∃ front rest, s.live kind = front ++ (kind h).toList ++ rest ∧
      ∀ span, kind h' = some span → span ∈ rest := by
  obtain ⟨front, rest, hs, rfl⟩ := exists_holdings_eq hi
  refine ⟨front.filterMap fun h => h.bind kind, rest.filterMap fun h => h.bind kind, ?_, ?_⟩
  · cases hk : kind h <;> simp [live, hs, hk]
  · intro span hspan
    have hget : s.holdings[j]? = some (some h') := Option.join_eq_some_iff.mp hj
    rw [hs, List.getElem?_append_right (by omega),
      show j - front.length = j - front.length - 1 + 1 by omega, List.getElem?_cons_succ] at hget
    exact List.mem_filterMap.mpr ⟨_, List.mem_of_getElem? hget, hspan⟩

end Live

def Sound (s : Session c) : Prop := s.ring.Sound s.writes s.reads

theorem sound_start (c : Capacity) (rule : CommitRule) : (start c rule).Sound :=
  sound_empty c rule

theorem Move.sound {s t : Session c} {step : Step} {answer : Answer} (h : s.Move step answer t)
    (hs : s.Sound) (ha : step.Asks) : t.Sound := by
  cases h with
  | idle => exact hs
  | reserve hr =>
    simpa [Sound, writes, reads] using Ring.Sound.reserve hs ha hr
  | claim hc =>
    simpa [Sound, writes, reads] using Ring.Sound.claim hs ha hc
  | put => exact Ring.Sound.store hs _ _
  | get => exact hs
  | @commit i span how ring hi hc =>
    obtain ⟨front, rest, hw, hrest⟩ := giveUp_writing hi
    obtain ⟨hw', hr'⟩ := hrest ring
    unfold Sound at hs ⊢
    rw [hw] at hs
    rw [hw', hr', ring_giveUp]
    cases how with
    | published =>
      obtain ⟨rfl, hdone⟩ := hs.publish hc
      exact hdone
    | retracted =>
      obtain ⟨rfl, hdone⟩ := hs.retract hc
      rwa [List.append_nil]
  | @release i span ring hi hrel =>
    obtain ⟨front, rest, hr, hrest⟩ := giveUp_reading hi
    obtain ⟨hr', hw'⟩ := hrest ring
    unfold Sound at hs ⊢
    rw [hr] at hs
    rw [hw', hr', ring_giveUp]
    obtain ⟨rfl, hdone⟩ := hs.release hrel
    exact hdone
  | offer ho => exact Ring.Sound.offer hs ho
  | poll hp => exact Ring.Sound.poll hs hp
  | close => exact Ring.Sound.close hs

theorem run_sound {s : Session c} {steps : List Step} (hs : s.Sound)
    (ha : ∀ step ∈ steps, step.Asks) : (s.run steps).Sound := by
  induction steps generalizing s with
  | nil => exact hs
  | cons step steps ih =>
    exact ih ((s.step_move step).sound hs (ha step (by simp))) fun t ht => ha t (by simp [ht])

theorem Move.rule {s t : Session c} {step : Step} {answer : Answer} (h : s.Move step answer t) :
    t.ring.rule = s.ring.rule := by
  cases h with
  | idle => rfl
  | reserve hr => exact rule_of_reserve? hr
  | claim hc => exact rule_of_claim? hc
  | put => rfl
  | get => rfl
  | commit _ hc => exact rule_of_commit? hc
  | release _ hr =>
    obtain ⟨-, rfl⟩ := release?_eq_some hr
    rfl
  | offer ho =>
    obtain ⟨-, rfl⟩ | ⟨span, held, how, -, hr, hc, -⟩ := offer?_eq_some ho
    · rfl
    · exact (rule_of_commit? hc).trans (show held.rule = s.ring.rule from rule_of_reserve? hr)
  | poll hp =>
    obtain ⟨-, -, rfl⟩ | ⟨span, held, -, hc, hr, -⟩ := poll?_eq_some hp
    · rfl
    · obtain ⟨-, rfl⟩ := release?_eq_some hr
      exact (rule_of_claim? hc : held.rule = s.ring.rule)
  | close => rfl

theorem rule_run (s : Session c) (steps : List Step) : (s.run steps).ring.rule = s.ring.rule := by
  induction steps generalizing s with
  | nil => rfl
  | cons step steps ih => exact (ih _).trans (s.step_move step).rule

end Session

end EntropySupply.Ring
