import EntropySupply.Proofs.Ring.Moves

/-!
# Draining a ring

A commit waits for the reservations before it and a release for the claims before it, so the oldest
span of either kind has nothing to wait for. Main statement: `run_flows`, in every session that a
run leads to some live span of each kind can be given up at once, and giving all of them up, each
kind in the order of the grants, publishes every reservation and leaves no span out.
-/

namespace EntropySupply.Ring

variable {c : Capacity} {r r₁ : Ring c} {span : Span} {front rest writes reads : List Span}

namespace Sound

theorem commit?_oldest (h : r.Sound (span :: rest) reads) :
    r.commit? span = some (.published, { r with committed := span.stop }) := by
  have hstart : r.committed = span.start := UInt64.toNat.inj h.writes_tile.1.symm
  unfold commit?
  rw [if_pos hstart]

/-- The newest reservation is published or taken back, unless the rule is to wait. -/
theorem commit?_newest (h : r.Sound (front ++ [span]) reads) (hrule : r.rule = .abandon) :
    ∃ how ring, r.commit? span = some (how, ring) := by
  have hstop := h.writes_tile.toNat_stop (s := span) (by simp) r.reserved.toNat_lt
  have hlast : r.reserved = span.stop :=
    UInt64.toNat.inj (hstop.trans h.writes_tile.split.2.2).symm
  unfold commit?
  split_ifs with hstart hback
  · exact ⟨_, _, rfl⟩
  · exact ⟨_, _, rfl⟩
  · exact absurd ⟨hrule, hlast⟩ hback

theorem release?_oldest (h : r.Sound writes (span :: rest)) :
    r.release? span = some { r with released := span.stop } := by
  have hstart : r.released = span.start := UInt64.toNat.inj h.reads_tile.1.symm
  unfold release?
  rw [if_pos hstart]

end Sound

namespace Holding

def isWriting : Holding → Bool
  | .writing _ => true
  | .reading _ => false

def finish (i : ℕ) : Holding → Step
  | .writing _ => .commit i
  | .reading _ => .release i

/-- What `finish` answers when it is done and takes nothing back. -/
def finished : Holding → Answer
  | .writing _ => .ended .published
  | .reading _ => .done

end Holding

namespace Session

variable {s t : Session c} {i j : ℕ} {a b : Holding}

/-- The holding that was granted first among the live ones of its kind. -/
structure Oldest (s : Session c) (i : ℕ) (a : Holding) : Prop where
  held : s.held? i = some a
  le : ∀ j b, s.held? j = some b → b.isWriting = a.isWriting → i ≤ j

structure Newest (s : Session c) (i : ℕ) (a : Holding) : Prop where
  held : s.held? i = some a
  le : ∀ j b, s.held? j = some b → b.isWriting = a.isWriting → j ≤ i

/-- Of every kind that is held at all, some holding is the oldest. -/
theorem exists_oldest (h : s.held? i = some a) :
    ∃ j b, s.Oldest j b ∧ b.isWriting = a.isWriting := by
  classical
  have hex : ∃ j b, s.held? j = some b ∧ b.isWriting = a.isWriting := ⟨i, a, h, rfl⟩
  obtain ⟨b, hb, hkind⟩ := Nat.find_spec hex
  refine ⟨Nat.find hex, b, ⟨hb, ?_⟩, hkind⟩
  intro j b' hj hkind'
  exact Nat.find_min' hex ⟨b', hj, hkind'.trans hkind⟩

section Live

variable (kind : Holding → Option Span)

theorem filterMap_holdings_eq_nil {part : List (Option Holding)}
    (h : ∀ b, some b ∈ part → kind b = none) : part.filterMap (fun h => h.bind kind) = [] := by
  rw [List.filterMap_eq_nil_iff]
  intro held hmem
  cases held with
  | none => rfl
  | some b => exact h b hmem

theorem live_eq_cons (ha : s.held? i = some a) (hspan : kind a = some span)
    (hfirst : ∀ j b, j < i → s.held? j = some b → kind b = none) :
    ∃ rest, s.live kind = span :: rest := by
  obtain ⟨front, rest, hs, rfl⟩ := exists_holdings_eq ha
  have hnone : front.filterMap (fun h => h.bind kind) = [] := by
    refine filterMap_holdings_eq_nil kind fun b hb => ?_
    obtain ⟨j, hj, hget⟩ := List.getElem_of_mem hb
    refine hfirst j b hj ?_
    rw [held?, hs, List.getElem?_append_left hj, List.getElem?_eq_getElem hj, hget]
    rfl
  refine ⟨rest.filterMap fun h => h.bind kind, ?_⟩
  simp [live, hs, hnone, hspan]

theorem live_eq_snoc (ha : s.held? i = some a) (hspan : kind a = some span)
    (hlast : ∀ j b, i < j → s.held? j = some b → kind b = none) :
    ∃ front, s.live kind = front ++ [span] := by
  obtain ⟨front, rest, hs, rfl⟩ := exists_holdings_eq ha
  have hnone : rest.filterMap (fun h => h.bind kind) = [] := by
    refine filterMap_holdings_eq_nil kind fun b hb => ?_
    obtain ⟨j, hj, hget⟩ := List.getElem_of_mem hb
    refine hlast (front.length + 1 + j) b (by omega) ?_
    rw [held?, hs, List.getElem?_append_right (by omega),
      show front.length + 1 + j - front.length = j + 1 by omega, List.getElem?_cons_succ,
      List.getElem?_eq_getElem hj, hget]
    rfl
  refine ⟨front.filterMap fun h => h.bind kind, ?_⟩
  simp [live, hs, hnone, hspan]

end Live

theorem Oldest.writes_eq (h : s.Oldest i (.writing span)) : ∃ rest, s.writes = span :: rest := by
  refine live_eq_cons Holding.written? h.held rfl fun j b hj hb => ?_
  cases b with
  | writing _ => exact absurd (h.le j _ hb rfl) (by omega)
  | reading _ => rfl

theorem Oldest.reads_eq (h : s.Oldest i (.reading span)) : ∃ rest, s.reads = span :: rest := by
  refine live_eq_cons Holding.read? h.held rfl fun j b hj hb => ?_
  cases b with
  | writing _ => rfl
  | reading _ => exact absurd (h.le j _ hb rfl) (by omega)

theorem Newest.writes_eq (h : s.Newest i (.writing span)) :
    ∃ front, s.writes = front ++ [span] := by
  refine live_eq_snoc Holding.written? h.held rfl fun j b hj hb => ?_
  cases b with
  | writing _ => exact absurd (h.le j _ hb rfl) (by omega)
  | reading _ => rfl

theorem Oldest.step_finish (h : s.Oldest i a) (hs : s.Sound) :
    ∃ ring, s.step (a.finish i) = (a.finished, [], s.giveUp i ring) := by
  unfold Sound at hs
  cases a with
  | writing span =>
    obtain ⟨rest, hw⟩ := h.writes_eq
    rw [hw] at hs
    refine ⟨{ s.ring with committed := span.stop }, ?_⟩
    simp only [Holding.finish, Session.step, h.held, hs.commit?_oldest]
    rfl
  | reading span =>
    obtain ⟨rest, hr⟩ := h.reads_eq
    rw [hr] at hs
    refine ⟨{ s.ring with released := span.stop }, ?_⟩
    simp only [Holding.finish, Session.step, h.held, hs.release?_oldest]
    rfl

theorem Newest.step_commit (h : s.Newest i (.writing span)) (hs : s.Sound)
    (hrule : s.ring.rule = .abandon) : ∃ how, (s.step (.commit i)).1 = .ended how := by
  obtain ⟨front, hw⟩ := h.writes_eq
  unfold Sound at hs
  rw [hw] at hs
  obtain ⟨how, ring, hc⟩ := hs.commit?_newest hrule
  refine ⟨how, ?_⟩
  cases how with
  | published => simp only [Session.step, h.held, hc]
  | retracted => simp only [Session.step, h.held, hc]

def answers (s : Session c) : List Step → List Answer
  | [] => []
  | step :: steps => (s.step step).1 :: (s.step step).2.2.answers steps

/-- The numbers of all live holdings, those of either kind in the order of their grants. -/
structure InTurn (s : Session c) (order : List ℕ) : Prop where
  mem_iff : ∀ i, i ∈ order ↔ ∃ a, s.held? i = some a
  ordered : order.Pairwise fun i j => ∀ a b, s.held? i = some a → s.held? j = some b →
    b.isWriting = a.isWriting → i < j

def finish (s : Session c) (i : ℕ) : Step := (s.held? i).elim (.commit i) (Holding.finish i)

def finished (s : Session c) (i : ℕ) : Answer := (s.held? i).elim .notHeld Holding.finished

def numbers (s : Session c) : List ℕ :=
  (List.range s.holdings.length).filter fun i => (s.held? i).isSome

theorem inTurn_numbers (s : Session c) : s.InTurn s.numbers where
  mem_iff i := by
    simp only [numbers, List.mem_filter, List.mem_range, Option.isSome_iff_exists]
    constructor
    · exact And.right
    · rintro ⟨a, ha⟩
      exact ⟨held?_lt ha, a, ha⟩
  ordered := (List.pairwise_lt_range.filter _).imp fun hlt _ _ _ _ _ => hlt

namespace InTurn

variable {order : List ℕ}

theorem oldest (h : s.InTurn (i :: order)) : ∃ a, s.Oldest i a := by
  obtain ⟨a, ha⟩ := (h.mem_iff i).mp List.mem_cons_self
  refine ⟨a, ha, fun j b hb hkind => ?_⟩
  rcases List.mem_cons.mp ((h.mem_iff j).mpr ⟨b, hb⟩) with rfl | hj
  · exact Nat.le_refl _
  · exact Nat.le_of_lt (List.rel_of_pairwise_cons h.ordered hj a b ha hb hkind)

theorem notMem (h : s.InTurn (i :: order)) : i ∉ order := by
  intro hi
  obtain ⟨a, ha⟩ := (h.mem_iff i).mp List.mem_cons_self
  exact absurd (List.rel_of_pairwise_cons h.ordered hi a a ha ha rfl) (Nat.lt_irrefl i)

theorem giveUp (h : s.InTurn (i :: order)) (ring : Ring c) : (s.giveUp i ring).InTurn order where
  mem_iff j := by
    have hmem := h.mem_iff j
    rw [List.mem_cons] at hmem
    rw [held?_giveUp]
    split_ifs with hij
    · subst hij
      simpa using h.notMem
    · rw [← hmem]
      simp [Ne.symm hij]
  ordered := by
    refine h.ordered.tail.imp ?_
    intro j k hlt a b ha hb
    exact hlt a b (held?_of_giveUp ha) (held?_of_giveUp hb)

theorem eq_nil (h : s.InTurn []) : s.writes = [] ∧ s.reads = [] := by
  have hnone : ∀ b, some b ∉ s.holdings := by
    intro b hb
    obtain ⟨j, hj, hget⟩ := List.getElem_of_mem hb
    refine absurd ((h.mem_iff j).mpr ⟨b, ?_⟩) List.not_mem_nil
    rw [held?, List.getElem?_eq_getElem hj, hget]
    rfl
  exact ⟨filterMap_holdings_eq_nil _ fun b hb => absurd hb (hnone b),
    filterMap_holdings_eq_nil _ fun b hb => absurd hb (hnone b)⟩

/-- Holdings that are given up in turn never wait, and none is left. -/
theorem drain (h : s.InTurn order) (hs : s.Sound) :
    s.answers (order.map s.finish) = order.map s.finished ∧
      (s.run (order.map s.finish)).Sound ∧ (s.run (order.map s.finish)).InTurn [] := by
  induction order generalizing s with
  | nil => exact ⟨rfl, hs, h⟩
  | cons i order ih =>
    obtain ⟨a, hold⟩ := h.oldest
    obtain ⟨ring, hstep⟩ := hold.step_finish hs
    have hfinish : s.finish i = a.finish i := by rw [finish, hold.held]; rfl
    have hfinished : s.finished i = a.finished := by rw [finished, hold.held]; rfl
    have hother (j : ℕ) (hj : j ∈ order) : (s.giveUp i ring).held? j = s.held? j := by
      rw [held?_giveUp, if_neg]
      rintro rfl
      exact h.notMem hj
    have hnext : (s.giveUp i ring).Sound := by
      have hmove := (s.step_move (a.finish i)).sound hs (by cases a <;> exact trivial)
      rwa [hstep] at hmove
    have hsteps : order.map (s.giveUp i ring).finish = order.map s.finish :=
      List.map_congr_left fun j hj => by rw [finish, hother j hj, finish]
    have hanswers : order.map (s.giveUp i ring).finished = order.map s.finished :=
      List.map_congr_left fun j hj => by rw [finished, hother j hj, finished]
    have htail := ih (h.giveUp ring) hnext
    rw [hsteps, hanswers] at htail
    rw [List.map_cons, List.map_cons, answers, hfinish, hfinished, hstep, htail.1]
    refine ⟨rfl, ?_⟩
    change ((s.step (a.finish i)).2.2.run _).Sound ∧ ((s.step (a.finish i)).2.2.run _).InTurn []
    rw [hstep]
    exact htail.2

end InTurn

/-- Whoever holds a span can give it up when those before him have, and somebody can right now. -/
structure Flows (rule : CommitRule) (s : Session c) : Prop where
  oldest_write : ∀ i span, s.Oldest i (.writing span) →
    (s.step (.commit i)).1 = .ended .published
  oldest_read : ∀ i span, s.Oldest i (.reading span) → (s.step (.release i)).1 = .done
  newest_write : rule = .abandon → ∀ i span, s.Newest i (.writing span) →
    ∃ how, (s.step (.commit i)).1 = .ended how
  /-- Not every holding of a kind has to wait. -/
  proceeds : ∀ i a, s.held? i = some a → ∃ j b, s.held? j = some b ∧
    b.isWriting = a.isWriting ∧ (s.step (b.finish j)).1 = b.finished
  /-- Holdings that are given up in turn never wait, and every reservation is published. -/
  drains : ∀ order, s.InTurn order →
    s.answers (order.map s.finish) = order.map s.finished ∧
      (∀ i, (s.run (order.map s.finish)).held? i = none) ∧
      (s.run (order.map s.finish)).ring.reserved = (s.run (order.map s.finish)).ring.committed ∧
      (s.run (order.map s.finish)).ring.claimed = (s.run (order.map s.finish)).ring.released
  in_turn : s.InTurn s.numbers

/-- No run leads to a session in which all users wait for each other. -/
theorem run_flows (c : Capacity) (rule : CommitRule) (steps : List Step)
    (h : ∀ step ∈ steps, step.Asks) : ((start c rule).run steps).Flows rule := by
  have hs : ((start c rule).run steps).Sound := run_sound (sound_start c rule) h
  have hrule : ((start c rule).run steps).ring.rule = rule := rule_run _ steps
  generalize (start c rule).run steps = s at hs hrule
  refine ⟨?_, ?_, ?_, ?_, ?_, inTurn_numbers s⟩
  · intro i span hold
    obtain ⟨ring, hstep⟩ := hold.step_finish hs
    exact congrArg Prod.fst hstep
  · intro i span hold
    obtain ⟨ring, hstep⟩ := hold.step_finish hs
    exact congrArg Prod.fst hstep
  · intro habandon i span hnew
    exact hnew.step_commit hs (hrule.trans habandon)
  · intro i a ha
    obtain ⟨j, b, hold, hkind⟩ := exists_oldest ha
    obtain ⟨ring, hstep⟩ := hold.step_finish hs
    exact ⟨j, b, hold.held, hkind, congrArg Prod.fst hstep⟩
  · intro order hturn
    obtain ⟨hanswers, hlast, hnone⟩ := hturn.drain hs
    obtain ⟨hw, hr⟩ := hnone.eq_nil
    unfold Sound at hlast
    rw [hw, hr] at hlast
    refine ⟨hanswers, ?_, (hlast.writes_eq_nil_iff.mp rfl).symm,
      (hlast.reads_eq_nil_iff.mp rfl).symm⟩
    intro i
    rw [Option.eq_none_iff_forall_ne_some]
    exact fun a ha => List.not_mem_nil ((hnone.mem_iff i).mpr ⟨a, ha⟩)

/-- Two reservations and two claims are out, the newest reservation was made where one has been
taken back, and its slots are those of bytes that have been read. -/
def crossing : List Step :=
  [.offer [1, 2, 3], .claim 1, .reserve 1, .claim 1, .release 0, .reserve 1, .commit 3, .reserve 5]

theorem run_flows_crossing :
    (∀ step ∈ crossing, step.Asks) ∧
      ((start .four .abandon).run crossing).writes = [⟨3, 1⟩, ⟨4, 1⟩] ∧
      ((start .four .abandon).run crossing).reads = [⟨1, 1⟩] ∧
      ((start .four .abandon).run crossing).Flows .abandon :=
  ⟨by decide, by decide, by decide, run_flows _ _ _ (by decide)⟩

end Session

end EntropySupply.Ring
