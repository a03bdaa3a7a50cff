import EntropySupply.Proofs.Ring.Exclusion

/-!
# Observers of a ring

An observer loads one position after another while users go on, so that what it has loaded need not
have been there at one moment. Every position but the reserved one only rises, and at every moment
the positions are in order. Main statement: `observed`, at whatever moments of an execution the
loads take place, an audit raises no alarm, a snapshot shows positions in order, and the two loads
of a length do not cross.
-/

namespace EntropySupply.Ring

variable {c : Capacity} {rule : CommitRule}

/-- Readers and committed bytes have come at least as far as before. -/
structure Rises (r r₁ : Ring c) : Prop where
  released_le : r.released.toNat ≤ r₁.released.toNat
  claimed_le : r.claimed.toNat ≤ r₁.claimed.toNat
  committed_le : r.committed.toNat ≤ r₁.committed.toNat

section Rises

variable {r r₁ r₂ : Ring c} {s : Span} {writes reads front rest : List Span}

theorem Rises.of_eq (hreleased : r₁.released = r.released) (hclaimed : r₁.claimed = r.claimed)
    (hcommitted : r₁.committed = r.committed) : r.Rises r₁ := by
  refine ⟨?_, ?_, ?_⟩
  · rw [hreleased]
  · rw [hclaimed]
  · rw [hcommitted]

theorem Rises.refl (r : Ring c) : r.Rises r := .of_eq rfl rfl rfl

theorem Rises.trans (h : r.Rises r₁) (h' : r₁.Rises r₂) : r.Rises r₂ where
  released_le := h.released_le.trans h'.released_le
  claimed_le := h.claimed_le.trans h'.claimed_le
  committed_le := h.committed_le.trans h'.committed_le

theorem rises_reserve {want : UInt64} (hw : want ≠ 0) (h : r.reserve? want = some (s, r₁)) :
    r.Rises r₁ := by
  obtain ⟨-, rfl, -⟩ := reserve?_eq_some hw h
  exact .of_eq rfl rfl rfl

theorem rises_claim {want : UInt64} (hw : want ≠ 0) (h : r.claim? want = some (s, r₁)) :
    r.Rises r₁ := by
  obtain ⟨hstart, rfl, -, hstop, -⟩ := claim?_eq_some hw h
  refine ⟨Nat.le_refl _, ?_, Nat.le_refl _⟩
  change r.claimed.toNat ≤ s.stop.toNat
  rw [hstop, hstart]
  exact Nat.le_add_right _ _

theorem Sound.rises_commit (hs : r.Sound (front ++ s :: rest) reads) {how : Commit}
    (h : r.commit? s = some (how, r₁)) : r.Rises r₁ := by
  cases how with
  | published =>
    obtain ⟨hstart, rfl⟩ := commit?_published h
    have hstop := hs.writes_tile.toNat_stop (s := s) (by simp) r.reserved.toNat_lt
    refine ⟨Nat.le_refl _, Nat.le_refl _, ?_⟩
    change r.committed.toNat ≤ s.stop.toNat
    rw [hstop, hstart]
    exact Nat.le_add_right _ _
  | retracted =>
    obtain ⟨-, -, -, rfl⟩ := commit?_retracted h
    exact .of_eq rfl rfl rfl

theorem Sound.rises_release (hs : r.Sound writes (front ++ s :: rest))
    (h : r.release? s = some r₁) : r.Rises r₁ := by
  obtain ⟨hstart, rfl⟩ := release?_eq_some h
  have hstop := hs.reads_tile.toNat_stop (s := s) (by simp) r.claimed.toNat_lt
  refine ⟨?_, Nat.le_refl _, Nat.le_refl _⟩
  change r.released.toNat ≤ s.stop.toNat
  rw [hstop, hstart]
  exact Nat.le_add_right _ _

theorem Sound.rises_offer (hs : r.Sound writes reads) {src : Bytes} {n : ℕ} {ns : List Notice}
    (h : r.offer? src = some (n, ns, r₁)) : r.Rises r₁ := by
  obtain ⟨-, rfl⟩ | ⟨s, held, how, hsrc, hr, hc, -⟩ := offer?_eq_some h
  · exact Rises.refl r₁
  · have hheld := (hs.reserve (request_ne_zero hsrc) hr).store s.start (src.take s.length.toNat)
    have hcommit := hheld.rises_commit hc
    have hreserve := rises_reserve (request_ne_zero hsrc) hr
    exact hreserve.trans ⟨hcommit.released_le, hcommit.claimed_le, hcommit.committed_le⟩

theorem Sound.rises_poll (hs : r.Sound writes reads) {dst b : Bytes} {n : ℕ}
    (h : r.poll? dst = some (n, b, r₁)) : r.Rises r₁ := by
  obtain ⟨-, -, rfl⟩ | ⟨s, held, hdst, hc, hr, -⟩ := poll?_eq_some h
  · exact Rises.refl r₁
  · have hclaim := rises_claim (request_ne_zero hdst) hc
    exact hclaim.trans ((hs.claim (request_ne_zero hdst) hc).rises_release hr)

end Rises

namespace Session

theorem Move.rises {s t : Session c} {step : Step} {answer : Answer} (h : s.Move step answer t)
    (hs : s.Sound) (ha : step.Asks) : s.ring.Rises t.ring := by
  cases h with
  | idle => exact Rises.refl _
  | reserve hr => exact rises_reserve ha hr
  | claim hc => exact rises_claim ha hc
  | put => exact .of_eq rfl rfl rfl
  | get => exact Rises.refl _
  | commit hi hc =>
    obtain ⟨front, rest, hw, -⟩ := giveUp_writing hi
    unfold Sound at hs
    rw [hw] at hs
    exact hs.rises_commit hc
  | release hi hrel =>
    obtain ⟨front, rest, hr, -⟩ := giveUp_reading hi
    unfold Sound at hs
    rw [hr] at hs
    exact hs.rises_release hrel
  | offer ho => exact Ring.Sound.rises_offer hs ho
  | poll hp => exact Ring.Sound.rises_poll hs hp
  | close => exact .of_eq rfl rfl rfl

/-- What can happen to a session at one moment. A commit looks at the committed position and takes
its span back in two separate accesses; between them others may move on, so that a span can be taken
back although its turn to be published has come. -/
inductive Change (s : Session c) : Session c → Prop
  | step {step : Step} (h : step.Asks) : Change s (s.step step).2.2
  | withdraw {i : ℕ} {span : Span} (hheld : s.held? i = some (.writing span))
      (hrule : s.ring.rule = .abandon) (hback : s.ring.reserved = span.stop) :
      Change s (s.giveUp i { s.ring with reserved := span.start })

theorem Change.still (s : Session c) : s.Change s := by
  have hsame : (s.step (.get 0)).2.2 = s := by
    simp only [Session.step]
    split <;> rfl
  have hchange : s.Change (s.step (.get 0)).2.2 := .step trivial
  rwa [hsame] at hchange

theorem Change.sound {s t : Session c} (h : s.Change t) (hs : s.Sound) : t.Sound := by
  cases h with
  | step ha => exact (s.step_move _).sound hs ha
  | @withdraw i span hheld _ hback =>
    obtain ⟨front, rest, hw, hrest⟩ := giveUp_writing hheld
    obtain ⟨hw', hr'⟩ := hrest { s.ring with reserved := span.start }
    unfold Sound at hs ⊢
    rw [hw] at hs
    rw [hw', hr', ring_giveUp]
    obtain ⟨rfl, hdone⟩ := hs.withdraw hback
    rwa [List.append_nil]

theorem Change.rises {s t : Session c} (h : s.Change t) (hs : s.Sound) : s.ring.Rises t.ring := by
  cases h with
  | step ha => exact (s.step_move _).rises hs ha
  | withdraw => exact .of_eq rfl rfl rfl

theorem run_snoc (s : Session c) (steps : List Step) (step : Step) :
    s.run (steps ++ [step]) = ((s.run steps).step step).2.2 :=
  List.foldl_concat _ _ _ _

end Session

/-- The sessions of a ring at successive moments, from its start on. -/
structure Execution (c : Capacity) (rule : CommitRule) where
  session : ℕ → Session c
  session_zero : session 0 = .start c rule
  session_succ : ∀ t, (session t).Change (session (t + 1))

namespace Execution

/-- A run of steps, one at each moment; when it is over nothing more happens. -/
def ofSteps (c : Capacity) (rule : CommitRule) (steps : List Step)
    (h : ∀ step ∈ steps, step.Asks) : Execution c rule where
  session t := (Session.start c rule).run (steps.take t)
  session_zero := rfl
  session_succ := by
    intro t
    rcases Nat.lt_or_ge t steps.length with ht | ht
    · rw [List.take_succ_eq_append_getElem ht, Session.run_snoc]
      exact .step (h _ (List.getElem_mem ht))
    · rw [List.take_of_length_le ht, List.take_of_length_le (Nat.le_succ_of_le ht)]
      exact .still _

variable (e : Execution c rule)

def ring (t : ℕ) : Ring c := (e.session t).ring

theorem sound (t : ℕ) : (e.session t).Sound := by
  induction t with
  | zero =>
    rw [e.session_zero]
    exact Session.sound_start c rule
  | succ t ih => exact (e.session_succ t).sound ih

theorem rises {s t : ℕ} (h : s ≤ t) : (e.ring s).Rises (e.ring t) := by
  induction t, h using Nat.le_induction with
  | base => exact Rises.refl _
  | succ t _ ih => exact ih.trans ((e.session_succ t).rises (e.sound t))

section Loads

variable {e} {s t : ℕ}

theorem released_le_claimed (h : s ≤ t) : (e.ring s).released.toNat ≤ (e.ring t).claimed.toNat :=
  (e.rises h).released_le.trans (e.sound t).released_le

theorem claimed_le_committed (h : s ≤ t) : (e.ring s).claimed.toNat ≤ (e.ring t).committed.toNat :=
  (e.rises h).claimed_le.trans (e.sound t).claimed_le

theorem committed_le_reserved (h : s ≤ t) :
    (e.ring s).committed.toNat ≤ (e.ring t).reserved.toNat :=
  (e.rises h).committed_le.trans (e.sound t).committed_le

/-- A later load of the released position can only make the reserved region look smaller. -/
theorem reserved_le_released (h : s ≤ t) :
    (e.ring s).reserved.toNat ≤ (e.ring t).released.toNat + c.size :=
  (e.sound s).reserved_le.trans (Nat.add_le_add_right (e.rises h).released_le _)

end Loads

/-- Whenever the loads of an observer take place, one after another: an audit raises no alarm, a
snapshot shows the positions in order, and the loads of a length do not cross. -/
theorem observed {moments : ℕ → ℕ} (h : Monotone moments) :
    let ring i := e.ring (moments i)
    (AuditLoads.across ring).alarm? c = none ∧
      ((Snapshot.across ring).released ≤ (Snapshot.across ring).claimed ∧
        (Snapshot.across ring).claimed ≤ (Snapshot.across ring).committed ∧
        (Snapshot.across ring).committed ≤ (Snapshot.across ring).reserved) ∧
      (ring 0).claimed ≤ (ring 1).committed ∧
      (ring 0).claimed + lengthAcross ring = (ring 1).committed := by
  intro ring
  have hnext (i : ℕ) : moments i ≤ moments (i + 1) := h (Nat.le_succ i)
  refine ⟨AuditLoads.alarm?_eq_none_iff.mpr ⟨?_, ?_, ?_, ?_, ?_⟩, ⟨?_, ?_, ?_⟩, ?_, ?_⟩
  · exact released_le_claimed (hnext 0)
  · exact claimed_le_committed (hnext 1)
  · exact committed_le_reserved (hnext 2)
  · exact (e.rises (h (by decide))).committed_le
  · exact reserved_le_released (hnext 5)
  · exact UInt64.le_iff_toNat_le.mpr (released_le_claimed (hnext 0))
  · exact UInt64.le_iff_toNat_le.mpr (claimed_le_committed (hnext 1))
  · exact UInt64.le_iff_toNat_le.mpr (committed_le_reserved (hnext 2))
  · exact UInt64.le_iff_toNat_le.mpr (claimed_le_committed (hnext 0))
  · have hle := claimed_le_committed (e := e) (hnext 0)
    have hlt := (ring 1).committed.toNat_lt
    have hsum : (ring 0).claimed.toNat + (lengthAcross ring).toNat = (ring 1).committed.toNat := by
      rw [lengthAcross, toNat_gap]
      exact Nat.add_sub_of_le hle
    apply UInt64.toNat.inj
    rw [UInt64.toNat_add, hsum]
    exact Nat.mod_eq_of_lt hlt

/-- A newest reservation is taken back between the two loads of the reserved position. -/
def watched : List Step :=
  [.reserve 2, .reserve 1, .commit 1, .put 0 [1, 2], .commit 0, .claim 1, .release 2]

theorem observed_watched :
    let e := ofSteps .four .abandon watched (by decide)
    let loads := AuditLoads.across fun i => e.ring (i - 1)
    Monotone (fun i => i - 1) ∧ loads.reserved = 3 ∧ loads.reservedAgain = 2 ∧
      loads.alarm? .four = none ∧
      (e.ring 5).claimed + lengthAcross (fun i => e.ring (i + 5)) = (e.ring 6).committed := by
  intro e loads
  have hearly : Monotone (fun i => i - 1) := by
    intro i j h
    exact Nat.sub_le_sub_right h 1
  have hlate : Monotone (fun i => i + 5) := by
    intro i j h
    exact Nat.add_le_add_right h 5
  refine ⟨hearly, by decide, by decide, ?_, ?_⟩
  · exact (e.observed hearly).1
  · exact (e.observed hlate).2.2.2

end Execution

end EntropySupply.Ring
