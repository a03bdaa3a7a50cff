import EntropySupply.Proofs.Traffic.Accounts
import EntropySupply.Proofs.Ring.Flow

/-!
# Traffic after the end of a ring

A sender looks whether the ring is closed before it reserves, so a reservation that was underway when
the ring was closed may still be published, also after a poll has found the ring dry. Main statement:
`run_trails`, nothing else is published then, and no sender publishes more than once.
-/

namespace EntropySupply.Ring

variable {c : Capacity}

/-- The sender has found the ring open and its attempt has not ended yet. -/
def Sending.Underway : Sending → Prop
  | .reserving | .filling _ _ | .committing _ _ => True
  | _ => False

/-- What a closed ring can come to: it stays closed, and no claim is taken back. -/
structure Ended (r r₁ : Ring c) : Prop where
  closed : r₁.closed = true
  claimed_le : r.claimed.toNat ≤ r₁.claimed.toNat

namespace Ended

variable {r r₁ r₂ : Ring c}

theorem of_claimed_eq (hclosed : r₁.closed = true) (hclaimed : r₁.claimed = r.claimed) :
    Ended r r₁ :=
  ⟨hclosed, hclaimed ▸ Nat.le_refl _⟩

theorem trans (h : Ended r r₁) (h₁ : Ended r₁ r₂) : Ended r r₂ :=
  ⟨h₁.closed, h.claimed_le.trans h₁.claimed_le⟩

theorem claim {want : UInt64} {s : Span} (hclosed : r.closed = true)
    (h : r.claim? want = some (s, r₁)) : Ended r r₁ := by
  unfold claim? at h
  split_ifs at h
  cases h
  refine ⟨hclosed, ?_⟩
  have hle : (min want r.available).toNat ≤ (gap r.claimed r.committed).toNat := by
    rw [toNat_min]
    exact Nat.min_le_right _ _
  have hstop := toNat_add_ofNat hle
  rw [UInt64.ofNat_toNat] at hstop
  exact hstop.symm ▸ Nat.le_add_right _ _

end Ended

theorem Session.Move.ended {s t : Session c} {step : Step} {answer : Answer}
    (h : s.Move step answer t) (hclosed : s.ring.closed = true) : Ended s.ring t.ring := by
  cases h with
  | reserve hr =>
    unfold reserve? at hr
    split_ifs at hr
    cases hr
    exact .of_claimed_eq hclosed rfl
  | claim hc => exact .claim hclosed hc
  | @commit i span how ring hi hc =>
    cases how with
    | published =>
      obtain ⟨-, rfl⟩ := commit?_published hc
      exact .of_claimed_eq hclosed rfl
    | retracted =>
      obtain ⟨-, -, -, rfl⟩ := commit?_retracted hc
      exact .of_claimed_eq hclosed rfl
  | release hi hr =>
    obtain ⟨-, rfl⟩ := release?_eq_some hr
    exact .of_claimed_eq hclosed rfl
  | offer ho =>
    simp only [offer?, hclosed, Bool.or_true, if_true] at ho
    cases ho
    exact .of_claimed_eq hclosed rfl
  | poll hp =>
    obtain ⟨-, -, rfl⟩ | ⟨span, held, -, hc, hr, -⟩ := poll?_eq_some hp
    · exact .of_claimed_eq hclosed rfl
    · have hclaim := Ended.claim hclosed hc
      obtain ⟨-, rfl⟩ := release?_eq_some hr
      exact ⟨hclaim.closed, hclaim.claimed_le⟩
  | close => exact .of_claimed_eq rfl rfl
  | _ => exact .of_claimed_eq hclosed rfl

theorem History.ended_next {h : History c} (hclosed : h.session.ring.closed = true)
    (step : Step) : Ended h.session.ring (h.next step).session.ring := by
  obtain ⟨t, hmove, hnext⟩ := h.exists_move step
  rw [hnext]
  exact hmove.ended hclosed

namespace Traffic

variable {ι κ : Type} {t t' t'' : Traffic c ι κ} {late late' : List (ι × Bytes)}

/-- The ring is closed and `late` is what has been published since `t`: attempts that were underway
at `t`, each by another sender, and no sender has begun one. -/
structure Trails (t t' : Traffic c ι κ) (late : List (ι × Bytes)) : Prop where
  ended : Ended t.ring t'.ring
  published : t'.published = t.published ++ late
  distinct : (late.map Prod.fst).Nodup
  underway : ∀ i ∈ late.map Prod.fst,
    (t.senders i).phase.Underway ∧ ¬(t'.senders i).phase.Underway
  still : ∀ i, (t'.senders i).phase.Underway → (t.senders i).phase.Underway

namespace Trails

theorem silent (hended : Ended t.ring t'.ring) (hpublished : t'.published = t.published)
    (hstill : ∀ i, (t'.senders i).phase.Underway → (t.senders i).phase.Underway) :
    Trails t t' [] where
  ended := hended
  published := by rw [hpublished, List.append_nil]
  distinct := List.nodup_nil
  underway := fun i hi => absurd hi List.not_mem_nil
  still := hstill

theorem refl (hclosed : t.ring.closed = true) : Trails t t [] :=
  silent (.of_claimed_eq hclosed rfl) rfl fun _ hi => hi

/-- Who has published once is no longer underway, and never will be again. -/
theorem trans (h : Trails t t' late) (h' : Trails t' t'' late') : Trails t t'' (late ++ late') where
  ended := h.ended.trans h'.ended
  published := by rw [h'.published, h.published, List.append_assoc]
  distinct := by
    rw [List.map_append, List.nodup_append]
    refine ⟨h.distinct, h'.distinct, ?_⟩
    rintro i hi j hj rfl
    exact (h.underway i hi).2 (h'.underway i hj).1
  underway := by
    intro i hi
    rw [List.map_append, List.mem_append] at hi
    rcases hi with hi | hi
    · exact ⟨(h.underway i hi).1, fun hlater => (h.underway i hi).2 (h'.still i hlater)⟩
    · exact ⟨h.still i (h'.underway i hi).1, (h'.underway i hi).2⟩
  still := fun i hi => h.still i (h'.still i hi)

end Trails

theorem trails_take [DecidableEq κ] (hclosed : t.ring.closed = true) (j : κ) (length : ℕ) :
    Trails t (t.take j length) [] := by
  have htaker (phase : Taking) (step : Step) : Trails t (t.taker j phase step) [] :=
    .silent (History.ended_next hclosed step) rfl fun _ hi => hi
  cases hj : t.takers j with
  | idle =>
    simp only [Traffic.take, hj]
    split_ifs
    · exact .refl hclosed
    · split
      · exact htaker _ _
      · exact .refl hclosed
  | copying k =>
    simp only [Traffic.take, hj]
    exact htaker _ _
  | releasing k =>
    simp only [Traffic.take, hj]
    split
    · exact htaker _ _
    · exact .refl hclosed

theorem available_of_refused {want : UInt64} (h : t.answer (.claim want) = .refused) :
    t.ring.available = 0 := by
  unfold answer at h
  simp only [Session.step] at h
  split at h
  · rename_i hnone
    unfold claim? at hnone
    split_ifs at hnone with hdry
    exact hdry
  · cases h

variable [DecidableEq ι] {sources : ι → Bytes}

theorem trails_sender (hclosed : t.ring.closed = true) {i : ι} {s : Sender} (step : Option Step)
    (hs : s.phase.Underway → (t.senders i).phase.Underway) : Trails t (t.sender i s step) [] := by
  refine .silent ?_ rfl ?_
  · cases step with
    | none => exact .of_claimed_eq hclosed rfl
    | some step => exact History.ended_next hclosed step
  · intro j hj
    change (Function.update t.senders i s j).phase.Underway at hj
    by_cases hji : j = i
    · subst hji
      rw [Function.update_self] at hj
      exact hs hj
    · rwa [Function.update_of_ne hji] at hj

theorem trails_committing (hclosed : t.ring.closed = true) {i : ι} {k : ℕ} {span : Span}
    (hi : (t.senders i).phase = .committing k span) : ∃ late, Trails t (t.send i) late := by
  have hunderway : (t.senders i).phase.Underway := hi ▸ trivial
  simp only [Traffic.send, hi]
  split
  · have hready := trails_sender (i := i) hclosed (some (.commit k))
      (s := { t.senders i with
        written := (t.senders i).written + span.length.toNat, phase := .ready }) fun h => h.elim
    refine ⟨[(i, t.history.ledger.draft k)], hready.ended, rfl, List.nodup_singleton i, ?_,
      hready.still⟩
    intro j hj
    obtain rfl : j = i := List.mem_singleton.mp hj
    refine ⟨hunderway, ?_⟩
    change ¬(Function.update t.senders j _ j).phase.Underway
    rw [Function.update_self]
    exact id
  · exact ⟨[], trails_sender hclosed (some (.commit k)) fun hrefused => hrefused.elim⟩
  · exact ⟨[], .refl hclosed⟩

theorem trails_send (hclosed : t.ring.closed = true) (i : ι) :
    ∃ late, Trails t (t.send i) late := by
  cases hi : (t.senders i).phase with
  | ready =>
    simp only [Traffic.send, hi]
    split_ifs <;> exact ⟨[], trails_sender hclosed none fun hnext => hnext.elim⟩
  | offering =>
    simp only [Traffic.send, hi, hclosed, if_true]
    exact ⟨[], trails_sender hclosed none fun hrefused => hrefused.elim⟩
  | reserving =>
    have hunderway : (t.senders i).phase.Underway := hi ▸ trivial
    simp only [Traffic.send, hi]
    split
    · exact ⟨[], trails_sender hclosed _ fun _ => hunderway⟩
    · exact ⟨[], trails_sender hclosed none fun hrefused => hrefused.elim⟩
  | filling k span =>
    have hunderway : (t.senders i).phase.Underway := hi ▸ trivial
    simp only [Traffic.send, hi]
    exact ⟨[], trails_sender hclosed _ fun _ => hunderway⟩
  | committing k span => exact trails_committing hclosed hi
  | refused =>
    simp only [Traffic.send, hi, hclosed, if_true]
    exact ⟨[], trails_sender hclosed none fun hreturned => hreturned.elim⟩
  | returned stopped =>
    simp only [Traffic.send, hi]
    exact ⟨[], .refl hclosed⟩

theorem Consistent.taken_eq (hc : t.Consistent sources) :
    t.taken = (t.published.map Prod.snd).flatten.take t.ring.claimed.toNat ∧
      t.waiting = (t.published.map Prod.snd).flatten.drop t.ring.claimed.toNat := by
  have hwaiting : t.waiting = t.history.ledger.stream.drop t.ring.claimed.toNat :=
    hc.faithful.keeps.load_unclaimed hc.faithful.sound
  have hall : t.taken ++ t.waiting = t.history.ledger.stream :=
    History.taken_append_unclaimed hc.faithful hc.attentive
  rw [hwaiting] at hall
  rw [← hc.stream_eq]
  refine ⟨?_, hwaiting⟩
  exact List.append_cancel_right (hall.trans (List.take_append_drop _ _).symm)

theorem Consistent.claimed_of_dry (hc : t.Consistent sources) (hdry : t.ring.available = 0) :
    t.ring.claimed.toNat = (t.published.map Prod.snd).flatten.length := by
  have hle := hc.faithful.sound.claimed_le
  have hgap := congrArg UInt64.toNat hdry
  rw [Ring.available, toNat_gap] at hgap
  change t.ring.claimed.toNat ≤ t.ring.committed.toNat at hle
  rw [← hc.stream_eq, hc.faithful.keeps.length_eq]
  change t.ring.claimed.toNat = t.ring.committed.toNat
  change t.ring.committed.toNat - t.ring.claimed.toNat = 0 at hgap
  omega

variable [DecidableEq κ]

theorem trails_next (hclosed : t.ring.closed = true) (event : Event ι κ) :
    ∃ late, Trails t (t.next event) late := by
  cases event with
  | send i => exact trails_send hclosed i
  | take j length => exact ⟨[], trails_take hclosed j length⟩
  | close => exact ⟨[], .silent (History.ended_next hclosed .close) rfl fun _ hi => hi⟩
  | cancel token => exact ⟨[], .silent (.of_claimed_eq hclosed rfl) rfl fun _ hi => hi⟩

theorem exists_trails (hclosed : t.ring.closed = true) (events : List (Event ι κ)) :
    ∃ late, Trails t (t.run events) late := by
  induction events generalizing t with
  | nil => exact ⟨[], .refl hclosed⟩
  | cons event events ih =>
    obtain ⟨late, hnext⟩ := trails_next hclosed event
    obtain ⟨late', hrest⟩ := ih hnext.ended.closed
    exact ⟨late ++ late', hnext.trans hrest⟩

/-- Once a poll has found the ring closed and dry, what is delivered later is a front part of what
comes late, and nothing comes late if no attempt is underway. -/
theorem run_trails {rule : CommitRule} {tokens : ι → ℕ} {before : List (Event ι κ)} {want : UInt64}
    (ht : (start c rule sources tokens).run before = t) (hclosed : t.ring.closed = true)
    (hdry : t.answer (.claim want) = .refused) (after : List (Event ι κ)) :
    ∃ late n, t.Trails (t.run after) late ∧
      (t.run after).taken = t.taken ++ (late.map Prod.snd).flatten.take n ∧
      (t.run after).waiting = (late.map Prod.snd).flatten.drop n ∧
      ((∀ i, ¬(t.senders i).phase.Underway) → late = []) := by
  have hc : t.Consistent sources := ht ▸ (consistent_start c rule sources tokens).run before
  obtain ⟨late, hlate⟩ := exists_trails hclosed after
  have hclaimed := hc.claimed_of_dry (available_of_refused hdry)
  have hle := hlate.ended.claimed_le
  obtain ⟨htaken, -⟩ := hc.taken_eq
  obtain ⟨htaken', hwaiting'⟩ := (hc.run after).taken_eq
  rw [hclaimed, List.take_length] at htaken
  rw [hlate.published, List.map_append, List.flatten_append] at htaken' hwaiting'
  refine ⟨late, (t.run after).ring.claimed.toNat - t.ring.claimed.toNat, hlate, ?_, ?_, ?_⟩
  · rw [htaken', htaken, List.take_append, List.take_of_length_le (by omega), hclaimed]
  · rw [hwaiting', List.drop_append, List.drop_of_length_le (by omega), hclaimed,
      List.nil_append]
  · intro hnone
    rw [← List.map_eq_nil_iff (f := Prod.fst), List.eq_nil_iff_forall_not_mem]
    intro i hi
    exact hnone i (hlate.underway i hi).1

def solitary : Traffic .four (Fin 1) (Fin 1) := start .four .abandon (fun _ => [7]) fun _ => 0

/-- The sender has reserved its slot when the ring is closed. -/
def belated : Traffic .four (Fin 1) (Fin 1) := solitary.run [.send 0, .send 0, .send 0, .close]

/-- The sender copies its byte in and commits it, and a taker polls it. -/
def revival : List (Event (Fin 1) (Fin 1)) :=
  [.take 0 1, .send 0, .send 0, .take 0 1, .take 0 1, .take 0 1]

theorem run_trails_belated :
    belated.ring.closed = true ∧ belated.answer (.claim 1) = .refused ∧
      ∃ late n, belated.Trails (belated.run revival) late ∧
        (belated.run revival).taken = belated.taken ++ (late.map Prod.snd).flatten.take n ∧
        (belated.run revival).waiting = (late.map Prod.snd).flatten.drop n ∧
        ((∀ i, ¬(belated.senders i).phase.Underway) → late = []) := by
  have hclosed : belated.ring.closed = true := by decide
  have hdry : belated.answer (.claim 1) = .refused := by decide
  exact ⟨hclosed, hdry, run_trails rfl hclosed hdry revival⟩

/-- A poll finds the ring closed and dry, and a later one delivers a byte. A ring that is closed
after a poll has found it dry may even hold a byte by then. -/
theorem not_drained :
    (belated.ring.closed = true ∧ belated.answer (.claim 1) = .refused ∧ belated.taken = [] ∧
      (belated.run revival).taken = [7]) ∧
    solitary.answer (.claim 1) = .refused ∧
      (solitary.run (List.replicate 5 (.send 0) ++ [.close])).ring.closed = true ∧
      (solitary.run (List.replicate 5 (.send 0) ++ [.close])).waiting = [7] := by
  decide

end Traffic

end EntropySupply.Ring
