import EntropySupply.Proofs.Entropy.Budget
import EntropySupply.Proofs.Entropy.Harvest
import EntropySupply.Proofs.Reseed.Credit

/-!
# Byte strings byte by byte

A byte string is drawn in segments, and the budget is looked at between segments only. Main
statement: `drawBytes_bytewise`, nothing but the generator's own state can tell a byte string from
as many single bytes, for a segment ends before a byte that would have called for a renewal.
-/

namespace EntropySupply

open Renewable (Kin Settled)

theorem Renewable.Kin.chronicled {γ : Type} [Renewable γ] {g h : Chronicled γ} (k : Kin g h) :
    Kin g.generator h.generator ∧ g.seeds = h.seeds := by
  induction k with
  | refl g => exact ⟨.refl _, rfl⟩
  | symm _ ih => exact ⟨ih.1.symm, ih.2.symm⟩
  | trans _ _ ih ih' => exact ⟨ih.1.trans ih'.1, ih.2.trans ih'.2⟩
  | next32 g => exact ⟨.next32 _, rfl⟩
  | next64 g => exact ⟨.next64 _, rfl⟩
  | renew seed _ ih => exact ⟨ih.1.renew seed, congrArg (· ++ [seed]) ih.2⟩

instance {γ σ : Type} [Renewable γ] [Journal σ] [Settled γ σ] :
    Settled (Chronicled γ) (Recorded σ) where
  claimedBits := by
    intro g h k
    change Renewable.claimedBits g.generator = Renewable.claimedBits h.generator
    exact Settled.claimedBits σ k.chronicled.1
  notices := by
    intro g h seed r k
    rw [noteAll_recorded, noteAll_recorded]
    exact congrArg (fun s => { r with state := s }) (Settled.notices seed r.state k.chronicled.1)

namespace Managed

variable {γ σ : Type}

def withGenerator (m : Managed γ σ) (g : γ) : Managed γ σ := m.map (fun _ => g) id

variable [Renewable γ]

/-- Managed generators that differ in what has been drawn from their generators, and not in what it
was paid with. -/
inductive Alike (m : Managed γ σ) : Managed γ σ → Prop
  | kin {g : γ} : Kin m.tracked.generator g → Alike m (m.withGenerator g)

variable {m m' m'' : Managed γ σ}

theorem Alike.refl (m : Managed γ σ) : Alike m m := .kin (.refl _)

theorem Alike.symm (h : Alike m m') : Alike m' m := by
  obtain @⟨g, k⟩ := h
  exact .kin (m := m.withGenerator g) k.symm

theorem Alike.trans (h : Alike m m') (h' : Alike m' m'') : Alike m m'' := by
  obtain ⟨k⟩ := h
  obtain ⟨k'⟩ := h'
  exact .kin (k.trans k')

theorem Alike.drawn (h : Alike m m') (n : ℕ) : Alike (m.drawn n) (m'.drawn n) := by
  obtain @⟨g, k⟩ := h
  have hleft := (Kin.keeps m.tracked.generator).fill n (.refl _)
  have hright := (Kin.keeps g).fill n (.refl _)
  exact .kin (hleft.symm.trans (k.trans hright))

theorem alike_tracked {g g' : γ} {left left' : Int64} (m : Managed γ σ) (k : Kin g g')
    (hleft : left = left') :
    Alike { m with tracked := ⟨g, left⟩ } { m with tracked := ⟨g', left'⟩ } := by
  subst hleft
  exact .kin (m := { m with tracked := ⟨g, left⟩ }) k

theorem alike_drawn_zero (m : Managed γ σ) : Alike m (m.drawn 0) :=
  alike_tracked m ((Kin.keeps _).fill 0 (.refl _)) (Int64.sub_zero (a := m.entropy)).symm

theorem alike_drawn_succ (m : Managed γ σ) (n : ℕ) :
    Alike (m.drawn (n + 1)) ((m.drawn 1).drawn n) := by
  have hkeeps := Kin.keeps m.tracked.generator
  have hall := hkeeps.fill (n + 1) (.refl _)
  have hparts := hkeeps.fill n (hkeeps.fill 1 (.refl _))
  refine alike_tracked m (hall.symm.trans hparts) ?_
  change m.entropy - Cost.bytes (n + 1) = m.entropy - Cost.byte - Cost.bytes n
  rw [Cost.bytes_succ]
  grind

variable [Journal σ] {ch : Channel σ}

omit [Renewable γ] in
theorem gather_withGenerator (ch : Channel σ) (m : Managed γ σ) (g : γ) :
    gather ch.toQueue (m.withGenerator g) = (gather ch.toQueue m).withGenerator g :=
  (gather_map ⟨fun _ _ => rfl, fun _ _ => rfl, fun _ _ => rfl⟩ m).symm

omit [Renewable γ] in
theorem waited_withGenerator (m : Managed γ σ) (g : γ) :
    waited ch (m.withGenerator g) = (waited ch m).withGenerator g :=
  (waited_map ⟨fun _ _ => rfl, fun _ _ => rfl, fun _ _ => rfl⟩ m).symm

section Settled

variable [Settled γ σ]

theorem Alike.renew (h : Alike m m') : Alike m.renew m'.renew := by
  obtain @⟨g, k⟩ := h
  have hfresh := Settled.claimedBits σ (k.renew m.holder)
  have hnotices := Settled.notices m.holder m.site k
  have heq : (m.withGenerator g).renew =
      m.renew.withGenerator (Renewable.renew g m.holder).1 := by
    simp only [Managed.renew, withGenerator, map, id, hfresh, hnotices]
  rw [heq]
  exact .kin (k.renew m.holder)

theorem Alike.renewFromReady (h : Alike m m') :
    Alike (renewFromReady ch.toQueue m) (renewFromReady ch.toQueue m') := by
  obtain @⟨g, k⟩ := h
  have hgathered : Alike (gather ch.toQueue m) (gather ch.toQueue (m.withGenerator g)) := by
    rw [gather_withGenerator]
    refine .kin ?_
    rw [(gather_frame ch.toQueue m).1]
    exact k
  have hsame := gather_withGenerator ch m g
  by_cases hshort : (gather ch.toQueue m).pending < (gather ch.toQueue m).holder.length
  · rw [renewFromReady_short hshort, renewFromReady_short (by rw [hsame]; exact hshort)]
    exact hgathered
  · rw [renewFromReady_full hshort, renewFromReady_full (by rw [hsame]; exact hshort)]
    exact hgathered.renew

theorem Alike.renewWaiting (h : Alike m m') :
    Alike (renewWaiting ch m).2 (renewWaiting ch m').2 := by
  obtain @⟨g, k⟩ := h
  have hwaited : Alike (waited ch m) (waited ch (m.withGenerator g)) := by
    rw [waited_withGenerator]
    exact .kin k
  have hstop : (Managed.renewWaiting ch (m.withGenerator g)).1 = (Managed.renewWaiting ch m).1 := by
    rw [renewWaiting_fst, renewWaiting_fst]
    rfl
  cases hw : (Managed.renewWaiting ch m).1 with
  | none =>
    rw [renewWaiting_none hw, renewWaiting_none (hstop.trans hw)]
    exact hwaited.renew
  | some e =>
    rw [renewWaiting_some hw, renewWaiting_some (hstop.trans hw), waited_withGenerator]
    exact .kin k

theorem Alike.ensure (h : Alike m m') (bits : Int64) :
    Alike (ensure ch m bits) (ensure ch m' bits) := by
  have h' := h
  obtain @⟨g, k⟩ := h'
  by_cases hforced : m.entropy - bits ≤ m.thresholds.minimum
  · rw [ensure_forced hforced, ensure_forced (m := m.withGenerator g) hforced]
    exact h.renewWaiting
  · by_cases hready : m.entropy - bits < m.thresholds.desired
    · rw [ensure_ready hforced hready, ensure_ready (m := m.withGenerator g) hforced hready]
      exact h.renewFromReady
    · rw [ensure_ample hforced hready, ensure_ample (m := m.withGenerator g) hforced hready]
      exact h

def singly (ch : Channel σ) (m : Managed γ σ) : Managed γ σ := (drawBytes ch 1 m).2

omit [Settled γ σ] in
theorem singly_eq (ch : Channel σ) (m : Managed γ σ) :
    singly ch m = (nextSegment ch m).2.drawn 1 := by
  have hone : min 1 (nextSegment ch m).1 = 1 := Nat.min_eq_left (nextSegment_pos ch m)
  unfold singly
  rw [drawBytes_pos one_ne_zero]
  dsimp only
  rw [hone, Nat.sub_self, drawBytes_zero]

omit [Settled γ σ] in
theorem singly_ready (h : m.spareBytes m.thresholds.desired ≠ 0) : singly ch m = m.drawn 1 := by
  rw [singly_eq, nextSegment_ready h]

theorem Alike.singly (h : Alike m m') : Alike (singly ch m) (singly ch m') := by
  rw [singly_eq, singly_eq]
  refine Alike.drawn ?_ 1
  have h' := h
  obtain @⟨g, k⟩ := h'
  by_cases hspare : m.spareBytes m.thresholds.desired = 0
  · rw [nextSegment_spent hspare, nextSegment_spent (m := m.withGenerator g) hspare]
    exact h.ensure Cost.byte
  · rw [nextSegment_ready hspare, nextSegment_ready (m := m.withGenerator g) hspare]
    exact h

theorem Alike.iterate_singly (h : Alike m m') (ch : Channel σ) (n : ℕ) :
    Alike ((Managed.singly ch)^[n] m) ((Managed.singly ch)^[n] m') := by
  induction n generalizing m m' with
  | zero => exact h
  | succ n ih => exact ih h.singly

omit [Settled γ σ] in
/-- Bytes that are spare are drawn without another look at the budget. -/
theorem alike_spare (ch : Channel σ) {n : ℕ} (hn : n ≤ m.spareBytes m.thresholds.desired) :
    Alike (m.drawn n) ((singly ch)^[n] m) := by
  induction n generalizing m with
  | zero => exact (alike_drawn_zero m).symm
  | succ n ih =>
    have hspare : m.spareBytes m.thresholds.desired ≠ 0 := by omega
    have hpaid : (m.drawn 1).entropy = m.entropy - Cost.byte := rfl
    have hless := spareBytes_succ hpaid hspare
    rw [Function.iterate_succ_apply, singly_ready hspare]
    refine (alike_drawn_succ m n).trans (ih ?_)
    change n ≤ (m.drawn 1).spareBytes m.thresholds.desired
    omega

omit [Settled γ σ] in
/-- A segment is as long as single bytes would not have called for another renewal. -/
theorem alike_segment {n : ℕ} (hpos : 0 < n) (hn : n ≤ (nextSegment ch m).1) :
    Alike ((nextSegment ch m).2.drawn n) ((singly ch)^[n] m) := by
  by_cases hspare : m.spareBytes m.thresholds.desired = 0
  · obtain ⟨k, rfl⟩ : ∃ k, n = k + 1 := ⟨n - 1, by omega⟩
    rw [Function.iterate_succ_apply, singly_eq]
    rw [nextSegment_spent hspare] at hn ⊢
    dsimp only at hn ⊢
    by_cases hmore :
        (ensure ch m Cost.byte).spareBytes (ensure ch m Cost.byte).thresholds.desired = 0
    · -- Nothing is spare even now, and the segment is the byte that was prepared.
      obtain rfl : k = 0 := by omega
      exact .refl _
    · have h := alike_spare ch (m := ensure ch m Cost.byte) (n := k + 1) (by omega)
      rw [Function.iterate_succ_apply, singly_ready hmore] at h
      exact h
  · rw [nextSegment_ready hspare] at hn ⊢
    exact alike_spare ch hn

theorem alike_drawBytes (ch : Channel σ) (n : ℕ) (m : Managed γ σ) :
    Alike (drawBytes ch n m).2 ((singly ch)^[n] m) := by
  induction n using Nat.strong_induction_on generalizing m with
  | _ n ih =>
    by_cases hn : n = 0
    · subst hn
      rw [drawBytes_zero]
      exact .refl m
    · have hpos := nextSegment_pos ch m
      have hsegment : Alike ((nextSegment ch m).2.drawn (min n (nextSegment ch m).1))
          ((singly ch)^[min n (nextSegment ch m).1] m) :=
        alike_segment (by omega) (Nat.min_le_right _ _)
      have hrest := ih (n - min n (nextSegment ch m).1) (by omega)
        ((nextSegment ch m).2.drawn (min n (nextSegment ch m).1))
      have hsplit : n = n - min n (nextSegment ch m).1 + min n (nextSegment ch m).1 := by omega
      -- Iterates apply the last summand first, so the segment has to stand last.
      rw [drawBytes_pos hn]
      conv_rhs => rw [hsplit, Function.iterate_add_apply]
      exact hrest.trans (hsegment.iterate_singly ch _)

theorem alike_drawBytes_add (ch : Channel σ) (n k : ℕ) (m : Managed γ σ) :
    Alike (drawBytes ch (n + k) m).2 (drawBytes ch k (drawBytes ch n m).2).2 := by
  have hall := alike_drawBytes ch (k + n) m
  rw [Function.iterate_add_apply, Nat.add_comm] at hall
  have hfirst := (alike_drawBytes ch n m).iterate_singly ch k
  have hsecond := alike_drawBytes ch k (drawBytes ch n m).2
  exact hall.trans (hsecond.trans hfirst).symm

omit [Settled γ σ] in
theorem run_replicate (ch : Channel σ) (m : Managed γ σ) (n : ℕ) :
    m.run ch (List.replicate n (.bytes 1)) = (singly ch)^[n] m := by
  induction n generalizing m with
  | zero => rfl
  | succ n ih => exact ih (singly ch m)

end Settled

variable [Settled γ σ]

/-- Two runs leave the same of everything but the state of the generator itself, and have renewed it
from the same seeds. -/
structure SameBooks (ch : Channel σ) (m : Managed γ σ) (ops ops' : List (Request σ)) : Prop where
  entropy : (m.run ch ops).entropy = (m.run ch ops').entropy
  reseeds : (m.run ch ops).reseeds = (m.run ch ops').reseeds
  pending : (m.run ch ops).pending = (m.run ch ops').pending
  holder : (m.run ch ops).holder = (m.run ch ops').holder
  lastFailure : (m.run ch ops).lastFailure = (m.run ch ops').lastFailure
  thresholds : (m.run ch ops).thresholds = (m.run ch ops').thresholds
  site : (m.run ch ops).site = (m.run ch ops').site
  seeds : (m.chronicled.run ch.chronicled (ops.map Request.recorded)).seeds =
    (m.chronicled.run ch.chronicled (ops'.map Request.recorded)).seeds

omit [Journal σ] [Settled γ σ] in
theorem Alike.erased {a b : Managed (Chronicled γ) (Recorded σ)} (h : Alike a b) :
    b.erased = a.erased.withGenerator b.erased.tracked.generator ∧ a.seeds = b.seeds := by
  obtain ⟨k⟩ := h
  exact ⟨rfl, k.chronicled.2⟩

omit [Settled γ σ] in
theorem sameBooks_of_alike {ops ops' : List (Request σ)}
    (h : Alike (m.chronicled.run ch.chronicled (ops.map Request.recorded))
      (m.chronicled.run ch.chronicled (ops'.map Request.recorded))) : SameBooks ch m ops ops' := by
  obtain ⟨hsame, hseeds⟩ := h.erased
  rw [erased_run, erased_run] at hsame
  generalize hrun : m.run ch ops' = after at hsame
  refine ⟨?_, ?_, ?_, ?_, ?_, ?_, ?_, hseeds⟩
  all_goals
    rw [hrun, hsame]
    rfl

/-- Drawing a byte string leaves what drawing its bytes one by one leaves, and what drawing it in
two parts leaves. -/
theorem drawBytes_bytewise (ch : Channel σ) (m : Managed γ σ) (n k : ℕ) :
    (drawBytes ch n m).1.length = n ∧
      SameBooks ch m [.bytes n] (List.replicate n (.bytes 1)) ∧
      SameBooks ch m [.bytes (n + k)] [.bytes n, .bytes k] := by
  refine ⟨length_drawBytes ch n m, sameBooks_of_alike ?_, sameBooks_of_alike ?_⟩
  · have h := alike_drawBytes ch.chronicled n m.chronicled
    rw [← run_replicate] at h
    rw [List.map_replicate]
    exact h
  · exact alike_drawBytes_add ch.chronicled n k m.chronicled

/-- A generator whose claims go down and up again from renewal to renewal. -/
def fickle : Managed Playback (Site (Pool .four)) :=
  { scarce with
    tracked := ⟨{ words := [7, 1, 5], seedBytes := 3, claims := [256, 30, 200] }, 70⟩ }

theorem drawBytes_bytewise_fickle :
    Settled Playback (Site (Pool .four)) ∧
      (drawBytes (Site.layered [.capped [1, 2]]) 40 fickle).1.length = 40 ∧
      SameBooks (Site.layered [.capped [1, 2]]) fickle [.bytes 40]
        (List.replicate 40 (.bytes 1)) ∧
      SameBooks (Site.layered [.capped [1, 2]]) fickle [.bytes (40 + 7)] [.bytes 40, .bytes 7] :=
  ⟨inferInstance, drawBytes_bytewise _ fickle 40 7⟩

end Managed

end EntropySupply
