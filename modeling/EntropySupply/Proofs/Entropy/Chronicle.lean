import EntropySupply.Proofs.Entropy.Steps
import EntropySupply.Proofs.Generator.Lockstep
import EntropySupply.Proofs.Queue.Recording

/-!
# Chronicles

A generator can take down the seeds that it is renewed from, and a channel the bytes that it
delivers, without a managed generator noticing. Main statement: `run_map`, a run with its chronicle
erased is the run itself.
-/

namespace EntropySupply

/-- A generator that takes down its seeds. -/
structure Chronicled (γ : Type) where
  generator : γ
  /-- The seeds that it has been renewed from, in the order of the renewals. -/
  seeds : List Bytes := []

instance {γ : Type} [Renewable γ] : Renewable (Chronicled γ) where
  next32 g := let w := Generator.next32 g.generator; (w.1, { g with generator := w.2 })
  next64 g := let w := Generator.next64 g.generator; (w.1, { g with generator := w.2 })
  seedBytes g := Renewable.seedBytes g.generator
  claimedBits g := Renewable.claimedBits g.generator
  renew g seed :=
    let r := Renewable.renew g.generator seed
    (⟨r.1, g.seeds ++ [seed]⟩, r.2)
  renewWord g w :=
    let r := Renewable.renewWord g.generator w
    ({ g with generator := r.1 }, r.2)
  strategy := Renewable.strategy γ

structure Renewable.View {γ δ : Type} [Renewable γ] [Renewable δ] (φ : γ → δ) : Prop where
  lockstep : Generator.Lockstep fun g h => φ g = h
  claimedBits : ∀ g, Renewable.claimedBits (φ g) = Renewable.claimedBits g
  renew : ∀ g seed, Renewable.renew (φ g) seed =
    (φ (Renewable.renew g seed).1, (Renewable.renew g seed).2)
  strategy : Renewable.strategy δ = Renewable.strategy γ

/-- A view of the state of a channel on which reading and taking notes work the same way. -/
structure Channel.View {σ τ : Type} [Journal σ] [Journal τ] (ch : Channel σ) (ch' : Channel τ)
    (ψ : σ → τ) : Prop where
  poll : ∀ s dst, ch'.poll (ψ s) dst =
    ⟨(ch.poll s dst).count, (ch.poll s dst).buffer, ψ (ch.poll s dst).state⟩
  read : ∀ s dst, ch'.read (ψ s) dst =
    ⟨(ch.read s dst).stopped, (ch.read s dst).buffer, ψ (ch.read s dst).state⟩
  note : ∀ n s, ψ (Journal.note n s) = Journal.note n (ψ s)

def Request.under {σ τ : Type} (lift : (τ → τ) → σ → σ) : Request τ → Request σ
  | .draw d => .draw d
  | .bytes n => .bytes n
  | .debit bits => .debit bits
  | .renewal => .renewal
  | .outside change => .outside (lift change)

namespace Managed

variable {γ δ σ τ : Type} {φ : γ → δ} {ψ : σ → τ}

def map (φ : γ → δ) (ψ : σ → τ) (m : Managed γ σ) : Managed δ τ where
  tracked := ⟨φ m.tracked.generator, m.tracked.entropy⟩
  site := ψ m.site
  thresholds := m.thresholds
  holder := m.holder
  pending := m.pending
  reseeds := m.reseeds
  lastFailure := m.lastFailure

section Sites

variable [Journal σ] [Journal τ] {ch : Channel σ} {ch' : Channel τ}

theorem noteAll_view (c : ch.View ch' ψ) (ns : List Notice) (s : σ) :
    ψ (Journal.noteAll ns s) = Journal.noteAll ns (ψ s) := by
  unfold Journal.noteAll
  induction ns generalizing s with
  | nil => rfl
  | cons n ns ih => rw [List.foldl_cons, List.foldl_cons, ih, c.note]

theorem gather_map (c : ch.View ch' ψ) (m : Managed γ σ) :
    (gather ch.toQueue m).map φ ψ = gather ch'.toQueue (m.map φ ψ) := by
  fun_induction gather ch.toQueue m with
  | case1 m hfull =>
    rw [gather.eq_def ch'.toQueue]
    exact (if_pos hfull).symm
  | case2 m hroom p m' hnone =>
    rw [gather.eq_def ch'.toQueue, if_neg (by exact hroom)]
    simp only [map, c.poll m.site (m.holder.drop m.pending)]
    rw [if_pos hnone]
  | case3 m hroom p m' hsome ih =>
    rw [gather.eq_def ch'.toQueue, if_neg (by exact hroom)]
    simp only [map, c.poll m.site (m.holder.drop m.pending)]
    rw [if_neg hsome]
    exact ih

theorem waited_map (c : ch.View ch' ψ) (m : Managed γ σ) :
    (waited ch m).map φ ψ = waited ch' (m.map φ ψ) := by
  have hr := c.read m.site (m.holder.drop m.pending)
  simp only [waited, map, hr]

theorem interrupted_map (c : ch.View ch' ψ) (m : Managed γ σ) (e : Interruption) :
    (m.interrupted e).map φ ψ = (m.map φ ψ).interrupted e := by
  simp only [interrupted, note, map, c.note]

end Sites

variable [Renewable γ] [Renewable δ]

theorem drawn_map (v : Renewable.View φ) (m : Managed γ σ) (n : ℕ) :
    ((m.map φ ψ).tracked.drawBytes n).1 = (m.tracked.drawBytes n).1 ∧
      (m.map φ ψ).drawn n = (m.drawn n).map φ ψ := by
  obtain ⟨hbytes, hnext⟩ := v.lockstep.fill n (g := m.tracked.generator) rfl
  refine ⟨hbytes.symm, ?_⟩
  simp only [drawn, map, Tracked.drawBytes, hnext]
  rfl

variable [Journal σ] [Journal τ] {ch : Channel σ} {ch' : Channel τ}

theorem renew_map (v : Renewable.View φ) (c : ch.View ch' ψ) (m : Managed γ σ) :
    m.renew.map φ ψ = (m.map φ ψ).renew := by
  simp only [renew, map, v.renew, v.claimedBits, v.strategy, c.note, noteAll_view c]

theorem renewFromReady_map (v : Renewable.View φ) (c : ch.View ch' ψ) (m : Managed γ σ) :
    (renewFromReady ch.toQueue m).map φ ψ = renewFromReady ch'.toQueue (m.map φ ψ) := by
  have hg := gather_map (φ := φ) c m
  by_cases hshort : (gather ch.toQueue m).pending < (gather ch.toQueue m).holder.length
  · rw [renewFromReady_short hshort, renewFromReady_short (by rw [← hg]; exact hshort), hg]
  · rw [renewFromReady_full hshort, renewFromReady_full (by rw [← hg]; exact hshort),
      renew_map v c, hg]

theorem renewWaiting_map (v : Renewable.View φ) (c : ch.View ch' ψ) (m : Managed γ σ) :
    (renewWaiting ch' (m.map φ ψ)).1 = (renewWaiting ch m).1 ∧
      (renewWaiting ch' (m.map φ ψ)).2 = (renewWaiting ch m).2.map φ ψ := by
  have hstop : (renewWaiting ch' (m.map φ ψ)).1 = (renewWaiting ch m).1 := by
    rw [renewWaiting_fst, renewWaiting_fst]
    exact congrArg Received.stopped (c.read m.site (m.holder.drop m.pending))
  refine ⟨hstop, ?_⟩
  cases h : (renewWaiting ch m).1 with
  | none =>
    rw [renewWaiting_none h, renewWaiting_none (hstop.trans h), renew_map v c, waited_map c]
  | some e =>
    rw [renewWaiting_some h, renewWaiting_some (hstop.trans h), interrupted_map c, waited_map c]

theorem ensure_map (v : Renewable.View φ) (c : ch.View ch' ψ) (m : Managed γ σ) (bits : Int64) :
    (ensure ch m bits).map φ ψ = ensure ch' (m.map φ ψ) bits := by
  by_cases hforced : m.entropy - bits ≤ m.thresholds.minimum
  · rw [ensure_forced hforced, ensure_forced (m := m.map φ ψ) hforced, (renewWaiting_map v c m).2]
  · by_cases hready : m.entropy - bits < m.thresholds.desired
    · rw [ensure_ready hforced hready, ensure_ready (m := m.map φ ψ) hforced hready,
        renewFromReady_map v c]
    · rw [ensure_ample hforced hready, ensure_ample (m := m.map φ ψ) hforced hready]

theorem debit_map (v : Renewable.View φ) (c : ch.View ch' ψ) (m : Managed γ σ) (bits : Int64) :
    (debit ch m bits).map φ ψ = debit ch' (m.map φ ψ) bits := by
  unfold debit
  rw [← ensure_map v c]
  rfl

theorem draw_map (v : Renewable.View φ) (c : ch.View ch' ψ) (d : Draw) (m : Managed γ σ) :
    draw ch' d (m.map φ ψ) = ((draw ch d m).1, (draw ch d m).2.map φ ψ) := by
  unfold draw
  cases d.empty? with
  | some e => rfl
  | none =>
    dsimp only
    rw [← debit_map v c]
    obtain ⟨hsample, hnext⟩ := v.lockstep.draw d (g := (debit ch m d.cost).tracked.generator) rfl
    simp only [map]
    rw [← hsample, ← hnext]

theorem nextSegment_map (v : Renewable.View φ) (c : ch.View ch' ψ) (m : Managed γ σ) :
    nextSegment ch' (m.map φ ψ) = ((nextSegment ch m).1, (nextSegment ch m).2.map φ ψ) := by
  by_cases hspare : m.spareBytes m.thresholds.desired = 0
  · rw [nextSegment_spent hspare, nextSegment_spent (m := m.map φ ψ) hspare, ← ensure_map v c]
    rfl
  · rw [nextSegment_ready hspare, nextSegment_ready (m := m.map φ ψ) hspare]
    rfl

theorem drawBytes_map (v : Renewable.View φ) (c : ch.View ch' ψ) (n : ℕ) (m : Managed γ σ) :
    drawBytes ch' n (m.map φ ψ) = ((drawBytes ch n m).1, (drawBytes ch n m).2.map φ ψ) := by
  induction n using Nat.strong_induction_on generalizing m with
  | _ n ih =>
    by_cases hn : n = 0
    · rw [hn, drawBytes_zero, drawBytes_zero]
    · have hpos := nextSegment_pos ch m
      obtain ⟨hbytes, hdrawn⟩ := drawn_map (ψ := ψ) v (nextSegment ch m).2
        (min n (nextSegment ch m).1)
      rw [drawBytes_pos hn, drawBytes_pos hn, nextSegment_map v c]
      dsimp only
      rw [hbytes, hdrawn, ih _ (by omega)]

theorem perform_map (v : Renewable.View φ) (c : ch.View ch' ψ) {lift : (τ → τ) → σ → σ}
    (hlift : ∀ change s, ψ (lift change s) = change (ψ s)) (m : Managed γ σ) (op : Request τ) :
    (m.perform ch (op.under lift)).map φ ψ = (m.map φ ψ).perform ch' op := by
  cases op with
  | draw d => exact (congrArg Prod.snd (draw_map v c d m)).symm
  | bytes n => exact (congrArg Prod.snd (drawBytes_map v c n m)).symm
  | debit bits => exact debit_map v c m bits
  | renewal => exact (renewWaiting_map v c m).2.symm
  | outside change => simp only [Request.under, perform, map, hlift]

/-- A view of a run is the run of the view. -/
theorem run_map (v : Renewable.View φ) (c : ch.View ch' ψ) {lift : (τ → τ) → σ → σ}
    (hlift : ∀ change s, ψ (lift change s) = change (ψ s)) (m : Managed γ σ)
    (ops : List (Request τ)) :
    (m.run ch (ops.map (Request.under lift))).map φ ψ = (m.map φ ψ).run ch' ops := by
  induction ops generalizing m with
  | nil => rfl
  | cons op ops ih =>
    rw [List.map_cons]
    exact (ih (m.perform ch (op.under lift))).trans
      (congrArg (fun m => run ch' m ops) (perform_map v c hlift m op))

end Managed

theorem Chronicled.view (γ : Type) [Renewable γ] :
    Renewable.View (Chronicled.generator : Chronicled γ → γ) where
  lockstep :=
    { next32 := by
        rintro g _ rfl
        exact ⟨rfl, rfl⟩
      next64 := by
        rintro g _ rfl
        exact ⟨rfl, rfl⟩ }
  claimedBits _ := rfl
  renew _ _ := rfl
  strategy := rfl

/-- What a channel delivers to its user, and nothing that the others move. -/
def Channel.chronicled {σ : Type} (ch : Channel σ) : Channel (Recorded σ) :=
  ch.recorded fun _ => ([], [])

theorem Channel.chronicled_view {σ : Type} [Journal σ] (ch : Channel σ) :
    ch.chronicled.View ch Recorded.state where
  poll _ _ := rfl
  read s dst := by
    obtain ⟨hstopped, hbuffer, hstate⟩ := ch.readFrom_recorded (fun _ => ([], [])) 0 s dst
    exact congr (congrArg₂ Received.mk hstopped.symm hbuffer.symm) hstate.symm
  note _ _ := rfl

end EntropySupply
