import EntropySupply.Generator.Playback
import EntropySupply.Proofs.Generator.Lockstep
import EntropySupply.Reseed.Mixing
import EntropySupply.Reseed.Replacing
import EntropySupply.Reseed.Skipping
import EntropySupply.Reseed.Stepping

/-!
# The credit of renewals

What a renewal is worth can be one and the same number for good, as with every way of renewing in
this library, or it can change from renewal to renewal. In neither case does it depend on what has
been drawn in between: generators that come from one by the same renewals are credited alike.
-/

namespace EntropySupply.Renewable

/-- Drawing from a generator and renewing it leave its credit as it is. -/
class Steady (γ : Type) [Renewable γ] : Prop where
  next32 : ∀ g : γ, claimedBits (Generator.next32 g).2 = claimedBits g
  next64 : ∀ g : γ, claimedBits (Generator.next64 g).2 = claimedBits g
  renew : ∀ (g : γ) (seed : Bytes), claimedBits (renew g seed).1 = claimedBits g

theorem Steady.keeps {γ : Type} [Renewable γ] [Steady γ] (fresh : Int64) :
    Generator.Keeps fun g : γ => claimedBits g = fresh where
  next32 h := (Steady.next32 _).trans h
  next64 h := (Steady.next64 _).trans h

instance {α : Type} [Seedable α] : Steady (Replacing α) where
  next32 _ := rfl
  next64 _ := rfl
  renew _ _ := rfl

instance {α : Type} [Generator α] [Skippable α] : Steady (Skipping α) where
  next32 _ := rfl
  next64 _ := rfl
  renew _ _ := rfl

instance {α : Type} [Generator α] [Leapable α] : Steady (Stepping α) where
  next32 _ := rfl
  next64 _ := rfl
  renew _ _ := rfl

instance {α : Type} [Seedable α] : Steady (Mixing α) where
  next32 _ := rfl
  next64 _ := rfl
  renew _ _ := rfl

section Kin

variable {γ : Type} [Renewable γ]

/-- Generators that the same renewals have come to, whatever has been drawn in between. -/
inductive Kin : γ → γ → Prop
  | refl (g : γ) : Kin g g
  | symm {g h : γ} : Kin g h → Kin h g
  | trans {g h k : γ} : Kin g h → Kin h k → Kin g k
  | next32 (g : γ) : Kin g (Generator.next32 g).2
  | next64 (g : γ) : Kin g (Generator.next64 g).2
  | renew {g h : γ} (seed : Bytes) : Kin g h → Kin (renew g seed).1 (renew h seed).1

theorem Kin.keeps (g : γ) : Generator.Keeps (Kin g) where
  next32 k := k.trans (.next32 _)
  next64 k := k.trans (.next64 _)

/-- Kin agree on whatever draws leave alone and renewals change alike. -/
theorem Kin.congr {β : Type} {f : γ → β} {g h : γ} (k : Kin g h)
    (h32 : ∀ g : γ, f (Generator.next32 g).2 = f g)
    (h64 : ∀ g : γ, f (Generator.next64 g).2 = f g)
    (hrenew : ∀ {g h : γ} (seed : Bytes), f g = f h →
      f (Renewable.renew g seed).1 = f (Renewable.renew h seed).1) : f g = f h := by
  induction k with
  | refl g => rfl
  | symm _ ih => exact ih.symm
  | trans _ _ ih ih' => exact ih.trans ih'
  | next32 g => exact (h32 g).symm
  | next64 g => exact (h64 g).symm
  | renew seed _ ih => exact hrenew seed ih

end Kin

/-- What a renewal is worth, and the trace it leaves in a journal, depend on the renewals alone. -/
class Settled (γ σ : Type) [Renewable γ] [Journal σ] : Prop where
  claimedBits : ∀ {g h : γ}, Kin g h → claimedBits g = claimedBits h
  notices : ∀ {g h : γ} (seed : Bytes) (s : σ), Kin g h →
    Journal.noteAll (renew g seed).2 s = Journal.noteAll (renew h seed).2 s

variable {σ : Type} [Journal σ]

instance {α : Type} [Seedable α] : Settled (Replacing α) σ where
  claimedBits _ := rfl
  notices _ _ _ := rfl

theorem Kin.skipping {α : Type} [Generator α] [Skippable α] {r s : Skipping α} (k : Kin r s) :
    r.seedBytes = s.seedBytes :=
  k.congr (fun _ => rfl) (fun _ => rfl) fun _ h => h

instance {α : Type} [Generator α] [Skippable α] : Settled (Skipping α) σ where
  claimedBits := by
    intro r s k
    change 8 * r.seedBytes.toInt64 = 8 * s.seedBytes.toInt64
    rw [k.skipping]
  notices := by
    intro r s seed site k
    simp only [renew, Skipping.renew, k.skipping]

theorem Kin.stepping {α : Type} [Generator α] [Leapable α] {r s : Stepping α} (k : Kin r s) :
    r.jumpBits = s.jumpBits ∧ r.leapBits = s.leapBits :=
  ⟨k.congr (fun _ => rfl) (fun _ => rfl) fun _ h => h,
    k.congr (fun _ => rfl) (fun _ => rfl) fun _ h => h⟩

instance {α : Type} [Generator α] [Leapable α] : Settled (Stepping α) σ where
  claimedBits := by
    intro r s k
    change Int64.ofNat r.bits = Int64.ofNat s.bits
    rw [Stepping.bits, Stepping.bits, k.stepping.1, k.stepping.2]
  notices := by
    intro r s seed site k
    obtain ⟨hjump, hleap⟩ := k.stepping
    have hwidth : r.width = s.width := by
      rw [Stepping.width, Stepping.width, Stepping.bits, Stepping.bits, hjump, hleap]
    have hcounts (w : UInt64) : r.counts w = s.counts w := by
      unfold Stepping.counts Stepping.maxJumps Stepping.maxLeaps
      rw [hjump, hleap]
    simp only [renew, Stepping.renew, Stepping.renewWord, hwidth, hcounts]

theorem Kin.mixing {α : Type} [Seedable α] {r s : Mixing α} (k : Kin r s) :
    r.seedBytes = s.seedBytes ∧ r.claimed = s.claimed :=
  ⟨k.congr (fun _ => rfl) (fun _ => rfl) fun _ h => h,
    k.congr (fun _ => rfl) (fun _ => rfl) fun _ h => h⟩

instance {α : Type} [Seedable α] : Settled (Mixing α) σ where
  claimedBits k := k.mixing.2
  notices := by
    intro r s seed site k
    simp only [renew, Mixing.renew, k.mixing.1]

theorem Kin.playback {g h : Playback} (k : Kin g h) : g.claims = h.claims ∧ g.applied = h.applied :=
  Prod.ext_iff.mp (k.congr (f := fun g => (g.claims, g.applied)) (fun _ => rfl) (fun _ => rfl) (by
    intro g h seed hgh
    obtain ⟨hclaims, happlied⟩ := Prod.ext_iff.mp hgh
    exact Prod.ext hclaims (congrArg (· ++ [SeedRecord.bytes seed]) happlied)))

/-- A generator that plays words back may claim something else after each renewal. -/
instance : Settled Playback σ where
  claimedBits := by
    intro g h k
    obtain ⟨hclaims, happlied⟩ := k.playback
    change g.claimedBits = h.claimedBits
    rw [Playback.claimedBits, Playback.claimedBits, hclaims, happlied]
  notices _ _ _ := rfl

end EntropySupply.Renewable
