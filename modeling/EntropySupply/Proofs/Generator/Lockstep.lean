import EntropySupply.Entropy.Draw
import Mathlib.Tactic

/-!
# Generators in lockstep

Samples see nothing of a generator but its words. Two generators that yield the same words, whatever
is drawn from them, therefore yield the same samples. Main statements: `Lockstep.draw` and
`Lockstep.fill`. A generator in lockstep with itself keeps whatever the steps to its next states
keep: `Keeps.draw` and `Keeps.fill`.
-/

namespace EntropySupply

namespace Generator

variable {γ δ α : Type}

structure Same (R : γ → δ → Prop) (x : α × γ) (y : α × δ) : Prop where
  value : x.1 = y.1
  next : R x.2 y.2

theorem Same.map {β : Type} {R : γ → δ → Prop} {x : α × γ} {y : α × δ} (h : Same R x y)
    (f : α → β) : Same R (f x.1, x.2) (f y.1, y.2) :=
  ⟨congrArg f h.value, h.next⟩

theorem same_indexOf {R : γ → δ → Prop} {next : γ → ℕ × γ} {next' : δ → ℕ × δ}
    (hnext : ∀ {g h}, R g h → Same R (next g) (next' h)) (modulus size : ℕ) {g : γ} {h : δ}
    (hgh : R g h) :
    Same R (Sampling.indexOf modulus size next g) (Sampling.indexOf modulus size next' h) := by
  obtain ⟨hw, hgh₁⟩ := hnext hgh
  obtain ⟨hv, hgh₂⟩ := hnext hgh₁
  unfold Sampling.indexOf
  dsimp only
  rw [hw, hv]
  by_cases hopen : modulus - size < (next' h).1 * size % modulus
  · rw [if_pos hopen, if_pos hopen]
    exact ⟨rfl, hgh₂⟩
  · rw [if_neg hopen, if_neg hopen]
    exact ⟨rfl, hgh₁⟩

variable [Generator γ] [Generator δ]

/-- Related generators yield the same words and stay related. -/
structure Lockstep (R : γ → δ → Prop) : Prop where
  next32 : ∀ {g h}, R g h → Same R (next32 g) (next32 h)
  next64 : ∀ {g h}, R g h → Same R (next64 g) (next64 h)

namespace Lockstep

variable {R : γ → δ → Prop} {g : γ} {h : δ}

theorem flag (l : Lockstep R) (hgh : R g h) : Same R (Sampling.flag g) (Sampling.flag h) :=
  (l.next32 hgh).map Sampling.flagOf

theorem single (l : Lockstep R) (hgh : R g h) : Same R (Sampling.single g) (Sampling.single h) :=
  (l.next32 hgh).map Sampling.singleOf

theorem double (l : Lockstep R) (hgh : R g h) : Same R (Sampling.double g) (Sampling.double h) :=
  (l.next64 hgh).map Sampling.doubleOf

theorem next32Nat (l : Lockstep R) (hgh : R g h) :
    Same R (Sampling.next32Nat g) (Sampling.next32Nat h) :=
  (l.next32 hgh).map UInt32.toNat

theorem next64Nat (l : Lockstep R) (hgh : R g h) :
    Same R (Sampling.next64Nat g) (Sampling.next64Nat h) :=
  (l.next64 hgh).map UInt64.toNat

theorem openUnit (l : Lockstep R) (hgh : R g h) :
    Same R (Ziggurat.openUnit g) (Ziggurat.openUnit h) :=
  (l.next64 hgh).map fun w => Ziggurat.withExponent 1023 w - Ziggurat.justBelowOne

theorem normalExcess (l : Lockstep R) (tries : ℕ) (hgh : R g h) :
    Same R (Ziggurat.normalExcess tries g) (Ziggurat.normalExcess tries h) := by
  induction tries generalizing g h with
  | zero => exact ⟨rfl, hgh⟩
  | succ tries ih =>
    obtain ⟨ha, hgh₁⟩ := l.openUnit hgh
    obtain ⟨hc, hgh₂⟩ := l.openUnit hgh₁
    unfold Ziggurat.normalExcess
    dsimp only
    rw [ha, hc]
    split_ifs
    · exact ih hgh₂
    · exact ⟨rfl, hgh₂⟩

/-- One density covered by the same layers, with a tail that is sampled alike. -/
structure Covers (R : γ → δ → Prop) (s : Ziggurat.Shape γ) (t : Ziggurat.Shape δ) : Prop where
  edge : s.edge = t.edge
  height : s.height = t.height
  share : s.share = t.share
  extent : s.extent = t.extent
  density : s.density = t.density
  tail : ∀ u {g h}, R g h → Same R (s.tail u g) (t.tail u h)

theorem shape (l : Lockstep R) {s : Ziggurat.Shape γ} {t : Ziggurat.Shape δ} (k : Covers R s t)
    (tries : ℕ) (hgh : R g h) : Same R (s.sample tries g) (t.sample tries h) := by
  induction tries generalizing g h with
  | zero =>
    have hw := (l.next64 hgh).map fun w => t.share w * t.edge (w &&& 255).toNat
    simpa only [Ziggurat.Shape.sample, k.share, k.edge] using hw
  | succ tries ih =>
    obtain ⟨hw, hgh₁⟩ := l.next64 hgh
    obtain ⟨hv, hgh₂⟩ := l.double hgh₁
    unfold Ziggurat.Shape.sample
    dsimp only
    rw [hw, hv, k.share, k.edge, k.extent, k.height, k.density]
    split_ifs
    · exact ⟨rfl, hgh₁⟩
    · exact k.tail _ hgh₁
    · exact ⟨rfl, hgh₂⟩
    · exact ih hgh₂

theorem covers_normal (l : Lockstep R) :
    Covers R (Ziggurat.normalShape : Ziggurat.Shape γ) Ziggurat.normalShape where
  edge := rfl
  height := rfl
  share := rfl
  extent := rfl
  density := rfl
  tail u _ _ hgh := (l.normalExcess Ziggurat.maxTries hgh).map fun x =>
    if u < 0.0 then x - Ziggurat.normalEdge else Ziggurat.normalEdge - x

theorem covers_exponential (l : Lockstep R) :
    Covers R (Ziggurat.exponentialShape : Ziggurat.Shape γ) Ziggurat.exponentialShape where
  edge := rfl
  height := rfl
  share := rfl
  extent := rfl
  density := rfl
  tail _ _ _ hgh := (l.double hgh).map fun v => Ziggurat.exponentialEdge - Float.log v

theorem normal (l : Lockstep R) (hgh : R g h) : Same R (Ziggurat.normal g) (Ziggurat.normal h) :=
  l.shape l.covers_normal Ziggurat.maxTries hgh

theorem exponential (l : Lockstep R) (hgh : R g h) :
    Same R (Ziggurat.exponential g) (Ziggurat.exponential h) :=
  l.shape l.covers_exponential Ziggurat.maxTries hgh

theorem draw (l : Lockstep R) (d : Draw) (hgh : R g h) : Same R (d.sample g) (d.sample h) := by
  cases d with
  | flag => exact (l.flag hgh).map Sample.flag
  | word32 => exact (l.next32 hgh).map Sample.word32
  | word64 => exact (l.next64 hgh).map Sample.word64
  | below32 bound =>
    exact (same_indexOf l.next32Nat _ _ hgh).map fun i => Sample.word32 (UInt32.ofNat i)
  | below64 bound =>
    exact (same_indexOf l.next64Nat _ _ hgh).map fun i => Sample.word64 (UInt64.ofNat i)
  | range32 origin bound =>
    exact (same_indexOf l.next32Nat _ _ hgh).map fun i => Sample.int32 (origin + Int32.ofNat i)
  | range64 origin bound =>
    exact (same_indexOf l.next64Nat _ _ hgh).map fun i => Sample.int64 (origin + Int64.ofNat i)
  | single => exact (l.single hgh).map Sample.single
  | double => exact (l.double hgh).map Sample.double
  | normal => exact (l.normal hgh).map Sample.double
  | exponential => exact (l.exponential hgh).map Sample.double

theorem fill (l : Lockstep R) (n : ℕ) (hgh : R g h) :
    Same R (Generator.fill n g) (Generator.fill n h) := by
  induction n using Nat.strong_induction_on generalizing g h with
  | _ n ih =>
    rw [Generator.fill.eq_def n g, Generator.fill.eq_def n h]
    split_ifs with h0 h4 h8
    · exact ⟨rfl, hgh⟩
    · exact (l.next32 hgh).map fun w => (Bytes.ofNatLE 4 w.toNat).take n
    · exact (l.next64 hgh).map fun w => (Bytes.ofWordLE w).take n
    · obtain ⟨hw, hnext⟩ := l.next64 hgh
      obtain ⟨hrest, hlast⟩ := ih (n - 8) (by omega) hnext
      exact ⟨congrArg₂ (fun w b => Bytes.ofWordLE w ++ b) hw hrest, hlast⟩

end Lockstep

section Keeps

variable {P : γ → Prop}

/-- A property of generators that the steps to their next states keep. -/
structure Keeps (P : γ → Prop) : Prop where
  next32 : ∀ {g}, P g → P (next32 g).2
  next64 : ∀ {g}, P g → P (next64 g).2

theorem Keeps.lockstep (k : Keeps P) : Lockstep fun g h : γ => g = h ∧ P g where
  next32 := by
    rintro g h ⟨rfl, hg⟩
    exact ⟨rfl, rfl, k.next32 hg⟩
  next64 := by
    rintro g h ⟨rfl, hg⟩
    exact ⟨rfl, rfl, k.next64 hg⟩

theorem Keeps.draw (k : Keeps P) (d : Draw) {g : γ} (hg : P g) : P (d.sample g).2 :=
  (k.lockstep.draw d ⟨rfl, hg⟩).2.2

theorem Keeps.fill (k : Keeps P) (n : ℕ) {g : γ} (hg : P g) : P (Generator.fill n g).2 :=
  (k.lockstep.fill n ⟨rfl, hg⟩).2.2

end Keeps

end Generator

end EntropySupply
