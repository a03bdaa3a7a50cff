import EntropySupply.Ring.Basic

/-!
# Space in a ring

An offer uses up as much space as it accepts bytes, whatever positions the ring holds.
-/

namespace EntropySupply.Ring

variable {c : Capacity}

theorem reserve?_space {r r₁ : Ring c} {want : UInt64} {s : Span}
    (h : r.reserve? want = some (s, r₁)) :
    s.start = r.reserved ∧ s.length.toNat + r₁.space.toNat ≤ r.space.toNat := by
  unfold reserve? at h
  split at h
  · cases h
  · rename_i hs
    cases h
    refine ⟨rfl, ?_⟩
    have hpos : r.space.toNat ≠ 0 := fun h => hs (UInt64.toNat.inj h)
    have hle : (min want r.space).toNat ≤ r.space.toNat := by
      rw [← UInt64.le_iff_toNat_le]
      exact Std.min_le_right
    have hsp : r.space.toNat = (r.released + c.word).toNat - r.reserved.toNat :=
      toNat_gap _ _
    have hlt := (r.released + c.word).toNat_lt
    show (min want r.space).toNat +
      (gap (r.reserved + min want r.space) (r.released + c.word)).toNat ≤ r.space.toNat
    rw [toNat_gap, UInt64.toNat_add r.reserved, Nat.mod_eq_of_lt (by omega)]
    omega

theorem offer?_space {r r₁ : Ring c} {src : Bytes} {n : Nat} {ns : List Notice}
    (h : r.offer? src = some (n, ns, r₁)) : n + r₁.space.toNat ≤ r.space.toNat := by
  unfold offer? at h
  split at h
  · cases h; omega
  · split at h
    · cases h; omega
    · rename_i span held hc
      obtain ⟨hstart, hspace⟩ := reserve?_space hc
      have hrest : held.released = r.released := by
        unfold reserve? at hc
        split at hc
        · cases hc
        · cases hc; rfl
      simp only at h
      split at h
      · cases h
      · rename_i done hd
        cases h
        unfold commit? at hd
        split at hd
        · cases hd; exact hspace
        · split at hd <;> cases hd
      · rename_i done hd
        cases h
        unfold commit? at hd
        split at hd
        · cases hd
        · split at hd
          · cases hd
            simp [space, store, hstart, hrest]
          · cases hd

end EntropySupply.Ring
