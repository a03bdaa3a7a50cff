import EntropySupply.Text.Duration

/-!
# Interruptible sleeps

A long sleep is taken in slices, so that it ends soon after it is called off: before each slice the
sleeper looks whether it still should sleep.
-/

namespace EntropySupply.Source

def sleepSlice : Duration := Duration.ofMillis 50

def sleepSlices (d : Duration) : List Duration :=
  if d = 0 then [] else min d sleepSlice :: sleepSlices (d - min d sleepSlice)
termination_by d
decreasing_by
  have hd : 0 < d := Nat.pos_of_ne_zero ‹_›
  exact Nat.sub_lt hd (Nat.lt_min.2 ⟨hd, by decide⟩)

def total (slices : List Duration) : Duration := slices.foldr (fun slice rest => slice + rest) 0

theorem total_sleepSlices (d : Duration) : total (sleepSlices d) = d := by
  fun_induction sleepSlices d with
  | case1 => rfl
  | case2 d h ih =>
    simp only [total, List.foldr_cons] at ih ⊢
    rw [ih]
    exact Nat.add_sub_of_le (Nat.min_le_left _ _)

/-- The time slept when the sleep is called off ahead of slice `offAt`, if it is at all. -/
def timeSlept (d : Duration) (offAt : Option Nat) : Duration :=
  match offAt with
  | none => d
  | some i => total ((sleepSlices d).take i)

end EntropySupply.Source
