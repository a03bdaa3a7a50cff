import EntropySupply.Ring.Space
import EntropySupply.Queue.Site
import EntropySupply.Queue.Slack

/-!
# Room at a site

Whatever the layers around a ring, an offer that accepts bytes leaves so much less space in it.
Hence a site whose queue is a layered ring has room in the sense of its channel, and a request to a
source leaves no more slack there.
-/

namespace EntropySupply

namespace Pool

variable {c : Capacity}

def space (p : Pool c) : Nat := p.ring.space.toNat

theorem space_note (n : Notice) (p : Pool c) : space (Journal.note n p) = space p := rfl

theorem space_noteAll (ns : List Notice) (p : Pool c) :
    space (Journal.noteAll ns p) = space p := by
  unfold Journal.noteAll
  induction ns generalizing p with
  | nil => rfl
  | cons n ns ih => rw [List.foldl_cons, ih, space_note]

theorem bare_offer_space (p : Pool c) (src : Bytes) :
    (bare.offer p src).count + space (bare.offer p src).state ≤ space p := by
  simp only [bare]
  split
  · exact Nat.le_of_eq (Nat.zero_add _)
  · rename_i h
    rw [space_noteAll]
    exact Ring.offer?_space h

theorem layered_offer_space (layers : List Layer) (p : Pool c) (src : Bytes) :
    ((layered layers).offer p src).count + space ((layered layers).offer p src).state ≤
      space p := by
  induction layers generalizing p src with
  | nil => exact bare_offer_space p src
  | cons layer inner ih =>
    cases layer with
    | fair a l =>
      simp only [layered, Queue.fair]
      split
      · exact Queue.fairTurn_room space_note ih _ l "write" p src
      · exact ih p src
    | capped caps => exact ih _ _

end Pool

namespace Site

variable {c : Capacity}

def layered (layers : List Layer) : Channel (Site (Pool c)) :=
  channel (Pool.layered layers) Pool.bare

def room (layers : List Layer) : (@layered c layers).Room where
  room s := s.pool.space
  offer_patience _ _ := rfl
  offer_room s src := Pool.layered_offer_space layers s.pool src

theorem countP_later_le (k : Nat) (events : List (Nat × Act)) :
    events.countP (fun e => decide (k + 1 < e.1)) ≤ events.countP (fun e => decide (k < e.1)) :=
  List.countP_mono_left fun e _ h => by simp at h ⊢; omega

theorem countP_later_lt {k : Nat} {act : Act} {events : List (Nat × Act)}
    (h : (k + 1, act) ∈ events) :
    events.countP (fun e => decide (k + 1 < e.1)) < events.countP (fun e => decide (k < e.1)) := by
  induction events with
  | nil => cases h
  | cons e es ih =>
    have hle := countP_later_le k es
    simp only [List.countP_cons, decide_eq_true_eq]
    rcases List.mem_cons.1 h with rfl | h
    · simp; omega
    · have := ih h
      split <;> split <;> omega

theorem request_noMore {k : Slack (Site (Pool c))} (hk : k.patience = patience)
    (hr : k.room = fun s => s.pool.space) (s : Site (Pool c)) :
    k.NoMore (request Pool.bare s) s := by
  unfold request
  dsimp only
  split
  · have hle := countP_later_le s.requests s.events
    have : (patience { s with requests := s.requests + 1 }) ≤ s.patience := by
      simp only [patience]
      omega
    rcases Nat.lt_or_eq_of_le this with h | h
    · exact .inl (by rw [hk]; exact h)
    · exact .inr ⟨by rw [hk]; exact h, Nat.le_of_eq (by rw [hr])⟩
  · rename_i act hl
    obtain ⟨l₁, l₂, hs, _⟩ := List.lookup_eq_some_iff.1 hl
    have hlt := countP_later_lt (show (s.requests + 1, act) ∈ s.events by rw [hs]; simp)
    refine .inl ?_
    rw [hk, perform_patience]
    simp only [patience]
    omega

end Site

end EntropySupply
