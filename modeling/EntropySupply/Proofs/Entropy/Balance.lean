import EntropySupply.Proofs.Entropy.Agreement
import EntropySupply.Proofs.Entropy.Budget
import Mathlib.Data.List.DropRight

/-!
# The books of a budget

The books of a run list what is done to a generator: every renewal, with its seed, and everything
that is drawn, with its cost. Main statement: `run_budgeted`, the budget is what the last renewal
was worth less the costs of the entries behind it, and an attempt at a renewal that comes to nothing
has no entry.
-/

namespace EntropySupply

/-- Something that is done to a generator. -/
inductive Entry where
  | renewed (seed : Bytes)
  | drawn (d : Draw)
  /-- A segment of a byte string. -/
  | filled (n : ℕ)
  /-- Something that is drawn by other means. -/
  | paid (bits : Int64)

namespace Entry

def isRenewal : Entry → Bool
  | .renewed _ => true
  | _ => false

def cost : Entry → ℤ
  | .renewed _ => 0
  | .drawn d => d.cost.toInt
  | .filled n => Cost.byte.toInt * n
  | .paid bits => bits.toInt

def spent (log : List Entry) : ℤ := (log.map cost).sum

@[simp] theorem spent_append (log log₁ : List Entry) :
    spent (log ++ log₁) = spent log + spent log₁ := by
  simp [spent]

@[simp] theorem spent_singleton (e : Entry) : spent [e] = e.cost := by
  simp [spent]

/-- The entries up to the last renewal; none if there is no renewal. -/
def settled (log : List Entry) : List Entry := log.rdropWhile fun e => !e.isRenewal

/-- The entries behind the last renewal. -/
def unsettled (log : List Entry) : List Entry := log.rtakeWhile fun e => !e.isRenewal

variable {γ : Type} [Renewable γ]

def advance (g : γ) : Entry → γ
  | .renewed seed => (Renewable.renew g seed).1
  | .drawn d => (d.sample g).2
  | .filled n => (Generator.fill n g).2
  | .paid _ => g

def replay (g : γ) (log : List Entry) : γ := log.foldl advance g

/-- The budget that the entries behind the last renewal are paid out of: what the generator claims
right after that renewal, or the budget at the start if there is none. -/
def basis (t : Tracked γ) (log : List Entry) : Int64 :=
  if settled log = [] then t.entropy else Renewable.claimedBits (replay t.generator (settled log))

/-- The basis less what has been spent behind the last renewal, as an integer of any size. -/
def balance (t : Tracked γ) (log : List Entry) : ℤ := (basis t log).toInt - spent (unsettled log)

def post (t : Tracked γ) (e : Entry) : Tracked γ where
  generator := e.advance t.generator
  entropy :=
    if e.isRenewal then Renewable.claimedBits (e.advance t.generator)
    else t.entropy - Int64.ofInt e.cost

theorem generator_post_all (t : Tracked γ) (log : List Entry) :
    (log.foldl post t).generator = replay t.generator log := by
  induction log generalizing t with
  | nil => rfl
  | cons e log ih => exact ih (post t e)

section Concat

variable {e : Entry} (log : List Entry)

theorem settled_renewal (h : e.isRenewal = true) :
    settled (log ++ [e]) = log ++ [e] ∧ unsettled (log ++ [e]) = [] := by
  simp [settled, unsettled, h]

theorem settled_other (h : e.isRenewal = false) :
    settled (log ++ [e]) = settled log ∧ unsettled (log ++ [e]) = unsettled log ++ [e] := by
  simp [settled, unsettled, h]

end Concat

/-- Posting all entries leaves the balance, up to overflow. -/
theorem entropy_post_all (t : Tracked γ) (log : List Entry) :
    (log.foldl post t).entropy = Int64.ofInt (balance t log) := by
  rw [balance, Int64.ofInt_sub, Int64.ofInt_toInt]
  induction log using List.reverseRecOn with
  | nil => simp [basis, spent, settled, unsettled]
  | append_singleton log e ih =>
    rw [List.foldl_append, List.foldl_cons, List.foldl_nil]
    cases hrenewal : e.isRenewal with
    | true =>
      obtain ⟨hsettled, hunsettled⟩ := settled_renewal log hrenewal
      simp [post, hrenewal, basis, hsettled, hunsettled, spent, generator_post_all, replay]
    | false =>
      obtain ⟨hsettled, hunsettled⟩ := settled_other log hrenewal
      simp only [post, hrenewal, ih, basis, hsettled, hunsettled, spent_append, spent_singleton,
        Int64.ofInt_add]
      grind

end Entry

namespace Managed

open Entry (replay balance)

variable {γ σ : Type} [Renewable γ]

section Books

variable [Journal σ]

/-- A wait for a seed is entered if it does not fail. -/
def waitEntries (ch : Channel σ) (m : Managed γ σ) : List Entry :=
  if (renewWaiting ch m).1 = none then [.renewed (waited ch m).holder] else []

/-- Taking ready bytes is entered if it completes a seed. -/
def readyEntries (ch : Channel σ) (m : Managed γ σ) : List Entry :=
  let m := gather ch.toQueue m
  if m.pending < m.holder.length then [] else [.renewed m.holder]

def ensureEntries (ch : Channel σ) (m : Managed γ σ) (bits : Int64) : List Entry :=
  if m.entropy - bits ≤ m.thresholds.minimum then waitEntries ch m
  else if m.entropy - bits < m.thresholds.desired then readyEntries ch m
  else []

/-- The entries of a byte string: before each of its segments, those of preparing it. -/
def byteEntries (ch : Channel σ) (n : ℕ) (m : Managed γ σ) : List Entry :=
  if n = 0 then []
  else
    let s := nextSegment ch m
    let prepared :=
      if m.spareBytes m.thresholds.desired = 0 then ensureEntries ch m Cost.byte else []
    prepared ++ .filled (min n s.1) :: byteEntries ch (n - min n s.1) (s.2.drawn (min n s.1))
termination_by n
decreasing_by
  have h := nextSegment_pos ch m
  omega

theorem byteEntries_zero (ch : Channel σ) (m : Managed γ σ) : byteEntries ch 0 m = [] := by
  rw [byteEntries.eq_def, if_pos rfl]

theorem byteEntries_pos {ch : Channel σ} {m : Managed γ σ} {n : ℕ} (hn : n ≠ 0) :
    byteEntries ch n m =
      (if m.spareBytes m.thresholds.desired = 0 then ensureEntries ch m Cost.byte else []) ++
        .filled (min n (nextSegment ch m).1) ::
          byteEntries ch (n - min n (nextSegment ch m).1)
            ((nextSegment ch m).2.drawn (min n (nextSegment ch m).1)) := by
  rw [byteEntries.eq_def, if_neg hn]

theorem byteEntries_spare {ch : Channel σ} {m : Managed γ σ} {n : ℕ} (hn : n ≠ 0)
    (hspare : n ≤ m.spareBytes m.thresholds.desired) : byteEntries ch n m = [.filled n] := by
  have hready : m.spareBytes m.thresholds.desired ≠ 0 := by omega
  rw [byteEntries_pos hn, if_neg hready, nextSegment_ready hready]
  simp [Nat.min_eq_left hspare, byteEntries_zero]

def entries (ch : Channel σ) (m : Managed γ σ) : Request σ → List Entry
  | .draw d => if d.empty? = none then ensureEntries ch m d.cost ++ [.drawn d] else []
  | .bytes n => byteEntries ch n m
  | .debit bits => ensureEntries ch m bits ++ [.paid bits]
  | .renewal => waitEntries ch m
  | .outside _ => []

def books (ch : Channel σ) (m : Managed γ σ) : List (Request σ) → List Entry
  | [] => []
  | op :: ops => entries ch m op ++ books ch (m.perform ch op) ops

end Books

/-- The entries `log` are all that lies between two states, as far as the generator, the budget and
the count of the renewals go. -/
structure Posted (m : Managed γ σ) (log : List Entry) (m' : Managed γ σ) : Prop where
  tracked : m'.tracked = log.foldl Entry.post m.tracked
  reseeds : m'.reseeds = m.reseeds + log.countP Entry.isRenewal

variable {m m₁ m' : Managed γ σ} {log log₁ : List Entry}

theorem Posted.none (htracked : m'.tracked = m.tracked) (hreseeds : m'.reseeds = m.reseeds) :
    m.Posted [] m' := ⟨htracked, hreseeds⟩

theorem Posted.append (h : m.Posted log m₁) (h₁ : m₁.Posted log₁ m') :
    m.Posted (log ++ log₁) m' := by
  constructor
  · rw [List.foldl_append, ← h.tracked, h₁.tracked]
  · rw [List.countP_append, ← Nat.add_assoc, ← h.reseeds, h₁.reseeds]

theorem posted_filled (m : Managed γ σ) (n : ℕ) : m.Posted [.filled n] (m.drawn n) := by
  have hcost : Int64.ofInt (Cost.byte.toInt * n) = Cost.bytes n := by
    rw [Int64.ofInt_mul, Int64.ofInt_toInt, Int64.ofInt_eq_ofNat]
    rfl
  constructor
  · simp only [List.foldl_cons, List.foldl_nil, Entry.post, Entry.cost, hcost]
    rfl
  · rfl

theorem posted_paid (m : Managed γ σ) (bits : Int64) :
    m.Posted [.paid bits] { m with tracked := m.tracked.debit bits } := by
  constructor
  · simp only [List.foldl_cons, List.foldl_nil, Entry.post, Entry.cost, Int64.ofInt_toInt]
    rfl
  · rfl

theorem posted_drawn (m : Managed γ σ) (d : Draw) :
    m.Posted [.drawn d]
      { m with tracked := ⟨(d.sample m.tracked.generator).2, m.entropy - d.cost⟩ } := by
  constructor
  · simp only [List.foldl_cons, List.foldl_nil, Entry.post, Entry.cost, Int64.ofInt_toInt]
    rfl
  · rfl

omit [Renewable γ] in
theorem gather_reseeds (q : Queue σ) (m : Managed γ σ) : (gather q m).reseeds = m.reseeds := by
  fun_induction gather q m with
  | case1 m => rfl
  | case2 m hroom p m' hnone => rfl
  | case3 m hroom p m' hsome ih => exact ih

variable [Journal σ] {ch : Channel σ}

theorem posted_renew (m : Managed γ σ) : m.Posted [.renewed m.holder] m.renew := ⟨rfl, rfl⟩

theorem posted_wait (ch : Channel σ) (m : Managed γ σ) :
    m.Posted (waitEntries ch m) (renewWaiting ch m).2 := by
  unfold waitEntries
  cases h : (renewWaiting ch m).1 with
  | none =>
    have hwaited : m.Posted [] (waited ch m) := .none rfl rfl
    rw [if_pos rfl, renewWaiting_none h]
    exact hwaited.append (posted_renew _)
  | some e =>
    obtain ⟨htracked, hreseeds, -⟩ := renewWaiting_failed h
    rw [if_neg (by simp)]
    exact .none htracked hreseeds

theorem posted_ready (ch : Channel σ) (m : Managed γ σ) :
    m.Posted (readyEntries ch m) (renewFromReady ch.toQueue m) := by
  have hgathered : m.Posted [] (gather ch.toQueue m) :=
    .none (gather_frame _ _).1 (gather_reseeds _ _)
  unfold readyEntries
  by_cases hshort : (gather ch.toQueue m).pending < (gather ch.toQueue m).holder.length
  · simp only [if_pos hshort, renewFromReady_short hshort]
    exact hgathered
  · simp only [if_neg hshort, renewFromReady_full hshort]
    exact hgathered.append (posted_renew _)

theorem posted_ensure (ch : Channel σ) (m : Managed γ σ) (bits : Int64) :
    m.Posted (ensureEntries ch m bits) (ensure ch m bits) := by
  unfold ensureEntries
  split_ifs with hforced hready
  · rw [ensure_forced hforced]
    exact posted_wait ch m
  · rw [ensure_ready hforced hready]
    exact posted_ready ch m
  · rw [ensure_ample hforced hready]
    exact .none rfl rfl

/-- Preparing a draw has one entry at most, and that is a renewal. -/
theorem ensureEntries_cases (ch : Channel σ) (m : Managed γ σ) (bits : Int64) :
    ensureEntries ch m bits = [] ∨ ∃ seed, ensureEntries ch m bits = [.renewed seed] := by
  unfold ensureEntries waitEntries readyEntries
  split_ifs
  · exact .inr ⟨_, rfl⟩
  · exact .inl rfl
  · dsimp only
    split_ifs
    · exact .inl rfl
    · exact .inr ⟨_, rfl⟩
  · exact .inl rfl

theorem posted_debit (ch : Channel σ) (m : Managed γ σ) (bits : Int64) :
    m.Posted (ensureEntries ch m bits ++ [.paid bits]) (debit ch m bits) :=
  (posted_ensure ch m bits).append (posted_paid _ bits)

theorem posted_draw (ch : Channel σ) (m : Managed γ σ) {d : Draw} (h : d.empty? = none) :
    m.Posted (ensureEntries ch m d.cost ++ [.drawn d]) (draw ch d m).2 := by
  rw [draw_made h]
  exact (posted_ensure ch m d.cost).append (posted_drawn _ d)

theorem posted_nextSegment (ch : Channel σ) (m : Managed γ σ) :
    m.Posted
      (if m.spareBytes m.thresholds.desired = 0 then ensureEntries ch m Cost.byte else [])
      (nextSegment ch m).2 := by
  by_cases hspare : m.spareBytes m.thresholds.desired = 0
  · rw [if_pos hspare, nextSegment_spent hspare]
    exact posted_ensure ch m Cost.byte
  · rw [if_neg hspare, nextSegment_ready hspare]
    exact .none rfl rfl

theorem posted_bytes (ch : Channel σ) (n : ℕ) (m : Managed γ σ) :
    m.Posted (byteEntries ch n m) (drawBytes ch n m).2 := by
  fun_induction drawBytes ch n m with
  | case1 m =>
    rw [byteEntries_zero]
    exact .none rfl rfl
  | case2 n m hn s size b r ih =>
    rw [byteEntries_pos hn]
    exact (posted_nextSegment ch m).append ((posted_filled s.2 size).append ih)

theorem posted_perform (ch : Channel σ) (m : Managed γ σ) (op : Request σ) :
    m.Posted (entries ch m op) (m.perform ch op) := by
  cases op with
  | draw d =>
    cases hempty : d.empty? with
    | none =>
      simp only [entries, if_pos hempty]
      exact posted_draw ch m hempty
    | some e =>
      simp only [entries, perform, draw, hempty]
      exact .none rfl rfl
  | bytes n => exact posted_bytes ch n m
  | debit bits => exact posted_debit ch m bits
  | renewal => exact posted_wait ch m
  | outside change => exact .none rfl rfl

theorem posted_run (ch : Channel σ) (m : Managed γ σ) (ops : List (Request σ)) :
    m.Posted (books ch m ops) (m.run ch ops) := by
  induction ops generalizing m with
  | nil => exact .none rfl rfl
  | cons op ops ih => exact (posted_perform ch m op).append (ih (m.perform ch op))

/-- What the books of a run say about the state that it leads to, and when an attempt at a renewal
is entered. -/
structure Budgeted (ch : Channel σ) (m : Managed γ σ) (ops : List (Request σ)) : Prop where
  generator : (m.run ch ops).tracked.generator = replay m.tracked.generator (books ch m ops)
  reseeds : (m.run ch ops).reseeds = m.reseeds + (books ch m ops).countP Entry.isRenewal
  /-- So it is unless the balance is too large or too small for a machine integer. -/
  entropy : -2 ^ 63 ≤ balance m.tracked (books ch m ops) →
    balance m.tracked (books ch m ops) < 2 ^ 63 →
    (m.run ch ops).entropy.toInt = balance m.tracked (books ch m ops)
  /-- A wait that fails has no entry. -/
  failed : ∀ (m₁ : Managed γ σ) (e : Interruption), (renewWaiting ch m₁).1 = some e →
    waitEntries ch m₁ = [] ∧ (renewWaiting ch m₁).2.tracked = m₁.tracked
  /-- Preparing a draw has no entry if no seed gets complete. -/
  unfinished : ∀ (m₁ : Managed γ σ) (bits : Int64),
    (ensure ch m₁ bits).reseeds = m₁.reseeds →
    ensureEntries ch m₁ bits = [] ∧ (ensure ch m₁ bits).tracked = m₁.tracked

/-- The budget is at all times what the last renewal was worth, or what there was at the start, less
the costs of everything that has been drawn since. -/
theorem run_budgeted (ch : Channel σ) (m : Managed γ σ) (ops : List (Request σ)) :
    Budgeted ch m ops := by
  have h := posted_run ch m ops
  constructor
  · rw [h.tracked, Entry.generator_post_all]
  · exact h.reseeds
  · intro hlow hhigh
    rw [entropy, h.tracked, Entry.entropy_post_all]
    exact Int64.toInt_ofInt_of_le hlow hhigh
  · intro m₁ e hfail
    constructor
    · simp [waitEntries, hfail]
    · exact (renewWaiting_failed hfail).1
  · intro m₁ bits hsame
    have hposted := posted_ensure ch m₁ bits
    rcases ensureEntries_cases ch m₁ bits with hnone | ⟨seed, hseed⟩
    · rw [hnone] at hposted
      exact ⟨hnone, hposted.tracked⟩
    · -- An entry would be a renewal, and would have been counted.
      have hcount := hposted.reseeds
      rw [hseed, hsame] at hcount
      simp [Entry.isRenewal] at hcount

/-- The first draw calls for a seed, and what it leaves lets ten bytes be drawn at once. -/
theorem run_budgeted_rounding :
    ∃ seed, books (Site.layered []) (rounding 4 false) [.draw .word32, .bytes 10] =
        [.renewed seed, .drawn .word32, .filled 10] ∧
      ((rounding 4 false).run (Site.layered []) [.draw .word32, .bytes 10]).entropy.toInt =
        256 - (32 + 8 * 10) := by
  have hstop : (renewWaiting (Site.layered []) (rounding 4 false)).1 = none :=
    congrArg Prod.fst
      (renewWaiting_enough Pool.bare_pours (quiet_rounding 4 false) rfl (by decide)).1
  have hforced : (rounding 4 false).entropy - Draw.word32.cost ≤
      (rounding 4 false).thresholds.minimum := by decide
  have hrenewed : ensureEntries (Site.layered []) (rounding 4 false) Draw.word32.cost =
      [.renewed (waited (Site.layered []) (rounding 4 false)).holder] :=
    (if_pos hforced).trans (if_pos hstop)
  have hfirst : entries (Site.layered []) (rounding 4 false) (.draw .word32) =
      [.renewed (waited (Site.layered []) (rounding 4 false)).holder, .drawn .word32] := by
    simp only [entries, hrenewed]
    rfl
  obtain ⟨hentropy, hthresholds⟩ :
      ((rounding 4 false).perform (Site.layered []) (.draw .word32)).entropy = 224 ∧
        ((rounding 4 false).perform (Site.layered []) (.draw .word32)).thresholds = {} := by
    rw [perform, draw_made rfl, debit, ensure_forced hforced, renewWaiting_none hstop]
    exact ⟨rfl, rfl⟩
  have hsecond : entries (Site.layered [])
      ((rounding 4 false).perform (Site.layered []) (.draw .word32)) (.bytes 10) =
        [.filled 10] := by
    apply byteEntries_spare (by decide)
    rw [spareBytes, hentropy, hthresholds]
    decide +kernel
  have hbooks : books (Site.layered []) (rounding 4 false) [.draw .word32, .bytes 10] =
      [.renewed (waited (Site.layered []) (rounding 4 false)).holder, .drawn .word32,
        .filled 10] := by
    simp [books, hfirst, hsecond]
  have h := (run_budgeted (Site.layered []) (rounding 4 false) [.draw .word32, .bytes 10]).entropy
  rw [hbooks] at h
  exact ⟨_, hbooks, h (by decide) (by decide)⟩

end Managed

end EntropySupply
