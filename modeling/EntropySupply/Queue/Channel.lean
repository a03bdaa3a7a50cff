import EntropySupply.Interruption
import EntropySupply.Queue.Basic

/-!
# Channels

A channel is a queue together with what happens around it while a transfer waits: whether the
transfer has been called off, whether the queue is still there, and what others do after an attempt
that moved nothing. Others act only finitely often before they close the queue or call the transfer
off; `patience` counts how often at most. So every blocking transfer ends, and no bound on its
attempts appears in its definition.
-/

namespace EntropySupply

structure Channel (σ : Type) extends Queue σ where
  /-- Whether the transfers on the channel have been called off. -/
  cancelled : σ → Bool
  /-- Whether the queue can still be reached through a handle that does not own it. -/
  reachable : σ → Bool
  /-- What others do while a transfer waits after an attempt that moved nothing. -/
  await : σ → σ
  patience : σ → Nat
  offer_settles : ∀ s src, src ≠ [] → cancelled s = false → (offer s src).count = 0 →
    isClosed (await (offer s src).state) = true ∨ cancelled (await (offer s src).state) = true ∨
      patience (await (offer s src).state) < patience s
  poll_settles : ∀ s dst, dst ≠ [] → cancelled s = false → (poll s dst).count = 0 →
    isClosed (await (poll s dst).state) = true ∨ cancelled (await (poll s dst).state) = true ∨
      patience (await (poll s dst).state) < patience s

/-- What a blocking write did: why it stopped early, if it did, and the state after it. -/
structure Sent (σ : Type) where
  stopped : Option Interruption
  state : σ

/-- What a blocking read did: why it stopped early, if it did, what its buffer holds then, and the
state after it. -/
structure Received (σ : Type) where
  stopped : Option Interruption
  buffer : Bytes
  state : σ

namespace Channel

variable {σ : Type}

/-- An upper bound on the refused attempts that a blocking transfer makes from here. -/
def refusalsLeft (ch : Channel σ) (s : σ) : Nat := if ch.cancelled s then 0 else ch.patience s + 1

def refusalsLeftOpen (ch : Channel σ) (s : σ) : Nat :=
  if ch.isClosed s then 0 else ch.refusalsLeft s

theorem refusalsLeft_lt {ch : Channel σ} {s s₁ : σ} (hc : ch.cancelled s = false)
    (hp : ch.isClosed s₁ = true ∨ ch.cancelled s₁ = true ∨ ch.patience s₁ < ch.patience s)
    (ho : ch.isClosed s₁ ≠ true) : ch.refusalsLeft s₁ < ch.refusalsLeft s := by
  unfold refusalsLeft
  rcases hp with hp | hp | hp
  · exact absurd hp ho
  · simp [hp, hc]
  · rw [hc]
    split
    · exact Nat.succ_pos _
    · exact Nat.succ_lt_succ hp

theorem refusalsLeftOpen_lt {ch : Channel σ} {s s₁ : σ} (hc : ch.cancelled s = false)
    (ho : ch.isClosed s ≠ true)
    (hp : ch.isClosed s₁ = true ∨ ch.cancelled s₁ = true ∨ ch.patience s₁ < ch.patience s) :
    ch.refusalsLeftOpen s₁ < ch.refusalsLeftOpen s := by
  unfold refusalsLeftOpen
  rw [if_neg ho]
  split
  · simp [refusalsLeft, hc]
  · rename_i h
    exact refusalsLeft_lt hc hp h

def writeFrom (ch : Channel σ) (moved : Nat) (s : σ) (rest : Bytes) : Sent σ :=
  if _ : rest = [] then ⟨none, s⟩
  else if _ : ch.cancelled s then ⟨some (.cancelled moved), s⟩
  else
    let m := ch.offer s rest
    if _ : m.count = 0 then
      let s := ch.await m.state
      if _ : ch.isClosed s then ⟨some (.closed moved), s⟩ else writeFrom ch moved s rest
    else writeFrom ch (moved + m.count) m.state (rest.drop m.count)
termination_by (rest.length, ch.refusalsLeft s)
decreasing_by
  · exact Prod.Lex.right _ (refusalsLeft_lt (by simp_all) (ch.offer_settles _ _ ‹_› (by simp_all) ‹_›) ‹_›)
  · have : rest.length ≠ 0 := by simpa using ‹¬rest = []›
    have : ¬(ch.offer s rest).count = 0 := ‹_›
    apply Prod.Lex.left
    rw [List.length_drop]
    omega

/-- Writes all of `src`, waiting as often as it takes, unless the queue turns out to be closed or
the transfer is called off. -/
def write (ch : Channel σ) (s : σ) (src : Bytes) : Sent σ := ch.writeFrom 0 s src

def readFrom (ch : Channel σ) (moved : Nat) (s : σ) (rest : Bytes) : Received σ :=
  if _ : rest = [] then ⟨none, rest, s⟩
  else if _ : ch.cancelled s then ⟨some (.cancelled moved), rest, s⟩
  else
    let m := ch.poll s rest
    if _ : m.count = 0 then
      let s := ch.await m.state
      if _ : ch.isClosed s then ⟨some (.closed moved), m.buffer, s⟩
      else readFrom ch moved s m.buffer
    else
      let r := readFrom ch (moved + m.count) m.state (m.buffer.drop m.count)
      ⟨r.stopped, m.buffer.take m.count ++ r.buffer, r.state⟩
termination_by (rest.length, ch.refusalsLeft s)
decreasing_by
  · rw [ch.poll_length]
    exact Prod.Lex.right _ (refusalsLeft_lt (by simp_all) (ch.poll_settles _ _ ‹_› (by simp_all) ‹_›) ‹_›)
  · have : rest.length ≠ 0 := by simpa using ‹¬rest = []›
    have : ¬(ch.poll s rest).count = 0 := ‹_›
    apply Prod.Lex.left
    rw [List.length_drop, ch.poll_length]
    omega

/-- Fills all of `dst`, waiting as often as it takes, unless the queue turns out to be closed and
empty or the transfer is called off. -/
def read (ch : Channel σ) (s : σ) (dst : Bytes) : Received σ := ch.readFrom 0 s dst

/-- Writes the rest of a source of which `moved` bytes have been written, for as long as the queue
is there and open. -/
def feedFrom (ch : Channel σ) (moved : Nat) (s : σ) (rest : Bytes) : Accepted σ :=
  if _ : rest = [] then ⟨moved, s⟩
  else if _ : ch.cancelled s then ⟨moved, s⟩
  else if ch.reachable s = false then ⟨moved, s⟩
  else if _ : ch.isClosed s then ⟨moved, s⟩
  else
    let m := ch.offer s rest
    if _ : m.count = 0 then feedFrom ch moved (ch.await m.state) rest
    else feedFrom ch (moved + m.count) m.state (rest.drop m.count)
termination_by (rest.length, ch.refusalsLeftOpen s)
decreasing_by
  · exact Prod.Lex.right _ (refusalsLeftOpen_lt (by simp_all) ‹_› (ch.offer_settles _ _ ‹_› (by simp_all) ‹_›))
  · have : rest.length ≠ 0 := by simpa using ‹¬rest = []›
    have : ¬(ch.offer s rest).count = 0 := ‹_›
    apply Prod.Lex.left
    rw [List.length_drop]
    omega

/-- Writes `src` through a handle that does not own the queue, and stops without an error when the
queue is gone or closed or the transfer is called off. Says how many bytes were written. -/
def feed (ch : Channel σ) (s : σ) (src : Bytes) : Accepted σ := ch.feedFrom 0 s src

section Attempts

variable {ch : Channel σ} {moved n : Nat} {s s₁ : σ} {rest b : Bytes}

theorem writeFrom_nil (ch : Channel σ) (moved : Nat) (s : σ) :
    ch.writeFrom moved s [] = ⟨none, s⟩ := by
  rw [writeFrom.eq_def, dif_pos rfl]

theorem writeFrom_cancelled (hrest : rest ≠ []) (hc : ch.cancelled s = true) :
    ch.writeFrom moved s rest = ⟨some (.cancelled moved), s⟩ := by
  rw [writeFrom.eq_def, dif_neg hrest, dif_pos hc]

theorem writeFrom_refused (hrest : rest ≠ []) (hc : ¬ch.cancelled s = true)
    (hm : ch.offer s rest = ⟨0, s₁⟩) :
    ch.writeFrom moved s rest =
      if ch.isClosed (ch.await s₁) then ⟨some (.closed moved), ch.await s₁⟩
      else ch.writeFrom moved (ch.await s₁) rest := by
  rw [writeFrom.eq_def, dif_neg hrest, dif_neg hc]
  simp only [hm, dif_pos]
  rfl

theorem writeFrom_moved (hrest : rest ≠ []) (hc : ¬ch.cancelled s = true)
    (hm : ch.offer s rest = ⟨n, s₁⟩) (hn : 0 < n) :
    ch.writeFrom moved s rest = ch.writeFrom (moved + n) s₁ (rest.drop n) := by
  rw [writeFrom.eq_def, dif_neg hrest, dif_neg hc]
  simp only [hm, dif_neg (Nat.ne_of_gt hn)]

theorem feedFrom_stop
    (h : rest = [] ∨ ch.cancelled s = true ∨ ch.reachable s = false ∨ ch.isClosed s = true) :
    ch.feedFrom moved s rest = ⟨moved, s⟩ := by
  rw [feedFrom.eq_def]
  split
  · rfl
  split
  · rfl
  split
  · rfl
  split
  · rfl
  · simp_all

theorem feedFrom_refused (hrest : rest ≠ []) (hc : ¬ch.cancelled s = true)
    (hu : ¬ch.reachable s = false) (ho : ¬ch.isClosed s = true) (hm : ch.offer s rest = ⟨0, s₁⟩) :
    ch.feedFrom moved s rest = ch.feedFrom moved (ch.await s₁) rest := by
  rw [feedFrom.eq_def, dif_neg hrest, dif_neg hc, if_neg hu, dif_neg ho]
  simp only [hm, dif_pos]

theorem feedFrom_moved (hrest : rest ≠ []) (hc : ¬ch.cancelled s = true)
    (hu : ¬ch.reachable s = false) (ho : ¬ch.isClosed s = true) (hm : ch.offer s rest = ⟨n, s₁⟩)
    (hn : 0 < n) : ch.feedFrom moved s rest = ch.feedFrom (moved + n) s₁ (rest.drop n) := by
  rw [feedFrom.eq_def, dif_neg hrest, dif_neg hc, if_neg hu, dif_neg ho]
  simp only [hm, dif_neg (Nat.ne_of_gt hn)]

theorem readFrom_nil (ch : Channel σ) (moved : Nat) (s : σ) :
    ch.readFrom moved s [] = ⟨none, [], s⟩ := by
  rw [readFrom.eq_def, dif_pos rfl]

theorem readFrom_cancelled (hrest : rest ≠ []) (hc : ch.cancelled s = true) :
    ch.readFrom moved s rest = ⟨some (.cancelled moved), rest, s⟩ := by
  rw [readFrom.eq_def, dif_neg hrest, dif_pos hc]

theorem readFrom_refused (hrest : rest ≠ []) (hc : ¬ch.cancelled s = true)
    (hm : ch.poll s rest = ⟨0, b, s₁⟩) :
    ch.readFrom moved s rest =
      if ch.isClosed (ch.await s₁) then ⟨some (.closed moved), b, ch.await s₁⟩
      else ch.readFrom moved (ch.await s₁) b := by
  rw [readFrom.eq_def, dif_neg hrest, dif_neg hc]
  simp only [hm, dif_pos]
  rfl

theorem readFrom_moved (hrest : rest ≠ []) (hc : ¬ch.cancelled s = true)
    (hm : ch.poll s rest = ⟨n, b, s₁⟩) (hn : 0 < n) :
    ch.readFrom moved s rest =
      let r := ch.readFrom (moved + n) s₁ (b.drop n)
      ⟨r.stopped, b.take n ++ r.buffer, r.state⟩ := by
  rw [readFrom.eq_def, dif_neg hrest, dif_neg hc]
  simp only [hm, dif_neg (Nat.ne_of_gt hn)]

end Attempts

/-- Such a write stops short only when it is called off or the queue is gone or closed. -/
theorem feedFrom_stops (ch : Channel σ) (moved : Nat) (s : σ) (rest : Bytes)
    (h : (ch.feedFrom moved s rest).count ≠ moved + rest.length) :
    ch.cancelled (ch.feedFrom moved s rest).state = true ∨
      ch.reachable (ch.feedFrom moved s rest).state = false ∨
        ch.isClosed (ch.feedFrom moved s rest).state = true := by
  fun_induction ch.feedFrom moved s rest with
  | case1 => exact absurd rfl h
  | case2 moved s rest hr hc => exact .inl hc
  | case3 moved s rest hr hc hu => exact .inr (.inl hu)
  | case4 moved s rest hr hc hu ho => exact .inr (.inr ho)
  | case5 moved s rest hr hc hu ho m h0 ih => exact ih h
  | case6 moved s rest hr hc hu ho m h0 ih =>
    have hle : m.count ≤ rest.length := ch.offer_le s rest
    have hd : (rest.drop m.count).length = rest.length - m.count := List.length_drop
    refine ih fun hall => h ?_
    omega

end Channel

end EntropySupply
