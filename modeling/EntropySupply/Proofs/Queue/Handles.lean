import EntropySupply.Proofs.Queue.Conservation
import EntropySupply.Proofs.Queue.Transfers
import EntropySupply.Proofs.Queue.Transparency

/-!
# Writing through a handle

A write through a handle that does not own the queue looks whether the queue is closed before each
attempt, and an owner's write only after an attempt that was refused. Main statement: `feed_agrees`,
they write the same bytes and leave the same ring and the same plans of the others behind, as long
as the queue stays there. Both wait at an open queue only, so an owner's vain attempt at a closed
one costs the others nothing.
-/

namespace EntropySupply

namespace Channel

variable {σ : Type} {ch : Channel σ} {Good : σ → Prop} {Alike : σ → σ → Prop}

/-- A channel on whose good states a closed queue takes nothing and stays closed, up to what `Alike`
overlooks, and on which a queue that is gone stays gone. -/
structure Closable (ch : Channel σ) (Good : σ → Prop) (Alike : σ → σ → Prop) : Prop where
  good : ch.Preserves Good
  gone : ch.Preserves fun s => ch.reachable s = false
  refl : ∀ s, Alike s s
  refuses : ∀ {s} (src), Good s → ch.isClosed s = true → (ch.offer s src).count = 0
  waits : ∀ {s} (src), Good s → ch.isClosed s = true →
    ch.isClosed (ch.await (ch.offer s src).state) = true ∧
      Alike (ch.await (ch.offer s src).state) s

/-- The two ways of writing agree, and differ in their states only by the attempt that an owner
makes at a queue that was closed from the start. -/
theorem Closable.feedFrom (h : ch.Closable Good Alike) (moved : ℕ) {s : σ} (rest : Bytes)
    (hs : Good s) (hkept : ch.reachable (ch.writeFrom moved s rest).state = true) :
    (ch.feedFrom moved s rest).count =
        movedUntil (moved + rest.length) (ch.writeFrom moved s rest).stopped ∧
      Alike (ch.writeFrom moved s rest).state (ch.feedFrom moved s rest).state := by
  fun_induction ch.writeFrom moved s rest with
  | case1 moved s =>
    rw [feedFrom_stop (.inl rfl)]
    exact ⟨rfl, h.refl s⟩
  | case2 moved s rest hrest hc =>
    rw [feedFrom_stop (.inr (.inl hc))]
    exact ⟨rfl, h.refl s⟩
  | case3 moved s rest hrest hc m hm s' ho =>
    have hu : ¬ch.reachable s = false := by
      intro hu
      exact Bool.false_ne_true ((h.gone.await (h.gone.offer rest hu)).symm.trans hkept)
    by_cases hclosed : ch.isClosed s = true
    · rw [feedFrom_stop (.inr (.inr (.inr hclosed)))]
      exact ⟨rfl, (h.waits rest hs hclosed).2⟩
    · have hcall : ch.offer s rest = ⟨0, m.state⟩ := by rw [← hm]
      rw [feedFrom_refused hrest hc hu hclosed hcall,
        feedFrom_stop (.inr (.inr (.inr ho)))]
      exact ⟨rfl, h.refl _⟩
  | case4 moved s rest hrest hc m hm s' ho ih =>
    have hu : ¬ch.reachable s = false := by
      intro hu
      have hlast := h.gone.writeFrom moved rest (h.gone.await (h.gone.offer rest hu))
      exact Bool.false_ne_true (hlast.symm.trans hkept)
    have hclosed : ¬ch.isClosed s = true := fun hclosed => ho (h.waits rest hs hclosed).1
    have hcall : ch.offer s rest = ⟨0, m.state⟩ := by rw [← hm]
    rw [feedFrom_refused hrest hc hu hclosed hcall]
    exact ih (h.good.await (h.good.offer rest hs)) hkept
  | case5 moved s rest hrest hc m hm ih =>
    have hu : ¬ch.reachable s = false := by
      intro hu
      have hlast := h.gone.writeFrom (moved + m.count) (rest.drop m.count) (h.gone.offer rest hu)
      exact Bool.false_ne_true (hlast.symm.trans hkept)
    have hclosed : ¬ch.isClosed s = true := fun hclosed => hm (h.refuses rest hs hclosed)
    have hle : m.count ≤ rest.length := ch.offer_le s rest
    obtain ⟨hcount, hstate⟩ := ih (h.good.offer rest hs) hkept
    rw [feedFrom_moved hrest hc hu hclosed rfl (Nat.pos_of_ne_zero hm)]
    rw [List.length_drop, show moved + m.count + (rest.length - m.count) = moved + rest.length by
      omega] at hcount
    exact ⟨hcount, hstate⟩

end Channel

namespace Pool

variable {c : Capacity} {q : Queue (Pool c)} {p : Pool c}

theorem Pours.offer_closed (hq : Pours q) (hp : p.ring.Sound [] []) (hclosed : p.ring.closed = true)
    (src : Bytes) : (q.offer p src).count = 0 ∧ (q.offer p src).state.ring = p.ring := by
  have hput := hq.offer src hp
  have hcount : (q.offer p src).count = 0 := by
    have hroom := hput.le_room
    rw [Ring.room, if_pos hclosed] at hroom
    exact Nat.le_zero.mp hroom
  refine ⟨hcount, ?_⟩
  rw [hput.ring_eq, hcount, List.take_zero, Ring.push_nil]

end Pool

namespace Site

variable {σ : Type} {q others : Queue σ} {s : Site σ}

theorem acted_closed (h : q.isClosed s.pool = true) : acted q others s = ([], []) := if_pos h

theorem abandoned_await (h : s.abandoned = true) : (await q others s).abandoned = true := by
  unfold await
  split_ifs with hclosed
  · exact h
  · cases hsched : s.schedule with
    | nil => exact h
    | cons act rest =>
      cases act with
      | idle times =>
        dsimp only
        split_ifs
        · exact h
        · exact h
      | abandon => rfl
      | _ => exact h

end Site

namespace Recorded

variable {c : Capacity} {q : Queue (Pool c)}

/-- Recordings of the same calls at sites that differ in what the layers have noted only. -/
def Alike (r r₁ : Recorded (Site (Pool c))) : Prop :=
  r₁ = { r with state := r₁.state } ∧ r₁.state.ringed = r.state.ringed

theorem closable_channel (hq : Pool.Pours q) :
    (channel q).Closable (fun r => r.state.pool.ring.Sound [] []) Alike where
  good :=
    { offer := fun src hr => (hq.offer src hr).quiet hr
      poll := fun dst hr => (hq.poll dst hr).quiet hr
      await := fun hr => (Site.await_ringed hq rfl hr).2 }
  gone :=
    { offer := fun _ hr => hr
      poll := fun _ hr => hr
      await := by
        intro r hr
        have hgone : (!r.state.abandoned) = false := hr
        have habandoned : r.state.abandoned = true := by simpa using hgone
        exact congrArg not (Site.abandoned_await habandoned) }
  refl _ := ⟨rfl, rfl⟩
  refuses := by
    intro r src hr hclosed
    have hring : r.state.pool.ring.closed = true := (hq.isClosed _).symm.trans hclosed
    exact (hq.offer_closed hr hring src).1
  waits := by
    intro r src hr hclosed
    have hring : r.state.pool.ring.closed = true := (hq.isClosed _).symm.trans hclosed
    obtain ⟨hcount, hsame⟩ := hq.offer_closed hr hring src
    have hstill : q.isClosed (q.offer r.state.pool src).state = true := by
      rw [hq.isClosed, hsame]
      exact hring
    have hawait : (channel q).await ((channel q).offer r src).state =
        { r with state := { r.state with pool := (q.offer r.state.pool src).state } } := by
      simp only [channel, Channel.recorded, Site.channel, Site.queue]
      rw [Site.await_closed hstill, Site.acted_closed hstill, hcount]
      simp only [List.take_zero, List.append_nil]
    rw [hawait]
    refine ⟨hstill, rfl, ?_⟩
    simp only [Site.ringed, hsame]

section Projection

variable (q : Queue (Pool c)) (r : Recorded (Site (Pool c))) (src : Bytes)

theorem write_channel :
    ((channel q).write r src).stopped = ((Site.channel q Pool.bare).write r.state src).stopped ∧
      ((channel q).write r src).state.state =
        ((Site.channel q Pool.bare).write r.state src).state :=
  Channel.writeFrom_recorded _ _ 0 r src

theorem feed_channel :
    ((channel q).feed r src).count = ((Site.channel q Pool.bare).feed r.state src).count ∧
      ((channel q).feed r src).state.state = ((Site.channel q Pool.bare).feed r.state src).state :=
  Channel.feedFrom_recorded _ _ 0 r src

theorem write_sent :
    ((channel q).write r src).state.sent =
      r.sent ++ src.take (Channel.movedUntil src.length ((channel q).write r src).stopped) := by
  obtain ⟨n, hsent, hmoved⟩ :=
    Channel.writeFrom_sent (Site.channel q Pool.bare) (Site.acted q Pool.bare) 0 r src
  rw [Nat.zero_add, Nat.zero_add] at hmoved
  rw [show Channel.movedUntil src.length ((channel q).write r src).stopped = n from hmoved]
  exact hsent.sent

end Projection

end Recorded

namespace Site

variable {c : Capacity} {s : Site (Pool c)}

/-- Writing `src` through a handle is writing it as an owner: a count instead of a complaint. -/
structure FeedAgrees (q : Queue (Pool c)) (s : Site (Pool c)) (src : Bytes) : Prop where
  ringed : ((channel q Pool.bare).feed s src).state.ringed =
    ((channel q Pool.bare).write s src).state.ringed
  full_iff : ((channel q Pool.bare).feed s src).count = src.length ↔
    ((channel q Pool.bare).write s src).stopped = none
  short : ∀ e, ((channel q Pool.bare).write s src).stopped = some e →
    ((channel q Pool.bare).feed s src).count = e.transferred
  /-- The owner's write has the bytes accepted that were counted. -/
  sent : ((Recorded.channel q).write { state := s } src).state.sent =
    src.take ((channel q Pool.bare).feed s src).count
  /-- All bytes that the two writes and the others move are the same, too. -/
  recorded : ((Recorded.channel q).feed { state := s } src).state =
    { ((Recorded.channel q).write { state := s } src).state with
      state := ((channel q Pool.bare).feed s src).state }

theorem FeedAgrees.of_pours {q : Queue (Pool c)} (hq : Pool.Pours q) (hs : s.pool.ring.Sound [] [])
    (src : Bytes) (hkept : ((channel q Pool.bare).write s src).state.abandoned = false) :
    FeedAgrees q s src := by
  obtain ⟨hstopped, hwrite⟩ := Recorded.write_channel q { state := s } src
  obtain ⟨hcount, hfeed⟩ := Recorded.feed_channel q { state := s } src
  have hreach : (Recorded.channel q).reachable
      ((Recorded.channel q).write { state := s } src).state = true := by
    change (!((Recorded.channel q).write { state := s } src).state.state.abandoned) = true
    rw [hwrite, hkept]
    rfl
  obtain ⟨hagree, hsame, hringed⟩ := (Recorded.closable_channel hq).feedFrom 0 src hs hreach
  have hmoved : ((channel q Pool.bare).feed s src).count =
      Channel.movedUntil src.length ((channel q Pool.bare).write s src).stopped := by
    rw [← hcount, ← hstopped, ← Nat.zero_add src.length]
    exact hagree
  constructor
  · rw [← hfeed, ← hwrite]
    exact hringed
  · rw [hmoved]
    cases hend : ((channel q Pool.bare).write s src).stopped with
    | none => exact ⟨fun _ => rfl, fun _ => rfl⟩
    | some e =>
      have hshort := (channel q Pool.bare).writeFrom_short 0 s src hend
      rw [Nat.zero_add] at hshort
      exact ⟨fun h => absurd h hshort.ne, fun h => absurd h (Option.some_ne_none e)⟩
  · intro e he
    rw [hmoved, he]
    rfl
  · rw [hmoved, ← hstopped]
    exact Recorded.write_sent q { state := s } src
  · rw [← hfeed]
    exact hsame

/-- Others who will not give the queue up. -/
def Loyal (s : Site (Pool c)) : Prop := s.abandoned = false ∧ Act.abandon ∉ s.schedule

theorem preserves_loyal (q : Queue (Pool c)) : (channel q Pool.bare).Preserves Loyal where
  offer _ hs := hs
  poll _ hs := hs
  await := by
    rintro s ⟨habandoned, hacts⟩
    change Loyal (await q Pool.bare s)
    unfold await
    split_ifs with hclosed
    · exact ⟨habandoned, hacts⟩
    · cases hsched : s.schedule with
      | nil => exact ⟨habandoned, List.not_mem_nil⟩
      | cons act rest =>
        rw [hsched, List.mem_cons, not_or] at hacts
        cases act with
        | idle times =>
          dsimp only
          split_ifs
          · exact ⟨habandoned, hacts.2⟩
          · exact ⟨habandoned, by simpa using hacts.2⟩
        | abandon => exact absurd rfl hacts.1
        | _ => exact ⟨habandoned, hacts.2⟩

/-- A ring of four bytes that is closed while a writer waits. -/
def besieged : Site (Pool .four) where
  pool := .ofRing (.empty _ .abandon) []
  schedule := [.idle 2, .poll 3, .offer [9], .close, .poll 1]

end Site

end EntropySupply
