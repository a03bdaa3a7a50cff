import EntropySupply.Generator.Playback
import EntropySupply.Proofs.Entropy.Chronicle
import EntropySupply.Proofs.Queue.Transfers
import EntropySupply.Queue.Room

/-!
# Seeds and the bytes they are made of

Seed bytes reach a managed generator in three ways: ready bytes are taken a poll at a time, a wait
takes what is missing, and a wait that is interrupted leaves what it got. All of them go into one
holder behind the bytes that are there. Main statement: after any requests the seeds applied so far,
and the bytes held for the next one behind them, are exactly the bytes that the channel delivered.
-/

namespace EntropySupply

def Request.recorded {σ : Type} (op : Request σ) : Request (Recorded σ) :=
  op.under fun change r => { r with state := change r.state }

namespace Managed

variable {γ σ : Type}

def chronicled (m : Managed γ σ) : Managed (Chronicled γ) (Recorded σ) :=
  m.map (fun g => { generator := g }) fun s => { state := s }

def erased (m : Managed (Chronicled γ) (Recorded σ)) : Managed γ σ :=
  m.map Chronicled.generator Recorded.state

def seeds (m : Managed (Chronicled γ) σ) : List Bytes := m.tracked.generator.seeds

/-- Seeds of `size` bytes and the pending bytes behind them are what has been delivered. -/
structure Gathered (size : ℕ) (m : Managed (Chronicled γ) (Recorded σ)) : Prop where
  length_eq : m.holder.length = size
  le : m.pending ≤ size
  conserved : m.seeds.flatten ++ m.holder.take m.pending = m.site.got
  whole : ∀ seed ∈ m.seeds, seed.length = size
  count : m.reseeds = m.seeds.length

/-- Between two requests the seed that is being gathered lacks a byte, unless seeds are empty. -/
structure Harvested (size : ℕ) (m : Managed (Chronicled γ) (Recorded σ)) : Prop
    extends Gathered size m where
  lacking : m.pending < size ∨ m.pending = 0 ∧ size = 0

variable {size : ℕ} {m : Managed (Chronicled γ) (Recorded σ)}

theorem harvested_new [Renewable γ] {g : γ} {initial : Option Int64} {t : Thresholds} {s : σ}
    {m : Managed γ σ} (hnew : new g initial t s = .ok m) :
    Harvested (Renewable.seedBytes g) m.chronicled := by
  obtain ⟨-, rfl⟩ := of_new_eq_ok hnew
  refine ⟨⟨List.length_replicate, Nat.zero_le _, rfl, ?_, rfl⟩, ?_⟩
  · intro seed hmem
    cases hmem
  · exact (Nat.eq_zero_or_pos (Renewable.seedBytes g)).symm.imp id fun h0 => ⟨rfl, h0⟩

theorem Gathered.receive (h : Gathered size m) {r : Recorded σ} {buffer : Bytes} {n : ℕ}
    (hlen : buffer.length = (m.holder.drop m.pending).length) (hn : n ≤ buffer.length)
    (hgot : r.got = m.site.got ++ buffer.take n) {m' : Managed (Chronicled γ) (Recorded σ)}
    (hm' : m' = { m with site := r, holder := m.holder.take m.pending ++ buffer
                         pending := m.pending + n }) : Gathered size m' := by
  subst hm'
  have hle := h.le
  have hlength := h.length_eq
  have hfront : (m.holder.take m.pending).length = m.pending := by
    rw [List.length_take]
    omega
  rw [List.length_drop] at hlen
  refine ⟨?_, ?_, ?_, h.whole, h.count⟩
  · rw [List.length_append]
    omega
  · show m.pending + n ≤ size
    omega
  · change m.seeds.flatten ++ (m.holder.take m.pending ++ buffer).take (m.pending + n) = r.got
    rw [hgot, ← h.conserved, List.take_append, hfront, Nat.add_sub_cancel_left,
      List.take_of_length_le (by omega), List.append_assoc]

theorem Gathered.gather (h : Gathered size m) (ch : Channel σ) :
    Gathered size (gather ch.chronicled.toQueue m) := by
  fun_induction Managed.gather ch.chronicled.toQueue m with
  | case1 m => exact h
  | case2 m hroom p m' hnone =>
    exact h.receive (ch.chronicled.poll_length _ _)
      ((ch.chronicled.poll_le _ _).trans (ch.chronicled.poll_length _ _).ge) rfl rfl
  | case3 m hroom p m' hsome ih =>
    exact ih (h.receive (ch.chronicled.poll_length _ _)
      ((ch.chronicled.poll_le _ _).trans (ch.chronicled.poll_length _ _).ge) rfl rfl)

theorem Harvested.spend (h : Harvested size m) {t : Tracked (Chronicled γ)}
    (ht : t.generator.seeds = m.seeds) : Harvested size { m with tracked := t } := by
  have hseeds : ({ m with tracked := t } : Managed (Chronicled γ) (Recorded σ)).seeds =
      m.seeds := ht
  refine ⟨⟨h.length_eq, h.le, ?_, ?_, ?_⟩, h.lacking⟩
  · rw [hseeds]
    exact h.conserved
  · rw [hseeds]
    exact h.whole
  · rw [hseeds]
    exact h.count

/-- What the others do leaves alone what has been delivered. -/
theorem Harvested.outside (h : Harvested size m) (s : σ) :
    Harvested size { m with site := { m.site with state := s } } :=
  ⟨⟨h.length_eq, h.le, h.conserved, h.whole, h.count⟩, h.lacking⟩

variable [Journal σ] [Renewable γ]

theorem Gathered.renew (h : Gathered size m) (hfull : m.pending = size) :
    Harvested size m.renew := by
  have hholder : m.holder.take m.pending = m.holder :=
    List.take_of_length_le (h.length_eq.trans hfull.symm).le
  have hseeds : m.renew.seeds = m.seeds ++ [m.holder] := rfl
  refine ⟨⟨?_, Nat.zero_le _, ?_, ?_, ?_⟩, ?_⟩
  · exact (List.length_replicate ..).trans h.length_eq
  · have hnoted := noteAll_recorded (Renewable.renew m.tracked.generator m.holder).2 m.site
    have hgot : m.renew.site.got = m.site.got := (congrArg Recorded.got hnoted :)
    rw [hgot, hseeds, List.flatten_append, List.flatten_singleton, ← h.conserved, hholder]
    exact List.append_nil _
  · intro seed hmem
    rw [hseeds] at hmem
    rcases List.mem_append.mp hmem with hold | hnew
    · exact h.whole seed hold
    · rw [List.mem_singleton.mp hnew]
      exact h.length_eq
  · rw [hseeds, List.length_append, ← h.count]
    rfl
  · rcases Nat.eq_zero_or_pos size with h0 | hpos
    · exact .inr ⟨rfl, h0⟩
    · exact .inl hpos

theorem Gathered.renewFromReady (h : Gathered size m) (ch : Channel σ) :
    Harvested size (renewFromReady ch.chronicled.toQueue m) := by
  have hg := h.gather ch
  have hlength := hg.length_eq
  by_cases hshort : (Managed.gather ch.chronicled.toQueue m).pending <
      (Managed.gather ch.chronicled.toQueue m).holder.length
  · rw [renewFromReady_short hshort]
    exact ⟨hg, .inl (by omega)⟩
  · rw [renewFromReady_full hshort]
    have hle := hg.le
    exact hg.renew (by omega)

theorem Gathered.renewWaiting (h : Gathered size m) (ch : Channel σ) :
    Harvested size (renewWaiting ch.chronicled m).2 := by
  have hle := h.le
  have hlength := h.length_eq
  have hrest : (m.holder.drop m.pending).length = size - m.pending := by
    rw [List.length_drop, hlength]
  obtain ⟨n, hn, hmoved⟩ :=
    Channel.readFrom_got ch (fun _ => ([], [])) 0 m.site (m.holder.drop m.pending)
  rw [Nat.zero_add, Nat.zero_add] at hmoved
  have hreceived : Gathered size { waited ch.chronicled m with pending := m.pending + n } :=
    h.receive hn.length (hn.le.trans hn.length.ge) hn.got rfl
  have hfst := renewWaiting_fst ch.chronicled m
  -- How the wait ended says how many of the missing bytes came: all, or those before the failure.
  cases hstop : (Managed.renewWaiting ch.chronicled m).1 with
  | none =>
    rw [hstop] at hfst
    have hall : n = (m.holder.drop m.pending).length := by
      rw [← hmoved]
      exact congrArg (Channel.movedUntil _) hfst.symm
    rw [renewWaiting_none hstop]
    exact hreceived.renew (by
      change m.pending + n = size
      omega)
  | some e =>
    rw [hstop] at hfst
    have htransferred : n = e.transferred := by
      rw [← hmoved]
      exact congrArg (Channel.movedUntil _) hfst.symm
    have hshort := ch.chronicled.readFrom_short 0 m.site _ hfst.symm
    rw [renewWaiting_some hstop]
    rw [htransferred] at hreceived
    refine ⟨⟨hreceived.length_eq, hreceived.le, hreceived.conserved, hreceived.whole,
      hreceived.count⟩, .inl ?_⟩
    change m.pending + e.transferred < size
    omega

theorem Harvested.ensure (h : Harvested size m) (ch : Channel σ) (bits : Int64) :
    Harvested size (ensure ch.chronicled m bits) := by
  rcases ensure_cases ch.chronicled m bits with ⟨-, heq⟩ | ⟨-, heq | heq⟩
  · rw [heq]
    exact h.renewWaiting ch
  · rw [heq]
    exact h.renewFromReady ch
  · rw [heq]
    exact h

theorem keeps_seeds (seeds : List Bytes) :
    Generator.Keeps fun g : Chronicled γ => g.seeds = seeds where
  next32 h := h
  next64 h := h

theorem Harvested.debit (h : Harvested size m) (ch : Channel σ) (bits : Int64) :
    Harvested size (debit ch.chronicled m bits) :=
  (h.ensure ch bits).spend rfl

theorem Harvested.draw (h : Harvested size m) (ch : Channel σ) (d : Draw) :
    Harvested size (draw ch.chronicled d m).2 := by
  unfold Managed.draw
  cases d.empty? with
  | some e => exact h
  | none =>
    have hd := h.debit ch d.cost
    exact hd.spend ((keeps_seeds _).draw d rfl)

theorem Harvested.drawBytes (h : Harvested size m) (ch : Channel σ) (n : ℕ) :
    Harvested size (drawBytes ch.chronicled n m).2 :=
  drawBytes_keeps (fun h => h.ensure ch Cost.byte)
    (fun n h => h.spend ((keeps_seeds _).fill n rfl)) n h

theorem Harvested.perform (h : Harvested size m) (ch : Channel σ) (op : Request σ) :
    Harvested size (m.perform ch.chronicled op.recorded) := by
  cases op with
  | draw d => exact h.draw ch d
  | bytes n => exact h.drawBytes ch n
  | debit bits => exact h.debit ch bits
  | renewal => exact h.renewWaiting ch
  | outside change => exact h.outside (change m.site.state)

theorem Harvested.run (h : Harvested size m) (ch : Channel σ) (ops : List (Request σ)) :
    Harvested size (m.run ch.chronicled (ops.map Request.recorded)) := by
  induction ops generalizing m with
  | nil => exact h
  | cons op ops ih => exact ih (h.perform ch op)

theorem erased_run (ch : Channel σ) (m : Managed γ σ) (ops : List (Request σ)) :
    (m.chronicled.run ch.chronicled (ops.map Request.recorded)).erased = m.run ch ops :=
  run_map (Chronicled.view γ) ch.chronicled_view (fun _ _ => rfl) m.chronicled ops

/-- What the chronicle `r` of a run shows, next to the managed generator `m` that the run itself has
come to. -/
structure Reconciled (size : ℕ) (m : Managed γ σ) (r : Managed (Chronicled γ) (Recorded σ)) :
    Prop where
  erased_eq : r.erased = m
  conserved : r.seeds.flatten ++ m.holder.take m.pending = r.site.got
  whole : ∀ seed ∈ r.seeds, seed.length = size
  count : m.reseeds = r.seeds.length
  lacking : m.pending < size ∨ m.pending = 0 ∧ size = 0

/-- Whatever is asked of a managed generator and whatever its channel does, every byte that the
channel delivers goes into a seed, in order, or is held for the next one. A wait for a seed that
fails, in whichever state, leaves the generator, its budget and the count of its renewals alone. -/
theorem run_harvested {g : γ} {initial : Option Int64} {t : Thresholds} {s : σ} {m : Managed γ σ}
    (hnew : new g initial t s = .ok m) (ch : Channel σ) (ops : List (Request σ)) :
    Reconciled (Renewable.seedBytes g) (m.run ch ops)
        (m.chronicled.run ch.chronicled (ops.map Request.recorded)) ∧
      ∀ (m₁ : Managed γ σ) (e : Interruption), (renewWaiting ch m₁).1 = some e →
        (renewWaiting ch m₁).2.tracked = m₁.tracked ∧
          (renewWaiting ch m₁).2.reseeds = m₁.reseeds := by
  have herased := erased_run ch m ops
  have h := (harvested_new hnew).run ch ops
  refine ⟨⟨herased, ?_, h.whole, ?_, ?_⟩, ?_⟩
  · rw [← herased]
    exact h.conserved
  · rw [← herased]
    exact h.count
  · rw [← herased]
    exact h.lacking
  · intro m₁ e he
    exact ⟨(renewWaiting_failed he).1, (renewWaiting_failed he).2.1⟩

/-- A generator with seeds of three bytes, at a ring that passes on a byte or two at a time. -/
def scarce : Managed Playback (Site (Pool .four)) where
  tracked := ⟨{ words := [7, 1, 5], seedBytes := 3 }, 70⟩
  site :=
    { pool := .ofRing (.empty _ .abandon) [.capped [1, 2]]
      schedule := [.offer [1, 2], .idle 1, .offer [3, 4, 5], .cancel] }
  thresholds := {}
  holder := [0, 0, 0]

theorem run_harvested_scarce :
    new { words := [7, 1, 5], seedBytes := 3 } (some 70) {} scarce.site = .ok scarce ∧
      Reconciled 3
        (scarce.run (Site.layered [.capped [1, 2]]) [.renewal, .draw .normal, .bytes 30, .renewal])
        (scarce.chronicled.run (Site.layered [.capped [1, 2]]).chronicled
          ([.renewal, .draw .normal, .bytes 30, .renewal].map Request.recorded)) := by
  have hnew : new { words := [7, 1, 5], seedBytes := 3 } (some 70) {} scarce.site =
      .ok scarce := rfl
  exact ⟨hnew, (run_harvested hnew _ _).1⟩

end Managed

end EntropySupply
