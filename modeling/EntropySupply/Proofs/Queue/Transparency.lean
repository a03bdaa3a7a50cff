import EntropySupply.Proofs.Queue.Portions
import EntropySupply.Proofs.Queue.Turns
import EntropySupply.Queue.Operation

/-!
# Transparency of fair queues

A blocking transfer tries again and again, so it does not matter to it in how many calls its bytes
move. Main statement: `operate_transparent`, every blocking operation at a site whose ring is quiet
ends the same, leaves the same ring and finds the others doing the same, whether it goes through any
fair queues or straight to the ring.
-/

namespace EntropySupply

namespace Site

variable {c : Capacity} {s t : Site (Pool c)}

/-- The site with nothing of its pool but the ring. -/
def ringed (s : Site (Pool c)) : Site (Ring c) where
  pool := s.pool.ring
  schedule := s.schedule
  events := s.events
  requests := s.requests
  cancelled := s.cancelled
  abandoned := s.abandoned
  drained := s.drained

theorem ringed_eq_iff :
    s.ringed = t.ringed ↔ ∃ p : Pool c, p.ring = s.pool.ring ∧ t = { s with pool := p } := by
  constructor
  · intro h
    refine ⟨t.pool, (congrArg Site.pool h).symm, ?_⟩
    cases s
    cases t
    simp only [ringed, Site.mk.injEq] at h
    obtain ⟨-, rfl, rfl, rfl, rfl, rfl, rfl⟩ := h
    rfl
  · rintro ⟨p, hp, rfl⟩
    simp only [ringed, hp]

/-- What the others do depends on the ring alone. -/
theorem perform_ringed (h : s.ringed = t.ringed) (hs : s.pool.ring.Sound [] []) (act : Act) :
    (perform Pool.bare s act).ringed = (perform Pool.bare t act).ringed := by
  obtain ⟨p, hp, rfl⟩ := ringed_eq_iff.mp h
  cases act with
  | poll n => simp only [perform, Pool.bare_poll hs, Pool.bare_poll (hp.symm ▸ hs), ringed, hp]
  | offer src => simp only [perform, Pool.bare_offer hs, Pool.bare_offer (hp.symm ▸ hs), ringed, hp]
  | close => simp only [perform, Pool.bare, ringed, hp]
  | _ => simp only [perform, ringed, hp]

theorem perform_quiet (hs : s.pool.ring.Sound [] []) (act : Act) :
    (perform Pool.bare s act).pool.ring.Sound [] [] := by
  cases act with
  | poll n => exact (Pool.bare_pours.poll _ hs).quiet hs
  | offer src => exact (Pool.bare_pours.offer _ hs).quiet hs
  | close => exact hs.close
  | _ => exact hs

variable {q : Queue (Pool c)}

theorem await_ringed (hq : Pool.Pours q) (h : s.ringed = t.ringed) (hs : s.pool.ring.Sound [] []) :
    ((channel q Pool.bare).await s).ringed = ((channel Pool.bare Pool.bare).await t).ringed ∧
      ((channel q Pool.bare).await s).pool.ring.Sound [] [] := by
  obtain ⟨p, hp, rfl⟩ := ringed_eq_iff.mp h
  simp only [channel, await]
  rw [hq.isClosed, Pool.bare_pours.isClosed, hp]
  split_ifs with hclosed
  · exact ⟨h, hs⟩
  · cases hsched : s.schedule with
    | nil => exact ⟨by simp only [ringed, hp], hs⟩
    | cons act rest =>
      have hperform := perform_ringed (s := { s with schedule := rest })
        (t := { s with pool := p, schedule := rest }) (by simp only [ringed, hp]) hs act
      have hquiet := perform_quiet (s := { s with schedule := rest }) hs act
      cases act with
      | idle times =>
        dsimp only
        split_ifs
        · exact ⟨hperform, hquiet⟩
        · exact ⟨by simp only [ringed, hp], hs⟩
      | _ => exact ⟨hperform, hquiet⟩

theorem isClosed_ringed (hq : Pool.Pours q) (h : s.ringed = t.ringed) :
    (channel q Pool.bare).isClosed s = (channel Pool.bare Pool.bare).isClosed t := by
  change q.isClosed s.pool = Pool.bare.isClosed t.pool
  rw [hq.isClosed, Pool.bare_pours.isClosed]
  exact congrArg (fun s => s.pool.closed) h

def pushed (s : Site (Pool c)) (src : Bytes) : Site (Pool c) :=
  { s with pool := { s.pool with ring := s.pool.ring.push src } }

theorem offer_bare (hs : s.pool.ring.Sound [] []) (src : Bytes) :
    (channel Pool.bare Pool.bare).offer s src =
      ⟨min src.length s.pool.ring.room, s.pushed (src.take (min src.length s.pool.ring.room))⟩ := by
  change Accepted.mk (Pool.bare.offer s.pool src).count
    { s with pool := (Pool.bare.offer s.pool src).state } = _
  rw [Pool.bare_offer hs]
  rfl

theorem offer_splits (hs : s.pool.ring.Sound [] []) {src : Bytes} {n : ℕ}
    (hroom : n ≤ s.pool.ring.room) (hlen : n ≤ src.length) :
    (channel Pool.bare Pool.bare).OfferSplits s src n (s.pushed (src.take n)) where
  undisturbed := ⟨rfl, rfl, rfl⟩
  parts := by
    have htake : (src.take n).length = n := List.length_take_of_le hlen
    have hquiet : (s.pushed (src.take n)).pool.ring.Sound [] [] :=
      Ring.quiet_push hs (htake.trans_le hroom)
    obtain ⟨more, hmore⟩ : ∃ more, min src.length s.pool.ring.room = n + more :=
      ⟨min src.length s.pool.ring.room - n, by omega⟩
    have hnext : min (src.drop n).length (s.pushed (src.take n)).pool.ring.room = more := by
      change min (src.drop n).length (s.pool.ring.push (src.take n)).room = more
      rw [Ring.room_push (htake.trans_le hroom), htake, List.length_drop]
      omega
    have happend : s.pool.ring.push (src.take n ++ (src.drop n).take more) =
        (s.pool.ring.push (src.take n)).push ((src.drop n).take more) := by
      refine Ring.push_append hs ?_
      rw [htake, List.length_take, List.length_drop]
      omega
    refine ⟨more, s.pushed (src.take (n + more)), ?_, ?_, ?_⟩
    · rw [offer_bare hs, hmore]
    · rw [offer_bare hquiet, hnext, List.take_add]
      simp only [pushed, happend]
    · rintro rfl
      rfl

def pulled (s : Site (Pool c)) (n : ℕ) : Site (Pool c) :=
  { s with pool := { s.pool with ring := s.pool.ring.pull n } }

theorem poll_bare (hs : s.pool.ring.Sound [] []) (dst : Bytes) :
    (channel Pool.bare Pool.bare).poll s dst =
      ⟨min dst.length s.pool.ring.stock,
        s.pool.ring.front (min dst.length s.pool.ring.stock) ++
          dst.drop (min dst.length s.pool.ring.stock),
        s.pulled (min dst.length s.pool.ring.stock)⟩ := by
  change Delivered.mk (Pool.bare.poll s.pool dst).count (Pool.bare.poll s.pool dst).buffer
    { s with pool := (Pool.bare.poll s.pool dst).state } = _
  rw [Pool.bare_poll hs]
  rfl

theorem poll_splits (hs : s.pool.ring.Sound [] []) {dst b : Bytes} {n : ℕ} {r : Ring c}
    (h : s.pool.ring.TookOut dst n b r) :
    (channel Pool.bare Pool.bare).PollSplits s dst n b (s.pulled n) where
  undisturbed := ⟨rfl, rfl, rfl⟩
  parts := by
    obtain ⟨htake, hdrop⟩ := h.take_drop hs
    have hstock := h.le_stock
    have hlen := h.le_length
    have hquiet : (s.pulled n).pool.ring.Sound [] [] := Ring.quiet_pull hs hstock
    obtain ⟨more, hmore⟩ : ∃ more, min dst.length s.pool.ring.stock = n + more :=
      ⟨min dst.length s.pool.ring.stock - n, by omega⟩
    have hnext : min (dst.drop n).length (s.pulled n).pool.ring.stock = more := by
      change min (dst.drop n).length (s.pool.ring.pull n).stock = more
      rw [Ring.stock_pull hstock, List.length_drop]
      omega
    have hfront : s.pool.ring.front (n + more) =
        s.pool.ring.front n ++ (s.pulled n).pool.ring.front more :=
      Ring.front_add hs (by omega)
    refine ⟨more, (s.pulled n).pool.ring.front more ++ dst.drop (n + more),
      s.pulled (n + more), ?_, ?_, ?_⟩
    · rw [poll_bare hs, hmore, htake, hfront, List.append_assoc]
    · rw [hdrop, poll_bare hquiet, hnext, List.drop_drop]
      simp only [pulled, Ring.pull_add]
    · rintro rfl
      rw [Ring.front_zero, hdrop]
      exact ⟨rfl, rfl⟩

/-- Sites with one quiet ring, whatever their layers have noted. -/
def Twins (s t : Site (Pool c)) : Prop := s.ringed = t.ringed ∧ s.pool.ring.Sound [] []

theorem portions (hq : Pool.Pours q) :
    (channel q Pool.bare).Portions (channel Pool.bare Pool.bare) Twins where
  cancelled h := congrArg (fun s : Site (Ring c) => s.cancelled) h.1
  reachable h := congrArg (fun s : Site (Ring c) => !s.abandoned) h.1
  isClosed h := isClosed_ringed hq h.1
  await h := await_ringed hq h.1 h.2
  offer_refused := by
    rintro s t src ⟨h, hs⟩ hsrc (hcount : (q.offer s.pool src).count = 0)
    obtain ⟨p, hp, rfl⟩ := ringed_eq_iff.mp h
    have hput := hq.offer src hs
    rw [hcount] at hput
    have hring : p.ring = (q.offer s.pool src).state.ring := by
      rw [hput.ring_eq, List.take_zero, Ring.push_nil, hp]
    have hroom : p.ring.room = 0 := by
      rw [hp]
      exact (hq.offer_stuck hs hcount).resolve_left hsrc
    refine ⟨?_, ringed_eq_iff.mpr ⟨p, hring, rfl⟩, hput.quiet hs⟩
    rw [offer_bare (by rw [hp]; exact hs)]
    simp only [hroom, Nat.min_zero, List.take_zero, pushed, Ring.push_nil]
  offer_moved := by
    rintro s t src ⟨h, hs⟩
    obtain ⟨p, hp, rfl⟩ := ringed_eq_iff.mp h
    have hput := hq.offer src hs
    have hring : p.ring.push (src.take (q.offer s.pool src).count) =
        (q.offer s.pool src).state.ring := by
      rw [hput.ring_eq, hp]
    refine ⟨_, offer_splits (by rw [hp]; exact hs) (by rw [hp]; exact hput.le_room) hput.le_length,
      ringed_eq_iff.mpr ⟨_, hring, rfl⟩, hput.quiet hs⟩
  poll_refused := by
    rintro s t dst ⟨h, hs⟩ hdst (hcount : (q.poll s.pool dst).count = 0)
    obtain ⟨p, hp, rfl⟩ := ringed_eq_iff.mp h
    have htook := hq.poll dst hs
    rw [hcount] at htook
    have hring : p.ring = (q.poll s.pool dst).state.ring := by
      rw [htook.ring_eq, Ring.pull_zero, hp]
    have hstock : p.ring.stock = 0 := by
      rw [hp]
      exact (hq.poll_stuck hs hcount).resolve_left hdst
    refine ⟨?_, ?_, ringed_eq_iff.mpr ⟨p, hring, rfl⟩, htook.quiet hs⟩
    · change (q.poll s.pool dst).buffer = dst
      rw [htook.buffer_eq, Ring.front_zero]
      rfl
    · rw [poll_bare (by rw [hp]; exact hs)]
      simp only [hstock, Nat.min_zero, Ring.front_zero, List.nil_append, List.drop_zero, pulled,
        Ring.pull_zero]
  poll_moved := by
    rintro s t dst ⟨h, hs⟩
    obtain ⟨p, hp, rfl⟩ := ringed_eq_iff.mp h
    have htook := hq.poll dst hs
    have hring : p.ring.pull (q.poll s.pool dst).count = (q.poll s.pool dst).state.ring := by
      rw [htook.ring_eq, hp]
    refine ⟨_, poll_splits (by rw [hp]; exact hs) (by rw [hp]; exact htook),
      ringed_eq_iff.mpr ⟨_, hring, rfl⟩, htook.quiet hs⟩

end Site

/-- Operations that wait until they are done, and those that move nothing. -/
def Operation.Blocks : Operation → Prop
  | .offer _ | .poll _ => False
  | _ => True

namespace Site

variable {c : Capacity} {s t : Site (Pool c)} {q : Queue (Pool c)}

theorem Twins.abandon (h : Twins s t) (abandoned : Bool) :
    Twins { s with abandoned } { t with abandoned } := by
  obtain ⟨p, hp, rfl⟩ := ringed_eq_iff.mp h.1
  exact ⟨ringed_eq_iff.mpr ⟨p, hp, rfl⟩, h.2⟩

theorem operateOn_twins (hq : Pool.Pours q) (h : Twins s t) {op : Operation} (hop : op.Blocks) :
    (s.operateOn q op).1 = (t.operateOn Pool.bare op).1 ∧
      Twins (s.operateOn q op).2 (t.operateOn Pool.bare op).2 := by
  cases op with
  | offer src => exact hop.elim
  | poll dst => exact hop.elim
  | write src =>
    obtain ⟨hstopped, hstate⟩ := (portions hq).writeFrom 0 src h
    exact ⟨congrArg Outcome.sent hstopped, hstate⟩
  | read dst =>
    obtain ⟨hstopped, hbuffer, hstate⟩ := (portions hq).readFrom 0 dst h
    exact ⟨congrArg₂ Outcome.received hstopped hbuffer, hstate⟩
  | feed src =>
    obtain ⟨hcount, hstate⟩ := (portions hq).feedFrom 0 src h
    exact ⟨congrArg Outcome.accepted hcount, hstate⟩
  | feedGone src =>
    obtain ⟨hcount, hstate⟩ := (portions hq).feedFrom 0 src (h.abandon true)
    have hbefore : s.abandoned = t.abandoned :=
      congrArg (fun s : Site (Ring c) => s.abandoned) h.1
    refine ⟨congrArg Outcome.accepted hcount, ?_⟩
    simp only [operateOn]
    rw [← hbefore]
    exact hstate.abandon s.abandoned
  | writeRing src =>
    obtain ⟨hstopped, hstate⟩ := (portions Pool.bare_pours).writeFrom 0 src h
    exact ⟨congrArg Outcome.sent hstopped, hstate⟩
  | readRing dst =>
    obtain ⟨hstopped, hbuffer, hstate⟩ := (portions Pool.bare_pours).readFrom 0 dst h
    exact ⟨congrArg₂ Outcome.received hstopped hbuffer, hstate⟩
  | close =>
    obtain ⟨p, hp, rfl⟩ := ringed_eq_iff.mp h.1
    have hring := hq.close s.pool
    have hsame := (congrArg Ring.close hp).trans hring.symm
    refine ⟨rfl, ringed_eq_iff.mpr ⟨Pool.bare.close p, hsame, rfl⟩, ?_⟩
    change (q.close s.pool).ring.Sound [] []
    rw [hring]
    exact h.2.close
  | cancel =>
    obtain ⟨p, hp, rfl⟩ := ringed_eq_iff.mp h.1
    exact ⟨rfl, ringed_eq_iff.mpr ⟨p, hp, rfl⟩, h.2⟩
  | resume =>
    obtain ⟨p, hp, rfl⟩ := ringed_eq_iff.mp h.1
    exact ⟨rfl, ringed_eq_iff.mpr ⟨p, hp, rfl⟩, h.2⟩

/-- A blocking operation through any fair queues does what it does straight to the ring. -/
theorem operate_transparent {layers : List Layer}
    (hfair : ∀ layer ∈ layers, layer.isCapped = false) (hvalid : Layer.validate layers = .ok ())
    (hs : s.pool.ring.Sound [] []) {op : Operation} (hop : op.Blocks) :
    (s.operate layers op).1 = (s.operate [] op).1 ∧
      (s.operate layers op).2.ringed = (s.operate [] op).2.ringed := by
  obtain ⟨houtcome, hstate, -⟩ :=
    operateOn_twins (Pool.layered_pours hfair hvalid) ⟨rfl, hs⟩ hop
  exact ⟨houtcome, hstate⟩

/-- A ring of four bytes whose readers come one after another. -/
def crowded : Site (Pool .four) where
  pool := .ofRing (.empty _ .abandon) []
  schedule := [.idle 2, .poll 1, .offer [9], .poll 4, .close]

theorem operate_transparent_crowded :
    let layers : List Layer := [.fair .full ⟨1, 1⟩, .fair .reader ⟨3, 2⟩]
    (crowded.operate layers (.write [1, 2, 3, 4, 5, 6, 7])).1 =
        (crowded.operate [] (.write [1, 2, 3, 4, 5, 6, 7])).1 ∧
      (crowded.operate layers (.write [1, 2, 3, 4, 5, 6, 7])).2.ringed =
        (crowded.operate [] (.write [1, 2, 3, 4, 5, 6, 7])).2.ringed :=
  operate_transparent (by decide) rfl (Ring.sound_empty _ _) trivial

end Site

end EntropySupply
