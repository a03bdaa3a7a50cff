import EntropySupply.Proofs.Queue.Conservation
import EntropySupply.Proofs.Ring.Flow
import EntropySupply.Proofs.Traffic.Alone

/-!
# Blocking writes as schedules of threads

A blocking write at a site lets the others act only while it waits. Threads can take turns like
that: the writer is a sender, every offer of the others is the first attempt of a sender of its own,
and their polls are those of one taker. Main statement: `write_scheduled`.
-/

namespace EntropySupply

namespace Pool

variable {c : Capacity} {p : Pool c} {text : Bytes}

theorem exists_offer (h : p.Contains text) (src : Bytes) :
    ∃ ns, p.ring.offer? src =
      some ((bare.offer p src).count, ns, (bare.offer p src).state.ring) := by
  have ho := Ring.offer?_quiet h.1 src
  exact ⟨[], by simp only [bare, ho, ring_noteAll]⟩

theorem exists_poll (h : p.Contains text) (dst : Bytes) :
    ∃ b, p.ring.poll? dst = some ((bare.poll p dst).count, b, (bare.poll p dst).state.ring) := by
  have hp := Ring.poll?_quiet h.1 dst
  exact ⟨(bare.poll p dst).buffer, by simp only [bare, hp]⟩

end Pool

namespace Ring.Traffic

variable {c : Capacity} {ι κ : Type} {t t' : Traffic c ι κ} {s : Site (Pool c)} {i k : ι} {j : κ}
  {src : Bytes} {others : List ι}

def offers : List Act → List Bytes
  | [] => []
  | .offer src :: rest => src :: offers rest
  | _ :: rest => offers rest

/-- Sender `k` has `src` to send, has not begun, and is called off by nobody, sender `i` or not. -/
structure Standing (t : Traffic c ι κ) (i k : ι) (src : Bytes) : Prop where
  ne : k ≠ i
  phase : (t.senders k).phase = .ready
  rest : (t.senders k).rest = src
  token : (t.senders k).token ∉ t.fired
  apart : (t.senders k).token ≠ (t.senders i).token

/-- Threads that are ready to act out what happens at a site. -/
structure Mirrors (t : Traffic c ι κ) (s : Site (Pool c)) (i : ι) (j : κ) (others : List ι) :
    Prop where
  ring_eq : t.ring = s.pool.ring
  quiet : ∃ text, s.pool.Contains text
  fired : (t.senders i).token ∈ t.fired ↔ s.cancelled = true
  idle : t.takers j = .idle
  nodup : others.Nodup
  standing : List.Forall₂ (Standing t i) others (offers s.schedule)

/-- Senders wait for their turn while others act. -/
theorem Standing.keep (h : Standing t i k src) (hk : t'.senders k = t.senders k)
    (hi : (t'.senders i).token = (t.senders i).token) (hfired : t'.fired = t.fired) :
    Standing t' i k src where
  ne := h.ne
  phase := by rw [hk, h.phase]
  rest := by rw [hk, h.rest]
  token := by
    rw [hk, hfired]
    exact h.token
  apart := by
    rw [hk, hi]
    exact h.apart

theorem forall_standing_keep {srcs : List Bytes} (h : List.Forall₂ (Standing t i) others srcs)
    (hk : ∀ k ∈ others, t'.senders k = t.senders k)
    (hi : (t'.senders i).token = (t.senders i).token) (hfired : t'.fired = t.fired) :
    List.Forall₂ (Standing t' i) others srcs := by
  induction h with
  | nil => exact .nil
  | cons hhead _ ih =>
    refine .cons (hhead.keep (hk _ List.mem_cons_self) hi hfired) (ih ?_)
    intro k hmem
    exact hk k (List.mem_cons_of_mem _ hmem)

variable [DecidableEq ι] [DecidableEq κ]

theorem Standing.cancel (h : Standing t i k src) :
    Standing (t.next (.cancel (t.senders i).token)) i k src where
  ne := h.ne
  phase := h.phase
  rest := h.rest
  token := by
    intro hmem
    rcases List.mem_cons.mp hmem with hmem | hmem
    · exact h.apart hmem
    · exact h.token hmem
  apart := h.apart

theorem run_snoc_sender (events : List (Event ι κ)) {w : Sender}
    (h : (t.run events).next (.send i) = (t.run events).sender i w) :
    (t.run (events ++ [.send i])).ring = (t.run events).ring ∧
      (t.run (events ++ [.send i])).senders i = w := by
  have hrun : t.run (events ++ [.send i]) = (t.run events).sender i w := by
    rw [run_append]
    exact h
  rw [hrun]
  exact ⟨rfl, Function.update_self i _ _⟩

namespace Mirrors

theorem sent (h : t.Mirrors s i j others) {m : ℕ} {p : Pool c}
    (hp : ∃ text, p.Contains text) (hring : (t.run (List.replicate m (.send i))).ring = p.ring)
    (htoken : ((t.run (List.replicate m (.send i))).senders i).token = (t.senders i).token) :
    (t.run (List.replicate m (.send i))).Mirrors { s with pool := p } i j others := by
  obtain ⟨hsenders, htakers, hfired⟩ := run_send_others t i m
  refine ⟨hring, hp, ?_, ?_, h.nodup, ?_⟩
  · rw [htoken, hfired]
    exact h.fired
  · rw [htakers]
    exact h.idle
  · exact h.standing.imp fun k src hk => hk.keep (hsenders k hk.ne) htoken hfired

theorem perform_poll {n : ℕ} {rest : List Act} (h : t.Mirrors s i j others)
    (hs : s.schedule = .poll n :: rest) :
    ∃ events others',
      (t.run events).Mirrors (Site.perform Pool.bare { s with schedule := rest } (.poll n)) i j
          others' ∧
        (t.run events).senders i = t.senders i := by
  obtain ⟨text, hq⟩ := h.quiet
  obtain ⟨text', -, hq'⟩ := Site.perform_contains Pool.bare_fifo
    (s := { s with schedule := rest }) hq (.poll n)
  obtain ⟨b, hp⟩ := Pool.exists_poll hq (List.replicate n 0)
  rw [← h.ring_eq] at hp
  obtain ⟨m, hring, htaker, -⟩ := take_alone h.idle hp
  rw [List.length_replicate] at hring htaker
  obtain ⟨hsenders, hfired⟩ := run_take_others t j n m
  have hst := h.standing
  rw [hs] at hst
  refine ⟨List.replicate m (.take j n), others, ⟨hring, ⟨text', hq'⟩, ?_, htaker, h.nodup, ?_⟩,
    congrFun hsenders i⟩
  · rw [hsenders, hfired]
    exact h.fired
  · exact hst.imp fun k src hk => hk.keep (congrFun hsenders k) (by rw [hsenders]) hfired

/-- An offer of the others is an attempt of the first sender that stands by for it. -/
theorem perform_offer {src : Bytes} {rest : List Act} (h : t.Mirrors s i j others)
    (hs : s.schedule = .offer src :: rest) :
    ∃ events others',
      (t.run events).Mirrors (Site.perform Pool.bare { s with schedule := rest } (.offer src)) i j
          others' ∧
        (t.run events).senders i = t.senders i := by
  obtain ⟨text, hq⟩ := h.quiet
  obtain ⟨text', -, hq'⟩ := Site.perform_contains Pool.bare_fifo
    (s := { s with schedule := rest }) hq (.offer src)
  obtain ⟨k, others', hk, hst', rfl⟩ : ∃ k others', Standing t i k src ∧
      List.Forall₂ (Standing t i) others' (offers rest) ∧ others = k :: others' := by
    have hst := h.standing
    rw [hs] at hst
    cases hst with
    | cons hk hst' => exact ⟨_, _, hk, hst', rfl⟩
  obtain ⟨hnew, hnodup⟩ := List.nodup_cons.mp h.nodup
  obtain ⟨ns, ho⟩ := Pool.exists_offer hq src
  by_cases hsrc : src = []
  · subst hsrc
    have hring : (Pool.bare.offer s.pool []).state.ring = s.pool.ring := by
      simp [offer?] at ho
      exact ho.2.2.symm
    exact ⟨[], others', ⟨h.ring_eq.trans hring.symm, ⟨text', hq'⟩, h.fired, h.idle, hnodup, hst'⟩,
      rfl⟩
  · rw [← h.ring_eq, ← hk.rest] at ho
    rw [← hk.rest] at hsrc
    obtain ⟨m, hring, -⟩ := send_attempt hk.phase hsrc hk.token ho
    obtain ⟨hsenders, htakers, hfired⟩ := run_send_others t k m
    have hi := hsenders i hk.ne.symm
    refine ⟨List.replicate m (.send k), others', ⟨?_, ⟨text', hq'⟩, ?_, ?_, hnodup, ?_⟩, hi⟩
    · rw [hring, hk.rest]
      rfl
    · rw [hi, hfired]
      exact h.fired
    · rw [htakers]
      exact h.idle
    · apply forall_standing_keep hst'
      · intro k' hmem
        apply hsenders
        rintro rfl
        exact hnew hmem
      · rw [hi]
      · exact hfired

/-- An act of the others is acted out by the threads, and sender `i` does not notice. -/
theorem perform {act : Act} {rest : List Act} (h : t.Mirrors s i j others)
    (hs : s.schedule = act :: rest) (hact : ∀ times, act ≠ .idle times) :
    ∃ events others',
      (t.run events).Mirrors (Site.perform Pool.bare { s with schedule := rest } act) i j others' ∧
        (t.run events).senders i = t.senders i := by
  have hst := h.standing
  rw [hs] at hst
  cases act with
  | idle times => exact absurd rfl (hact times)
  | poll n => exact h.perform_poll hs
  | offer src => exact h.perform_offer hs
  | close =>
    obtain ⟨text, hq⟩ := h.quiet
    refine ⟨[.close], others, ⟨congrArg Ring.close h.ring_eq, ⟨text, Pool.bare_fifo.close hq⟩,
      h.fired, h.idle, h.nodup, ?_⟩, rfl⟩
    exact hst.imp fun k src hk => hk.keep rfl rfl rfl
  | cancel =>
    refine ⟨[.cancel (t.senders i).token], others,
      ⟨h.ring_eq, h.quiet, ?_, h.idle, h.nodup, hst.imp fun k src hk => hk.cancel⟩, rfl⟩
    exact iff_of_true List.mem_cons_self rfl
  | abandon => exact ⟨[], others, ⟨h.ring_eq, h.quiet, h.fired, h.idle, h.nodup, hst⟩, rfl⟩

theorem await (h : t.Mirrors s i j others) :
    ∃ events others', (t.run events).Mirrors (Site.await Pool.bare Pool.bare s) i j others' ∧
      (t.run events).senders i = t.senders i := by
  unfold Site.await
  split_ifs with hclosed
  · exact ⟨[], others, h, rfl⟩
  · cases hs : s.schedule with
    | nil =>
      have hst := h.standing
      rw [hs] at hst
      refine ⟨[.cancel (t.senders i).token], others, ⟨h.ring_eq, h.quiet, ?_, h.idle, h.nodup, ?_⟩,
        rfl⟩
      · exact iff_of_true List.mem_cons_self rfl
      · exact hst.imp fun k src hk => hk.cancel
    | cons act rest =>
      cases act with
      | idle times =>
        have hst := h.standing
        rw [hs] at hst
        dsimp only
        split_ifs
        · exact ⟨[], others, ⟨h.ring_eq, h.quiet, h.fired, h.idle, h.nodup, hst⟩, rfl⟩
        · exact ⟨[], others, ⟨h.ring_eq, h.quiet, h.fired, h.idle, h.nodup, hst⟩, rfl⟩
      | poll n => exact h.perform hs (by simp)
      | offer src => exact h.perform hs (by simp)
      | close => exact h.perform hs (by simp)
      | cancel => exact h.perform hs (by simp)
      | abandon => exact h.perform hs (by simp)

theorem attempt (h : t.Mirrors s i j others) (hi : (t.senders i).phase = .ready)
    (hrest : (t.senders i).rest ≠ []) (hc : ¬s.cancelled = true) :
    ∃ events,
      (t.run events).Mirrors ((Site.layered []).offer s (t.senders i).rest).state i j others ∧
        (t.run events).senders i =
          { t.senders i with
            written :=
              (t.senders i).written + ((Site.layered []).offer s (t.senders i).rest).count
            phase :=
              if ((Site.layered []).offer s (t.senders i).rest).count = 0 then .refused
              else .ready } := by
  obtain ⟨text, hq⟩ := h.quiet
  obtain ⟨ns, ho⟩ := Pool.exists_offer hq (t.senders i).rest
  rw [← h.ring_eq] at ho
  obtain ⟨m, hring, hw⟩ := send_attempt hi hrest (fun hmem => hc (h.fired.mp hmem)) ho
  refine ⟨List.replicate m (.send i), ?_, hw⟩
  exact h.sent ⟨_, Pool.bare_fifo.offer _ hq⟩ hring (by rw [hw])

/-- A refused sender has waited as a write does that could not offer anything. -/
theorem refused (h : t.Mirrors s i j others) (hi : (t.senders i).phase = .ready)
    (hrest : (t.senders i).rest ≠ []) (hc : ¬s.cancelled = true)
    (hm : ((Site.layered []).offer s (t.senders i).rest).count = 0) :
    ∃ events others',
      (t.run events).Mirrors
          ((Site.layered []).await ((Site.layered []).offer s (t.senders i).rest).state) i j
          others' ∧
        (t.run events).senders i = { t.senders i with phase := .refused } := by
  obtain ⟨events₁, h₁, hw₁⟩ := h.attempt hi hrest hc
  obtain ⟨events₂, others', h₂, hw₂⟩ := h₁.await
  refine ⟨events₁ ++ events₂, others', ?_, ?_⟩
  · rw [run_append]
    exact h₂
  · rw [run_append, hw₂, hw₁, hm]
    rfl

/-- At an open queue the refused sender is back at the head of its loop, as it was before. -/
theorem retried (h : t.Mirrors s i j others) (hi : (t.senders i).phase = .ready)
    (hrest : (t.senders i).rest ≠ []) (hc : ¬s.cancelled = true)
    (hm : ((Site.layered []).offer s (t.senders i).rest).count = 0)
    (hopen : ¬(Site.layered []).isClosed
      ((Site.layered []).await ((Site.layered []).offer s (t.senders i).rest).state) = true) :
    ∃ events others',
      (t.run events).Mirrors
          ((Site.layered []).await ((Site.layered []).offer s (t.senders i).rest).state) i j
          others' ∧
        (t.run events).senders i = t.senders i := by
  obtain ⟨events, others', h', hw⟩ := h.refused hi hrest hc hm
  have hopen' : ¬(t.run events).ring.closed = true := by
    rw [h'.ring_eq]
    exact hopen
  have hsend := send_refused (t := t.run events) (i := i) (by rw [hw])
  rw [if_neg hopen', hw] at hsend
  obtain ⟨hring, hwait⟩ := run_snoc_sender events hsend
  rw [← hi] at hwait
  refine ⟨events ++ [.send i], others', ?_, hwait⟩
  rw [run_append] at hring hwait ⊢
  refine h'.sent (m := 1) h'.quiet (hring.trans h'.ring_eq) ?_
  exact (congrArg Sender.token hwait).trans (congrArg Sender.token hw).symm

end Mirrors

/-- A blocking write at a site is a run of threads: the sender returns what the write says, and
leaves the ring as the write does. -/
theorem write_mirrored (moved : ℕ) (s : Site (Pool c)) (rest : Bytes) (h : t.Mirrors s i j others)
    (hi : (t.senders i).phase = .ready) (hmoved : (t.senders i).written = moved)
    (hrest : (t.senders i).rest = rest) :
    ∃ events,
      (t.run events).ring = ((Site.layered []).writeFrom moved s rest).state.pool.ring ∧
        (t.run events).senders i =
          { t.senders i with
            written := Channel.movedUntil (moved + rest.length)
              ((Site.layered []).writeFrom moved s rest).stopped
            phase := .returned ((Site.layered []).writeFrom moved s rest).stopped } := by
  fun_induction (Site.layered []).writeFrom moved s rest generalizing t others with
  | case1 moved s =>
    obtain ⟨hring, hsender⟩ := run_snoc_sender [] (send_ready_nil hi hrest)
    refine ⟨[.send i], hring.trans h.ring_eq, ?_⟩
    rw [← hmoved]
    exact hsender
  | case2 moved s rest hr hc =>
    subst hmoved hrest
    obtain ⟨hring, hsender⟩ :=
      run_snoc_sender [] (send_ready_cancelled hi hr (h.fired.mpr hc))
    exact ⟨[.send i], hring.trans h.ring_eq, hsender⟩
  | case3 =>
    rename_i moved s rest hr hc m hm s' hclosed
    subst hmoved hrest
    obtain ⟨events, others', h', hw⟩ := h.refused hi hr hc hm
    have hclosed' : (t.run events).ring.closed = true := by
      rw [h'.ring_eq]
      exact hclosed
    have hsend := send_refused (t := t.run events) (i := i) (by rw [hw])
    rw [if_pos hclosed', hw] at hsend
    obtain ⟨hring, hsender⟩ := run_snoc_sender events hsend
    exact ⟨events ++ [.send i], hring.trans h'.ring_eq, hsender⟩
  | case4 =>
    rename_i moved s rest hr hc m hm s' hopen ih
    subst hmoved hrest
    obtain ⟨events, others', h', hw⟩ := h.retried hi hr hc hm hopen
    obtain ⟨events', hring, hsender⟩ := ih h' (by rw [hw, hi]) (by rw [hw]) (by rw [hw])
    refine ⟨events ++ events', ?_, ?_⟩
    · rw [run_append]
      exact hring
    · rw [run_append, hsender, hw]
  | case5 =>
    rename_i moved s rest hr hc m hm ih
    subst hmoved hrest
    obtain ⟨events, h', hw⟩ := h.attempt hi hr hc
    rw [if_neg hm] at hw
    have hrest' : ((t.run events).senders i).rest = (t.senders i).rest.drop m.count := by
      rw [hw]
      exact (List.drop_drop ..).symm
    have hlength : (t.senders i).written + m.count + ((t.senders i).rest.drop m.count).length =
        (t.senders i).written + (t.senders i).rest.length := by
      have hle : m.count ≤ (t.senders i).rest.length := (Site.layered []).offer_le _ _
      rw [List.length_drop]
      omega
    obtain ⟨events', hring, hsender⟩ := ih h' (by rw [hw]) (by rw [hw]) hrest'
    rw [hlength] at hsender
    refine ⟨events ++ events', ?_, ?_⟩
    · rw [run_append]
      exact hring
    · rw [run_append, hsender, hw]

theorem start_mirrors (rule : CommitRule) (schedule : List Act) (src : Bytes) :
    (start c rule (fun k => (src :: offers schedule).getD k []) id : Traffic c ℕ Unit).Mirrors
      { pool := { ring := empty c rule }, schedule } 0 ()
      ((List.range (offers schedule).length).map Nat.succ) where
  ring_eq := rfl
  quiet := ⟨[], contains_empty c rule⟩
  fired := by simp [start]
  idle := rfl
  nodup := List.nodup_range.map Nat.succ_injective
  standing := by
    rw [List.forall₂_iff_get]
    refine ⟨by simp, ?_⟩
    intro k hk hk'
    have hget : ((List.range (offers schedule).length).map Nat.succ).get ⟨k, hk⟩ = k + 1 := by simp
    rw [hget]
    refine ⟨Nat.succ_ne_zero k, rfl, ?_, List.not_mem_nil, Nat.succ_ne_zero k⟩
    simp [Sender.rest, start, List.getD_eq_getElem?_getD, hk']

/-- Whatever the others do at a new site, there are senders, tokens and a schedule of the threads
that end as the write does. -/
theorem write_scheduled (c : Capacity) (rule : CommitRule) (schedule : List Act) (src : Bytes) :
    ∃ (sources : ℕ → Bytes) (tokens : ℕ → ℕ) (events : List (Event ℕ Unit)),
      let w := (Site.layered []).write { pool := { ring := empty c rule }, schedule } src
      let t := (start c rule sources tokens).run events
      t.ring = w.state.pool.ring ∧
        t.senders 0 =
          { source := src
            token := tokens 0
            written := Channel.movedUntil src.length w.stopped
            phase := .returned w.stopped } := by
  obtain ⟨events, hring, hsender⟩ := write_mirrored 0 _ src (start_mirrors rule schedule src)
    rfl rfl rfl
  rw [Nat.zero_add] at hsender
  exact ⟨_, _, events, hring, hsender⟩

end Ring.Traffic

end EntropySupply
