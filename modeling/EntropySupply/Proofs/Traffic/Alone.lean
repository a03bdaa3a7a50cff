import EntropySupply.Proofs.Traffic.Threads

/-!
# Threads left alone

When nobody acts in between, the steps of a sender's attempt are an offer of the rest of its source,
and the steps of a poll are a poll of the ring.
-/

namespace EntropySupply.Ring.Traffic

variable {c : Capacity} {ι κ : Type}

theorem exists_send [DecidableEq ι] (t : Traffic c ι κ) (k : ι) : ∃ history s published,
    t.send k = { t with history, senders := Function.update t.senders k s, published } := by
  have hself : t = { t with senders := Function.update t.senders k (t.senders k) } := by
    rw [Function.update_eq_self]
  simp only [send]
  cases (t.senders k).phase with
  | ready => split_ifs <;> exact ⟨_, _, _, rfl⟩
  | offering => exact ⟨_, _, _, rfl⟩
  | reserving =>
    dsimp only
    split <;> exact ⟨_, _, _, rfl⟩
  | filling => exact ⟨_, _, _, rfl⟩
  | committing =>
    dsimp only
    split
    · exact ⟨_, _, _, rfl⟩
    · exact ⟨_, _, _, rfl⟩
    · exact ⟨_, _, _, hself⟩
  | refused => split_ifs <;> exact ⟨_, _, _, rfl⟩
  | returned => exact ⟨_, _, _, hself⟩

theorem exists_take [DecidableEq κ] (t : Traffic c ι κ) (j : κ) (length : ℕ) : ∃ history p,
    t.take j length = { t with history, takers := Function.update t.takers j p } := by
  have hself : t = { t with takers := Function.update t.takers j (t.takers j) } := by
    rw [Function.update_eq_self]
  simp only [take]
  cases t.takers j with
  | idle =>
    dsimp only
    split_ifs
    · exact ⟨_, _, hself⟩
    · split
      · exact ⟨_, _, rfl⟩
      · exact ⟨_, _, hself⟩
  | copying => exact ⟨_, _, rfl⟩
  | releasing =>
    dsimp only
    split
    · exact ⟨_, _, rfl⟩
    · exact ⟨_, _, hself⟩

variable [DecidableEq ι] [DecidableEq κ]

theorem run_append (t : Traffic c ι κ) (a b : List (Event ι κ)) :
    t.run (a ++ b) = (t.run a).run b := List.foldl_append

/-- Whatever a sender does by itself, nobody else notices but by the ring. -/
theorem run_send_others (t : Traffic c ι κ) (k : ι) (m : ℕ) :
    (∀ i, i ≠ k → (t.run (List.replicate m (.send k))).senders i = t.senders i) ∧
      (t.run (List.replicate m (.send k))).takers = t.takers ∧
      (t.run (List.replicate m (.send k))).fired = t.fired := by
  induction m generalizing t with
  | zero => exact ⟨fun _ _ => rfl, rfl, rfl⟩
  | succ m ih =>
    obtain ⟨history, s, published, hsend⟩ := exists_send t k
    obtain ⟨hsenders, htakers, hfired⟩ := ih (t.send k)
    rw [hsend] at hsenders htakers hfired
    rw [List.replicate_succ]
    change (∀ i, i ≠ k → ((t.send k).run _).senders i = t.senders i) ∧
      ((t.send k).run _).takers = t.takers ∧ ((t.send k).run _).fired = t.fired
    rw [hsend]
    refine ⟨?_, htakers, hfired⟩
    intro i hi
    exact (hsenders i hi).trans (Function.update_of_ne hi _ _)

theorem run_take_others (t : Traffic c ι κ) (j : κ) (length m : ℕ) :
    (t.run (List.replicate m (.take j length))).senders = t.senders ∧
      (t.run (List.replicate m (.take j length))).fired = t.fired := by
  induction m generalizing t with
  | zero => exact ⟨rfl, rfl⟩
  | succ m ih =>
    obtain ⟨history, p, htake⟩ := exists_take t j length
    obtain ⟨hsenders, hfired⟩ := ih (t.take j length)
    rw [htake] at hsenders hfired
    rw [List.replicate_succ]
    change ((t.take j length).run _).senders = t.senders ∧
      ((t.take j length).run _).fired = t.fired
    rw [htake]
    exact ⟨hsenders, hfired⟩

variable {t : Traffic c ι κ} {span : Span} {ring : Ring c}

section Sending

variable {i : ι} {k : ℕ}

theorem send_ready_nil (hi : (t.senders i).phase = .ready) (hrest : (t.senders i).rest = []) :
    t.next (.send i) = t.sender i { t.senders i with phase := .returned none } := by
  simp [next, send, hi, hrest]

theorem send_ready_cancelled (hi : (t.senders i).phase = .ready)
    (hrest : (t.senders i).rest ≠ []) (htoken : (t.senders i).token ∈ t.fired) :
    t.next (.send i) =
      t.sender i
        { t.senders i with phase := .returned (some (.cancelled (t.senders i).written)) } := by
  simp [next, send, hi, hrest, htoken]

theorem send_ready (hi : (t.senders i).phase = .ready) (hrest : (t.senders i).rest ≠ [])
    (htoken : (t.senders i).token ∉ t.fired) :
    t.next (.send i) = t.sender i { t.senders i with phase := .offering } := by
  simp [next, send, hi, hrest, htoken]

theorem send_refused (hi : (t.senders i).phase = .refused) :
    t.next (.send i) =
      t.sender i
        { t.senders i with
          phase :=
            if t.ring.closed then .returned (some (.closed (t.senders i).written)) else .ready } := by
  simp only [next, send, hi]
  split_ifs <;> rfl

theorem send_offering (hi : (t.senders i).phase = .offering) :
    (t.next (.send i)).history.session = t.history.session ∧
      (t.next (.send i)).senders i =
        { t.senders i with phase := if t.ring.closed then .refused else .reserving } := by
  simp [next, send, sender, hi]

theorem send_reserving_none (hi : (t.senders i).phase = .reserving)
    (hr : t.ring.reserve? (request c (t.senders i).rest.length) = none) :
    (t.next (.send i)).history.session = t.history.session ∧
      (t.next (.send i)).senders i = { t.senders i with phase := .refused } := by
  have hans : t.answer (.reserve (request c (t.senders i).rest.length)) = .refused := by
    unfold ring at hr
    simp [answer, Session.step, hr]
  simp [next, send, sender, hi, hans]

theorem send_reserving_some (hi : (t.senders i).phase = .reserving)
    (hr : t.ring.reserve? (request c (t.senders i).rest.length) = some (span, ring)) :
    (t.next (.send i)).history.session = t.history.session.grant (.writing span) ring ∧
      (t.next (.send i)).senders i = { t.senders i with phase := .filling t.fresh span } := by
  unfold Traffic.ring at hr
  have hstep : t.history.session.step (.reserve (request c (t.senders i).rest.length)) =
      (.granted span, [], t.history.session.grant (.writing span) ring) := by
    simp [Session.step, hr]
  simp [next, send, sender, answer, History.next, hi, hstep]

theorem send_filling (hi : (t.senders i).phase = .filling k span)
    (hk : t.history.session.held? k = some (.writing span)) :
    (t.next (.send i)).history.session =
        { t.history.session with
          ring := t.ring.store span.start ((t.senders i).rest.take span.length.toNat) } ∧
      (t.next (.send i)).senders i = { t.senders i with phase := .committing k span } := by
  simp [next, send, sender, History.next, Session.step, hi, hk, List.take_take, Traffic.ring]

theorem send_committing {how : Commit} (hi : (t.senders i).phase = .committing k span)
    (hk : t.history.session.held? k = some (.writing span))
    (hc : t.ring.commit? span = some (how, ring)) :
    (t.next (.send i)).ring = ring ∧
      (t.next (.send i)).senders i =
        { t.senders i with
          written := (t.senders i).written + if how = .published then span.length.toNat else 0
          phase := if how = .published then .ready else .refused } := by
  unfold Traffic.ring at hc
  cases how <;>
    simp [next, send, sender, answer, History.next, Session.step, hi, hk, hc, Traffic.ring]

/-- An attempt that nobody disturbs is an offer. -/
theorem send_alone (hi : (t.senders i).phase = .offering) (hrest : (t.senders i).rest ≠ [])
    {n : ℕ} {ns : List Notice} (ho : t.ring.offer? (t.senders i).rest = some (n, ns, ring)) :
    ∃ m, (t.run (List.replicate m (.send i))).ring = ring ∧
      (t.run (List.replicate m (.send i))).senders i =
        { t.senders i with
          written := (t.senders i).written + n
          phase := if n = 0 then .refused else .ready } := by
  have hempty : (t.senders i).rest.isEmpty = false := by simpa using hrest
  unfold offer? at ho
  rw [hempty, Bool.false_or] at ho
  obtain ⟨hs₁, hw₁⟩ := send_offering hi
  split_ifs at ho with hclosed
  · cases ho
    rw [if_pos hclosed] at hw₁
    exact ⟨1, congrArg Session.ring hs₁, hw₁⟩
  rw [if_neg hclosed] at hw₁
  -- From here on `t₁` to `t₄` are the states after the steps of the attempt.
  set t₁ := t.next (.send i) with ht₁
  have hring₁ : t₁.ring = t.ring := congrArg Session.ring hs₁
  have hphase₁ : (t₁.senders i).phase = .reserving := by rw [hw₁]
  have hrest₁ : (t₁.senders i).rest = (t.senders i).rest := by rw [hw₁]; rfl
  rw [← hring₁, ← hrest₁] at ho
  split at ho
  · rename_i hr
    cases ho
    obtain ⟨hs₂, hw₂⟩ := send_reserving_none hphase₁ hr
    exact ⟨2, congrArg Session.ring hs₂, by rw [hw₁] at hw₂; exact hw₂⟩
  · rename_i span held hr
    obtain ⟨hs₂, hw₂⟩ := send_reserving_some hphase₁ hr
    set t₂ := t₁.next (.send i) with ht₂
    have hk₂ : t₂.history.session.held? t₁.fresh = some (.writing span) := by
      rw [hs₂]
      exact (Session.held?_grant _ _).trans (if_pos rfl)
    have hphase₂ : (t₂.senders i).phase = .filling t₁.fresh span := by rw [hw₂]
    obtain ⟨hs₃, hw₃⟩ := send_filling hphase₂ hk₂
    set t₃ := t₂.next (.send i) with ht₃
    have hk₃ : t₃.history.session.held? t₁.fresh = some (.writing span) := by
      rw [hs₃]
      exact hk₂
    have hphase₃ : (t₃.senders i).phase = .committing t₁.fresh span := by rw [hw₃]
    have hring₃ : t₃.ring = held.store span.start ((t₁.senders i).rest.take span.length.toNat) := by
      have hring₂ : t₂.ring = held := congrArg Session.ring hs₂
      have hrest₂ : (t₂.senders i).rest = (t₁.senders i).rest := by rw [hw₂]; rfl
      rw [← hring₂, ← hrest₂]
      exact congrArg Session.ring hs₃
    have hpos := (reserve?_eq_some (request_ne_zero (by rw [hrest₁]; exact hrest)) hr).2.2.1
    simp only [← hring₃] at ho
    split at ho
    · cases ho
    · rename_i hc
      cases ho
      obtain ⟨hr₄, hw₄⟩ := send_committing hphase₃ hk₃ hc
      refine ⟨4, hr₄, ?_⟩
      change (t₃.next (.send i)).senders i = _
      rw [hw₄, hw₃, hw₂, hw₁, if_pos rfl, if_pos rfl, if_neg (Nat.ne_of_gt hpos)]
    · rename_i hc
      cases ho
      obtain ⟨hr₄, hw₄⟩ := send_committing hphase₃ hk₃ hc
      refine ⟨4, hr₄, ?_⟩
      change (t₃.next (.send i)).senders i = _
      rw [hw₄, hw₃, hw₂, hw₁]
      rfl

theorem send_attempt (hi : (t.senders i).phase = .ready) (hrest : (t.senders i).rest ≠ [])
    (htoken : (t.senders i).token ∉ t.fired) {n : ℕ} {ns : List Notice}
    (ho : t.ring.offer? (t.senders i).rest = some (n, ns, ring)) :
    ∃ m, (t.run (List.replicate m (.send i))).ring = ring ∧
      (t.run (List.replicate m (.send i))).senders i =
        { t.senders i with
          written := (t.senders i).written + n
          phase := if n = 0 then .refused else .ready } := by
  have h₁ := send_ready hi hrest htoken
  have hw₁ : (t.next (.send i)).senders i = { t.senders i with phase := .offering } := by
    rw [h₁]
    exact Function.update_self i _ t.senders
  have hring₁ : (t.next (.send i)).ring = t.ring := by rw [h₁]; rfl
  have hrest₁ : ((t.next (.send i)).senders i).rest = (t.senders i).rest := by rw [hw₁]; rfl
  rw [← hring₁, ← hrest₁] at ho
  obtain ⟨m, hr, hw⟩ := send_alone (by rw [hw₁]) (by rw [hrest₁]; exact hrest) ho
  refine ⟨m + 1, hr, hw.trans ?_⟩
  rw [hw₁]

end Sending

section Taking

variable {j : κ} {k : ℕ}

theorem take_idle_some {length : ℕ} (hj : t.takers j = .idle) (hlength : length ≠ 0)
    (hr : t.ring.claim? (request c length) = some (span, ring)) :
    (t.next (.take j length)).history.session = t.history.session.grant (.reading span) ring ∧
      (t.next (.take j length)).history.ledger.withdrawals =
        t.history.ledger.withdrawals ++ [⟨some t.history.ledger.drafts.length, span, none⟩] ∧
      (t.next (.take j length)).takers j = .copying t.fresh := by
  unfold Traffic.ring at hr
  have hstep : t.history.session.step (.claim (request c length)) =
      (.granted span, [], t.history.session.grant (.reading span) ring) := by
    simp [Session.step, hr]
  simp [next, take, taker, answer, History.next, hj, hlength, hstep, Ledger.note]

theorem take_copying (length : ℕ) (hj : t.takers j = .copying k)
    (hk : t.history.session.held? k = some (.reading span)) :
    (t.next (.take j length)).history.session = t.history.session ∧
      (t.next (.take j length)).history.ledger.withdrawals =
        t.history.ledger.withdrawals.map (Withdrawal.mark k (t.ring.load span)) ∧
      (t.next (.take j length)).takers j = .releasing k := by
  simp [next, take, taker, History.next, Session.step, hj, hk, Ledger.note, Traffic.ring]

theorem take_releasing (length : ℕ) (hj : t.takers j = .releasing k)
    (hk : t.history.session.held? k = some (.reading span))
    (hr : t.ring.release? span = some ring) :
    (t.next (.take j length)).ring = ring ∧
      (t.next (.take j length)).history.ledger.withdrawals = t.history.ledger.withdrawals ∧
      (t.next (.take j length)).takers j = .idle := by
  unfold Traffic.ring at hr
  simp [next, take, taker, answer, History.next, Session.step, hj, hk, hr, Ledger.note,
    Traffic.ring]

/-- A poll that nobody disturbs is a poll of the ring, and what it delivers is entered as the last
copy. -/
theorem take_alone (hj : t.takers j = .idle) {dst buffer : Bytes} {n : ℕ}
    (hp : t.ring.poll? dst = some (n, buffer, ring)) :
    ∃ m, (t.run (List.replicate m (.take j dst.length))).ring = ring ∧
      (t.run (List.replicate m (.take j dst.length))).takers j = .idle ∧
      (n ≠ 0 → t.history.ledger.drafts.length = t.history.session.holdings.length →
        ∃ front w, w.copied = some (buffer.take n) ∧
        (t.run (List.replicate m (.take j dst.length))).history.ledger.withdrawals =
          front ++ [w]) := by
  obtain ⟨rfl, rfl, rfl⟩ | ⟨span, held, hdst, hr, hrel, rfl, rfl⟩ := poll?_eq_some hp
  · exact ⟨0, rfl, hj, fun h => absurd rfl h⟩
  have hlength : dst.length ≠ 0 := fun h => hdst (List.length_eq_zero_iff.mp h)
  obtain ⟨hs₁, hl₁, hj₁⟩ := take_idle_some hj hlength hr
  set t₁ := t.next (.take j dst.length) with ht₁
  have hk₁ : t₁.history.session.held? t.fresh = some (.reading span) := by
    rw [hs₁]
    exact (Session.held?_grant _ _).trans (if_pos rfl)
  have hring₁ : t₁.ring = held := congrArg Session.ring hs₁
  obtain ⟨hs₂, hl₂, hj₂⟩ := take_copying dst.length hj₁ hk₁
  set t₂ := t₁.next (.take j dst.length) with ht₂
  have hk₂ : t₂.history.session.held? t.fresh = some (.reading span) := by rw [hs₂]; exact hk₁
  have hring₂ : t₂.ring = held := (congrArg Session.ring hs₂).trans hring₁
  obtain ⟨hr₃, hl₃, hj₃⟩ := take_releasing dst.length hj₂ hk₂ (by rw [hring₂]; exact hrel)
  refine ⟨3, hr₃, hj₃, ?_⟩
  intro _ hd
  refine ⟨t.history.ledger.withdrawals.map (Withdrawal.mark t.fresh (held.load span)),
    ⟨some t.fresh, span, some (held.load span)⟩, ?_, ?_⟩
  · have hlen : (held.load span).length = span.length.toNat := by
      have hn := claim?_length hr
      have hreq := toNat_request_le c dst.length
      exact Slots.length_load _ _ (by omega)
    rw [List.take_append_of_le_length hlen.ge, List.take_of_length_le hlen.le]
  · change (t₂.next (.take j dst.length)).history.ledger.withdrawals = _
    rw [hl₃, hl₂, hl₁, hring₁, List.map_append, hd]
    simp [Withdrawal.mark, fresh]

end Taking

end EntropySupply.Ring.Traffic
