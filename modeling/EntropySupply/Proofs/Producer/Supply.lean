import EntropySupply.Producer.Run
import EntropySupply.Proofs.Producer.Answers

/-!
# What a producer supplies

A source that takes down its answers and a channel that takes down what it accepts show what a
producer passes on between the two. Main statement: `run_supplies`, the queue accepts a front part
of the whitened chunks, which ends inside the last one only if there was a reason to stop, and no
byte of a chunk that a failure broke off.
-/

namespace EntropySupply

/-- A line that takes down the answers of its source and what its channel accepts. -/
def Line.recorded {τ ε : Type} [Journal ε] (l : Line τ ε) : Line (Source.Asked τ) (Recorded ε) where
  source := l.source.recorded
  channel := l.channel.recorded fun _ => ([], [])
  room :=
    { room := fun r => l.room.room r.state
      offer_patience := fun r => l.room.offer_patience r.state
      offer_room := fun r => l.room.offer_room r.state }
  fill_noMore t r := l.fill_noMore t.source r.state
  cancelled_note n r := l.cancelled_note n r.state
  reachable_note n r := l.reachable_note n r.state
  isClosed_note n r := l.isClosed_note n r.state

namespace ProducerRun

def erased {τ ε : Type} (r : ProducerRun (Source.Asked τ) (Recorded ε)) : ProducerRun τ ε :=
  ⟨r.outcome, r.source.source, r.around.state⟩

end ProducerRun

namespace Producer

open Source (Answer Asked Whole Broken raw)

variable {τ ε : Type} [Journal ε] {p : Producer} {l : Line τ ε} {chunks written : ℕ}

section Rounds

variable {t : τ} {e : ε}

def nextChunk (p : Producer) (l : Line τ ε) (t : τ) (e : ε) : Bytes :=
  p.settings.whitening.apply (l.source.fetch t e p.chunkLength).buffer p.chunkLength

def fed (p : Producer) (l : Line τ ε) (t : τ) (e : ε) : Accepted ε :=
  l.channel.feed (l.source.fetch t e p.chunkLength).around (p.nextChunk l t e)

theorem runFrom_ended {stop : Ending} (h : ending? l.channel e = some stop) :
    p.runFrom l chunks written t e = finish l.source.name ⟨chunks, written, stop⟩ t e := by
  rw [runFrom]
  split
  · rename_i hstop
    rw [h] at hstop
    cases hstop
    rfl
  · simp_all

theorem runFrom_failed {err : Source.Failure} (h : ending? l.channel e = none)
    (hf : (l.source.fetch t e p.chunkLength).failure = some err) :
    p.runFrom l chunks written t e =
      let f := l.source.fetch t e p.chunkLength
      if l.channel.cancelled f.around then
        finish l.source.name ⟨chunks, written, .cancelled⟩ f.source f.around
      else
        ⟨.error err, f.source, Journal.note (failureNotice l.source.name written err) f.around⟩ := by
  rw [runFrom]
  split
  · simp_all
  · simp only [hf]

theorem runFrom_whole (h : ending? l.channel e = none)
    (hf : (l.source.fetch t e p.chunkLength).failure = none)
    (hm : (p.fed l t e).count = p.chunkLength) :
    p.runFrom l chunks written t e =
      p.runFrom l (chunks + 1) (written + (p.fed l t e).count)
        (l.source.fetch t e p.chunkLength).source (p.fed l t e).state := by
  rw [runFrom]
  split
  · simp_all
  · simp only [hf]
    exact dif_pos (hm.trans (Whitening.length_apply _ _ _).symm)

theorem runFrom_partial (h : ending? l.channel e = none)
    (hf : (l.source.fetch t e p.chunkLength).failure = none)
    (hm : (p.fed l t e).count ≠ p.chunkLength) :
    p.runFrom l chunks written t e =
      p.runFrom l chunks (written + (p.fed l t e).count)
        (l.source.fetch t e p.chunkLength).source
        (Journal.note (partialNotice p l.source.name (p.fed l t e).count)
          (p.fed l t e).state) := by
  rw [runFrom]
  split
  · simp_all
  · simp only [hf]
    exact dif_neg fun hall => hm (hall.trans (Whitening.length_apply _ _ _))

end Rounds

variable {t : Asked τ} {r : Recorded ε}

theorem fed_recorded (p : Producer) (l : Line τ ε) (t : Asked τ) (r : Recorded ε) :
    (p.fed l.recorded t r).count = (p.fed l t.source r.state).count ∧
      (p.fed l.recorded t r).state.state = (p.fed l t.source r.state).state ∧
      (p.fed l.recorded t r).count ≤ p.chunkLength ∧
      (p.fed l.recorded t r).state.sent =
        r.sent ++ (p.nextChunk l t.source r.state).take (p.fed l.recorded t r).count := by
  have hfetch : l.recorded.source.fetch t r p.chunkLength = _ :=
    Source.fetch_recorded l.source t r p.chunkLength
  have hfed : p.fed l.recorded t r = l.recorded.channel.feed
      { r with state := (l.source.fetch t.source r.state p.chunkLength).around }
      (p.nextChunk l t.source r.state) := by
    unfold fed nextChunk
    rw [hfetch]
    rfl
  rw [hfed]
  obtain ⟨hcount, hstate⟩ := Channel.feedFrom_recorded l.channel (fun _ => ([], [])) 0
    { r with state := (l.source.fetch t.source r.state p.chunkLength).around }
    (p.nextChunk l t.source r.state)
  obtain ⟨n, hsent, hn⟩ := Channel.feedFrom_sent l.channel (fun _ => ([], [])) 0
    { r with state := (l.source.fetch t.source r.state p.chunkLength).around }
    (p.nextChunk l t.source r.state)
  rw [Nat.zero_add] at hn
  have hle := hsent.le
  rw [nextChunk, Whitening.length_apply, ← hn] at hle
  refine ⟨hcount, hstate, hle, ?_⟩
  exact hsent.sent.trans (by rw [← hn]; rfl)

theorem runFrom_recorded (p : Producer) (l : Line τ ε) (chunks written : ℕ) (t : Asked τ)
    (r : Recorded ε) :
    (p.runFrom l.recorded chunks written t r).erased =
      p.runFrom l chunks written t.source r.state := by
  fun_induction p.runFrom l.recorded chunks written t r with
  | case1 chunks written t r stop hstop =>
    have hstop : ending? l.channel r.state = some stop := hstop
    rw [runFrom_ended hstop]
    rfl
  | case2 chunks written t r hgo f err hf hc =>
    have hgo : ending? l.channel r.state = none := hgo
    have hfetch : f = _ := Source.fetch_recorded l.source t r p.chunkLength
    rw [hfetch] at hf hc
    rw [runFrom_failed hgo hf, hfetch]
    exact (if_pos hc).symm
  | case3 chunks written t r hgo f err hf hc =>
    have hgo : ending? l.channel r.state = none := hgo
    have hfetch : f = _ := Source.fetch_recorded l.source t r p.chunkLength
    rw [hfetch] at hf hc
    rw [runFrom_failed hgo hf, hfetch]
    exact (if_neg hc).symm
  | case4 chunks written t r hgo f hf out m hm ih =>
    have hgo : ending? l.channel r.state = none := hgo
    have hfetch : f = _ := Source.fetch_recorded l.source t r p.chunkLength
    obtain ⟨hcount, hstate, -, -⟩ := fed_recorded p l t r
    have hm : m.count = p.chunkLength := hm.trans (Whitening.length_apply _ _ _)
    rw [hfetch] at hf
    rw [runFrom_whole hgo hf (hcount.symm.trans hm), ih, hfetch, ← hcount, ← hstate]
    rfl
  | case5 chunks written t r hgo f hf out m hm ih =>
    have hgo : ending? l.channel r.state = none := hgo
    have hfetch : f = _ := Source.fetch_recorded l.source t r p.chunkLength
    obtain ⟨hcount, hstate, -, -⟩ := fed_recorded p l t r
    have hm : m.count ≠ p.chunkLength := fun hall =>
      hm (hall.trans (Whitening.length_apply _ _ _).symm)
    rw [hfetch] at hf
    rw [runFrom_partial hgo hf (hcount.symm.trans_ne hm), ih, hfetch, ← hcount, ← hstate]
    rfl

/-- The bytes that chunks with these answers become, one after another. -/
def supply (p : Producer) (fetched : List (List Answer)) : Bytes :=
  (fetched.map fun answers => p.settings.whitening.apply (raw answers) p.chunkLength).flatten

theorem supply_snoc (p : Producer) (fetched : List (List Answer)) (answers : List Answer) :
    p.supply (fetched ++ [answers]) =
      p.supply fetched ++ p.settings.whitening.apply (raw answers) p.chunkLength := by
  simp [supply]

theorem length_supply (p : Producer) (fetched : List (List Answer)) :
    (p.supply fetched).length = fetched.length * p.chunkLength := by
  induction fetched using List.reverseRecOn with
  | nil => simp [supply]
  | append_singleton fetched answers ih =>
    rw [supply_snoc, List.length_append, ih, Whitening.length_apply, List.length_append,
      List.length_singleton, Nat.succ_mul]

/-- Of the chunks that were fetched whole, `chunks` were written whole, and perhaps a part of one
more; `written` bytes were accepted in all. -/
structure Supplied (p : Producer) (l : Line τ ε) (fetched : List (List Answer))
    (chunks written : ℕ) (sent : Bytes) : Prop where
  whole : ∀ answers ∈ fetched, Whole (max l.source.maxRequest 1) p.chunkLength answers
  sent_eq : sent = (p.supply fetched).take written
  part : ∃ part < p.chunkLength, written = chunks * p.chunkLength + part ∧
    (fetched.length = chunks ∧ part = 0 ∨ fetched.length = chunks + 1)

/-- A run has come this far, and goes on unless it has written a part of a chunk. -/
structure Underway (p : Producer) (l : Line τ ε) (fetched : List (List Answer))
    (chunks written : ℕ) (t : Asked τ) (r : Recorded ε) : Prop where
  answers : t.answers = fetched.flatten
  supplied : p.Supplied l fetched chunks written r.sent
  going : ending? l.channel r.state = none → fetched.length = chunks

namespace Underway

variable {fetched : List (List Answer)}

/-- As long as there is no reason to stop, all chunks were written whole. -/
theorem level (h : p.Underway l fetched chunks written t r)
    (hgo : ending? l.channel r.state = none) :
    written = chunks * p.chunkLength ∧ r.sent = p.supply fetched := by
  obtain ⟨part, -, hwritten, hpart⟩ := h.supplied.part
  have hlen := h.going hgo
  have hnone : part = 0 := by omega
  rw [hnone, Nat.add_zero] at hwritten
  refine ⟨hwritten, ?_⟩
  rw [h.supplied.sent_eq, List.take_of_length_le]
  rw [length_supply, hlen, hwritten]

theorem sent_next (h : p.Underway l fetched chunks written t r)
    (hgo : ending? l.channel r.state = none)
    (hf : (l.source.fetch t.source r.state p.chunkLength).failure = none) :
    (p.fed l.recorded t r).state.sent =
      (p.supply (fetched ++ [l.source.chunkAnswers t.source r.state p.chunkLength])).take
        (written + (p.fed l.recorded t r).count) := by
  obtain ⟨hwritten, hsent⟩ := h.level hgo
  obtain ⟨-, -, -, hfed⟩ := fed_recorded p l t r
  obtain ⟨-, hraw⟩ := Source.chunkAnswers_whole hf
  have hlen : (p.supply fetched).length = written := by
    rw [length_supply, hwritten, h.going hgo]
  rw [hfed, hsent, supply_snoc, hraw, ← hlen, List.take_length_add_append]
  rfl

theorem whole_next (h : p.Underway l fetched chunks written t r)
    (hf : (l.source.fetch t.source r.state p.chunkLength).failure = none) :
    ∀ answers ∈ fetched ++ [l.source.chunkAnswers t.source r.state p.chunkLength],
      Whole (max l.source.maxRequest 1) p.chunkLength answers := by
  intro answers hmem
  rcases List.mem_append.mp hmem with hmem | hmem
  · exact h.supplied.whole answers hmem
  · rw [List.mem_singleton.mp hmem]
    exact (Source.chunkAnswers_whole hf).1

theorem answers_next (h : p.Underway l fetched chunks written t r) :
    (l.recorded.source.fetch t r p.chunkLength).source.answers =
      (fetched ++ [l.source.chunkAnswers t.source r.state p.chunkLength]).flatten := by
  rw [show l.recorded.source = l.source.recorded from rfl, Source.fetch_recorded]
  simp [Source.takenDown, h.answers]

theorem next (h : p.Underway l fetched chunks written t r)
    (hgo : ending? l.channel r.state = none)
    (hf : (l.source.fetch t.source r.state p.chunkLength).failure = none)
    (hm : (p.fed l.recorded t r).count = p.chunkLength) :
    p.Underway l (fetched ++ [l.source.chunkAnswers t.source r.state p.chunkLength])
      (chunks + 1) (written + (p.fed l.recorded t r).count)
      (l.recorded.source.fetch t r p.chunkLength).source (p.fed l.recorded t r).state := by
  have hlen := h.going hgo
  obtain ⟨hwritten, -⟩ := h.level hgo
  refine ⟨h.answers_next, ⟨h.whole_next hf, h.sent_next hgo hf, 0, p.chunkLength_pos, ?_, ?_⟩, ?_⟩
  · rw [hm, hwritten, Nat.succ_mul, Nat.add_zero]
  · exact .inl ⟨by rw [List.length_append, hlen]; rfl, rfl⟩
  · intro _
    rw [List.length_append, hlen]
    rfl

/-- A chunk that is not written whole is the last one. -/
theorem last (h : p.Underway l fetched chunks written t r)
    (hgo : ending? l.channel r.state = none)
    (hf : (l.source.fetch t.source r.state p.chunkLength).failure = none)
    (hm : (p.fed l.recorded t r).count ≠ p.chunkLength) (note : Notice) :
    p.Underway l (fetched ++ [l.source.chunkAnswers t.source r.state p.chunkLength])
      chunks (written + (p.fed l.recorded t r).count)
      (l.recorded.source.fetch t r p.chunkLength).source
      (Journal.note note (p.fed l.recorded t r).state) := by
  have hlen := h.going hgo
  obtain ⟨hwritten, -⟩ := h.level hgo
  obtain ⟨-, -, hle, -⟩ := fed_recorded p l t r
  refine ⟨h.answers_next, ⟨h.whole_next hf, h.sent_next hgo hf,
    (p.fed l.recorded t r).count, by omega, by rw [hwritten], .inr ?_⟩, ?_⟩
  · rw [List.length_append, hlen]
    rfl
  · intro hnone
    have hstop : (ending? l.recorded.channel (p.fed l.recorded t r).state).isSome = true :=
      feed_ending fun hall => hm (hall.trans (Whitening.length_apply _ _ _))
    have hnone : ending? l.recorded.channel
        (Journal.note note (p.fed l.recorded t r).state) = none := hnone
    rw [ending?_note] at hnone
    rw [hnone] at hstop
    cases hstop

end Underway

/-- What a finished run shows: the queue has accepted the first bytes of the chunks, and the answers
behind those of the chunks are of one that a failure broke off. -/
def Accounted (p : Producer) (l : Line τ ε) (fetched : List (List Answer)) (broken : List Answer)
    (x : ProducerRun (Asked τ) (Recorded ε)) : Prop :=
  match x.outcome with
  | .ok report =>
    p.Supplied l fetched report.chunks report.bytesWritten x.around.sent ∧
      ending? l.channel x.around.state = some report.stop ∧
      (broken = [] ∨ fetched.length = report.chunks ∧ report.stop = .cancelled ∧
        ∃ err, Broken (max l.source.maxRequest 1) p.chunkLength err broken)
  | .error err =>
    (∀ answers ∈ fetched, Whole (max l.source.maxRequest 1) p.chunkLength answers) ∧
      x.around.sent = p.supply fetched ∧ l.channel.cancelled x.around.state = false ∧
      Broken (max l.source.maxRequest 1) p.chunkLength err broken

theorem runFrom_accounted (p : Producer) (l : Line τ ε) (chunks written : ℕ) (t : Asked τ)
    (r : Recorded ε) :
    ∀ fetched, p.Underway l fetched chunks written t r → ∃ fetched' broken,
      (p.runFrom l.recorded chunks written t r).source.answers = fetched'.flatten ++ broken ∧
        p.Accounted l fetched' broken (p.runFrom l.recorded chunks written t r) := by
  fun_induction p.runFrom l.recorded chunks written t r with
  | case1 chunks written t r stop hstop =>
    intro fetched h
    refine ⟨fetched, [], h.answers.trans (List.append_nil _).symm, h.supplied, ?_, .inl rfl⟩
    exact (ending?_note l.recorded _ r).trans hstop
  | case2 chunks written t r hgo f err hf hc =>
    intro fetched h
    have hfetch : f = _ := Source.fetch_recorded l.source t r p.chunkLength
    have hstop : ending? l.recorded.channel f.around = some .cancelled := if_pos hc
    rw [hfetch] at hf
    refine ⟨fetched, l.source.chunkAnswers t.source r.state p.chunkLength, ?_, ?_, ?_,
      .inr ⟨h.going hgo, rfl, err, Source.chunkAnswers_broken hf⟩⟩
    · rw [hfetch, ← h.answers]
      rfl
    · rw [hfetch]
      exact h.supplied
    · exact (ending?_note l.recorded _ f.around).trans hstop
  | case3 chunks written t r hgo f err hf hc =>
    intro fetched h
    have hfetch : f = _ := Source.fetch_recorded l.source t r p.chunkLength
    rw [hfetch] at hf
    refine ⟨fetched, l.source.chunkAnswers t.source r.state p.chunkLength, ?_, h.supplied.whole, ?_,
      ?_, Source.chunkAnswers_broken hf⟩
    · rw [hfetch, ← h.answers]
      rfl
    · rw [hfetch]
      exact (h.level hgo).2
    · exact (l.recorded.cancelled_note _ f.around).trans (Bool.eq_false_of_not_eq_true hc)
  | case4 chunks written t r hgo f hf out m hm ih =>
    intro fetched h
    have hfetch : f = _ := Source.fetch_recorded l.source t r p.chunkLength
    rw [hfetch] at hf
    exact ih _ (h.next hgo hf (hm.trans (Whitening.length_apply _ _ _)))
  | case5 chunks written t r hgo f hf out m hm ih =>
    intro fetched h
    have hfetch : f = _ := Source.fetch_recorded l.source t r p.chunkLength
    have hpart : m.count ≠ p.chunkLength := fun hall =>
      hm (hall.trans (Whitening.length_apply _ _ _).symm)
    rw [hfetch] at hf
    exact ih _ (h.last hgo hf hpart _)

/-- Whatever the source answers and whatever happens meanwhile, a run passes on the chunks that it
fetched, in their order and from their first byte on, and asks for nothing behind a chunk that it
could not write whole. -/
theorem run_supplies (p : Producer) (l : Line τ ε) (t : τ) (e : ε) :
    (p.run l.recorded { source := t } { state := e }).erased = p.run l t e ∧
      ∃ fetched broken,
        (p.run l.recorded { source := t } { state := e }).source.answers =
            fetched.flatten ++ broken ∧
          p.Accounted l fetched broken (p.run l.recorded { source := t } { state := e }) := by
  constructor
  · exact runFrom_recorded p l 0 0 _ _
  · apply runFrom_accounted p l 0 0 _ _ []
    refine ⟨rfl, ⟨?_, rfl, 0, p.chunkLength_pos, by rw [Nat.zero_mul], .inl ⟨rfl, rfl⟩⟩, fun _ => rfl⟩
    intro answers hmem
    cases hmem

end Producer

end EntropySupply
