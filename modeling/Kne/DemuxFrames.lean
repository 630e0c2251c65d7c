import Kne.DemuxLife

/-!
What the subscribers of a demux receive. Each channel is a bounded mailbox to which the read
loop offers the frames it broadcasts while the channel is a listener; the frames a subscriber
misses are those that met a full queue, `droppedFrames` counts them over all channels, and
a subscriber that does not read changes nothing for another.
-/

namespace Kne.DemuxFrames

open Kne.Mailbox Kne.Runs Kne.DemuxModel Kne.DemuxLife

/-- The frames the subscriber has received or has still queued. -/
def delivered (s : St) (c : ℕ) : List Frame := (s.chans c).box.taken ++ (s.chans c).box.queue

/-- The frames broadcast while the channel was subscribed. -/
def window (s : St) (c : ℕ) : List Frame :=
  (s.log.take ((s.chans c).upto.getD s.log.length)).drop (s.chans c).since

/-- The frame being broadcast, for a listener the loop has not come to. -/
def due (s : St) (c : ℕ) : List Frame :=
  match s.loop with
  | .sending pkt todo => if c ∈ todo then [pkt] else []
  | _ => []

/-- The frames dropped, over all channels. -/
def totalDropped (s : St) : ℕ :=
  ∑ c ∈ Finset.range s.next, (s.chans c).box.dropped channelBufferCap

/-- A channel with its stretch of a log of length `n`. -/
structure Stretch (ch : Chan) (n : ℕ) : Prop where
  since : ch.since ≤ n
  upto : ∀ m, ch.upto = some m → ch.since ≤ m ∧ m ≤ n
  closed : ch.upto = none ↔ ch.closed = false

structure Frames (s : St) : Prop where
  box : ∀ c, Conserved channelBufferCap (s.chans c).box
  stretch : ∀ c < s.next, Stretch (s.chans c) s.log.length
  share : ∀ c < s.next, (s.chans c).box.offers.map Prod.fst ++ due s c = window s c
  dropped : s.droppedFrames = UInt64.ofNat (totalDropped s)

lemma frames_init : Frames {} where
  box c := conserved_empty _
  stretch c h := by simp at h
  share c h := by simp at h
  dropped := by simp [totalDropped]

lemma due_of_unlocked {s : St} (h : s.loop.locked = false) (c : ℕ) : due s c = [] := by
  unfold due
  cases hl : s.loop <;> simp_all [Loop.locked]

lemma window_of_open {s : St} {c : ℕ} (h : (s.chans c).upto = none) :
    window s c = s.log.drop (s.chans c).since := by simp [window, h]

lemma stretch_close {ch : Chan} {n : ℕ} (h : Stretch ch n) :
    Stretch { ch with closed := true, upto := some n } n where
  since := h.since
  upto m hm := by cases hm; exact ⟨h.since, le_refl _⟩
  closed := by simp

lemma stretch_mono {ch : Chan} {n m : ℕ} (h : Stretch ch n) (hnm : n ≤ m) : Stretch ch m where
  since := h.since.trans hnm
  upto k hk := ⟨(h.upto k hk).1, (h.upto k hk).2.trans hnm⟩
  closed := h.closed

lemma totalDropped_update {s : St} {c : ℕ} {ch : Chan} {d : ℕ} (hc : c < s.next)
    (hd : ch.box.dropped channelBufferCap = (s.chans c).box.dropped channelBufferCap + d)
    {t : St} (hn : t.next = s.next) (ht : t.chans = Function.update s.chans c ch) :
    totalDropped t = totalDropped s + d := by
  have hpt : ∀ e, (t.chans e).box.dropped channelBufferCap =
      (s.chans e).box.dropped channelBufferCap + if e = c then d else 0 := by
    intro e
    rw [ht]
    by_cases he : e = c
    · subst he; simp [hd]
    · simp [he]
  unfold totalDropped
  rw [hn, Finset.sum_congr rfl fun e _ => hpt e, Finset.sum_add_distrib,
    Finset.sum_ite_eq' (Finset.range s.next) c, if_pos (Finset.mem_range.mpr hc)]

lemma totalDropped_congr {s t : St} (hn : t.next = s.next)
    (h : ∀ c, (t.chans c).box = (s.chans c).box) : totalDropped t = totalDropped s := by
  unfold totalDropped
  rw [hn]
  exact Finset.sum_congr rfl fun c _ => by rw [h c]

lemma frames_close {s t : St} (hf : Frames s) (hs : s.loop.locked = false)
    (ht : t.loop.locked = false) (hn : t.next = s.next) (hlog : t.log = s.log)
    (hd : t.droppedFrames = s.droppedFrames)
    (hch : ∀ c, t.chans c = s.chans c ∨ c < s.next ∧ (s.chans c).closed = false ∧
      t.chans c = { s.chans c with closed := true, upto := some s.log.length }) :
    Frames t := by
  have hbox : ∀ c, (t.chans c).box = (s.chans c).box := by
    intro c
    rcases hch c with h | ⟨-, -, h⟩ <;> simp [h]
  refine ⟨fun c => ?_, fun c hc => ?_, fun c hc => ?_, ?_⟩
  · rw [hbox c]; exact hf.box c
  · rw [hlog]
    rw [hn] at hc
    rcases hch c with h | ⟨-, -, h⟩
    · rw [h]; exact hf.stretch c hc
    · rw [h]; exact stretch_close (hf.stretch c hc)
  · rw [hn] at hc
    have hshare := hf.share c hc
    rw [due_of_unlocked hs] at hshare
    rw [due_of_unlocked ht, hbox c, hshare]
    rcases hch c with h | ⟨-, ho, h⟩
    · simp [window, h, hlog]
    · simp [window, h, hlog, (hf.stretch c hc).closed.mpr ho]
  · rw [hd, hf.dropped, totalDropped_congr hn hbox]

lemma frames_offer {s t : St} (hl : Life s) (hf : Frames s) {pkt : Frame} {todo : List ℕ} {c : ℕ}
    (hs : s.loop = .sending pkt todo) (hc : c ∈ todo)
    (hch : t.chans = Function.update s.chans c
      { s.chans c with box := (s.chans c).box.offer channelBufferCap pkt })
    (hn : t.next = s.next) (hlog : t.log = s.log) (hloop : t.loop = .sending pkt (todo.erase c))
    (hd : t.droppedFrames = if (s.chans c).box.queue.length < channelBufferCap
      then s.droppedFrames else s.droppedFrames + 1) : Frames t := by
  obtain ⟨htn, hsub⟩ := hl.todo pkt todo hs
  have hlt : c < s.next := ((hl.mem c).mp (hsub c hc)).1
  refine ⟨fun e => ?_, fun e he => ?_, fun e he => ?_, ?_⟩
  · rw [hch]
    by_cases hec : e = c
    · subst hec; simpa using (hf.box e).offer pkt
    · simpa [hec] using hf.box e
  · rw [hn] at he
    rw [hch, hlog]
    by_cases hec : e = c
    · subst hec
      have := hf.stretch e he
      exact ⟨by simpa using this.since, by simpa using this.upto, by simpa using this.closed⟩
    · simpa [hec] using hf.stretch e he
  · rw [hn] at he
    have hshare := hf.share e he
    by_cases hec : e = c
    · subst hec
      simpa [due, hs, hloop, hc, htn.mem_erase_iff, window, hch, hlog, Box.offer] using hshare
    · simpa [due, hs, hloop, htn.mem_erase_iff, hec, window, hch, hlog] using hshare
  · have hdrop := dropped_offer channelBufferCap (s.chans c).box pkt
    rw [totalDropped_update hlt hdrop hn hch, hd, hf.dropped]
    by_cases hq : (s.chans c).box.queue.length < channelBufferCap
    · simp [hq]
    · simp [hq, UInt64.ofNat_add]

lemma frames_broadcast {s : St} (hl : Life s) (hf : Frames s) {pkt : Frame}
    (hs : s.loop = .read pkt) : Frames { s with
      loop := .sending pkt s.listeners, log := s.log ++ [pkt] } := by
  obtain ⟨hbox, hst, hsh, hdr⟩ := hf
  refine ⟨hbox, fun c hlt => ?_, fun c hlt => ?_, hdr⟩
  · exact stretch_mono (hst c hlt) (by simp)
  · have hshare := hsh c hlt
    rw [due_of_unlocked (by simp [hs, Loop.locked]), List.append_nil] at hshare
    by_cases hm : c ∈ s.listeners
    · -- a listener: its window is open and grows by the frame
      have ho := (hst c hlt).closed.mpr ((hl.mem c).mp hm).2
      rw [window_of_open ho] at hshare
      rw [window_of_open (s := { s with
        loop := .sending pkt s.listeners, log := s.log ++ [pkt] }) ho]
      simp only [due, hm, if_true, hshare]
      rw [List.drop_append_of_le_length (hst c hlt).since]
    · -- a closed channel: its window is fixed
      have hcl : (s.chans c).closed = true := by
        have := hl.mem c
        simp only [hm, hlt, true_and, false_iff, Bool.not_eq_false] at this
        exact this
      obtain ⟨m, hu⟩ : ∃ m, (s.chans c).upto = some m := by
        rw [← Option.ne_none_iff_exists', ne_eq, (hst c hlt).closed, hcl]
        simp
      have hle := ((hst c hlt).upto m hu).2
      simp [due, hm, window, hu, hshare, List.take_append_of_le_length hle]

lemma frames_subscribe {s : St} (hf : Frames s) (hlk : s.loop.locked = false) : Frames { s with
    listeners := s.listeners ++ [s.next]
    next := s.next + 1
    chans := Function.update s.chans s.next { since := s.log.length } } := by
  obtain ⟨hbox, hst, hsh, hdr⟩ := hf
  refine ⟨fun e => ?_, fun e he => ?_, fun e he => ?_, ?_⟩
  · by_cases hen : e = s.next
    · subst hen; simpa using conserved_empty _
    · simpa [hen] using hbox e
  · by_cases hen : e = s.next
    · subst hen
      exact ⟨by simp, by simp, by simp⟩
    · simpa [hen] using hst e (by simp only at he; omega)
  · have hd : due { s with
        listeners := s.listeners ++ [s.next]
        next := s.next + 1
        chans := Function.update s.chans s.next { since := s.log.length } } e = [] :=
      due_of_unlocked hlk e
    rw [hd]
    by_cases hen : e = s.next
    · subst hen; simp [window]
    · have hshare := hsh e (by simp only at he; omega)
      rw [due_of_unlocked hlk] at hshare
      simpa [hen, window] using hshare
  · refine hdr.trans (congrArg UInt64.ofNat ?_)
    have hold : ∀ e ∈ Finset.range s.next,
        (Function.update s.chans s.next { since := s.log.length } e).box.dropped
          channelBufferCap = (s.chans e).box.dropped channelBufferCap := by
      intro e he
      rw [Function.update_of_ne (Finset.mem_range.mp he).ne]
    simp only [totalDropped]
    rw [Finset.sum_range_succ, Finset.sum_congr rfl hold]
    simp [Box.dropped]

lemma frames_receive {s : St} (hf : Frames s) (c : ℕ) : Frames (receive s c) := by
  obtain ⟨hbox, hst, hsh, hdr⟩ := hf
  refine ⟨fun e => ?_, fun e he => ?_, fun e he => ?_, ?_⟩
  · by_cases hec : e = c
    · subst hec; simpa [receive] using (hbox e).take
    · simpa [receive, hec] using hbox e
  · by_cases hec : e = c
    · subst hec
      have := hst e he
      exact ⟨by simpa [receive] using this.since, by simpa [receive] using this.upto,
        by simpa [receive] using this.closed⟩
    · simpa [receive, hec] using hst e he
  · have hshare := hsh e he
    by_cases hec : e = c
    · subst hec
      simpa [receive, due, window] using hshare
    · simpa [receive, hec, due, window] using hshare
  · have hrest : totalDropped (receive s c) = totalDropped s := by
      unfold totalDropped receive
      refine Finset.sum_congr rfl fun e _ => ?_
      by_cases hec : e = c
      · subst hec; simp
      · simp [hec]
    rw [hrest]; exact hdr

lemma frames_step {s t : St} {a : Act} (hl : Life s) (hf : Frames s) (h : Does s a t) :
    Frames t := by
  have hframes := hf
  obtain ⟨hbox, hst, hsh, hdr⟩ := hf
  cases h with
  | move a l hs hl' ha =>
    have h1 : s.loop.locked = false := by rcases hs with h | ⟨pkt, h⟩ <;> simp [h, Loop.locked]
    have h2 : l.locked = false := by
      rcases hl' with rfl | rfl | ⟨pkt, rfl⟩ <;> rfl
    exact frames_close hframes h1 h2 rfl rfl rfl fun c => Or.inl rfl
  | broadcast pkt hs hc => exact frames_broadcast hl hframes hs
  | offer pkt todo c hs hc =>
    have he := offer_eq hl hs hc
    exact frames_offer hl hframes hs hc (by simp only [he]) (by simp only [he]) (by simp only [he])
      rfl (by simp only [he])
  | unlock pkt hs =>
    refine ⟨hbox, hst, fun c hlt => ?_, hdr⟩
    simpa [due, hs, window] using hsh c hlt
  | deferCancel hs =>
    exact frames_close hframes (by simp [hs, Loop.locked]) rfl rfl rfl rfl fun c => Or.inl rfl
  | teardown hs =>
    rw [teardown_eq hl]
    refine frames_close hframes (by simp [hs, Loop.locked]) rfl rfl rfl rfl fun c => ?_
    by_cases hm : c ∈ s.listeners
    · exact Or.inr ⟨((hl.mem c).mp hm).1, ((hl.mem c).mp hm).2, by simp [hm]⟩
    · exact Or.inl (by simp [hm])
  | cancel => exact ⟨hbox, hst, hsh, hdr⟩
  | refused => exact hframes
  | subscribe hlk hc hlen => exact frames_subscribe hframes hlk
  | unsubscribe hlk c =>
    by_cases hm : c ∈ s.listeners
    · rw [unsubscribe_eq hl hm]
      refine frames_close hframes hlk hlk rfl rfl rfl fun e => ?_
      by_cases hec : e = c
      · subst hec
        exact Or.inr ⟨((hl.mem e).mp hm).1, ((hl.mem e).mp hm).2, by simp⟩
      · exact Or.inl (by simp [hec])
    · rw [show unsubscribe s c = s by simp [unsubscribe, hm]]
      exact hframes
  | receive c hq => exact frames_receive hframes c

lemma frames_run {ifaceName : String} {as : List Act} {s : St}
    (h : run (step ifaceName) {} as = some s) : Frames s :=
  (run_inv (P := fun s => Life s ∧ Frames s)
    (fun _ _ _ hp hst =>
      ⟨life_step hp.1 (step_does hst), frames_step hp.1 hp.2 (step_does hst)⟩)
    ⟨life_init, frames_init⟩ h).2

/-! ### Slow subscribers -/

/-- The states agree up to the mailboxes of the slow channels and the count of dropped frames. -/
structure Alike (slow : ℕ → Bool) (s t : St) : Prop where
  loop : t.loop = s.loop
  cancelled : t.cancelled = s.cancelled
  closed : t.closed = s.closed
  listeners : t.listeners = s.listeners
  next : t.next = s.next
  log : t.log = s.log
  panic : t.panic = s.panic
  shut : ∀ c, (t.chans c).closed = (s.chans c).closed
  chans : ∀ c, slow c = false → t.chans c = s.chans c

/-- The reads of the slow channels are not kept. -/
def keeps (slow : ℕ → Bool) : Act → Bool
  | .receive c => !slow c
  | _ => true

lemma alike_update {slow : ℕ → Bool} {s t : St} (h : Alike slow s t) {c : ℕ} {ch ch' : Chan}
    (hcl : ch'.closed = ch.closed) (hch : slow c = false → ch' = ch) (d d' : UInt64) :
    Alike slow { s with chans := Function.update s.chans c ch, droppedFrames := d }
      { t with chans := Function.update t.chans c ch', droppedFrames := d' } := by
  refine { h with shut := fun e => ?_, chans := fun e he => ?_ }
  · by_cases hec : e = c
    · subst hec; simpa using hcl
    · simpa [hec] using h.shut e
  · by_cases hec : e = c
    · subst hec; simpa using hch he
    · simpa [hec] using h.chans e he

lemma alike_closeChan {slow : ℕ → Bool} {s t : St} (h : Alike slow s t) (c : ℕ) :
    Alike slow (closeChan s c) (closeChan t c) := by
  have hsh := h.shut c
  by_cases hc : (s.chans c).closed = true
  · rw [closeChan, closeChan, if_pos hc, if_pos (hsh.trans hc)]
    exact { h with panic := rfl }
  · rw [closeChan, closeChan, if_neg hc, if_neg (by rwa [hsh])]
    refine alike_update h ?_ (fun he => ?_) _ _
    · rfl
    · rw [h.chans c he, h.log]

lemma alike_foldl_closeChan {slow : ℕ → Bool} (l : List ℕ) {s t : St} (h : Alike slow s t) :
    Alike slow (l.foldl closeChan s) (l.foldl closeChan t) := by
  induction l generalizing s t with
  | nil => exact h
  | cons c l ih => exact ih (alike_closeChan h c)

lemma alike_teardown {slow : ℕ → Bool} {s t : St} (h : Alike slow s t) :
    Alike slow (teardown s) (teardown t) := by
  have hf : Alike slow (s.listeners.foldl closeChan { s with closed := true })
      (t.listeners.foldl closeChan { t with closed := true }) := by
    have he : ∀ u, t.listeners.foldl closeChan u = s.listeners.foldl closeChan u := fun u => by
      rw [h.listeners]
    rw [he]
    exact alike_foldl_closeChan s.listeners { h with closed := rfl }
  exact { hf with listeners := rfl }

lemma alike_offer {slow : ℕ → Bool} {s t : St} (h : Alike slow s t) (pkt : Frame) (c : ℕ) :
    Alike slow (offer s pkt c) (offer t pkt c) := by
  by_cases hc : (s.chans c).closed = true
  · have hc' : (t.chans c).closed = true := (h.shut c).trans hc
    simp only [offer, hc, hc', if_true]
    exact { h with panic := rfl }
  · have hc' : ¬ (t.chans c).closed = true := by rwa [h.shut c]
    simp only [offer, if_neg hc, if_neg hc']
    refine alike_update h ?_ (fun he => ?_) _ _
    · exact h.shut c
    · rw [h.chans c he]

lemma alike_step {slow : ℕ → Bool} {ifaceName : String} {s s' t : St} {a : Act}
    (h : Alike slow s s') (ha : keeps slow a = true) (hst : step ifaceName s a = some t) :
    ∃ t', step ifaceName s' a = some t' ∧ Alike slow t t' := by
  unfold step at hst
  split at hst
  · cases hst
  rename_i hp
  have hp' : s'.panic.isSome = false := by simpa [h.panic] using hp
  split at hst
  case h_1 pkt hs =>
    split_ifs at hst with hc <;> cases hst
    · exact ⟨{ s' with loop := .returning },
        by simp [step, hp', h.loop, hs, h.cancelled, hc], { h with loop := rfl }⟩
    · exact ⟨{ s' with loop := .read pkt },
        by simp [step, hp', h.loop, hs, h.cancelled, hc], { h with loop := rfl }⟩
  case h_2 netDown hs =>
    split_ifs at hst with hc <;> cases hst <;> rw [← h.cancelled] at hc
    · exact ⟨{ s' with loop := .returning },
        by simp only [step, hp', h.loop, hs, hc]; rfl, { h with loop := rfl }⟩
    · exact ⟨s', by simp only [step, hp', h.loop, hs, hc]; rfl, h⟩
  case h_3 pkt hs =>
    split_ifs at hst with hc <;> cases hst
    · exact ⟨{ s' with loop := .returning },
        by simp [step, hp', h.loop, hs, h.closed, hc], { h with loop := rfl }⟩
    · exact ⟨{ s' with loop := .sending pkt s'.listeners, log := s'.log ++ [pkt] },
        by simp [step, hp', h.loop, hs, h.closed, hc],
        { h with loop := by rw [h.listeners], log := by rw [h.log] }⟩
  case h_4 c pkt todo hs =>
    split_ifs at hst with hc
    cases hst
    exact ⟨{ offer s' pkt c with loop := .sending pkt (todo.erase c) },
      by simp [step, hp', h.loop, hs, hc], { alike_offer h pkt c with loop := rfl }⟩
  case h_5 pkt hs =>
    cases hst
    exact ⟨{ s' with loop := .reading }, by simp [step, hp', h.loop, hs], { h with loop := rfl }⟩
  case h_6 hs =>
    cases hst
    exact ⟨{ s' with loop := .cancelled, cancelled := true }, by simp [step, hp', h.loop, hs],
      { h with loop := rfl, cancelled := rfl }⟩
  case h_7 hs =>
    cases hst
    exact ⟨{ teardown s' with loop := .torn }, by simp [step, hp', h.loop, hs],
      { alike_teardown h with loop := rfl }⟩
  case h_8 =>
    cases hst
    exact ⟨{ s' with cancelled := true }, by simp [step, hp'], { h with cancelled := rfl }⟩
  case h_9 =>
    split at hst
    · cases hst
    rename_i hl
    unfold subscribe at hst
    split_ifs at hst with h1 h2
    · cases hst
      exact ⟨s', by simp [step, hp', subscribe, h.loop, hl, h.closed, h.cancelled, h1], h⟩
    · cases hst
      refine ⟨s', ?_, h⟩
      simp [step, hp', subscribe, h.loop, hl, h.closed, h.cancelled, h1, h.listeners, h2]
    · cases hst
      refine ⟨{ s' with
        listeners := s'.listeners ++ [s'.next]
        next := s'.next + 1
        chans := Function.update s'.chans s'.next { since := s'.log.length } },
        by simp [step, hp', subscribe, h.loop, hl, h.closed, h.cancelled, h1, h.listeners, h2], ?_⟩
      rw [h.next, h.log]
      have hu := alike_update h (c := s.next) (rfl : ({ since := s.log.length } : Chan).closed = _)
        (fun _ => rfl) s.droppedFrames s'.droppedFrames
      exact { hu with listeners := by rw [h.listeners], next := rfl, log := rfl }
  case h_10 _ _ c =>
    split_ifs at hst with hl
    cases hst
    refine ⟨unsubscribe s' c, by simp [step, hp', h.loop, hl], ?_⟩
    by_cases hm : c ∈ s.listeners
    · rw [unsubscribe, unsubscribe, if_pos hm, if_pos (by rwa [h.listeners])]
      refine alike_closeChan ?_ c
      exact { h with listeners := congrArg (List.erase · c) h.listeners }
    · rw [unsubscribe, unsubscribe, if_neg hm, if_neg (by rwa [h.listeners])]
      exact h
  case h_11 _ _ c =>
    have hc : slow c = false := by simpa [keeps] using ha
    split_ifs at hst with hq
    cases hst
    refine ⟨receive s' c, by simp [step, hp', h.chans c hc, hq], ?_⟩
    refine alike_update h ?_ (fun he => ?_) _ _
    · exact h.shut c
    · rw [h.chans c hc]
  case h_12 => cases hst

lemma alike_slow {slow : ℕ → Bool} {ifaceName : String} {s s' t : St} {a : Act}
    (h : Alike slow s s') (ha : keeps slow a = false) (hst : step ifaceName s a = some t) :
    Alike slow t s' := by
  obtain ⟨c, rfl, hc⟩ : ∃ c, a = .receive c ∧ slow c = true := by
    cases a <;> simp_all [keeps]
  cases step_does hst with
  | move _ l hs hl' ha => simp at ha
  | receive c hq =>
    refine { h with shut := fun e => ?_, chans := fun e he => ?_ }
    · by_cases hec : e = c
      · subst hec; simpa [receive] using h.shut e
      · simpa [receive, hec] using h.shut e
    · have hec : e ≠ c := by rintro rfl; simp [hc] at he
      simpa [receive, hec] using h.chans e he

lemma slow_run {ifaceName : String} {as : List Act} {s : St} (slow : ℕ → Bool)
    (h : run (step ifaceName) {} as = some s) :
    ∃ t, run (step ifaceName) {} (as.filter (keeps slow)) = some t ∧
      ∀ c, slow c = false → t.chans c = s.chans c := by
  have hinit : Alike slow {} {} :=
    ⟨rfl, rfl, rfl, rfl, rfl, rfl, rfl, fun _ => rfl, fun _ _ => rfl⟩
  have hkeep : ∀ s s' a t, Alike slow s s' → keeps slow a = true → step ifaceName s a = some t →
      ∃ t', step ifaceName s' a = some t' ∧ Alike slow t t' :=
    fun _ _ _ _ hR hk hst => alike_step hR hk hst
  have hdrop : ∀ s s' a t, Alike slow s s' → keeps slow a = false → step ifaceName s a = some t →
      Alike slow t s' :=
    fun _ _ _ _ hR hk hst => alike_slow hR hk hst
  obtain ⟨t, ht, halike⟩ := run_filter hkeep hdrop hinit h
  exact ⟨t, ht, halike.chans⟩

/-- **Fan-out conserves frames.** In every run, what a subscriber has received or has still
queued is a subsequence of the frames broadcast while it was subscribed. Each of these has been
offered to it, but for the one the loop is about to offer; the offers that are missing met a
queue of just `channelBufferCap` frames, and `droppedFrames` counts them over all subscribers.
Without the reads of any set of slow subscribers the run goes through all the same, and the
other channels do not differ. -/
theorem frames_conserved (ifaceName : String) (as : List Act) (s : St)
    (h : run (step ifaceName) {} as = some s) :
    (∀ c < s.next,
      (delivered s c).Sublist (window s c) ∧
      (s.chans c).box.offers.map Prod.fst ++ due s c = window s c ∧
      delivered s c =
        ((s.chans c).box.offers.filter fun o => o.2 ≠ channelBufferCap).map Prod.fst ∧
      ∀ o ∈ (s.chans c).box.offers, o.2 ≤ channelBufferCap) ∧
    s.droppedFrames.toNat = totalDropped s % 2 ^ 64 ∧
    ∀ slow : ℕ → Bool, ∃ t, run (step ifaceName) {} (as.filter (keeps slow)) = some t ∧
      ∀ c, slow c = false → t.chans c = s.chans c := by
  have hf := frames_run h
  refine ⟨fun c hc => ⟨?_, hf.share c hc, ?_, (hf.box c).met⟩, ?_, fun slow => slow_run slow h⟩
  · rw [← hf.share c hc]
    exact (hf.box c).sublist.trans (List.sublist_append_left _ _)
  · rw [delivered, (hf.box c).kept]
    congr 1
    refine List.filter_congr fun o ho => ?_
    have := (hf.box c).met o ho
    rw [decide_eq_decide]
    omega
  · rw [hf.dropped]; rfl

/-- The first subscriber reads nothing and the second one reads its frame while the loop is
still sending. -/
def lazyRun : List Act :=
  [.subscribe, .frame [1], .broadcast, .offer 0, .unlock, .subscribe, .frame [2], .broadcast,
    .offer 1, .receive 1, .receive 0]

theorem lazyRun_conserved :
    ∃ s, run (step "eth1") {} lazyRun = some s ∧
      s.droppedFrames.toNat = totalDropped s % 2 ^ 64 ∧
      (s.chans 0).box.offers.map Prod.fst ++ due s 0 = [[1], [2]] ∧ window s 1 = [[2]] := by
  refine ⟨_, rfl, (frames_conserved "eth1" lazyRun _ rfl).2.1, by decide, by decide⟩

end Kne.DemuxFrames
