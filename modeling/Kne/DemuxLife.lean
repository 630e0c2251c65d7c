import Kne.DemuxModel

/-!
The life of the channels of a demux. The map `listeners` is the one record of which channels
are open: a channel enters it when it is made, and leaves it in the critical section that
closes the channel. So no frame is sent on a closed channel and no channel is closed twice,
in whatever order subscribers, the read loop and the teardown run.
-/

namespace Kne.DemuxLife

open Kne.Mailbox Kne.Runs Kne.DemuxModel

/-- The listeners are just the open channels, and the loop broadcasts to listeners only. -/
structure Life (s : St) : Prop where
  panic : s.panic = none
  nodup : s.listeners.Nodup
  mem : ∀ c, c ∈ s.listeners ↔ c < s.next ∧ (s.chans c).closed = false
  length : s.listeners.length ≤ maxSubscribersPerDemux
  todo : ∀ pkt todo, s.loop = .sending pkt todo → todo.Nodup ∧ ∀ c ∈ todo, c ∈ s.listeners
  closed : s.closed = true ↔ s.loop = .torn
  empty : s.closed = true → s.listeners = []

lemma life_init : Life {} where
  panic := rfl
  nodup := by simp
  mem c := by simp
  length := by simp
  todo pkt todo h := by simp at h
  closed := by simp
  empty h := by simp at h

lemma foldl_closeChan (l : List ℕ) (s : St) (hn : l.Nodup)
    (ho : ∀ c ∈ l, (s.chans c).closed = false) :
    l.foldl closeChan s = { s with
      chans := fun c =>
        if c ∈ l then { s.chans c with closed := true, upto := some s.log.length }
        else s.chans c } := by
  induction l generalizing s with
  | nil => simp
  | cons d l ih =>
    have hd : (s.chans d).closed = false := ho d (by simp)
    obtain ⟨hdl, hl⟩ := List.nodup_cons.mp hn
    rw [List.foldl_cons, closeChan, if_neg (by simp [hd]), ih _ hl]
    · congr 1
      funext c
      by_cases hc : c = d
      · subst hc; simp [hdl]
      · simp [hc]
    · intro c hc
      have : c ≠ d := by rintro rfl; exact hdl hc
      simpa [this] using ho c (by simp [hc])

lemma teardown_eq {s : St} (hl : Life s) : teardown s = { s with
    closed := true
    listeners := []
    chans := fun c =>
      if c ∈ s.listeners then { s.chans c with closed := true, upto := some s.log.length }
      else s.chans c } := by
  have h := foldl_closeChan s.listeners { s with closed := true } hl.nodup
    fun c hc => ((hl.mem c).mp hc).2
  rw [teardown, h]

lemma unsubscribe_eq {s : St} (hl : Life s) {c : ℕ} (hc : c ∈ s.listeners) :
    unsubscribe s c = { s with
      listeners := s.listeners.erase c
      chans := Function.update s.chans c
        { s.chans c with closed := true, upto := some s.log.length } } := by
  have := ((hl.mem c).mp hc).2
  simp [unsubscribe, hc, closeChan, this]

lemma offer_eq {s : St} (hl : Life s) {pkt : Frame} {todo : List ℕ}
    (hs : s.loop = .sending pkt todo) {c : ℕ} (hc : c ∈ todo) :
    offer s pkt c = { s with
      chans := Function.update s.chans c
        { s.chans c with box := (s.chans c).box.offer channelBufferCap pkt }
      droppedFrames :=
        if (s.chans c).box.queue.length < channelBufferCap then s.droppedFrames
        else s.droppedFrames + 1 } := by
  have := ((hl.mem c).mp ((hl.todo pkt todo hs).2 c hc)).2
  simp [offer, this]

lemma life_step {s t : St} {a : Act} (hl : Life s) (h : Does s a t) : Life t := by
  have hlife := hl
  obtain ⟨hp, hn, hm, hlen, htd, hcl, hem⟩ := hl
  cases h with
  | move a l hs hl' ha =>
    refine ⟨hp, hn, hm, hlen, ?_, ?_, hem⟩
    · intro pkt todo h
      rcases hl' with rfl | rfl | ⟨pkt', rfl⟩ <;> cases h
    · have hnt : s.loop ≠ .torn := by rcases hs with h | ⟨pkt, h⟩ <;> simp [h]
      rw [hcl]
      rcases hl' with rfl | rfl | ⟨pkt', rfl⟩ <;> simp [hnt]
  | broadcast pkt hs hc =>
    refine ⟨hp, hn, hm, hlen, ?_, by simp [hc], hem⟩
    intro pkt' todo h
    cases h
    exact ⟨hn, fun c hc => hc⟩
  | offer pkt todo c hs hc =>
    obtain ⟨htn, hsub⟩ := htd pkt todo hs
    rw [offer_eq hlife hs hc]
    refine ⟨hp, hn, ?_, hlen, ?_, ?_, hem⟩
    · intro d
      by_cases hd : d = c
      · subst hd; simpa using hm d
      · simpa [hd] using hm d
    · intro pkt' todo' h
      cases h
      exact ⟨htn.erase c, fun d hd => hsub d (List.mem_of_mem_erase hd)⟩
    · simp only [hcl, hs, reduceCtorEq]
  | unlock pkt hs =>
    exact ⟨hp, hn, hm, hlen, fun pkt' todo h => (by cases h), by simp [hcl, hs], hem⟩
  | deferCancel hs =>
    exact ⟨hp, hn, hm, hlen, fun pkt' todo h => (by cases h), by simp [hcl, hs], hem⟩
  | teardown hs =>
    rw [teardown_eq hlife]
    refine ⟨hp, by simp, ?_, by simp, fun pkt' todo h => (by cases h), by simp, fun _ => rfl⟩
    intro c
    by_cases hc : c ∈ s.listeners
    · simp [hc]
    · simpa [hc] using hm c
  | cancel => exact ⟨hp, hn, hm, hlen, htd, hcl, hem⟩
  | refused => exact hlife
  | subscribe hl hc hlt =>
    have hnew : s.next ∉ s.listeners := fun h => by have := ((hm _).mp h).1; omega
    refine ⟨hp, ?_, ?_, ?_, ?_, hcl, fun h => by simp [hc] at h⟩
    · refine List.nodup_append.mpr ⟨hn, by simp, ?_⟩
      rintro c hc d hd rfl
      rw [List.mem_singleton] at hd
      exact hnew (hd ▸ hc)
    · intro c
      by_cases hc : c = s.next
      · subst hc; simp
      · have := hm c
        simp only [List.mem_append, List.mem_singleton, hc, or_false, this,
          Function.update_of_ne hc, and_congr_left_iff]
        intro _; omega
    · rw [List.length_append, List.length_singleton]; omega
    · intro pkt todo h
      simp only at h
      simp [h, Loop.locked] at hl
  | unsubscribe hl c =>
    by_cases hc : c ∈ s.listeners
    · rw [unsubscribe_eq hlife hc]
      refine ⟨hp, hn.erase c, ?_, ?_, ?_, hcl, fun h => by simp [hem h] at hc⟩
      · intro d
        by_cases hd : d = c
        · subst hd; simp [hn.mem_erase_iff]
        · simpa [hd, hn.mem_erase_iff] using hm d
      · exact le_trans (List.length_erase_le) hlen
      · intro pkt todo h
        simp only at h
        simp [h, Loop.locked] at hl
    · rw [show unsubscribe s c = s by simp [unsubscribe, hc]]
      exact hlife
  | receive c hq =>
    refine ⟨hp, hn, ?_, hlen, htd, hcl, hem⟩
    intro d
    by_cases hd : d = c
    · subst hd; simpa [receive] using hm d
    · simpa [receive, hd] using hm d

lemma life_run {ifaceName : String} {as : List Act} {s : St}
    (h : run (step ifaceName) {} as = some s) : Life s :=
  run_inv (fun _ _ _ hl hst => life_step hl (step_does hst)) life_init h

/-! ### After the teardown -/

lemma closed_mono {s t : St} {a : Act} (hl : Life s) (h : Does s a t) (hc : s.closed = true) :
    t.closed = true := by
  cases h with
  | offer pkt todo c hs hm => rw [offer_eq hl hs hm]; exact hc
  | teardown hs => rw [teardown_eq hl]
  | unsubscribe h c =>
    by_cases hm : c ∈ s.listeners
    · rw [unsubscribe_eq hl hm]; exact hc
    · simpa [unsubscribe, hm] using hc
  | _ => exact hc

lemma closed_of_teardown {ifaceName : String} {as : List Act} {s t : St} (hl : Life s)
    (ht : Act.teardown ∈ as) (h : run (step ifaceName) s as = some t) : t.closed = true := by
  induction as generalizing s with
  | nil => simp at ht
  | cons a as ih =>
    rw [run_cons, Option.bind_eq_some_iff] at h
    obtain ⟨u, hu, hrest⟩ := h
    have hd := step_does hu
    have hlu := life_step hl hd
    rcases List.mem_cons.mp ht with rfl | ht
    · -- the flag is set here and never reset
      have hcu : u.closed = true := by
        cases hd with
        | move _ l _ _ ha => simp at ha
        | teardown hs => rw [teardown_eq hl]
      exact (run_inv (P := fun s => Life s ∧ s.closed = true)
        (fun _ _ _ hp hst =>
          ⟨life_step hp.1 (step_does hst), closed_mono hp.1 (step_does hst) hp.2⟩)
        ⟨hlu, hcu⟩ hrest).2
    · exact ih hlu ht hrest

/-- **The channels of a demux are safe.** In every run nothing panics: no frame is sent on a
closed channel and no channel is closed twice. A channel is a listener just when it has been
handed out and not been closed, there are at most `maxSubscribersPerDemux` listeners, and
after the teardown every subscription is refused and every channel handed out is closed. -/
theorem demux_safe (ifaceName : String) (as : List Act) (s : St)
    (h : run (step ifaceName) {} as = some s) :
    s.panic = none ∧
    (∀ c, c ∈ s.listeners ↔ c < s.next ∧ (s.chans c).closed = false) ∧
    s.listeners.Nodup ∧ s.listeners.length ≤ maxSubscribersPerDemux ∧
    (Act.teardown ∈ as →
      (∃ e, subscribe ifaceName s = .error e) ∧ ∀ c < s.next, (s.chans c).closed = true) := by
  have hl := life_run h
  refine ⟨hl.panic, hl.mem, hl.nodup, hl.length, fun ht => ?_⟩
  have hc := closed_of_teardown life_init ht h
  refine ⟨⟨_, by simp only [subscribe, hc, Bool.true_or, if_true]; rfl⟩, fun c hlt => ?_⟩
  have hm := hl.mem c
  rw [hl.empty hc] at hm
  simpa [hlt] using hm

/-- Two subscribers, one of which leaves twice, and a teardown with a frame still queued. -/
def teardownRun : List Act :=
  [.subscribe, .subscribe, .frame [1], .broadcast, .offer 1, .receive 1, .offer 0, .unlock,
    .unsubscribe 0, .unsubscribe 0, .cancel, .frame [2], .deferCancel, .teardown, .unsubscribe 1,
    .subscribe]

theorem teardownRun_safe :
    ∃ s, run (step "eth1") {} teardownRun = some s ∧ s.panic = none ∧ s.next = 2 ∧
      ∀ c < s.next, (s.chans c).closed = true := by
  refine ⟨_, rfl, ?_, by decide, ?_⟩
  · exact (demux_safe "eth1" teardownRun _ rfl).1
  · exact ((demux_safe "eth1" teardownRun _ rfl).2.2.2.2 (by decide)).2

end Kne.DemuxLife
