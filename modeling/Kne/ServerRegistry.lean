import Kne.ServerModel

/-!
The registry of the bridge server. A demux is put into `demuxers` when it is made and taken out
when its context has been cancelled, by its own callback or by the call of `getOrCreateDemux`
that replaces it. So every live demux is registered under its interface, whichever of the two
comes first and however late the callback is.
-/

namespace Kne.ServerRegistry

open Kne.Runs Kne.ServerModel

/-- The read loop reaches its callback with the context cancelled. -/
def Ended (m : Demux) : Prop := m.loop = .reading ∨ m.loop = .cancel ∨ m.ctx ≠ none

/-- A call may return a demux that was there when it took `s.mu` and was alive then, or the one it
makes itself. -/
def Returnable (held : Held) (d : ℕ) : Prop :=
  d = held.next ∨ d < held.next ∧ held.ctx d = none

structure Reg (s : St) : Prop where
  live : ∀ d < s.next, (s.demux d).ctx = none → s.demuxers.lookup (s.demux d).ifaceName = some d
  keys : ∀ name d, s.demuxers.lookup name = some d → d < s.next ∧ (s.demux d).ifaceName = name
  ended : ∀ d < s.next, Ended (s.demux d)
  todo : ∀ d ∈ s.closer.todo, d < s.next
  opening : ∀ name held, s.mu = .opening name held →
    s.demuxers.lookup name = none ∧ held.next = s.next
  linking : ∀ d held, s.mu = .linking d held ∨ s.mu = .dropping d held →
    d < s.next ∧ d = held.next
  rets : ∀ r ∈ s.rets, ∀ d, r.result = .ok d → Returnable r.held d

lemma reg_init : Reg {} where
  live d h := by simp at h
  keys name d h := by simp at h
  ended d h := by simp at h
  todo d h := by simp [Closer.todo] at h
  opening name held h := by simp at h
  linking d held h := by simp at h
  rets r h := by simp at h

lemma local_ifaceName {m m' : Demux} (h : Local m m') : m'.ifaceName = m.ifaceName := by
  cases h with
  | loop m' h => unfold loopStep at h; split at h <;> cases h <;> rfl
  | _ => rfl

lemma local_ctx {m m' : Demux} (h : Local m m') (hc : m'.ctx = none) : m.ctx = none := by
  cases h with
  | cancel e => simp at hc
  | loop m' h => unfold loopStep at h; split at h <;> cases h <;> simp_all
  | _ => exact hc

lemma local_ended {m m' : Demux} (h : Local m m') (he : Ended m) : Ended m' := by
  unfold Ended at he ⊢
  cases h with
  | cancel e => simp
  | watch h => exact Or.inr (Or.inr h)
  | readError h => simp
  | loop m' h => unfold loopStep at h; split at h <;> cases h <;> simp_all
  | eventsEnd h => exact he

lemma reg_setDemux {s : St} (hr : Reg s) {d : ℕ} (m : Demux) (hd : d < s.next)
    (hn : m.ifaceName = (s.demux d).ifaceName) (hc : m.ctx = none → (s.demux d).ctx = none)
    (he : Ended m) : Reg (setDemux s d m) := by
  have hname : ∀ e, (Function.update s.demux d m e).ifaceName = (s.demux e).ifaceName := by
    intro e
    by_cases hed : e = d
    · subst hed; simpa using hn
    · simp [hed]
  have hctx : ∀ e, (Function.update s.demux d m e).ctx = none → (s.demux e).ctx = none := by
    intro e
    by_cases hed : e = d
    · subst hed; simpa using hc
    · simp [hed]
  refine { hr with live := ?_, keys := ?_, ended := ?_ }
  · intro e hlt h
    rw [setDemux, hname e]
    exact hr.live e hlt (hctx e h)
  · intro name e h
    obtain ⟨hlt, hif⟩ := hr.keys name e h
    exact ⟨hlt, (hname e).trans hif⟩
  · intro e hlt
    by_cases hed : e = d
    · subst hed; simpa [setDemux] using he
    · simpa [setDemux, hed] using hr.ended e hlt

lemma reg_ret {s : St} (hr : Reg s) {held : Held} {result : Except GetError ℕ}
    (h : ∀ d, result = .ok d → Returnable held d) : Reg (ret s held result) := by
  refine { hr with opening := ?_, linking := ?_, rets := ?_ }
  · intro name held h; cases h
  · rintro d held (h | h) <;> cases h
  · intro r hm d hd
    rcases List.mem_append.mp hm with hm | hm
    · exact hr.rets r hm d hd
    · rw [List.mem_singleton] at hm
      subst hm
      exact h d hd

lemma reg_erase {s : St} (hr : Reg s) (hmu : s.mu = .free) {d : ℕ} {name : String}
    (hd : s.demuxers.lookup name = some d) (hdead : (s.demux d).ctx ≠ none) :
    Reg { s with demuxers := s.demuxers.erase name } := by
  refine { hr with live := ?_, keys := ?_, opening := ?_ }
  · intro e hlt hl
    have he := hr.live e hlt hl
    have hne : (s.demux e).ifaceName ≠ name := by
      intro heq
      rw [heq, hd] at he
      cases he
      exact hdead hl
    simpa only [AList.lookup_erase_ne hne] using he
  · intro name' e h
    by_cases hnn : name' = name
    · subst hnn; simp at h
    · rw [AList.lookup_erase_ne hnn] at h
      exact hr.keys name' e h
  · intro name' held h
    rw [show s.mu = .opening name' held from h] at hmu
    cases hmu

lemma reg_opening {s : St} (hr : Reg s) {name : String} (hd : s.demuxers.lookup name = none) :
    Reg { s with mu := .opening name s.held } := by
  refine { hr with opening := ?_, linking := ?_ }
  · intro name' held h
    cases h
    exact ⟨hd, rfl⟩
  · rintro d held (h | h) <;> cases h

lemma reg_register {s : St} (hr : Reg s) {name : String} {held : Held}
    (hmu : s.mu = .opening name held) : Reg (register s name held) := by
  obtain ⟨hnone, hheld⟩ := hr.opening name held hmu
  have hself : (register s name held).demux s.next = { ifaceName := name, ctx := s.ctx } :=
    Function.update_self _ _ _
  have hold : ∀ e, e ≠ s.next → (register s name held).demux e = s.demux e :=
    fun e hne => Function.update_of_ne hne _ _
  have hcases : ∀ e < s.next + 1, e = s.next ∨ e < s.next ∧ e ≠ s.next := by omega
  refine ⟨fun e hlt => ?_, fun name' e h => ?_, fun e hlt => ?_, fun e he => ?_,
    fun name' held' h => ?_, fun e held' h => ?_, hr.rets⟩
  · rcases hcases e hlt with rfl | ⟨hlt, hne⟩
    · intro _
      rw [hself]
      exact AList.lookup_insert _
    · rw [hold e hne]
      intro hl
      have he := hr.live e hlt hl
      have hnn : (s.demux e).ifaceName ≠ name := by
        intro heq
        rw [heq, hnone] at he
        cases he
      exact (AList.lookup_insert_ne hnn).trans he
  · by_cases hnn : name' = name
    · subst hnn
      have he : s.next = e := Option.some.inj ((AList.lookup_insert _).symm.trans h)
      subst he
      exact ⟨Nat.lt_succ_self _, by rw [hself]⟩
    · obtain ⟨hlt, hif⟩ := hr.keys name' e ((AList.lookup_insert_ne hnn).symm.trans h)
      refine ⟨Nat.lt_succ_of_lt hlt, ?_⟩
      rw [hold e hlt.ne]
      exact hif
  · rcases hcases e hlt with rfl | ⟨hlt, hne⟩
    · rw [hself]; exact Or.inl rfl
    · rw [hold e hne]; exact hr.ended e hlt
  · exact Nat.lt_succ_of_lt (hr.todo e he)
  · cases h
  · simp only [register, Mu.linking.injEq, reduceCtorEq, or_false] at h
    obtain ⟨rfl, rfl⟩ := h
    exact ⟨Nat.lt_succ_self _, hheld.symm⟩

lemma reg_onClose {s : St} (hr : Reg s) {d : ℕ} (hd : d < s.next)
    (hl : (s.demux d).loop = .onClose) (hmu : s.mu = .free) : Reg (onClose s d) := by
  have hdead : (s.demux d).ctx ≠ none := by
    have := hr.ended d hd
    simpa [Ended, hl] using this
  have hset : Reg (setDemux s d { s.demux d with loop := .done }) :=
    reg_setDemux hr _ hd rfl id (Or.inr (Or.inr hdead))
  unfold onClose
  by_cases hreg : s.demuxers.lookup (s.demux d).ifaceName = some d
  · simp only [hreg, if_true]
    exact reg_erase (s := setDemux s d { s.demux d with loop := .done }) hset hmu (d := d) hreg
      (by simpa [setDemux] using hdead)
  · simp only [hreg, if_false]
    exact hset

lemma reg_step {s t : St} {a : Act} (hr : Reg s) (h : Does s a t) : Reg t := by
  cases h with
  | refused name hmu err hctx => exact reg_ret hr fun d h => by cases h
  | found name hmu d hd hlive =>
    refine reg_ret hr fun e h => ?_
    cases h
    exact Or.inr ⟨(hr.keys name d hd).1, hlive⟩
  | evict name hmu hctx d hd hdead =>
    exact reg_opening (s := { s with demuxers := s.demuxers.erase name })
      (reg_erase hr hmu hd hdead) (by simp)
  | missing name hmu hctx hd => exact reg_opening hr hd
  | socketErr err name held hmu => exact reg_ret hr fun d h => by cases h
  | socketOk name held hmu => exact reg_register hr hmu
  | linkErr d held hmu =>
    refine reg_ret hr fun e h => ?_
    cases h
    exact Or.inl (hr.linking d held (Or.inl hmu)).2
  | linkLate d held hmu hl =>
    obtain ⟨hd, hheld⟩ := hr.linking d held (Or.inl hmu)
    have hset := reg_setDemux hr { s.demux d with link := .opened } hd rfl id (hr.ended d hd)
    refine { hset with opening := ?_, linking := ?_ }
    · intro name held' h; cases h
    · rintro e held' (h | h) <;> cases h
      exact ⟨hd, hheld⟩
  | linkOk d held hmu hl =>
    obtain ⟨hd, hheld⟩ := hr.linking d held (Or.inl hmu)
    have hset := reg_setDemux hr { s.demux d with link := .opened, observing := true } hd rfl id
      (hr.ended d hd)
    refine reg_ret hset fun e h => ?_
    cases h
    exact Or.inl hheld
  | linkDropped d held hmu =>
    obtain ⟨hd, hheld⟩ := hr.linking d held (Or.inr hmu)
    have hset := reg_setDemux hr { s.demux d with link := .closed } hd rfl id (hr.ended d hd)
    refine reg_ret hset fun e h => ?_
    cases h
    exact Or.inl hheld
  | ctxDone e => exact { hr with }
  | demux a d hd m hm =>
    exact reg_setDemux hr m hd (local_ifaceName hm) (local_ctx hm) (local_ended hm (hr.ended d hd))
  | onClose d hd hl hmu => exact reg_onClose hr hd hl hmu
  | closeCancel hc => exact { hr with todo := fun d h => by simp [Closer.todo] at h }
  | closeSnapshot hc hmu =>
    refine { hr with todo := fun d h => ?_ }
    obtain ⟨⟨name, e⟩, he, rfl⟩ := List.mem_map.mp h
    exact (hr.keys name e (AList.mem_lookup_iff.mpr he)).1
  | closeDemux d todo hc hd =>
    have htodo : ∀ e ∈ d :: todo.erase d, e < s.next := by
      intro e he
      refine hr.todo e ?_
      rw [hc]
      rcases List.mem_cons.mp he with rfl | he
      · exact hd
      · exact List.mem_of_mem_erase he
    have hlt : d < s.next := htodo d (by simp)
    have hset := reg_setDemux hr
      { s.demux d with ctx := cancelCtx (s.demux d).ctx .canceled } hlt rfl
      (fun h => absurd h (cancelCtx_ne_none _ _)) (Or.inr (Or.inr (cancelCtx_ne_none _ _)))
    exact { hset with todo := htodo }
  | closeHandler d todo hc =>
    have htodo : ∀ e ∈ d :: todo, e < s.next := fun e he => hr.todo e (by rw [hc]; exact he)
    have hlt : d < s.next := htodo d (by simp)
    have hset := reg_setDemux hr { s.demux d with handlerClosed := true } hlt rfl id
      (hr.ended d hlt)
    exact { hset with todo := htodo }
  | waited d todo hc hd =>
    refine { hr with todo := fun e he => hr.todo e ?_ }
    rw [hc]
    exact List.mem_cons_of_mem d he
  | closeReturn hc => exact { hr with todo := fun d h => by simp [Closer.todo] at h }

lemma reg_run {as : List Act} {s : St} (h : run step {} as = some s) : Reg s :=
  run_inv (fun _ _ _ hr hst => reg_step hr (step_does hst)) reg_init h

lemma lookup_onClose {s : St} {d e : ℕ} {name : String} (hne : e ≠ d)
    (h : s.demuxers.lookup name = some e) : (onClose s d).demuxers.lookup name = some e := by
  unfold onClose
  by_cases hreg : s.demuxers.lookup (s.demux d).ifaceName = some d
  · have hnn : name ≠ (s.demux d).ifaceName := by
      rintro rfl
      rw [h] at hreg
      cases hreg
      exact hne rfl
    simpa [hreg, AList.lookup_erase_ne hnn] using h
  · simpa [hreg] using h

/-- **One live demux for each interface.** In every state a run reaches, every demux whose
context is not cancelled is the one registered under its interface, so no two of them share an
interface; no statement of the read loop of a demux, its callback included, takes another demux
out of the registry; and a call of `getOrCreateDemux` that returned a demux returned either the
one it made itself or one that had been made before, whose context was not cancelled when the
call looked it up under `s.mu`. -/
theorem one_live_demux (as : List Act) (s : St) (h : run step {} as = some s) :
    (∀ d < s.next, (s.demux d).ctx = none →
      s.demuxers.lookup (s.demux d).ifaceName = some d) ∧
    (∀ d < s.next, ∀ e < s.next, (s.demux d).ctx = none → (s.demux e).ctx = none →
      (s.demux d).ifaceName = (s.demux e).ifaceName → d = e) ∧
    (∀ d t, step s (.loop d) = some t → ∀ name e, e ≠ d →
      s.demuxers.lookup name = some e → t.demuxers.lookup name = some e) ∧
    ∀ r ∈ s.rets, ∀ d, r.result = .ok d →
      d = r.held.next ∨ d < r.held.next ∧ r.held.ctx d = none := by
  have hr := reg_run h
  refine ⟨hr.live, fun d hd e he hld hle hname => ?_, fun d t ht name e hne hl => ?_, hr.rets⟩
  · have h1 := hr.live d hd hld
    have h2 := hr.live e he hle
    rw [hname, h2] at h1
    exact (Option.some.inj h1).symm
  · cases step_does ht with
    | demux a d' hd m hm => exact hl
    | onClose d hd hloop hmu => exact lookup_onClose hne hl

/-- The socket of a new demux fails while its link is still being opened, and its read loop
cancels it: the call has not let go of `s.mu`. -/
def cancelledRun : List Act :=
  [.getOrCreateDemux "eth1", .socketOk, .readError 0, .loop 0]

theorem cancelled_demux_returned :
    ∃ s t held, run step {} cancelledRun = some s ∧ s.mu = .linking 0 held ∧
      (s.demux 0).ctx ≠ none ∧ step s .linkErr = some t ∧ ∃ r ∈ t.rets, r.result = .ok 0 :=
  ⟨_, _, _, rfl, rfl, by decide, rfl, _, List.mem_singleton_self _, rfl⟩

/-- A demux dies, is replaced before its callback runs, and the callback comes late. -/
def replacedRun : List Act :=
  [.getOrCreateDemux "eth1", .socketOk, .linkOk, .readError 0, .loop 0, .getOrCreateDemux "eth1",
    .socketErr "no such device", .getOrCreateDemux "eth1", .socketOk, .linkErr, .loop 0, .loop 0,
    .loop 0, .loop 0, .loop 0, .getOrCreateDemux "eth1"]

theorem replacedRun_registered :
    ∃ s, run step {} replacedRun = some s ∧ s.next = 2 ∧ (s.demux 0).loop = .done ∧
      s.demuxers.lookup "eth1" = some 1 := by
  refine ⟨_, rfl, by decide, by decide, ?_⟩
  exact (one_live_demux replacedRun _ rfl).1 1 (by decide) (by decide)

end Kne.ServerRegistry
