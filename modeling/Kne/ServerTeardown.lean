import Kne.ServerRegistry

/-!
The end of a demux. The deferred function of the read loop closes the socket handler and the
link before it calls `onClose`, whatever the call of `getOrCreateDemux` that made the demux does
meanwhile; and the lock is free from the moment `Close` has made its snapshot.
-/

namespace Kne.ServerTeardown

open Kne.Runs Kne.ServerModel Kne.ServerRegistry

/-- The socket handler is closed, and so is the link if there is one. -/
def Shut (m : Demux) : Prop := m.handlerClosed = true ∧ m.link ≠ .opened

instance (m : Demux) : Decidable (Shut m) := inferInstanceAs (Decidable (_ ∧ _))

/-- Where the teardown has come to. A link opened after `closeLink` is `late`, and closed by
the call that opened it. -/
structure Torn (m : Demux) (late : Prop) : Prop where
  handler : m.loop = .reading ∨ m.loop = .cancel ∨ m.loop = .closeHandler ∨
    m.handlerClosed = true
  flag : m.linkClosed = true ↔ (∃ l, m.loop = .closeLink l) ∨ m.loop = .onClose ∨ m.loop = .done
  link : m.loop = .closeLink false ∨ m.loop = .onClose ∨ m.loop = .done →
    m.link ≠ .opened ∨ late
  observing : m.observing = true → m.link ≠ .none

/-- `Close` has made its snapshot. -/
def Snapped : Closer → Prop
  | .idle | .cancelled => False
  | _ => True

structure Tears (s : St) : Prop where
  torn : ∀ d < s.next, Torn (s.demux d) (∃ held, s.mu = .dropping d held)
  busy : ∀ d held, s.mu = .linking d held ∨ s.mu = .dropping d held →
    s.demuxers.lookup (s.demux d).ifaceName = some d
  ctx : s.closer ≠ .idle → s.ctx ≠ none
  locked : Snapped s.closer → s.mu = .free

lemma tears_init : Tears {} where
  torn d h := by simp at h
  busy d held h := by simp at h
  ctx h := by simp at h
  locked h := h.elim

lemma Torn.imp {m : Demux} {p q : Prop} (h : Torn m p) (hpq : p → q) : Torn m q :=
  { h with link := fun hl => (h.link hl).imp_right hpq }

lemma torn_local {m m' : Demux} {late : Prop} (ht : Torn m late) (h : Local m m') :
    Torn m' late := by
  obtain ⟨hh, hf, hl, ho⟩ := ht
  cases h with
  | cancel e => exact ⟨hh, hf, hl, ho⟩
  | watch h => exact ⟨by simp, hf, hl, ho⟩
  | readError h => exact ⟨by simp, by simpa [h] using hf, by simp, ho⟩
  | eventsEnd h => exact ⟨hh, hf, hl, by simp⟩
  | loop m' h =>
    unfold loopStep at h
    split at h
    case h_1 hs => cases h; exact ⟨by simp, by simpa [hs] using hf, by simp, ho⟩
    case h_2 hs => cases h; exact ⟨by simp, by simpa [hs] using hf, by simp, ho⟩
    case h_3 hs => cases h; exact ⟨by simpa [hs] using hh, by simpa [hs] using hf, by simp, ho⟩
    case h_4 hs =>
      cases h
      refine ⟨by simpa [hs] using hh, ⟨fun _ => Or.inl ⟨_, rfl⟩, fun _ => rfl⟩,
        fun h => Or.inl ?_, ho⟩
      simp_all
    case h_5 l hs =>
      cases h
      refine ⟨by simpa [hs] using hh, by simpa [hs] using hf, fun _ => ?_, ?_⟩
      · cases l with
        | true => simp
        | false => simpa using hl (Or.inl hs)
      · cases l with
        | true => simp
        | false => exact ho
    case h_6 => cases h

lemma shut_of_torn {m : Demux} {late : Prop} (ht : Torn m late) (hlate : ¬ late)
    (hl : m.loop = .onClose ∨ m.loop = .done) : Shut m := by
  refine ⟨?_, ?_⟩
  · have := ht.handler
    rcases hl with hl | hl <;> simpa [hl] using this
  · exact (ht.link (Or.inr hl)).resolve_right hlate

lemma tears_setDemux {s : St} (ht : Tears s) {d : ℕ} (m : Demux)
    (hn : m.ifaceName = (s.demux d).ifaceName)
    (hm : Torn m (∃ held, s.mu = .dropping d held)) : Tears (setDemux s d m) := by
  refine { ht with torn := ?_, busy := ?_ }
  · intro e he
    by_cases hed : e = d
    · subst hed; simpa [setDemux] using hm
    · simpa [setDemux, hed] using ht.torn e he
  · intro e held h
    have hname : ((setDemux s d m).demux e).ifaceName = (s.demux e).ifaceName := by
      by_cases hed : e = d
      · subst hed; simpa [setDemux] using hn
      · simp [setDemux, hed]
    rw [hname]
    exact ht.busy e held h

lemma tears_mu {s t : St} (ht : Tears s) (hdem : t.demux = s.demux) (hn : t.next = s.next)
    (hctx : t.ctx = s.ctx) (hcl : t.closer = s.closer)
    (hs : ∀ d held, s.mu ≠ .dropping d held) (hmu : t.mu = .free ∨
      s.closer = .idle ∧ ∃ name held, t.mu = .opening name held) : Tears t := by
  refine ⟨fun d hd => ?_, fun d held h => ?_, ?_, fun h => ?_⟩
  · rw [hdem]
    refine (ht.torn d (hn ▸ hd)).imp ?_
    rintro ⟨held, h⟩
    exact absurd h (hs d held)
  · rcases hmu with hmu | ⟨-, name, held', hmu⟩ <;> simp [hmu] at h
  · rw [hctx, hcl]; exact ht.ctx
  · rcases hmu with hmu | ⟨hidle, -⟩
    · exact hmu
    · rw [hcl, hidle] at h
      exact h.elim

lemma tears_closer {s : St} (ht : Tears s) (hsn : Snapped s.closer) (c : Closer) :
    Tears { s with closer := c } := by
  have hne : s.closer ≠ .idle := by
    intro h
    simp [h, Snapped] at hsn
  exact { ht with ctx := fun _ => ht.ctx hne, locked := fun _ => ht.locked hsn }

lemma tears_register {s : St} (ht : Tears s) {name : String} {held : Held}
    (hmu : s.mu = .opening name held) : Tears (register s name held) := by
  refine ⟨fun d hd => ?_, fun d held' h => ?_, ht.ctx, fun h => ?_⟩
  · by_cases hdn : d = s.next
    · subst hdn
      simp only [register, Function.update_self]
      exact ⟨Or.inl rfl, by simp, by simp, by simp⟩
    · simp only [register, Function.update_of_ne hdn]
      refine (ht.torn d (by simp only [register] at hd; omega)).imp ?_
      rintro ⟨held', h⟩
      rw [hmu] at h
      cases h
  · simp only [register, Mu.linking.injEq, reduceCtorEq, or_false] at h
    obtain ⟨rfl, rfl⟩ := h
    have hself : (register s name held).demux s.next = { ifaceName := name, ctx := s.ctx } :=
      Function.update_self _ _ _
    rw [hself]
    exact AList.lookup_insert _
  · rw [ht.locked h] at hmu
    cases hmu

lemma tears_linkLate {s : St} (hr : Reg s) (ht : Tears s) {d : ℕ} {held : Held}
    (hmu : s.mu = .linking d held) : Tears { setDemux s d { s.demux d with link := .opened } with
      mu := .dropping d held } := by
  have htorn := ht.torn d (hr.linking d held (Or.inl hmu)).1
  refine ⟨fun e he => ?_, fun e held' h => ?_, ht.ctx, fun h => ?_⟩
  · by_cases hed : e = d
    · subst hed
      simp only [setDemux, Function.update_self]
      exact ⟨htorn.handler, htorn.flag, fun _ => Or.inr ⟨held, rfl⟩, by simp⟩
    · simp only [setDemux, Function.update_of_ne hed]
      refine (ht.torn e he).imp ?_
      rintro ⟨held', h⟩
      rw [hmu] at h
      cases h
  · rcases h with h | h <;> cases h
    have hself : (setDemux s d { s.demux d with link := .opened }).demux d =
        { s.demux d with link := .opened } := Function.update_self _ _ _
    rw [hself]
    exact ht.busy d held (Or.inl hmu)
  · rw [ht.locked h] at hmu
    cases hmu

lemma tears_linkDropped {s : St} (hr : Reg s) (ht : Tears s) {d : ℕ} {held : Held}
    (hmu : s.mu = .dropping d held) :
    Tears (ret (setDemux s d { s.demux d with link := .closed }) held (.ok d)) := by
  have htorn := ht.torn d (hr.linking d held (Or.inr hmu)).1
  refine ⟨fun e he => ?_, fun e held' h => ?_, ht.ctx, fun _ => rfl⟩
  · by_cases hed : e = d
    · subst hed
      simp only [ret, setDemux, Function.update_self]
      exact ⟨htorn.handler, htorn.flag, fun _ => Or.inl (by simp), by simp⟩
    · simp only [ret, setDemux, Function.update_of_ne hed]
      refine (ht.torn e he).imp ?_
      rintro ⟨held', h⟩
      rw [hmu] at h
      cases h
      exact absurd rfl hed
  · rcases h with h | h <;> cases h

lemma tears_step {s t : St} {a : Act} (hr : Reg s) (ht : Tears s) (h : Does s a t) :
    Tears t := by
  have hidle : s.ctx = none → s.closer = .idle := fun h => by
    by_contra hc
    exact ht.ctx hc h
  cases h with
  | refused name hmu err hctx =>
    exact tears_mu ht rfl rfl rfl rfl (by simp [hmu]) (Or.inl rfl)
  | found name hmu d hd hlive =>
    exact tears_mu ht rfl rfl rfl rfl (by simp [hmu]) (Or.inl rfl)
  | evict name hmu hctx d hd hdead =>
    exact tears_mu ht rfl rfl rfl rfl (by simp [hmu]) (Or.inr ⟨hidle hctx, _, _, rfl⟩)
  | missing name hmu hctx hd =>
    exact tears_mu ht rfl rfl rfl rfl (by simp [hmu]) (Or.inr ⟨hidle hctx, _, _, rfl⟩)
  | socketErr err name held hmu =>
    exact tears_mu ht rfl rfl rfl rfl (by simp [hmu]) (Or.inl rfl)
  | socketOk name held hmu => exact tears_register ht hmu
  | linkErr d held hmu => exact tears_mu ht rfl rfl rfl rfl (by simp [hmu]) (Or.inl rfl)
  | linkLate d held hmu hl => exact tears_linkLate hr ht hmu
  | linkOk d held hmu hl =>
    have hlt := (hr.linking d held (Or.inl hmu)).1
    have htorn := ht.torn d hlt
    have hnot := htorn.flag.not.mp (by simp [hl])
    have hset := tears_setDemux ht { s.demux d with link := .opened, observing := true } rfl
      ⟨htorn.handler, htorn.flag, fun h => by simp_all, by simp⟩
    exact tears_mu hset rfl rfl rfl rfl (by simp [setDemux, hmu]) (Or.inl rfl)
  | linkDropped d held hmu => exact tears_linkDropped hr ht hmu
  | ctxDone e => exact { ht with ctx := fun _ => cancelCtx_ne_none _ _ }
  | demux a d hd m hm =>
    exact tears_setDemux ht m (local_ifaceName hm) (torn_local (ht.torn d hd) hm)
  | onClose d hd hl hmu =>
    have htorn := ht.torn d hd
    have hset := tears_setDemux ht { s.demux d with loop := .done } rfl
      ⟨by simpa [hl] using htorn.handler, by simpa [hl] using htorn.flag,
        fun _ => htorn.link (by simp [hl]), htorn.observing⟩
    exact tears_mu hset rfl rfl rfl rfl (by simp [setDemux, hmu]) (Or.inl hmu)
  | closeCancel hc =>
    exact { ht with ctx := fun _ => cancelCtx_ne_none _ _, locked := fun h => h.elim }
  | closeSnapshot hc hmu =>
    exact { ht with ctx := fun _ => ht.ctx (by simp [hc]), locked := fun _ => hmu }
  | closeDemux d todo hc hd =>
    have hlt : d < s.next := hr.todo d (by simpa [hc, Closer.todo] using hd)
    have htorn := ht.torn d hlt
    have hset := tears_setDemux ht
      { s.demux d with ctx := cancelCtx (s.demux d).ctx .canceled } rfl
      ⟨htorn.handler, htorn.flag, htorn.link, htorn.observing⟩
    exact tears_closer hset (by simp [setDemux, hc, Snapped]) _
  | closeHandler d todo hc =>
    have hlt : d < s.next := hr.todo d (by simp [hc, Closer.todo])
    have htorn := ht.torn d hlt
    have hset := tears_setDemux ht { s.demux d with handlerClosed := true } rfl
      ⟨by simp, htorn.flag, htorn.link, htorn.observing⟩
    exact tears_closer hset (by simp [setDemux, hc, Snapped]) _
  | waited d todo hc hd => exact tears_closer ht (by simp [hc, Snapped]) _
  | closeReturn hc => exact tears_closer ht (by simp [hc, Snapped]) _

lemma tears_of_run {s t : St} {as : List Act} (hp : Reg s ∧ Tears s)
    (h : run step s as = some t) : Reg t ∧ Tears t :=
  run_inv (P := fun s => Reg s ∧ Tears s)
    (fun _ _ _ hp hst =>
      ⟨reg_step hp.1 (step_does hst), tears_step hp.1 hp.2 (step_does hst)⟩) hp h

end Kne.ServerTeardown
