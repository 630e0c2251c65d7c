import Kne.ServerTeardown

/-!
What is open when `Server.Close` returns. `Close` waits for the demuxes that are registered at
one moment; the others have to be shut by then. A demux that leaves the registry by its own
callback is, but one that is replaced after its context was cancelled may have its teardown
still before it, and then nobody waits for it.
-/

namespace Kne.ServerClose

open Kne.Runs Kne.ServerModel Kne.ServerRegistry Kne.ServerTeardown

/-- A dead demux is replaced only when it is shut. -/
def ReplacesShut (s : St) : Act → Prop
  | .getOrCreateDemux ifaceName => s.ctx = none → ∀ d, s.demuxers.lookup ifaceName = some d →
      (s.demux d).ctx ≠ none → Shut (s.demux d)
  | _ => True

/-- The demuxes `Close` looks after: those registered, and from its snapshot on those on its
list. -/
def Watched (s : St) (d : ℕ) : Prop :=
  match s.closer with
  | .idle | .cancelled => s.demuxers.lookup (s.demux d).ifaceName = some d
  | c => d ∈ c.todo

def Kept (s : St) : Prop := ∀ d < s.next, Shut (s.demux d) ∨ Watched s d

lemma watched_of_not_snapped {s : St} (h : ¬ Snapped s.closer) (d : ℕ) :
    Watched s d ↔ s.demuxers.lookup (s.demux d).ifaceName = some d := by
  unfold Watched
  cases hc : s.closer <;> simp_all [Snapped]

lemma watched_of_snapped {s : St} (h : Snapped s.closer) (d : ℕ) :
    Watched s d ↔ d ∈ s.closer.todo := by
  unfold Watched
  cases hc : s.closer <;> simp_all [Snapped]

lemma local_shut {m m' : Demux} (h : Local m m') (hs : Shut m) : Shut m' := by
  obtain ⟨hh, hl⟩ := hs
  cases h with
  | cancel e => exact ⟨hh, hl⟩
  | watch h => exact ⟨rfl, hl⟩
  | readError h => exact ⟨hh, hl⟩
  | eventsEnd h => exact ⟨hh, hl⟩
  | loop m' h =>
    unfold loopStep at h
    split at h <;> cases h
    case h_5 l hs => cases l <;> simp [Shut, hh, hl]
    all_goals first | exact ⟨hh, hl⟩ | exact ⟨rfl, hl⟩

lemma kept_setDemux {s : St} (hk : Kept s) {d : ℕ} (m : Demux)
    (hn : m.ifaceName = (s.demux d).ifaceName)
    (hm : Shut (s.demux d) → Shut m ∨ Watched s d) : Kept (setDemux s d m) := by
  have hw : ∀ e, Watched s e → Watched (setDemux s d m) e := by
    intro e h
    have hname : ((setDemux s d m).demux e).ifaceName = (s.demux e).ifaceName := by
      by_cases hed : e = d
      · subst hed; simpa [setDemux] using hn
      · simp [setDemux, hed]
    by_cases hs : Snapped s.closer
    · exact (watched_of_snapped (s := setDemux s d m) hs e).mpr ((watched_of_snapped hs e).mp h)
    · rw [watched_of_not_snapped (s := setDemux s d m) hs, hname]
      exact (watched_of_not_snapped hs e).mp h
  intro e he
  by_cases hed : e = d
  · subst hed
    rcases hk e he with hsh | hwa
    · rcases hm hsh with hsh | hwa
      · left; simpa [setDemux] using hsh
      · exact Or.inr (hw e hwa)
    · exact Or.inr (hw e hwa)
  · rcases hk e he with hsh | hwa
    · left; simpa [setDemux, hed] using hsh
    · exact Or.inr (hw e hwa)

lemma kept_evict {s : St} (ht : Tears s) (hk : Kept s) {name : String}
    (hctx : s.ctx = none) {d : ℕ} (hd : s.demuxers.lookup name = some d)
    (hshut : Shut (s.demux d)) (mu : Mu) :
    Kept { s with demuxers := s.demuxers.erase name, mu := mu } := by
  have hidle : s.closer = .idle := by
    by_contra hc
    exact ht.ctx hc hctx
  have hsn : ¬ Snapped s.closer := by simp [hidle, Snapped]
  intro e he
  rcases hk e he with hsh | hw
  · exact Or.inl hsh
  · have hreg := (watched_of_not_snapped hsn e).mp hw
    by_cases hname : (s.demux e).ifaceName = name
    · rw [hname, hd] at hreg
      cases hreg
      exact Or.inl hshut
    · refine Or.inr ?_
      rw [watched_of_not_snapped (by exact hsn)]
      exact (AList.lookup_erase_ne hname).trans hreg

lemma kept_register {s : St} (hr : Reg s) (hk : Kept s) {name : String} {held : Held}
    (hmu : s.mu = .opening name held) (hsn : ¬ Snapped s.closer) :
    Kept (register s name held) := by
  have hself : (register s name held).demux s.next = { ifaceName := name, ctx := s.ctx } :=
    Function.update_self _ _ _
  intro e he
  by_cases hen : e = s.next
  · subst hen
    refine Or.inr ?_
    rw [watched_of_not_snapped (s := register s name held) hsn, hself]
    exact AList.lookup_insert _
  · have hold : (register s name held).demux e = s.demux e := Function.update_of_ne hen _ _
    have hlt : e < s.next := by simp only [register] at he; omega
    rw [hold]
    rcases hk e hlt with hsh | hw
    · exact Or.inl hsh
    · have hreg := (watched_of_not_snapped hsn e).mp hw
      have hname : (s.demux e).ifaceName ≠ name := by
        intro hname
        rw [hname, (hr.opening name held hmu).1] at hreg
        cases hreg
      refine Or.inr ?_
      rw [watched_of_not_snapped (s := register s name held) hsn, hold]
      exact (AList.lookup_insert_ne hname).trans hreg

lemma kept_onClose {s : St} (ht : Tears s) (hk : Kept s) {d : ℕ} (hd : d < s.next)
    (hl : (s.demux d).loop = .onClose) (hmu : s.mu = .free) : Kept (onClose s d) := by
  have hshut : Shut (s.demux d) := by
    refine shut_of_torn (ht.torn d hd) ?_ (Or.inl hl)
    rintro ⟨held, h⟩
    rw [hmu] at h
    cases h
  intro e he
  by_cases hed : e = d
  · subst hed
    have hself : (onClose s e).demux e = { s.demux e with loop := .done } :=
      Function.update_self _ _ _
    rw [hself]
    exact Or.inl hshut
  · have hold : (onClose s d).demux e = s.demux e := Function.update_of_ne hed _ _
    rw [hold]
    rcases hk e he with hsh | hw
    · exact Or.inl hsh
    · refine Or.inr ?_
      by_cases hsn : Snapped s.closer
      · exact (watched_of_snapped (s := onClose s d) hsn e).mpr
          ((watched_of_snapped hsn e).mp hw)
      · rw [watched_of_not_snapped (s := onClose s d) hsn, hold]
        exact lookup_onClose hed ((watched_of_not_snapped hsn e).mp hw)

lemma kept_step {s t : St} {a : Act} (hr : Reg s) (ht : Tears s) (hk : Kept s)
    (hok : ReplacesShut s a) (h : Does s a t) : Kept t := by
  have hfree : s.mu ≠ .free → ¬ Snapped s.closer := fun h hs => h (ht.locked hs)
  have hbusy : ∀ d held, s.mu = .linking d held ∨ s.mu = .dropping d held → Watched s d :=
    fun d held h => (watched_of_not_snapped
      (hfree (by rcases h with h | h <;> simp [h])) d).mpr (ht.busy d held h)
  cases h with
  | refused name hmu err hctx => exact hk
  | found name hmu d hd hlive => exact hk
  | evict name hmu hctx d hd hdead => exact kept_evict ht hk hctx hd (hok hctx d hd hdead) _
  | missing name hmu hctx hd => exact hk
  | socketErr err name held hmu => exact hk
  | socketOk name held hmu => exact kept_register hr hk hmu (hfree (by simp [hmu]))
  | linkErr d held hmu => exact hk
  | linkLate d held hmu hl =>
    exact kept_setDemux hk { s.demux d with link := .opened } rfl
      fun _ => Or.inr (hbusy d held (Or.inl hmu))
  | linkOk d held hmu hl =>
    exact kept_setDemux hk { s.demux d with link := .opened, observing := true } rfl
      fun _ => Or.inr (hbusy d held (Or.inl hmu))
  | linkDropped d held hmu =>
    exact kept_setDemux hk { s.demux d with link := .closed } rfl
      fun _ => Or.inr (hbusy d held (Or.inr hmu))
  | ctxDone e => exact hk
  | demux a d hd m hm =>
    exact kept_setDemux hk m (local_ifaceName hm) fun hsh => Or.inl (local_shut hm hsh)
  | onClose d hd hl hmu => exact kept_onClose ht hk hd hl hmu
  | closeCancel hc =>
    intro e he
    refine (hk e he).imp_right fun hw => ?_
    exact (watched_of_not_snapped (s := s) (by simp [hc, Snapped]) e).mp hw
  | closeSnapshot hc hmu =>
    intro e he
    refine (hk e he).imp_right fun hw => ?_
    have hreg := (watched_of_not_snapped (by simp [hc, Snapped]) e).mp hw
    exact List.mem_map.mpr ⟨⟨_, e⟩, AList.mem_lookup_iff.mp hreg, rfl⟩
  | closeDemux d todo hc hd =>
    have hset := kept_setDemux hk
      { s.demux d with ctx := cancelCtx (s.demux d).ctx .canceled } rfl Or.inl
    intro e he
    refine (hset e he).imp_right fun hw => ?_
    have hmem : e ∈ todo := by simpa [Watched, setDemux, hc, Closer.todo] using hw
    by_cases hed : e = d
    · subst hed; exact List.mem_cons_self
    · exact List.mem_cons_of_mem d ((List.mem_erase_of_ne hed).mpr hmem)
  | closeHandler d todo hc =>
    have hset := kept_setDemux hk { s.demux d with handlerClosed := true } rfl
      fun hsh => Or.inl ⟨rfl, hsh.2⟩
    intro e he
    refine (hset e he).imp_right fun hw => ?_
    simpa [Watched, setDemux, hc, Closer.todo] using hw
  | waited d todo hc hd =>
    have hsn : Snapped s.closer := by simp [hc, Snapped]
    have hlt : d < s.next := hr.todo d (by simp [hc, Closer.todo])
    intro e he
    rcases hk e he with hsh | hw
    · exact Or.inl hsh
    · rw [watched_of_snapped hsn, hc] at hw
      rcases List.mem_cons.mp hw with rfl | hmem
      · -- the read loop of a demux that was waited for has run to its end
        refine Or.inl (shut_of_torn (ht.torn e hlt) ?_ (Or.inr hd))
        rintro ⟨held, h⟩
        rw [ht.locked hsn] at h
        cases h
      · exact Or.inr hmem
  | closeReturn hc =>
    intro e he
    refine (hk e he).imp_right fun hw => ?_
    simp [Watched, hc, Closer.todo] at hw

lemma kept_run {as : List Act} {s : St} (hok : Along step ReplacesShut {} as)
    (h : run step {} as = some s) : Kept s :=
  (run_inv_along (P := fun s => (Reg s ∧ Tears s) ∧ Kept s)
    (fun _ _ _ hp hok hst =>
      ⟨⟨reg_step hp.1.1 (step_does hst), tears_step hp.1.1 hp.1.2 (step_does hst)⟩,
        kept_step hp.1.1 hp.1.2 hp.2 hok (step_does hst)⟩)
    ⟨⟨reg_init, tears_init⟩, fun d hd => absurd hd (Nat.not_lt_zero d)⟩ hok h).2

/-! ### A demux nobody waits for -/

/-- The statements the read loop has still to run. -/
def left : Loop → ℕ
  | .reading => 7
  | .cancel => 6
  | .closeHandler => 5
  | .closeListeners => 4
  | .takeLink => 3
  | .closeLink _ => 2
  | .onClose => 1
  | .done => 0

/-- The states differ in the demux `e` only, and in the registry. -/
structure Apart (e : ℕ) (s t : St) : Prop where
  closer : t.closer = s.closer
  mu : t.mu = .free
  next : t.next = s.next
  demux : ∀ d, d ≠ e → t.demux d = s.demux d

lemma Apart.trans {e : ℕ} {s t u : St} (h : Apart e s t) (h' : Apart e t u) : Apart e s u :=
  ⟨h'.closer.trans h.closer, h'.mu, h'.next.trans h.next,
    fun d hd => (h'.demux d hd).trans (h.demux d hd)⟩

lemma apart_setDemux {s : St} (hmu : s.mu = .free) (e : ℕ) (m : Demux) :
    Apart e s (setDemux s e m) :=
  ⟨rfl, hmu, rfl, fun _ hd => Function.update_of_ne hd _ _⟩

lemma exists_next {s : St} {e : ℕ} (hmu : s.mu = .free) (he : e < s.next)
    (hl : (s.demux e).loop ≠ .done) :
    ∃ a t, step s a = some t ∧ Apart e s t ∧ left (t.demux e).loop < left (s.demux e).loop := by
  have hset : ∀ m, loopStep (s.demux e) = some m → step s (.loop e) = some (setDemux s e m) := by
    intro m hm
    have hne : (s.demux e).loop ≠ .onClose := by
      intro h
      simp [loopStep, h] at hm
    simp only [step, he, if_true]
    split
    · contradiction
    · rw [hm]; rfl
  cases hloop : (s.demux e).loop with
  | reading =>
    refine ⟨.readError e, _, by simp only [step, he, hloop, and_self, if_true]; rfl,
      apart_setDemux hmu e _, by simp [setDemux, left]⟩
  | cancel =>
    exact ⟨_, _, hset _ (by simp only [loopStep, hloop]; rfl), apart_setDemux hmu e _,
      by simp [setDemux, left]⟩
  | closeHandler =>
    exact ⟨_, _, hset _ (by simp only [loopStep, hloop]; rfl), apart_setDemux hmu e _,
      by simp [setDemux, left]⟩
  | closeListeners =>
    exact ⟨_, _, hset _ (by simp only [loopStep, hloop]; rfl), apart_setDemux hmu e _,
      by simp [setDemux, left]⟩
  | takeLink =>
    exact ⟨_, _, hset _ (by simp only [loopStep, hloop]; rfl), apart_setDemux hmu e _,
      by simp [setDemux, left]⟩
  | closeLink l =>
    exact ⟨_, _, hset _ (by simp only [loopStep, hloop]; rfl), apart_setDemux hmu e _,
      by simp [setDemux, left]⟩
  | onClose =>
    refine ⟨.loop e, onClose s e, by simp [step, he, hloop, hmu], ?_,
      by simp [onClose, setDemux, left]⟩
    exact ⟨rfl, hmu, rfl, fun _ hd => Function.update_of_ne hd _ _⟩
  | done => exact absurd hloop hl

lemma exists_done {s : St} {e : ℕ} (hmu : s.mu = .free) (he : e < s.next) :
    ∃ as t, run step s as = some t ∧ Apart e s t ∧ (t.demux e).loop = .done := by
  induction hn : left (s.demux e).loop using Nat.strong_induction_on generalizing s with
  | _ n ih =>
    by_cases hl : (s.demux e).loop = .done
    · exact ⟨[], s, rfl, ⟨rfl, hmu, rfl, fun _ _ => rfl⟩, hl⟩
    · obtain ⟨a, u, hu, hap, hlt⟩ := exists_next hmu he hl
      have heu : e < u.next := by rw [hap.next]; exact he
      obtain ⟨as, t, ht, hap', hdone⟩ := ih _ (hn ▸ hlt) hap.mu heu rfl
      exact ⟨a :: as, t, by rw [run_cons, hu]; exact ht, hap.trans hap', hdone⟩

lemma exists_waitable {s : St} {e : ℕ} (hp : Reg s ∧ Tears s) (hmu : s.mu = .free)
    (he : e < s.next) :
    ∃ as t, run step s as = some t ∧ Apart e s t ∧ (t.demux e).loop = .done ∧
      (t.demux e).observing = false := by
  obtain ⟨as, t, ht, hap, hdone⟩ := exists_done hmu he
  have het : e < t.next := by rw [hap.next]; exact he
  have htorn := (tears_of_run hp ht).2.torn e het
  have hlink : (t.demux e).link ≠ .opened := by
    refine (shut_of_torn htorn ?_ (Or.inr hdone)).2
    rintro ⟨held, h⟩
    rw [hap.mu] at h
    cases h
  cases hobs : (t.demux e).observing with
  | false => exact ⟨as, t, ht, hap, hdone, hobs⟩
  | true =>
    have hcl : (t.demux e).link = .closed := by
      have := htorn.observing hobs
      cases h : (t.demux e).link <;> simp_all
    refine ⟨as ++ [.eventsEnd e], setDemux t e { t.demux e with observing := false },
      run_trans step ht ?_, hap.trans (apart_setDemux hap.mu e _), ?_, ?_⟩
    · simp [step, het, hcl]
    · simpa [setDemux] using hdone
    · simp [setDemux]

lemma exists_returned {s : St} {todo : List ℕ} (hp : Reg s ∧ Tears s)
    (hc : s.closer = .closing todo) :
    ∃ as t, run step s as = some t ∧ t.closer = .returned ∧ t.next = s.next ∧
      ∀ d, d ∉ todo → t.demux d = s.demux d := by
  induction todo generalizing s with
  | nil => exact ⟨[.closeReturn], { s with closer := .returned }, by simp [step, hc], rfl, rfl,
      fun _ _ => rfl⟩
  | cons e rest ih =>
    have hmu : s.mu = .free := hp.2.locked (by simp [hc, Snapped])
    have he : e < s.next := hp.1.todo e (by simp [hc, Closer.todo])
    -- the demux is closed, drained and waited for
    set m := { s.demux e with ctx := cancelCtx (s.demux e).ctx .canceled, handlerClosed := true }
    set s2 : St := { setDemux s e m with closer := .waiting e rest }
    have h2 : run step s [.closeDemux e, .closeHandler] = some s2 := by
      simp [step, hc, s2, m, setDemux]
    obtain ⟨bs, s3, h3, hap, hdone, hobs⟩ :=
      exists_waitable (tears_of_run hp h2) (s := s2) (e := e) hmu he
    have hwait : s3.closer = .waiting e rest := hap.closer
    have h4 : run step s3 [.waited] = some { s3 with closer := .closing rest } := by
      simp [step, hwait, hdone, hobs]
    have hrun := run_trans step (run_trans step h2 h3) h4
    obtain ⟨cs, t, ht, hret, hnext, hdem⟩ := ih (tears_of_run hp hrun) rfl
    refine ⟨_, t, run_trans step hrun ht, hret, hnext.trans hap.next, fun d hd => ?_⟩
    rw [List.mem_cons, not_or] at hd
    calc t.demux d = s3.demux d := hdem d hd.2
      _ = s2.demux d := hap.demux d hd.1
      _ = s.demux d := Function.update_of_ne hd.1 _ _

lemma exists_open {s u : St} {a : Act} (hp : Reg s ∧ Tears s) (hst : step s a = some u)
    (hbad : ¬ ReplacesShut s a) :
    ∃ as t, run step u as = some t ∧ t.closer = .returned ∧ ∃ d < t.next, ¬ Shut (t.demux d) := by
  obtain ⟨name, rfl⟩ : ∃ name, a = .getOrCreateDemux name := by
    cases a <;> simp_all [ReplacesShut]
  simp only [ReplacesShut, not_forall] at hbad
  obtain ⟨hctx, d, hd, hdead, hopen⟩ := hbad
  have hmu : s.mu = .free := by
    cases hmu : s.mu <;> simp [step, hmu] at hst ⊢
  have hidle : s.closer = .idle := by
    by_contra hc
    exact hp.2.ctx hc hctx
  obtain ⟨hlt, hname⟩ := hp.1.keys name d hd
  set held := s.held
  have hu : u = { s with
      demuxers := s.demuxers.erase name
      mu := .opening name held } := by
    simpa [step, hmu, getOrCreateDemux, hctx, hd, hdead, held] using hst.symm
  set todo := (s.demuxers.erase name).entries.map Sigma.snd
  have hsnap : run step u [.socketErr "", .closeCancel, .closeSnapshot] = some { s with
      demuxers := s.demuxers.erase name
      rets := s.rets ++ [⟨held, .error (.openSocket name "")⟩]
      ctx := cancelCtx s.ctx .canceled
      closer := .closing todo } := by
    subst hu
    simp [step, ret, hidle, hmu, todo]
  have hone : run step s [.getOrCreateDemux name] = some u := by simp [hst]
  have hpu : Reg u ∧ Tears u := tears_of_run hp hone
  obtain ⟨as, t, ht, hret, hnext, hdem⟩ := exists_returned (tears_of_run hpu hsnap) rfl
  have hmem : d ∉ todo := by
    intro hmem
    obtain ⟨⟨name', e⟩, he, rfl⟩ := List.mem_map.mp hmem
    have hl : (s.demuxers.erase name).lookup name' = some e := AList.mem_lookup_iff.mpr he
    by_cases hnn : name' = name
    · subst hnn; simp at hl
    · rw [AList.lookup_erase_ne hnn] at hl
      exact hnn ((hp.1.keys name' e hl).2.symm.trans hname)
  refine ⟨_, t, run_trans step hsnap ht, hret, d, by rw [hnext]; exact hlt, ?_⟩
  rw [hdem d hmem]
  exact hopen

/-- **When `Close` leaves nothing open.** In every run that replaces dead demuxes only when they
are shut, every socket handler and every link is closed when `Close` has returned. A run that
replaces one which is not can be continued so that `Close` returns with it still open. -/
theorem shut_of_replacesShut (as : List Act) (s : St) (h : run step {} as = some s) :
    (Along step ReplacesShut {} as → s.closer = .returned → ∀ d < s.next, Shut (s.demux d)) ∧
    ∀ a u, step s a = some u → ¬ ReplacesShut s a →
      ∃ bs t, run step {} (as ++ a :: bs) = some t ∧ t.closer = .returned ∧
        ∃ d < t.next, ¬ Shut (t.demux d) := by
  refine ⟨fun hok hret d hd => ?_, fun a u hst hbad => ?_⟩
  · have hk := kept_run hok h d hd
    refine hk.resolve_right fun hw => ?_
    rw [watched_of_snapped (by simp [hret, Snapped]), hret] at hw
    simp [Closer.todo] at hw
  · have hp := tears_of_run ⟨reg_init, tears_init⟩ h
    obtain ⟨bs, t, ht, hret, hopen⟩ := exists_open hp hst hbad
    exact ⟨bs, t, run_trans_cons step h hst ht, hret, hopen⟩

/-- The demux that is replaced has closed its handler and its link, but not yet called
`onClose`. -/
def replacedShut : List Act :=
  [.getOrCreateDemux "eth1", .socketOk, .linkOk, .readError 0, .loop 0, .loop 0, .loop 0, .loop 0,
    .loop 0, .getOrCreateDemux "eth1", .socketErr "no such device", .closeCancel, .closeSnapshot,
    .closeReturn]

instance (s : St) (a : Act) : Decidable (ReplacesShut s a) :=
  match a with
  | .getOrCreateDemux ifaceName =>
    match h : s.demuxers.lookup ifaceName with
    | none => .isTrue fun _ d hd => by simp [h] at hd
    | some d => decidable_of_iff (s.ctx = none → (s.demux d).ctx ≠ none → Shut (s.demux d))
        ⟨fun hs hctx e he hdead => by rw [h] at he; cases he; exact hs hctx hdead,
          fun hs hctx => hs hctx d h⟩
  | .socketErr _ | .socketOk | .linkErr | .linkOk | .linkDropped | .ctxDone _ | .cancel _ _
  | .watch _ | .readError _ | .loop _ | .eventsEnd _ | .closeCancel | .closeSnapshot
  | .closeDemux _ | .closeHandler | .waited | .closeReturn => .isTrue trivial

theorem replacedShut_shut :
    ∃ s, run step {} replacedShut = some s ∧ s.next = 1 ∧ Shut (s.demux 0) := by
  refine ⟨_, rfl, by decide, ?_⟩
  exact (shut_of_replacesShut replacedShut _ rfl).1 (by decide) (by decide) 0 (by decide)

/-- The read loop of a demux fails and has cancelled its context, but closed nothing, when the
interface is asked for again; then the server is closed. -/
def replacedOpen : List Act :=
  [.getOrCreateDemux "eth1", .socketOk, .linkOk, .readError 0, .loop 0, .getOrCreateDemux "eth1",
    .socketOk, .linkErr, .closeCancel, .closeSnapshot, .closeDemux 1, .closeHandler, .readError 1,
    .loop 1, .loop 1, .loop 1, .loop 1, .loop 1, .loop 1, .waited, .closeReturn]

theorem close_leaves_open :
    ¬ ∀ as s, run step {} as = some s → s.closer = .returned →
      ∀ d < s.next, (s.demux d).handlerClosed = true ∧ (s.demux d).link ≠ .opened := by
  intro h
  have := h replacedOpen _ rfl (by decide) 0 (by decide)
  exact absurd this.1 (by decide)

end Kne.ServerClose
