import Kne.NsClose

/-!
What `Delete` sees of the deletion it waits for. The watch is opened by the goroutine, and nothing
keeps the cluster from removing the namespace before that; the watch then has no event for it, and
the wait ends with its context although the namespace is gone.
-/

namespace Kne.NsWatch

open Kne.Runs Kne.NsModel Kne.NsClose

/-- The removal of the namespace is among the events not received yet. -/
def Pending (ns : String) (q : List Event) : Prop := ∃ e ∈ q, e.isDeletion ns = true

instance (ns : String) (q : List Event) : Decidable (Pending ns q) :=
  inferInstanceAs (Decidable (∃ e ∈ q, e.isDeletion ns = true))

/-- The watch tells of the removal of the namespace when it happens, and of nothing else as such;
it is not closed by the server; and what it tells is received before the context ends. -/
def Honest (ns : String) (s : St) : Act → Prop
  | .emit e => e.isDeletion ns = false
  | .shutWatch => False
  | .expire => ¬ Pending ns s.queue
  | _ => True

instance (ns : String) (s : St) (a : Act) : Decidable (Honest ns s a) :=
  match a with
  | .emit e => inferInstanceAs (Decidable (e.isDeletion ns = false))
  | .shutWatch => .isFalse id
  | .expire => inferInstanceAs (Decidable (¬ Pending ns s.queue))
  | .get _ | .clean | .spawn | .request _ | .watch _ | .event | .watchClosed | .ctxDone
  | .deliver | .close | .crash | .remove => .isTrue trivial

/-- Once the request is accepted, the namespace is not removed before the watch has been opened,
nor between the end of the context and the moment the goroutine notices it. -/
def InTime (s : St) : Act → Prop
  | .remove => s.main = .receive →
      s.waiter = .watching ∧ s.ended = false ∨ ∃ v, s.waiter = .sending v
  | _ => True

instance (w : Waiter) : Decidable (∃ v, w = .sending v) :=
  match w with
  | .sending v => .isTrue ⟨v, rfl⟩
  | .idle | .ready | .watching | .done => .isFalse fun ⟨_, h⟩ => by cases h

instance (s : St) (a : Act) : Decidable (InTime s a) :=
  match a with
  | .remove => inferInstanceAs (Decidable (s.main = .receive →
      s.waiter = .watching ∧ s.ended = false ∨ ∃ v, s.waiter = .sending v))
  | .get _ | .clean | .spawn | .request _ | .watch _ | .event | .watchClosed | .ctxDone
  | .deliver | .close | .crash | .emit _ | .shutWatch | .expire => .isTrue trivial

variable {ns : String} {s t : St} {a : Act}

/-- What holds of the namespace and the goroutine. -/
structure Seen (ns : String) (s : St) : Prop where
  serving : s.shut = false
  made : s.waiter = .sending (some .ended) → s.existed ≠ none
  gone : s.existed = some false → s.present = false
  /-- While `Delete` waits for a namespace that is gone, the goroutine is about to see it. -/
  seen : s.main = .receive → s.present = false →
    s.waiter = .watching ∧ s.ended = false ∧ Pending ns s.queue ∨ ∃ v, s.waiter = .sending v
  kept : s.main = .receive → s.waiter = .sending (some .ended) → s.existed = some true
  told : s.main = .closing (.waitFailed .ended) ∨ s.main = .returned (.waitFailed .ended) →
    s.waiter = .done ∧ s.existed = some true

lemma seen_init (skip present : Bool) : Seen ns (start skip present) where
  serving := rfl
  made h := by cases h
  gone h := by cases h
  seen h := by cases h
  kept h := by cases h
  told h := by rcases h with h | h <;> cases h

/-- A step of `Delete` to a point at which it does not wait for the goroutine, nor returns what
that has sent. -/
lemma seen_main (hs : Seen ns s) {m : Main} (h1 : m ≠ .receive)
    (h2 : m ≠ .closing (.waitFailed .ended)) (h3 : m ≠ .returned (.waitFailed .ended)) :
    Seen ns { s with main := m } where
  serving := hs.serving
  made := hs.made
  gone := hs.gone
  seen h := absurd h h1
  kept h := absurd h h1
  told h := h.elim (fun h => absurd h h2) fun h => absurd h h3

lemma seen_sending (hs : Seen ns s) (hb : Busy s.waiter) {v : Option WaitErr}
    (hv : v ≠ some .ended) (q : List Event) :
    Seen ns { s with waiter := .sending v, queue := q } where
  serving := hs.serving
  made h := by cases h; exact absurd rfl hv
  gone := hs.gone
  seen _ _ := Or.inr ⟨v, rfl⟩
  kept _ h := by cases h; exact absurd rfl hv
  told h := by rw [(hs.told h).1] at hb; exact hb.elim

lemma seen_request (hs : Seen ns s) (hp : s.present = true) :
    Seen ns { s with main := s.accepted } := by
  unfold St.accepted
  split_ifs
  · exact seen_main hs (by simp) (by simp) (by simp)
  · refine ⟨hs.serving, hs.made, hs.gone, fun _ h => ?_, fun _ hw => ?_, by simp⟩
    · rw [hp] at h
      cases h
    · -- what was made before the request was made while the namespace existed
      obtain ⟨b, hb⟩ := Option.ne_none_iff_exists'.mp (hs.made hw)
      cases b with
      | true => exact hb
      | false =>
        rw [hs.gone hb] at hp
        cases hp

lemma seen_event (hs : Seen ns s) {e : Event} {q : List Event} (hw : s.waiter = .watching)
    (hq : s.queue = e :: q) : Seen ns { s with
      queue := q, waiter := if e.isDeletion ns then .sending none else .watching } := by
  cases he : e.isDeletion ns with
  | true =>
    rw [if_pos rfl]
    exact seen_sending hs (by rw [hw]; trivial) (by simp) q
  | false =>
    rw [if_neg (by simp), ← hw]
    refine ⟨hs.serving, hs.made, hs.gone, fun hm hp => ?_, hs.kept, hs.told⟩
    refine (hs.seen hm hp).imp_left fun ⟨h1, h2, e', he', hdel⟩ => ⟨h1, h2, e', ?_, hdel⟩
    rw [hq] at he'
    refine (List.mem_cons.mp he').resolve_left ?_
    rintro rfl
    rw [he] at hdel
    cases hdel

lemma seen_ctxDone (hs : Seen ns s) (hw : s.waiter = .watching) (he : s.ended = true) :
    Seen ns { s with waiter := .sending (some .ended), existed := some s.present } := by
  refine ⟨hs.serving, by simp, fun h => Option.some.inj h, fun _ _ => Or.inr ⟨_, rfl⟩,
    fun hm _ => ?_, fun hm => ?_⟩
  · cases hp : s.present with
    | true => rfl
    | false =>
      -- then the removal is pending, and the context has not ended
      rcases hs.seen hm hp with ⟨-, he', -⟩ | ⟨v, hv⟩
      · rw [he] at he'; cases he'
      · rw [hw] at hv; cases hv
  · have hdone := (hs.told hm).1
    rw [hw] at hdone
    cases hdone

lemma seen_deliver (hs : Seen ns s) {v : Option WaitErr} (hm : s.main = .receive)
    (hw : s.waiter = .sending v) :
    Seen ns { s with main := .closing (resultOf v), waiter := .done } := by
  refine ⟨hs.serving, by simp, hs.gone, by simp, by simp, fun h => ⟨rfl, ?_⟩⟩
  rcases h with h | h
  · cases v with
    | none => cases h
    | some err =>
      cases h
      exact hs.kept hm hw
  · cases h

lemma seen_remove (hs : Seen ns s) (hin : InTime s .remove) :
    Seen ns { s with present := false, queue := s.removed ns } := by
  refine ⟨hs.serving, hs.made, fun _ => rfl, fun hm _ => ?_, hs.kept, hs.told⟩
  refine (hin hm).imp_left fun ⟨hw, he⟩ => ⟨hw, he, ⟨.deleted, some ns⟩, ?_, ?_⟩
  · simp [St.removed, hw, hs.serving]
  · simp [Event.isDeletion]

lemma seen_step (hp : Phase s) (hs : Seen ns s) (hh : Honest ns s a) (hin : InTime s a)
    (h : step ns s a = some t) : Seen ns t := by
  obtain ⟨-, hd⟩ := step_does h
  cases hd with
  | missing ok hm => exact seen_main hs (by simp) (by simp) (by simp)
  | get hm hpr => exact seen_main hs (by simp) (by simp) (by simp)
  | clean hm => refine seen_main hs ?_ ?_ ?_ <;> split_ifs <;> simp
  | spawn hm => exact ⟨hs.serving, by simp, hs.gone, by simp, by simp, by simp⟩
  | refused err hm => refine seen_main hs ?_ ?_ ?_ <;> unfold St.leave <;> split_ifs <;> simp
  | request hm hpr => exact seen_request hs hpr
  | watchFails err hw => exact seen_sending hs (by rw [hw]; trivial) (by simp) s.queue
  | watch hw =>
    refine ⟨hs.serving, by simp, hs.gone, fun hm hpr => ?_, by simp, fun hm => ?_⟩
    · rcases hs.seen hm hpr with ⟨hw', -⟩ | ⟨v, hw'⟩
      · rw [hw] at hw'; cases hw'
      · rw [hw] at hw'; cases hw'
    · have hdone := (hs.told hm).1
      rw [hw] at hdone
      cases hdone
  | event e q hw hq => exact seen_event hs hw hq
  | watchClosed hw hsh =>
    rw [hs.serving] at hsh
    cases hsh
  | ctxDone hw he => exact seen_ctxDone hs hw he
  | deliver v hm hw => exact seen_deliver hs hm hw
  | close r hm =>
    refine ⟨hs.serving, hs.made, hs.gone, by simp, by simp, fun h => ?_⟩
    simp only [reduceCtorEq, false_or, Main.returned.injEq] at h
    exact hs.told (Or.inl (h ▸ hm))
  | crash v hc hw =>
    refine ⟨hs.serving, by simp, hs.gone, fun hm _ => ?_, by simp, fun hm => ⟨rfl, (hs.told hm).2⟩⟩
    obtain ⟨r, hr⟩ := phase_returned hp hc
    rw [show s.main = .receive from hm] at hr
    cases hr
  | emit e hw hsh =>
    refine ⟨hs.serving, hs.made, hs.gone, fun hm hpr => ?_, hs.kept, hs.told⟩
    refine (hs.seen hm hpr).imp_left fun ⟨h1, h2, e', he', hdel⟩ => ⟨h1, h2, e', ?_, hdel⟩
    exact List.mem_append_left _ he'
  | remove hpr => exact seen_remove hs hin
  | shutWatch hw => exact absurd hh id
  | expire =>
    refine ⟨hs.serving, hs.made, hs.gone, fun hm hpr => Or.inr ?_, hs.kept, hs.told⟩
    exact (hs.seen hm hpr).resolve_left fun ⟨_, _, hpend⟩ => hh hpend

/-! ### When the removal comes too early -/

/-- There are no events before the watch is opened. -/
def Unopened (s : St) : Prop := s.waiter = .idle ∨ s.waiter = .ready → s.queue = []

lemma unopened_step (hp : Phase s) (hs : Unopened s) (h : step ns s a = some t) : Unopened t := by
  obtain ⟨-, hd⟩ := step_does h
  cases hd with
  | spawn hm =>
    unfold Phase at hp
    rw [hm] at hp
    exact fun _ => hs (Or.inl hp.1)
  | watchFails => exact fun h => by simp at h
  | watch => exact fun h => by simp at h
  | event e q =>
    intro h
    dsimp only at h
    split_ifs at h <;> simp at h
  | watchClosed => exact fun h => by simp at h
  | ctxDone => exact fun h => by simp at h
  | deliver => exact fun h => by simp at h
  | crash => exact fun h => by simp at h
  | emit e hw => exact fun h => by simp [hw] at h
  | remove =>
    intro h
    have hw : s.waiter ≠ .watching := by
      intro hw
      rw [show s.waiter = .watching from hw] at h
      simp at h
    exact (if_neg fun hc => hw hc.1).trans (hs h)
  | _ => exact hs

lemma unopened_run {skip present : Bool} {as : List Act}
    (h : run (step ns) (start skip present) as = some s) : Phase s ∧ Unopened s := by
  refine run_inv (P := fun s => Phase s ∧ Unopened s) ?_ ⟨phase_start skip present, fun _ => rfl⟩ h
  exact fun s a t hs hst => ⟨phase_step hs.1 hst, unopened_step hs.1 hs.2 hst⟩

/-- `Delete` returns that the wait has failed. -/
def GivesUp (s : St) : Prop := s.main = .returned (.waitFailed .ended)

lemma exists_givesUp (ns : String) (hc : s.crashed = false) (hm : s.main = .receive)
    (hw : s.waiter = .watching) (he : s.ended = true) (hp : s.present = false) :
    ∃ bs t, Along (step ns) (Honest ns) s bs ∧ run (step ns) s bs = some t ∧ GivesUp t ∧
      t.existed = some false := by
  refine ⟨[.ctxDone, .deliver, .close], { s with
    waiter := .done, existed := some false, closed := true,
    main := .returned (.waitFailed .ended) }, ?_, ?_, rfl, rfl⟩
  · exact ⟨trivial, fun _ _ => ⟨trivial, fun _ _ => ⟨trivial, fun _ _ => trivial⟩⟩⟩
  · simp [step, act, hc, hm, hw, he, hp, resultOf]

lemma exists_missed (hc : s.crashed = false) (hm : s.main = .receive) (hw : s.waiter = .ready)
    (hq : s.queue = []) (hp : s.present = false) :
    ∃ bs t, Along (step ns) (Honest ns) s bs ∧ run (step ns) s bs = some t ∧ GivesUp t ∧
      t.existed = some false := by
  have hwatch : step ns s (.watch none) = some { s with waiter := .watching } := by
    simp [step, act, hc, hw]
  have hexpire : run (step ns) s [.watch none, .expire] =
      some { s with waiter := .watching, ended := true } := by
    simp [step, act, hc, hw]
  have hhonest : Along (step ns) (Honest ns) s [.watch none, .expire] := by
    refine ⟨trivial, fun u hu => ⟨?_, fun _ _ => trivial⟩⟩
    rw [hwatch] at hu
    cases hu
    rintro ⟨e, he, -⟩
    rw [show s.queue = [] from hq] at he
    cases he
  obtain ⟨bs, t, hal, hrun, hup, hex⟩ := exists_givesUp ns
    (s := { s with waiter := .watching, ended := true }) hc hm rfl rfl hp
  exact ⟨[.watch none, .expire] ++ bs, t, hhonest.append hexpire hal,
    run_trans (step ns) hexpire hrun, hup, hex⟩

lemma exists_unseen (hp : Phase s) (hq : Unopened s) (h : step ns s a = some t)
    (hbad : ¬ InTime s a) :
    ∃ bs u, Along (step ns) (Honest ns) t bs ∧ run (step ns) t bs = some u ∧ GivesUp u ∧
      u.existed = some false := by
  obtain ⟨hc, hd⟩ := step_does h
  cases hd with
  | remove hpr =>
    simp only [InTime, not_forall, not_or, not_and, not_exists, Bool.not_eq_false] at hbad
    obtain ⟨hm, hended, hsend⟩ := hbad
    unfold Phase at hp
    rw [hm] at hp
    cases hw : s.waiter with
    | idle => rw [hw] at hp; exact hp.2.elim
    | done => rw [hw] at hp; exact hp.2.elim
    | sending v => exact absurd hw (hsend v)
    | watching => exact exists_givesUp ns hc hm rfl (hended hw) rfl
    | ready =>
      refine exists_missed hc hm rfl ?_ rfl
      simp [St.removed, hw, hq (Or.inr hw)]
  | _ => exact absurd trivial hbad

/-- **What `Delete` sees of the deletion.** With a watch that tells of the removal in time, in every
run in which the namespace is not removed before the watch has been opened or after the context has
ended: when `Delete` returns that the wait has failed, the namespace still existed when the
goroutine gave up. A removal at another time can be followed by an error for a namespace that was
gone. -/
theorem deletion_seen (ns : String) (skip present : Bool) (as : List Act) (s : St)
    (h : run (step ns) (start skip present) as = some s)
    (hh : Along (step ns) (Honest ns) (start skip present) as) :
    (Along (step ns) InTime (start skip present) as →
      s.main = .returned (.waitFailed .ended) → s.existed = some true) ∧
    ∀ a t, step ns s a = some t → ¬ InTime s a →
      ∃ bs u, Along (step ns) (Honest ns) (start skip present) (as ++ a :: bs) ∧
        run (step ns) (start skip present) (as ++ a :: bs) = some u ∧
        u.main = .returned (.waitFailed .ended) ∧ u.existed = some false := by
  constructor
  · intro hin hm
    have hs : Phase s ∧ Seen ns s := by
      refine run_inv_along (P := fun s => Phase s ∧ Seen ns s) ?_ ?_ (hh.and hin) h
      · exact fun s a t hs hok hst =>
          ⟨phase_step hs.1 hst, seen_step hs.1 hs.2 hok.1 hok.2 hst⟩
      · exact ⟨phase_start skip present, seen_init skip present⟩
    exact (hs.2.told (Or.inr hm)).2
  · intro a t hst hbad
    obtain ⟨hp, hq⟩ := unopened_run h
    obtain ⟨bs, u, hal, hrun, hup, hex⟩ := exists_unseen hp hq hst hbad
    have hhonest : Honest ns s a := by
      cases a with
      | remove => trivial
      | _ => exact absurd trivial hbad
    refine ⟨bs, u, hh.append h ⟨hhonest, fun v hv => ?_⟩, run_trans_cons (step ns) h hst hrun,
      hup, hex⟩
    rw [hst] at hv
    cases hv
    exact hal

/-- The context ends while the namespace is still there. -/
def slowRun : List Act :=
  [.get true, .clean, .spawn, .watch none, .request none, .emit ⟨.modified, some "lab"⟩, .event,
    .expire, .ctxDone, .remove, .deliver, .close]

theorem slowRun_seen : ∃ s, run (step "lab") (start false true) slowRun = some s ∧
    s.main = .returned (.waitFailed .ended) ∧ s.existed = some true := by
  obtain ⟨s, hs⟩ : ∃ s, run (step "lab") (start false true) slowRun = some s := ⟨_, rfl⟩
  have hm : s.main = .returned (.waitFailed .ended) := by
    cases hs
    rfl
  exact ⟨s, hs, hm, (deletion_seen "lab" false true slowRun s hs (by decide)).1 (by decide) hm⟩

/-- The namespace is gone before the goroutine has opened its watch. -/
def missedRun : List Act :=
  [.get true, .clean, .spawn, .request none, .remove, .watch none, .expire, .ctxDone, .deliver,
    .close]

theorem deletion_missed : Along (step "lab") (Honest "lab") (start false true) missedRun ∧
    ∃ s, run (step "lab") (start false true) missedRun = some s ∧
      s.main = .returned (.waitFailed .ended) ∧ s.existed = some false :=
  ⟨by decide, _, rfl, rfl, rfl⟩

end Kne.NsWatch
