import Kne.NsModel

/-!
The channel between `Delete` and `waitNSDeleted`. When the request for the deletion is accepted,
`Delete` stays until the goroutine has sent; when it is refused, `Delete` closes the channel while
the goroutine still has its send ahead.
-/

namespace Kne.NsClose

open Kne.Runs Kne.NsModel

/-- The goroutine has its send ahead. -/
def Busy : Waiter → Prop
  | .idle | .done => False
  | .ready | .watching | .sending _ => True

/-- What holds at each point of `Delete`, in every run. -/
def Phase (s : St) : Prop :=
  match s.main with
  | .check | .clean => s.waiter = .idle ∧ s.closed = false
  | .spawn => s.waiter = .idle ∧ s.closed = false ∧ s.skipDeleteWait = false
  | .request => s.closed = false ∧ (s.skipDeleteWait = true → s.waiter = .idle) ∧
      (s.skipDeleteWait = false → Busy s.waiter)
  | .receive => s.closed = false ∧ Busy s.waiter
  | .closing _ => s.closed = false
  | .returned _ => True

variable {ns : String} {s t : St} {a : Act}

lemma phase_waiter (hs : Phase s) (hb : Busy s.waiter) {w : Waiter} (hw : Busy w) :
    Phase { s with waiter := w } := by
  unfold Phase at hs ⊢
  cases hm : s.main with
  | check => simp only [hm] at hs; rw [hs.1] at hb; exact hb.elim
  | clean => simp only [hm] at hs; rw [hs.1] at hb; exact hb.elim
  | spawn => simp only [hm] at hs; rw [hs.1] at hb; exact hb.elim
  | request =>
    simp only [hm] at hs ⊢
    refine ⟨hs.1, fun hskip => ?_, fun _ => hw⟩
    rw [hs.2.1 hskip] at hb
    exact hb.elim
  | receive => simp only [hm] at hs ⊢; exact ⟨hs.1, hw⟩
  | closing r => simp only [hm] at hs ⊢; exact hs
  | returned r => simp only

lemma phase_returned (hs : Phase s) (hc : s.closed = true) : ∃ r, s.main = .returned r := by
  have hopen : s.closed ≠ false := by simp [hc]
  unfold Phase at hs
  cases hm : s.main with
  | check => rw [hm] at hs; exact absurd hs.2 hopen
  | clean => rw [hm] at hs; exact absurd hs.2 hopen
  | spawn => rw [hm] at hs; exact absurd hs.2.1 hopen
  | request => rw [hm] at hs; exact absurd hs.1 hopen
  | receive => rw [hm] at hs; exact absurd hs.1 hopen
  | closing r => rw [hm] at hs; exact absurd hs hopen
  | returned r => exact ⟨r, rfl⟩

lemma phase_step (hs : Phase s) (h : step ns s a = some t) : Phase t := by
  obtain ⟨-, hd⟩ := step_does h
  cases hd with
  | missing ok hm => trivial
  | get hm hp =>
    unfold Phase at hs ⊢
    rwa [hm] at hs
  | clean hm =>
    unfold Phase at hs ⊢
    rw [hm] at hs
    cases hskip : s.skipDeleteWait with
    | true => simp only [if_true]; exact ⟨hs.2, fun _ => hs.1, fun h => by cases h⟩
    | false => simp only [Bool.false_eq_true, if_false]; exact ⟨hs.1, hs.2, trivial⟩
  | spawn hm =>
    unfold Phase at hs ⊢
    rw [hm] at hs
    refine ⟨hs.2.1, fun hskip => ?_, fun _ => trivial⟩
    rw [hs.2.2] at hskip
    cases hskip
  | refused err hm =>
    unfold Phase St.leave at *
    rw [hm] at hs
    cases s.skipDeleteWait with
    | true => trivial
    | false => exact hs.1
  | request hm hp =>
    unfold Phase St.accepted at *
    rw [hm] at hs
    cases hskip : s.skipDeleteWait with
    | true => trivial
    | false => exact ⟨hs.1, hs.2.2 hskip⟩
  | watchFails err hw => exact phase_waiter hs (by rw [hw]; trivial) trivial
  | watch hw => exact phase_waiter hs (by rw [hw]; trivial) trivial
  | event e q hw hq =>
    have hb : Busy (if e.isDeletion ns then .sending none else .watching) := by
      split_ifs <;> trivial
    exact phase_waiter hs (by rw [hw]; trivial) hb
  | watchClosed hw hs' => exact phase_waiter hs (by rw [hw]; trivial) trivial
  | ctxDone hw he => exact phase_waiter hs (by rw [hw]; trivial) trivial
  | deliver v hm hw =>
    unfold Phase at hs ⊢
    rw [hm] at hs
    exact hs.1
  | close r hm => trivial
  | crash v hc hw =>
    obtain ⟨r, hm⟩ := phase_returned hs hc
    unfold Phase
    simp only [hm]
  | emit e hw hs' => exact hs
  | remove hp => exact hs
  | shutWatch hw => exact hs
  | expire => exact hs

lemma phase_start (skip present : Bool) : Phase (start skip present) := ⟨rfl, rfl⟩

lemma phase_run {skip present : Bool} {as : List Act}
    (h : run (step ns) (start skip present) as = some s) : Phase s :=
  run_inv (fun _ _ _ hs hst => phase_step hs hst) (phase_start skip present) h

/-! ### When the request is accepted -/

/-- The request for the deletion is not refused while a goroutine waits. -/
def Accepts (s : St) : Act → Prop
  | .request (some _) => s.skipDeleteWait = true
  | _ => True

instance (s : St) (a : Act) : Decidable (Accepts s a) :=
  match a with
  | .request (some _) => inferInstanceAs (Decidable (s.skipDeleteWait = true))
  | .request none | .get _ | .clean | .spawn | .watch _ | .event | .watchClosed | .ctxDone
  | .deliver | .close | .crash | .emit _ | .remove | .shutWatch | .expire => .isTrue trivial

/-- The goroutine has nothing ahead once `Delete` is on its way out. -/
structure Quiet (s : St) : Prop where
  phase : Phase s
  alive : s.crashed = false
  out : ∀ r, s.main = .closing r ∨ s.main = .returned r → ¬ Busy s.waiter

lemma Quiet.not_closed (hs : Quiet s) (hb : Busy s.waiter) : s.closed = false := by
  cases hc : s.closed with
  | false => rfl
  | true =>
    obtain ⟨r, hm⟩ := phase_returned hs.phase hc
    exact absurd hb (hs.out r (Or.inr hm))

lemma quiet_step (hs : Quiet s) (hacc : Accepts s a) (h : step ns s a = some t) : Quiet t := by
  have hp := phase_step hs.phase h
  obtain ⟨hc, hd⟩ := step_does h
  have hphase := hs.phase
  have hbusy : ∀ r, Busy s.waiter → ¬ (s.main = .closing r ∨ s.main = .returned r) :=
    fun r hb hm => hs.out r hm hb
  cases hd with
  | missing ok hm =>
    unfold Phase at hphase
    rw [hm] at hphase
    exact ⟨hp, hc, fun r _ => by rw [hphase.1]; exact id⟩
  | get hm hpr => exact ⟨hp, hc, by simp⟩
  | clean hm =>
    refine ⟨hp, hc, fun r hr => ?_⟩
    dsimp only at hr
    split_ifs at hr <;> simp at hr
  | spawn hm => exact ⟨hp, hc, by simp⟩
  | refused err hm =>
    unfold Phase at hphase
    rw [hm] at hphase
    exact ⟨hp, hc, fun r _ => by rw [hphase.2.1 hacc]; exact id⟩
  | request hm hpr =>
    refine ⟨hp, hc, fun r hr => ?_⟩
    unfold Phase at hphase
    rw [hm] at hphase
    unfold St.accepted at hr
    split_ifs at hr with hskip
    · rw [hphase.2.1 hskip]
      exact id
    · simp at hr
  | watchFails err hw => exact ⟨hp, hc, fun r hr => absurd hr (hbusy r (by rw [hw]; trivial))⟩
  | watch hw => exact ⟨hp, hc, fun r hr => absurd hr (hbusy r (by rw [hw]; trivial))⟩
  | event e q hw hq => exact ⟨hp, hc, fun r hr => absurd hr (hbusy r (by rw [hw]; trivial))⟩
  | watchClosed hw hsh => exact ⟨hp, hc, fun r hr => absurd hr (hbusy r (by rw [hw]; trivial))⟩
  | ctxDone hw he => exact ⟨hp, hc, fun r hr => absurd hr (hbusy r (by rw [hw]; trivial))⟩
  | deliver v hm hw => exact ⟨hp, hc, fun r _ => id⟩
  | close r hm => exact ⟨hp, hc, fun r' _ => hs.out r (Or.inl hm)⟩
  | crash v hcl hw =>
    rw [hs.not_closed (by rw [hw]; trivial)] at hcl
    cases hcl
  | emit e hw hsh => exact ⟨hp, hc, hs.out⟩
  | remove hpr => exact ⟨hp, hc, hs.out⟩
  | shutWatch hw => exact ⟨hp, hc, hs.out⟩
  | expire => exact ⟨hp, hc, hs.out⟩

/-! ### When it is refused -/

lemma exists_sending (ns : String) (hc : s.crashed = false) (hb : Busy s.waiter) :
    ∃ as t v, run (step ns) s as = some t ∧ t.waiter = .sending v ∧ t.crashed = false ∧
      t.main = s.main := by
  cases hw : s.waiter with
  | idle => rw [hw] at hb; exact hb.elim
  | done => rw [hw] at hb; exact hb.elim
  | sending v => exact ⟨[], s, v, rfl, hw, hc, rfl⟩
  | ready =>
    refine ⟨[.watch (some "")], { s with waiter := .sending (some (.watch "")) }, _, ?_, rfl, hc,
      rfl⟩
    simp [step, act, hc, hw]
  | watching =>
    refine ⟨[.expire, .ctxDone], { s with
      ended := true, waiter := .sending (some .ended), existed := some s.present }, _, ?_, rfl, hc,
      rfl⟩
    simp [step, act, hc, hw]

lemma exists_crash (hs : Phase s) (h : step ns s a = some t) (hbad : ¬ Accepts s a) :
    ∃ as u, run (step ns) t as = some u ∧ u.crashed = true := by
  obtain ⟨hc, hd⟩ := step_does h
  cases hd with
  | refused err hm =>
    have hskip : s.skipDeleteWait = false := by simpa [Accepts] using hbad
    have hb : Busy s.waiter := by
      unfold Phase at hs
      rw [hm] at hs
      exact hs.2.2 hskip
    obtain ⟨as, u, v, hrun, hw, hcu, hmu⟩ :=
      exists_sending ns (s := { s with main := s.leave (.deleteFailed err) }) hc hb
    refine ⟨as ++ [.close, .crash], { u with
      main := .returned (.deleteFailed err), closed := true, crashed := true, waiter := .done },
      run_trans (step ns) hrun ?_, rfl⟩
    simp only [St.leave, hskip, Bool.false_eq_true, if_false] at hmu
    simp [step, act, hcu, hmu, hw]
  | _ => exact absurd trivial hbad

/-- **Sends on the channel of `Delete`.** In every run in which the request for the deletion is not
refused while a goroutine waits, the goroutine never sends on the closed channel, and is not at its
send when the channel is closed. When the request is refused, the run can be continued to such a
send. -/
theorem no_send_on_closed (ns : String) (skip present : Bool) (as : List Act) (s : St)
    (h : run (step ns) (start skip present) as = some s) :
    (Along (step ns) Accepts (start skip present) as →
      s.crashed = false ∧ ¬ (s.closed = true ∧ ∃ v, s.waiter = .sending v)) ∧
    ∀ a t, step ns s a = some t → ¬ Accepts s a →
      ∃ bs u, run (step ns) (start skip present) (as ++ a :: bs) = some u ∧ u.crashed = true := by
  constructor
  · intro hacc
    have hq : Quiet s := by
      refine run_inv_along (P := Quiet) ?_ ?_ hacc h
      · exact fun s a t hs hacc hst => quiet_step hs hacc hst
      · exact ⟨phase_start skip present, rfl, by simp [start]⟩
    refine ⟨hq.alive, ?_⟩
    rintro ⟨hcl, v, hw⟩
    rw [hq.not_closed (by rw [hw]; trivial)] at hcl
    cases hcl
  · intro a t hst hbad
    obtain ⟨bs, u, hrun, hu⟩ := exists_crash (phase_run h) hst hbad
    exact ⟨bs, u, run_trans_cons (step ns) h hst hrun, hu⟩

/-- The namespace is deleted, and the goroutine sees it go. -/
def seenRun : List Act :=
  [.get true, .clean, .spawn, .watch none, .request none, .emit ⟨.modified, some "lab"⟩, .remove,
    .event, .event, .deliver, .close]

theorem seenRun_safe : ∃ s, run (step "lab") (start false true) seenRun = some s ∧
    s.main = .returned .ok ∧ s.crashed = false ∧
    ¬ (s.closed = true ∧ ∃ v, s.waiter = .sending v) := by
  obtain ⟨s, hs⟩ : ∃ s, run (step "lab") (start false true) seenRun = some s := ⟨_, rfl⟩
  refine ⟨s, hs, by cases hs; rfl, ?_⟩
  exact (no_send_on_closed "lab" false true seenRun s hs).1 (by decide)

/-- The request is refused, and the goroutine gives up later. -/
def refusedRun : List Act :=
  [.get true, .clean, .spawn, .watch none, .request (some "forbidden"), .close, .expire, .ctxDone,
    .crash]

theorem refused_request_crashes : ∃ s, run (step "lab") (start false true) refusedRun = some s ∧
    s.main = .returned (.deleteFailed "forbidden") ∧ s.crashed = true :=
  ⟨_, rfl, rfl, rfl⟩

end Kne.NsClose
