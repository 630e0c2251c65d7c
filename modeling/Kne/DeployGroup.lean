import Kne.Runs

/-!
The concurrent deployment of the ingress, the CNI and the controllers (`deployComponents`,
`componentErr` and `Deployment.Healthy` of `deploy/deploy.go`).

Every component runs in a goroutine of an error group. The first error is recorded and cancels the
context of the group, which makes the other components fail as well. Four contexts bear on a
component: that of the caller, the one of the deployment with its deadline below it, that of the
group below this one, and below the group the component's own, with the budget for its health check.
A context ends after the one above it, not in the same instant, and `componentErr` looks at three of
them one after the other.
-/

namespace Kne.DeployGroup

open Kne.Runs

inductive CtxErr
  | canceled | deadlineExceeded
  deriving DecidableEq, Repr

/-- Which of the two calls of a component failed. -/
inductive Stage
  | deploy | health
  deriving DecidableEq, Repr

/-- The context that `componentErr` looks at next. -/
inductive Look
  | overall | own | group
  deriving DecidableEq, Repr

/-- The cases of `componentErr`. -/
inductive Kind
  | overallTimeout | notHealthy | abandoned | plain
  deriving DecidableEq, Repr

/-- Where the goroutine of a component is. A failure remembers whether the call failed because its
context had ended. -/
inductive Phase
  | deploying
  | checking
  | failed (stage : Stage) (byCtx : Bool) (next : Look)
  | returned (stage : Stage) (byCtx : Bool) (kind : Kind)
  | done (ok : Bool)
  deriving DecidableEq, Repr

def Phase.inHealth : Phase → Bool
  | .checking | .failed .health _ _ => true
  | _ => false

structure Failure (ι : Type) where
  comp : ι
  stage : Stage
  byCtx : Bool
  kind : Kind
  deriving DecidableEq

/-- What the failed call is reported as, before `componentErr` explains it. -/
def wrapped (ofDeploy : Bool) (stage : Stage) (name err : String) : String :=
  match stage with
  | .deploy => "failed to deploy " ++ name ++ ": " ++ err
  | .health =>
    (if ofDeploy then "failed to check if " else "failed to check ") ++ name ++
      " is healthy: " ++ err

def componentErr (name err : String) : Kind → String
  | .overallTimeout =>
    name ++ " did not finish before the overall deployment timeout expired: " ++ err
  | .notHealthy => name ++ " was not healthy within 3m0s: " ++ err
  | .abandoned => name ++ " abandoned before completing: " ++ err
  | .plain => err

variable {ι : Type}

/-- The error that a component returns to the group. -/
def Failure.message (ofDeploy : Bool) (name err : ι → String) (f : Failure ι) : String :=
  componentErr (name f.comp) (wrapped ofDeploy f.stage (name f.comp) (err f.comp)) f.kind

structure St (ι : Type) where
  caller : Option CtxErr := none
  overall : Option CtxErr := none
  group : Option CtxErr := none
  own : ι → Option CtxErr := fun _ => none
  /-- The component has used up its own budget. -/
  expired : ι → Bool := fun _ => false
  phase : ι → Phase
  /-- The error that the group has recorded. -/
  err : Option (Failure ι) := none

def St.enter [DecidableEq ι] (s : St ι) (i : ι) (p : Phase) : St ι :=
  { s with phase := Function.update s.phase i p }

inductive Act (ι : Type)
  | endCaller (e : CtxErr)
  | endOverall
  | deadline
  | endGroup
  /-- The group cancels its context after it has recorded an error. -/
  | cancelGroup
  | endOwn (i : ι)
  | budget (i : ι)
  | deployed (i : ι)
  | deployFails (i : ι) (byCtx : Bool)
  | healthy (i : ι)
  | healthFails (i : ι) (byCtx : Bool)
  | judge (i : ι)
  | finish (i : ι)
  deriving DecidableEq

/-- One look of `componentErr`. -/
def judge (s : St ι) (i : ι) (stage : Stage) (byCtx : Bool) : Look → Phase
  | .overall =>
    if s.overall = some .deadlineExceeded then .returned stage byCtx .overallTimeout
    else .failed stage byCtx .own
  | .own =>
    if stage = .health ∧ s.own i = some .deadlineExceeded then .returned stage byCtx .notHealthy
    else .failed stage byCtx .group
  | .group => .returned stage byCtx (if s.group.isSome then .abandoned else .plain)

def step [DecidableEq ι] (s : St ι) : Act ι → Option (St ι)
  | .endCaller e => if s.caller = none then some { s with caller := some e } else none
  | .endOverall =>
    if s.overall = none ∧ s.caller.isSome then some { s with overall := s.caller } else none
  | .deadline =>
    if s.overall = none then some { s with overall := some .deadlineExceeded } else none
  | .endGroup =>
    if s.group = none ∧ s.overall.isSome then some { s with group := s.overall } else none
  | .cancelGroup =>
    if s.group = none ∧ s.err.isSome then some { s with group := some .canceled } else none
  | .endOwn i =>
    if (s.phase i).inHealth ∧ s.own i = none ∧ s.group.isSome then
      some { s with own := Function.update s.own i s.group }
    else none
  | .budget i =>
    if (s.phase i).inHealth ∧ s.own i = none then
      some { s with
        own := Function.update s.own i (some .deadlineExceeded)
        expired := Function.update s.expired i true }
    else none
  | .deployed i => if s.phase i = .deploying then some (s.enter i .checking) else none
  | .deployFails i byCtx =>
    if s.phase i = .deploying ∧ (byCtx → s.group.isSome) then
      some (s.enter i (.failed .deploy byCtx .overall))
    else none
  | .healthy i => if s.phase i = .checking then some (s.enter i (.done true)) else none
  | .healthFails i byCtx =>
    if s.phase i = .checking ∧ (byCtx → (s.own i).isSome) then
      some (s.enter i (.failed .health byCtx .overall))
    else none
  | .judge i =>
    match s.phase i with
    | .failed stage byCtx next => some (s.enter i (judge s i stage byCtx next))
    | _ => none
  | .finish i =>
    match s.phase i with
    | .returned stage byCtx kind =>
      some { s.enter i (.done false) with err := s.err.or (some ⟨i, stage, byCtx, kind⟩) }
    | _ => none

/-- Before the goroutines run: `deployComponents` deploys, `Healthy` only checks. -/
def start (ι : Type) (ofDeploy : Bool) : St ι :=
  { phase := fun _ => if ofDeploy then .deploying else .checking }

/-! ### What is known of a failure -/

variable {s s' : St ι} {a : Act ι}

/-- What a case of `componentErr` says, as far as the group has an error already. -/
def Told (s : St ι) (i : ι) (stage : Stage) (byCtx : Bool) : Kind → Prop
  | .overallTimeout => s.overall = some .deadlineExceeded
  | .notHealthy =>
    stage = .health ∧ (s.expired i = true ∨ s.overall = some .deadlineExceeded)
  | .abandoned => s.err.isSome ∨ s.overall.isSome
  | .plain => byCtx = false

/-- What holds at the phase of a component. -/
def PhaseOk (s : St ι) (i : ι) : Phase → Prop
  | .failed .deploy byCtx _ => byCtx = true → s.group.isSome
  | .failed .health byCtx .group => byCtx = true → s.group.isSome
  | .failed .health byCtx _ => byCtx = true → (s.own i).isSome
  | .returned stage byCtx kind => Told s i stage byCtx kind
  | .done false => s.err.isSome
  | _ => True

structure Inv (s : St ι) : Prop where
  overall : s.overall = some .canceled → s.caller = some .canceled
  group : ∀ e, s.group = some e → s.overall = some e ∨ s.err.isSome ∧ e = .canceled
  own : ∀ i e, s.own i = some e →
    s.group = some e ∨ s.expired i = true ∧ e = .deadlineExceeded
  phase : ∀ i, PhaseOk s i (s.phase i)
  err : ∀ f, s.err = some f → Told s f.comp f.stage f.byCtx f.kind ∧
    (f.kind = .abandoned → s.overall.isSome) ∧ s.phase f.comp = .done false

/-- The state has moved on: contexts that have ended, and the error, stay as they are. -/
structure Later (s s' : St ι) : Prop where
  overall : ∀ e, s.overall = some e → s'.overall = some e
  group : ∀ e, s.group = some e → s'.group = some e
  own : ∀ i e, s.own i = some e → s'.own i = some e
  expired : ∀ i, s.expired i = true → s'.expired i = true
  err : ∀ f, s.err = some f → s'.err = some f

lemma isSome_later {α : Type} {o o' : Option α} (h : ∀ x, o = some x → o' = some x)
    (ho : o.isSome) : o'.isSome := by
  obtain ⟨x, hx⟩ := Option.isSome_iff_exists.mp ho
  exact Option.isSome_iff_exists.mpr ⟨x, h x hx⟩

lemma Told.later {i : ι} {stage : Stage} {byCtx : Bool} {kind : Kind}
    (h : Told s i stage byCtx kind) (hl : Later s s') : Told s' i stage byCtx kind := by
  cases kind with
  | overallTimeout => exact hl.overall _ h
  | notHealthy => exact ⟨h.1, h.2.imp (hl.expired i) (hl.overall _)⟩
  | abandoned => exact h.imp (isSome_later hl.err) (isSome_later hl.overall)
  | plain => exact h

lemma PhaseOk.later {i : ι} {p : Phase} (h : PhaseOk s i p) (hl : Later s s') : PhaseOk s' i p := by
  cases p with
  | deploying => trivial
  | checking => trivial
  | failed stage byCtx next =>
    cases stage with
    | deploy => exact fun hb => isSome_later hl.group (h hb)
    | health =>
      cases next with
      | overall => exact fun hb => isSome_later (hl.own i) (h hb)
      | own => exact fun hb => isSome_later (hl.own i) (h hb)
      | group => exact fun hb => isSome_later hl.group (h hb)
  | returned stage byCtx kind => exact Told.later h hl
  | done ok =>
    cases ok with
    | true => trivial
    | false => exact isSome_later hl.err h

lemma Inv.contexts (h : Inv s) (hl : Later s s') (hphase : s'.phase = s.phase)
    (herr : s'.err = s.err) (hoverall : s'.overall = some .canceled → s'.caller = some .canceled)
    (hgroup : ∀ e, s'.group = some e → s'.overall = some e ∨ s'.err.isSome ∧ e = .canceled)
    (hown : ∀ i e, s'.own i = some e →
      s'.group = some e ∨ s'.expired i = true ∧ e = .deadlineExceeded) : Inv s' where
  overall := hoverall
  group := hgroup
  own := hown
  phase i := by
    rw [hphase]
    exact (h.phase i).later hl
  err f hf := by
    rw [herr] at hf
    obtain ⟨htold, hab, hdone⟩ := h.err f hf
    exact ⟨htold.later hl, fun hk => isSome_later hl.overall (hab hk), by rw [hphase]; exact hdone⟩

lemma phaseOk_judge (h : Inv s) {i : ι} {stage : Stage} {byCtx : Bool} {next : Look}
    (hi : s.phase i = .failed stage byCtx next) : PhaseOk s i (judge s i stage byCtx next) := by
  have hp := h.phase i
  rw [hi] at hp
  cases next with
  | overall =>
    simp only [judge]
    split
    · next ho => exact ho
    · cases stage <;> exact hp
  | own =>
    simp only [judge]
    split
    · next ho =>
      refine ⟨ho.1, ?_⟩
      rcases h.own i _ ho.2 with hg | ⟨hx, -⟩
      · rcases h.group _ hg with ho | ⟨-, hc⟩
        · exact .inr ho
        · cases hc
      · exact .inl hx
    · next ho =>
      cases stage with
      | deploy => exact hp
      | health =>
        -- a context that has not run out of its own budget has ended after that of the group
        intro hb
        obtain ⟨e, he⟩ := Option.isSome_iff_exists.mp (hp hb)
        rcases h.own i e he with hg | ⟨-, rfl⟩
        · exact Option.isSome_iff_exists.mpr ⟨e, hg⟩
        · exact absurd ⟨rfl, he⟩ ho
  | group =>
    simp only [judge]
    by_cases hg : s.group.isSome
    · rw [if_pos hg]
      obtain ⟨e, he⟩ := Option.isSome_iff_exists.mp hg
      rcases h.group e he with ho | ⟨herr, -⟩
      · exact .inr (Option.isSome_iff_exists.mpr ⟨e, ho⟩)
      · exact .inl herr
    · rw [if_neg hg]
      have hb : ¬ byCtx = true := by cases stage <;> exact fun hb => hg (hp hb)
      simpa [PhaseOk, Told] using hb

lemma inv_start (ofDeploy : Bool) : Inv (start ι ofDeploy) where
  overall h := by cases h
  group _ h := by cases h
  own _ _ h := by cases h
  phase _ := by cases ofDeploy <;> trivial
  err _ h := by cases h

lemma Inv.setCaller (h : Inv s) (hc : s.caller = none) (e : CtxErr) :
    Inv { s with caller := some e } := by
  refine h.contexts ⟨fun _ => id, fun _ => id, fun _ _ => id, fun _ => id, fun _ => id⟩ rfl rfl
    (fun ho => ?_) h.group h.own
  exact absurd (hc.symm.trans (h.overall ho)) (by simp)

lemma Inv.setOverall (h : Inv s) (hc : s.overall = none) {o : Option CtxErr}
    (hcause : o = some .canceled → s.caller = some .canceled) : Inv { s with overall := o } := by
  refine h.contexts ⟨fun e he => absurd (hc.symm.trans he) (by simp), fun _ => id,
    fun _ _ => id, fun _ => id, fun _ => id⟩ rfl rfl hcause (fun e he => .inr ?_) h.own
  exact (h.group e he).resolve_left fun ho => absurd (hc.symm.trans ho) (by simp)

lemma Inv.setGroup (h : Inv s) (hc : s.group = none) {o : Option CtxErr}
    (hcause : ∀ e, o = some e → s.overall = some e ∨ s.err.isSome ∧ e = .canceled) :
    Inv { s with group := o } := by
  refine h.contexts ⟨fun _ => id, fun e he => absurd (hc.symm.trans he) (by simp),
    fun _ _ => id, fun _ => id, fun _ => id⟩ rfl rfl h.overall hcause fun i e he => .inr ?_
  exact (h.own i e he).resolve_left fun hg => absurd (hc.symm.trans hg) (by simp)

variable [DecidableEq ι]

lemma Inv.enter (h : Inv s) {i : ι} {p : Phase} (hi : s.phase i ≠ .done false)
    (hp : PhaseOk s i p) : Inv (s.enter i p) where
  overall := h.overall
  group := h.group
  own := h.own
  phase j := by
    have hl : Later s (s.enter i p) :=
      ⟨fun _ => id, fun _ => id, fun _ _ => id, fun _ => id, fun _ => id⟩
    by_cases hj : j = i
    · subst hj
      simpa [St.enter] using hp.later hl
    · simpa [St.enter, hj] using (h.phase j).later hl
  err f hf := by
    obtain ⟨htold, hab, hdone⟩ := h.err f hf
    refine ⟨htold, hab, ?_⟩
    have hne : f.comp ≠ i := by
      rintro rfl
      exact hi hdone
    simpa [St.enter, hne] using hdone

lemma Inv.setOwn (h : Inv s) {i : ι} (hc : s.own i = none) {o : Option CtxErr} {expired : ι → Bool}
    (hexpired : ∀ j, s.expired j = true → expired j = true)
    (hcause : ∀ e, o = some e → s.group = some e ∨ expired i = true ∧ e = .deadlineExceeded) :
    Inv { s with own := Function.update s.own i o, expired := expired } := by
  refine h.contexts ⟨fun _ => id, fun _ => id, fun j e he => ?_, hexpired, fun _ => id⟩ rfl rfl
    h.overall h.group fun j e he => ?_
  · have hj : j ≠ i := by
      rintro rfl
      exact absurd (hc.symm.trans he) (by simp)
    simpa [hj] using he
  · by_cases hj : j = i
    · subst hj
      exact hcause e (by simpa using he)
    · exact (h.own j e (by simpa [hj] using he)).imp_right (And.imp_left (hexpired j))

lemma Inv.finish (h : Inv s) {i : ι} {stage : Stage} {byCtx : Bool} {kind : Kind}
    (hi : s.phase i = .returned stage byCtx kind) :
    Inv { s.enter i (.done false) with err := s.err.or (some ⟨i, stage, byCtx, kind⟩) } := by
  have htold : Told s i stage byCtx kind := by
    have hp := h.phase i
    rw [hi] at hp
    exact hp
  by_cases herr : s.err = none
  · -- the first failure: nobody has cancelled the group yet
    rw [herr, Option.none_or]
    have hl : Later s { s.enter i (.done false) with err := some ⟨i, stage, byCtx, kind⟩ } :=
      ⟨fun _ => id, fun _ => id, fun _ _ => id, fun _ => id, by simp [herr]⟩
    refine ⟨h.overall, fun e he => ?_, h.own, fun j => ?_, fun f hf => ?_⟩
    · exact (h.group e he).imp_right fun hc => ⟨rfl, hc.2⟩
    · by_cases hj : j = i
      · subst hj
        simp [St.enter, PhaseOk]
      · simpa [St.enter, hj] using (h.phase j).later hl
    · obtain rfl := Option.some.inj hf
      refine ⟨htold.later hl, fun hk => ?_, by simp [St.enter]⟩
      subst hk
      exact htold.resolve_left (by simp [herr])
  · obtain ⟨f, hf⟩ := Option.ne_none_iff_exists'.mp herr
    have hsame : s.err.or (some ⟨i, stage, byCtx, kind⟩) = s.err := by rw [hf]; rfl
    rw [hsame]
    exact h.enter (p := .done false) (by simp [hi]) (Option.isSome_iff_ne_none.mpr herr)

lemma inv_step (h : Inv s) (hstep : step s a = some s') : Inv s' := by
  cases a with
  | endCaller e =>
    obtain ⟨hc, ⟨⟩⟩ := Option.ite_none_right_eq_some.mp hstep
    exact h.setCaller hc e
  | endOverall =>
    obtain ⟨hc, ⟨⟩⟩ := Option.ite_none_right_eq_some.mp hstep
    exact h.setOverall hc.1 id
  | deadline =>
    obtain ⟨hc, ⟨⟩⟩ := Option.ite_none_right_eq_some.mp hstep
    exact h.setOverall hc (by simp)
  | endGroup =>
    obtain ⟨hc, ⟨⟩⟩ := Option.ite_none_right_eq_some.mp hstep
    exact h.setGroup hc.1 fun e he => .inl he
  | cancelGroup =>
    obtain ⟨hc, ⟨⟩⟩ := Option.ite_none_right_eq_some.mp hstep
    exact h.setGroup hc.1 fun e he => .inr ⟨hc.2, (Option.some.inj he).symm⟩
  | endOwn i =>
    obtain ⟨hc, ⟨⟩⟩ := Option.ite_none_right_eq_some.mp hstep
    exact h.setOwn hc.2.1 (fun _ => id) fun e he => .inl he
  | budget i =>
    obtain ⟨hc, ⟨⟩⟩ := Option.ite_none_right_eq_some.mp hstep
    refine h.setOwn hc.2 (fun j hj => ?_) fun e he => .inr ⟨by simp, (Option.some.inj he).symm⟩
    by_cases hji : j = i <;> simp [hji, hj]
  | deployed i =>
    obtain ⟨hc, ⟨⟩⟩ := Option.ite_none_right_eq_some.mp hstep
    exact h.enter (by simp [hc]) trivial
  | deployFails i byCtx =>
    obtain ⟨hc, ⟨⟩⟩ := Option.ite_none_right_eq_some.mp hstep
    exact h.enter (by simp [hc.1]) hc.2
  | healthy i =>
    obtain ⟨hc, ⟨⟩⟩ := Option.ite_none_right_eq_some.mp hstep
    exact h.enter (by simp [hc]) trivial
  | healthFails i byCtx =>
    obtain ⟨hc, ⟨⟩⟩ := Option.ite_none_right_eq_some.mp hstep
    exact h.enter (by simp [hc.1]) hc.2
  | judge i =>
    simp only [step] at hstep
    split at hstep
    · next hi =>
      cases hstep
      exact h.enter (by simp [hi]) (phaseOk_judge h hi)
    · cases hstep
  | finish i =>
    simp only [step] at hstep
    split at hstep
    · next hi =>
      cases hstep
      exact h.finish hi
    · cases hstep

/-- **The first error is a root cause.** Whatever the order in which the components fail, time out
and are cancelled: as long as neither the caller has given up nor the deployment has run out of
time, the error of the group is that of a component whose own call failed, or that has used up its
own budget, and not the echo of another failure; its message is that of the call itself, or says
that the component was not healthy in time. A component is only reported as abandoned if the caller
has given up or the deployment has run out of time. When all have finished, there is an error unless
all have succeeded. -/
theorem group_error_root_cause (ofDeploy : Bool) (name err : ι → String) {as : List (Act ι)}
    (hrun : run step (start ι ofDeploy) as = some s) :
    (∀ f, s.err = some f →
      (f.kind = .overallTimeout → s.overall = some .deadlineExceeded) ∧
      (f.kind = .abandoned → s.caller.isSome ∨ s.overall = some .deadlineExceeded) ∧
      (s.overall = none →
        f.byCtx = false ∧ f.message ofDeploy name err =
          wrapped ofDeploy f.stage (name f.comp) (err f.comp) ∨
        s.expired f.comp = true ∧ f.message ofDeploy name err = name f.comp ++
          " was not healthy within 3m0s: " ++
            wrapped ofDeploy .health (name f.comp) (err f.comp))) ∧
    ((∀ i, ∃ ok, s.phase i = .done ok) → (s.err = none ↔ ∀ i, s.phase i = .done true)) := by
  have h : Inv s := run_inv (fun _ _ _ h hs => inv_step h hs) (inv_start ofDeploy) hrun
  refine ⟨fun f hf => ?_, fun hdone => ⟨fun hnone i => ?_, fun hall => ?_⟩⟩
  · obtain ⟨htold, hab, -⟩ := h.err f hf
    obtain ⟨i, stage, byCtx, kind⟩ := f
    refine ⟨?_, fun hk => ?_, fun ho => ?_⟩
    · rintro rfl
      exact htold
    · obtain ⟨e, he⟩ := Option.isSome_iff_exists.mp (hab hk)
      cases e with
      | canceled => exact .inl (by rw [h.overall he]; rfl)
      | deadlineExceeded => exact .inr he
    · cases kind with
      | overallTimeout => exact absurd (ho.symm.trans htold) (by simp)
      | notHealthy =>
        obtain ⟨rfl, hx⟩ := htold
        exact .inr ⟨hx.resolve_right fun he => absurd (ho.symm.trans he) (by simp), rfl⟩
      | abandoned => exact absurd (hab rfl) (by simp [ho])
      | plain => exact .inl ⟨htold, rfl⟩
  · obtain ⟨ok, hok⟩ := hdone i
    cases ok with
    | true => exact hok
    | false =>
      have hp := h.phase i
      rw [hok] at hp
      exact absurd hp (by simp [PhaseOk, hnone])
  · by_contra hne
    obtain ⟨f, hf⟩ := Option.ne_none_iff_exists'.mp hne
    exact absurd ((hall f.comp).symm.trans (h.err f hf).2.2) (by simp)

/-- One component fails, and the other is cancelled for it. -/
def siblingFails : List (Act Bool) :=
  [.deployed true, .deployFails false false, .judge false, .judge false, .judge false,
    .finish false, .cancelGroup, .endOwn true, .healthFails true true, .judge true, .judge true,
    .judge true, .finish true]

def names (i : Bool) : String := if i then "CNI" else "ingress"

def errs (i : Bool) : String := if i then "context canceled" else "exit status 1"

theorem group_error_root_cause_siblingFails :
    ∃ s, run step (start Bool true) siblingFails = some s ∧
    s.err.map (Failure.message true names errs) = some "failed to deploy ingress: exit status 1" ∧
    (∀ f, s.err = some f →
      (f.kind = .overallTimeout → s.overall = some .deadlineExceeded) ∧
      (f.kind = .abandoned → s.caller.isSome ∨ s.overall = some .deadlineExceeded) ∧
      (s.overall = none →
        f.byCtx = false ∧ f.message true names errs =
          wrapped true f.stage (names f.comp) (errs f.comp) ∨
        s.expired f.comp = true ∧ f.message true names errs = names f.comp ++
          " was not healthy within 3m0s: " ++
          wrapped true .health (names f.comp) (errs f.comp))) ∧
    ((∀ i, ∃ ok, s.phase i = .done ok) → (s.err = none ↔ ∀ i, s.phase i = .done true)) := by
  have hend : (run step (start Bool true) siblingFails).any fun s =>
      s.err.map (Failure.message true names errs) =
        some "failed to deploy ingress: exit status 1" := by decide
  obtain ⟨s, hrun, hs⟩ := (Option.any_eq_true _ _).mp hend
  exact ⟨s, hrun, of_decide_eq_true hs, group_error_root_cause true names errs hrun⟩

end Kne.DeployGroup
