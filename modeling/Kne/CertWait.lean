import Kne.JunosRetry
import Kne.PodModel

/-!
`GenerateSelfSigned` of Nokia and Juniper: wait until the pod of the node is up, open a connection
to its command line and make a certificate there. Both wait in a loop over the events of a watch,
which is left at the first event that shows the pod up, or when the channel of the watch is closed.
Juniper asks afterwards which of the two it was. Nokia does not.
-/

namespace Kne.CertWait

open Kne.CliModel Kne.JunosRetry Kne.PodModel

inductive ConditionType
  | ready
  | other (name : String)
  deriving DecidableEq, Repr

inductive ConditionStatus
  | yes | no | unknown
  deriving DecidableEq, Repr

/-- What the program reads of a pod. -/
structure Pod where
  phase : Phase
  conditions : List (ConditionType × ConditionStatus) := []
  deriving DecidableEq, Repr

/-- A watch on the pod of a node: its events, in which `none` stands for an object that is not a
pod, and whether its channel is closed after them. -/
structure Watch where
  events : List (Option Pod)
  closed : Bool
  deriving DecidableEq, Repr

inductive Act
  /-- A pod is looked at. -/
  | saw (p : Pod)
  /-- The connection is opened. -/
  | spawn
  deriving DecidableEq, Repr

/-- How the loop over the events was left, if it was. -/
inductive Left
  | seen | closed | waiting
  deriving DecidableEq, Repr

/-- The loop over the events of a watch. -/
def watchLoop (up : Pod → Bool) (closed : Bool) : List (Option Pod) → List Act × Left
  | [] => ([], if closed then .closed else .waiting)
  | none :: events => watchLoop up closed events
  | some p :: events =>
    if up p then ([.saw p], .seen)
    else (.saw p :: (watchLoop up closed events).1, (watchLoop up closed events).2)

/-- What a call does: the watch it opens, its acts, and the error it returns, if it returns. -/
structure Outcome where
  watch : Option Watch := none
  acts : List Act := []
  returned : Option (Option String)
  deriving DecidableEq, Repr

/-! ### Nokia -/

/-- The pod runs and is ready. -/
def nokiaUp (p : Pod) : Bool := p.phase = .running && p.conditions.contains (.ready, .yes)

structure NokiaEnv where
  /-- The name of the certificate, if the node is configured with one. -/
  selfSigned : Option String
  watch : Except String Watch
  spawnErr : Option String := none
  /-- The error of `AddSelfSignedServerTLSProfile`. -/
  profileErr : Option String := none
  closeErr : Option String := none

def nokiaGenerateSelfSigned (e : NokiaEnv) : Outcome :=
  match e.selfSigned, e.watch with
  | none, _ => { returned := some none }
  | some _, .error err => { returned := some (some err) }
  | some _, .ok w =>
    match watchLoop nokiaUp w.closed w.events with
    | (acts, .waiting) => ⟨w, acts, none⟩
    -- the pod was seen or the channel is closed
    | (acts, _) => ⟨w, acts ++ [.spawn], some (e.spawnErr.or (e.profileErr.or e.closeErr))⟩

/-! ### Juniper -/

/-- The pod runs. -/
def juniperUp (p : Pod) : Bool := p.phase = .running

structure JuniperEnv where
  name : String
  kubeClient : Bool := true
  selfSigned : Option String
  /-- The pod as `Get` finds it. -/
  get : Except String Pod
  watch : Except String Watch
  ctxErr : Option String := none
  spawnErr : Option String := none
  isAlive : Bool := true
  /-- The attempts to make the certificate and to configure gRPC. -/
  certAttempts : List Attempt := []
  configAttempts : List Attempt := []
  closeErr : Option String := none

/-- What is done once the pod is up: the error it returns. -/
def juniperGenerate (e : JuniperEnv) (certName : String) : Option String :=
  e.spawnErr.or <|
  (if e.isAlive then none else some "scrapligo device driver not open").or <|
  (waitCertInfraReadyAndPushCert certName e.certAttempts).or <|
  ((waitConfigInfraReadyAndPushConfigs e.configAttempts).map
    ("failed sending grpc config commands - self-signed-cert: " ++ ·)).or
  e.closeErr

/-- The watch of a pod that was not running before, with what was seen of it until then. -/
def juniperWatch (e : JuniperEnv) (certName : String) (got : List Act) (w : Watch) : Outcome :=
  match watchLoop juniperUp w.closed w.events with
  | (acts, .waiting) => ⟨w, got ++ acts, none⟩
  | (acts, .closed) => ⟨w, got ++ acts, some (some (e.ctxErr.getD
      (e.name ++ " - watch closed before pod reached running phase")))⟩
  | (acts, .seen) => ⟨w, got ++ acts ++ [.spawn], some (juniperGenerate e certName)⟩

def juniperGenerateSelfSigned (e : JuniperEnv) : Outcome :=
  if !e.kubeClient then { returned := some (some "kubeclient is nil") }
  else
    match e.selfSigned with
    | none => { returned := some none }
    | some certName =>
      match certNameErr certName with
      | some err => { returned := some (some err) }
      | none =>
        let got := e.get.toOption.toList.map Act.saw
        if e.get.toOption.any juniperUp then
          { acts := got ++ [.spawn], returned := some (juniperGenerate e certName) }
        else
          match e.watch with
          | .error err => { acts := got, returned := some (some err) }
          | .ok w => juniperWatch e certName got w

/-! ### Only on a device that was seen up -/

/-- A connection is opened only after the pod was seen up. -/
def SeenFirst (up : Pod → Bool) (acts : List Act) : Prop :=
  ∀ before after, acts = before ++ .spawn :: after → ∃ p, .saw p ∈ before ∧ up p = true

/-- The channel of the watch is closed and no event showed the pod up. -/
def EndsBefore (up : Pod → Bool) (w : Watch) : Prop :=
  w.closed = true ∧ ∀ p, some p ∈ w.events → up p = false

/-- The connection is opened only on a pod that was seen up, and an error is returned if the watch
ends before that. -/
def Careful (up : Pod → Bool) (o : Outcome) : Prop :=
  SeenFirst up o.acts ∧ ∀ w ∈ o.watch, EndsBefore up w → ∃ err, o.returned = some (some err)

variable {up : Pod → Bool} {acts : List Act}

section Loop

variable (up : Pod → Bool) (closed : Bool) (events : List (Option Pod))

lemma spawn_not_mem_watchLoop : .spawn ∉ (watchLoop up closed events).1 := by
  induction events with
  | nil => simp [watchLoop]
  | cons e events ih =>
    rcases e with _ | p
    · exact ih
    · by_cases hup : up p
      · simp [watchLoop, hup]
      · simpa [watchLoop, hup] using ih

lemma mem_events_of_saw {p : Pod} (h : .saw p ∈ (watchLoop up closed events).1) :
    some p ∈ events := by
  induction events with
  | nil => simp [watchLoop] at h
  | cons e events ih =>
    rcases e with _ | q
    · exact List.mem_cons_of_mem _ (ih h)
    · by_cases hup : up q
      · obtain rfl : p = q := by simpa [watchLoop, hup] using h
        exact List.mem_cons_self
      · simp only [watchLoop, hup, if_false, Bool.false_eq_true, List.mem_cons, Act.saw.injEq] at h
        rcases h with rfl | h
        · exact List.mem_cons_self
        · exact List.mem_cons_of_mem _ (ih h)

lemma watchLoop_cases :
    ((watchLoop up closed events).2 = .seen ∧
      ∃ p, some p ∈ events ∧ .saw p ∈ (watchLoop up closed events).1 ∧ up p = true) ∨
    ((watchLoop up closed events).2 = (if closed then .closed else .waiting) ∧
      ∀ p, some p ∈ events → up p = false) := by
  induction events with
  | nil => exact .inr ⟨rfl, by simp⟩
  | cons e events ih =>
    rcases e with _ | p
    · simpa [watchLoop] using ih
    · by_cases hup : up p
      · exact .inl ⟨by simp [watchLoop, hup], p, by simp, by simp [watchLoop, hup], hup⟩
      · have hrest : watchLoop up closed (some p :: events) =
            (.saw p :: (watchLoop up closed events).1, (watchLoop up closed events).2) := by
          simp [watchLoop, hup]
        rw [hrest]
        rcases ih with ⟨hleft, q, hq, hsaw, hqup⟩ | ⟨hleft, hnone⟩
        · exact .inl ⟨hleft, q, by simp [hq], by simp [hsaw], hqup⟩
        · refine .inr ⟨hleft, fun q hq => ?_⟩
          rcases List.mem_cons.mp hq with heq | hq
          · cases heq
            simpa using hup
          · exact hnone q hq

end Loop

lemma seenFirst_of_not_mem (h : .spawn ∉ acts) : SeenFirst up acts := by
  rintro before after rfl
  simp at h

lemma seenFirst_snoc_iff (h : .spawn ∉ acts) :
    SeenFirst up (acts ++ [.spawn]) ↔ ∃ p, .saw p ∈ acts ∧ up p = true := by
  constructor
  · intro hseen
    exact hseen acts [] rfl
  · rintro hup before after heq
    obtain rfl : acts = before := by
      rcases List.append_eq_append_iff.mp heq with ⟨as, rfl, has⟩ | ⟨bs, rfl, hbs⟩
      · rcases as with _ | ⟨a, as⟩
        · simp
        · simp at has
      · rcases bs with _ | ⟨b, bs⟩
        · simp
        · obtain ⟨rfl, -⟩ := List.cons.inj hbs
          simp at h
    exact hup

lemma nokia_watched {e : NokiaEnv} {certName : String} {w : Watch}
    (hcert : e.selfSigned = some certName) (hw : e.watch = .ok w) :
    nokiaGenerateSelfSigned e =
      if (watchLoop nokiaUp w.closed w.events).2 = .waiting then
        ⟨w, (watchLoop nokiaUp w.closed w.events).1, none⟩
      else ⟨w, (watchLoop nokiaUp w.closed w.events).1 ++ [.spawn],
        some (e.spawnErr.or (e.profileErr.or e.closeErr))⟩ := by
  simp only [nokiaGenerateSelfSigned, hcert, hw]
  cases hloop : watchLoop nokiaUp w.closed w.events with
  | mk acts left => cases left <;> rfl

lemma nokia_careful_iff (e : NokiaEnv) : Careful nokiaUp (nokiaGenerateSelfSigned e) ↔
    ¬ (e.selfSigned.isSome ∧ ∃ w, e.watch = .ok w ∧ EndsBefore nokiaUp w) := by
  have hidle : ∀ ret, Careful nokiaUp { returned := ret } :=
    fun ret => ⟨seenFirst_of_not_mem (by simp), by simp⟩
  cases hcert : e.selfSigned with
  | none => simpa [nokiaGenerateSelfSigned, hcert] using hidle _
  | some certName =>
    cases hw : e.watch with
    | error err => simpa [nokiaGenerateSelfSigned, hcert, hw] using hidle _
    | ok w =>
      rw [nokia_watched hcert hw]
      have hspawn := spawn_not_mem_watchLoop nokiaUp w.closed w.events
      rcases watchLoop_cases nokiaUp w.closed w.events with
        ⟨hleft, p, hp, hsaw, hup⟩ | ⟨hleft, hnone⟩
      · -- the pod was seen up
        have hnot : ¬ EndsBefore nokiaUp w := fun hends => by simp [hends.2 p hp] at hup
        rw [if_neg (by simp [hleft])]
        refine iff_of_true ⟨(seenFirst_snoc_iff hspawn).mpr ⟨p, hsaw, hup⟩, ?_⟩ ?_
        · simpa using fun hends => absurd hends hnot
        · simpa using hnot
      · cases hclosed : w.closed with
        | true =>
          -- the channel was closed, and the connection is opened all the same
          rw [hclosed] at hleft hspawn
          rw [if_neg (by simp [hleft])]
          refine iff_of_false (fun hcareful => ?_) (by simpa [EndsBefore, hclosed] using hnone)
          obtain ⟨p, hsaw, hup⟩ := (seenFirst_snoc_iff hspawn).mp hcareful.1
          simp [hnone p (mem_events_of_saw _ _ _ hsaw)] at hup
        | false =>
          rw [hclosed] at hleft hspawn
          rw [if_pos (by simp [hleft])]
          exact iff_of_true ⟨seenFirst_of_not_mem hspawn, by simp [EndsBefore, hclosed]⟩
            (by simp [EndsBefore, hclosed])

lemma juniperWatch_careful (e : JuniperEnv) (certName : String) (w : Watch) {got : List Act}
    (hgot : .spawn ∉ got) : Careful juniperUp (juniperWatch e certName got w) := by
  have hspawn : .spawn ∉ got ++ (watchLoop juniperUp w.closed w.events).1 :=
    List.not_mem_append hgot (spawn_not_mem_watchLoop _ _ _)
  have hcases := watchLoop_cases juniperUp w.closed w.events
  unfold juniperWatch
  cases hloop : watchLoop juniperUp w.closed w.events with
  | mk acts left =>
    rw [hloop] at hspawn hcases
    cases left with
    | seen =>
      have hseen : ∃ p, some p ∈ w.events ∧ .saw p ∈ acts ∧ juniperUp p = true := by
        cases hclosed : w.closed <;> simpa [hclosed] using hcases
      obtain ⟨p, hp, hsaw, hup⟩ := hseen
      refine ⟨(seenFirst_snoc_iff hspawn).mpr ⟨p, List.mem_append_right _ hsaw, hup⟩, ?_⟩
      intro w' hw' hends
      obtain rfl : w = w' := by simpa using hw'
      simp [hends.2 p hp] at hup
    | closed => exact ⟨seenFirst_of_not_mem hspawn, by simp⟩
    | waiting =>
      have hopen : w.closed = false := by
        cases hclosed : w.closed
        · rfl
        · simp [hclosed] at hcases
      refine ⟨seenFirst_of_not_mem hspawn, ?_⟩
      simp [EndsBefore, hopen]

lemma juniper_careful (e : JuniperEnv) : Careful juniperUp (juniperGenerateSelfSigned e) := by
  have hidle : ∀ {got : List Act} {ret}, .spawn ∉ got →
      Careful juniperUp { acts := got, returned := ret } :=
    fun hgot => ⟨seenFirst_of_not_mem hgot, by simp⟩
  unfold juniperGenerateSelfSigned
  split
  · exact hidle (by simp)
  split
  · exact hidle (by simp)
  split
  · exact hidle (by simp)
  cases hget : e.get with
  | error err =>
    cases hw : e.watch with
    | error err => exact hidle (by simp [Except.toOption])
    | ok w => exact juniperWatch_careful e _ w (by simp [Except.toOption])
  | ok p =>
    by_cases hup : juniperUp p
    · -- the pod was running already
      simp only [Except.toOption, Option.any_some, hup, if_true]
      exact ⟨(seenFirst_snoc_iff (by simp)).mpr ⟨p, by simp, hup⟩, by simp⟩
    · simp only [Except.toOption, Option.any_some, hup, if_false, Bool.false_eq_true]
      cases hw : e.watch with
      | error err => exact hidle (by simp)
      | ok w => exact juniperWatch_careful e _ w (by simp)

/-- **When a certificate is made only on a device that was seen up.** With Juniper always. With
Nokia unless the channel of the watch is closed before an event shows the pod running and ready:
then the connection is opened all the same. -/
theorem generateSelfSigned_careful_iff (n : NokiaEnv) (j : JuniperEnv) :
    (Careful nokiaUp (nokiaGenerateSelfSigned n) ↔
      ¬ (n.selfSigned.isSome ∧ ∃ w, n.watch = .ok w ∧ EndsBefore nokiaUp w)) ∧
    Careful juniperUp (juniperGenerateSelfSigned j) :=
  ⟨nokia_careful_iff n, juniper_careful j⟩

/-- The pod of the node is pending when the watch ends. -/
def endedEarly : NokiaEnv where
  selfSigned := some "kne-profile"
  watch := .ok ⟨[some ⟨.pending, []⟩, none], true⟩

theorem certificate_without_pod :
    nokiaGenerateSelfSigned endedEarly =
      ⟨some ⟨[some ⟨.pending, []⟩, none], true⟩, [.saw ⟨.pending, []⟩, .spawn], some none⟩ ∧
    ¬ Careful nokiaUp (nokiaGenerateSelfSigned endedEarly) := by
  refine ⟨by decide, fun hcareful => ?_⟩
  rw [nokia_careful_iff] at hcareful
  exact hcareful ⟨rfl, _, rfl, rfl, by simp [nokiaUp]⟩

end Kne.CertWait
