import Kne.Runs

/-!
`Manager.push` (`topo/topo.go`): the checks before the nodes are created, one worker goroutine for
each node, the goroutine that closes `errCh` once every worker is done, and the loop over `errCh`,
which returns the first error it receives.

The channel is unbuffered. A worker that fails stands at its send until the loop receives from it,
and the loop receives at most once.
-/

namespace Kne.Push

open Kne.Runs

/-- The error of a gRPC call, as far as `push` looks at it. -/
inductive Code
  | unimplemented | other
  deriving DecidableEq, Repr

structure RpcErr where
  code : Code
  text : String
  deriving DecidableEq, Repr

/-- A node as `push` meets it: what it is called, what its `Create` returns, whether it has a
certificate in its config, and what its `GenerateSelfSigned` returns if it is a `Certer`. -/
structure Node where
  label : String
  name : String
  create : Option String
  hasCert : Bool
  certer : Option (Option RpcErr)
  deriving DecidableEq, Repr

/-- `Manager.GenerateSelfSigned` at a node of the topology. -/
def Node.generateSelfSigned (n : Node) : Option RpcErr :=
  if n.hasCert = false then none
  else
    match n.certer with
    | none =>
      some ⟨.unimplemented, "node " ++ n.name.quote ++ " does not implement Certer interface"⟩
    | some r => r

/-- The error of `GenerateSelfSigned` that `push` reports. -/
def Node.certErr (n : Node) : Option String :=
  match n.generateSelfSigned with
  | none => none
  | some err => if err.code = .unimplemented then none else some err.text

/-- The worker of the node has an error to report. -/
def Node.Fails (n : Node) : Prop := n.create ≠ none ∨ n.certErr ≠ none

instance (n : Node) : Decidable n.Fails := inferInstanceAs (Decidable (_ ∨ _))

/-- The errors of `push`. That of the namespace has the `String` of the `Namespace` object. -/
inductive Failure (ι : Type)
  | validate (i : ι) (err : String)
  | createNamespace (ns err : String)
  | meshnet (err : String)
  | create (i : ι) (err : String)
  | cert (i : ι) (err : String)
  deriving DecidableEq, Repr

def Failure.text {ι : Type} (nodes : ι → Node) : Failure ι → String
  | .validate i err => "failed to validate node " ++ (nodes i).label ++ ": " ++ err
  | .createNamespace ns err => "failed to create namespace " ++ ns.quote ++ ": " ++ err
  | .meshnet err => "failed to create meshnet topologies: " ++ err
  | .create i err => "failed to create node " ++ (nodes i).label ++ ": " ++ err
  | .cert i err => "failed to generate cert for node " ++ (nodes i).label ++ ": " ++ err

/-- Where `push` is. -/
inductive Main (ι : Type)
  | validate | getNamespace | createNamespace | meshnet | spawn | collect
  | returned (r : Option (Failure ι))
  deriving DecidableEq, Repr

/-- Where a worker is: not started, at `Create`, at `GenerateSelfSigned`, at a send, finished. -/
inductive Pc (ι : Type)
  | idle | ready | created
  | sending (err : Failure ι)
  | done
  deriving DecidableEq, Repr

/-- The goroutine that waits for the workers and closes the channel. -/
inductive Closer
  | idle | waiting | closed
  deriving DecidableEq, Repr

structure St (ι : Type) where
  main : Main ι
  pc : ι → Pc ι
  closer : Closer

def start (ι : Type) : St ι := ⟨.validate, fun _ => .idle, .idle⟩

inductive Act (ι : Type)
  | validate (r : Option (ι × String))
  | getNamespace (found : Bool)
  | createNamespace (r : Option (String × String))
  | meshnet (r : Option String)
  | spawn (i : ι)
  | spawned
  | create (i : ι)
  | cert (i : ι)
  | deliver (i : ι)
  | close
  | drain
  deriving DecidableEq, Repr

section Step
variable {ι : Type}

/-- Where the worker is after `node.Create`. -/
def Node.afterCreate (n : Node) (i : ι) : Pc ι :=
  match n.create with
  | none => .created
  | some err => .sending (.create i err)

/-- Where the worker is after `GenerateSelfSigned`. -/
def Node.afterCert (n : Node) (i : ι) : Pc ι :=
  match n.certErr with
  | none => .done
  | some err => .sending (.cert i err)

section Pc
variable [DecidableEq ι]

def St.setPc (s : St ι) (i : ι) (p : Pc ι) : St ι := { s with pc := Function.update s.pc i p }

@[simp] lemma setPc_main (s : St ι) (i : ι) (p : Pc ι) : (s.setPc i p).main = s.main := rfl

@[simp] lemma setPc_closer (s : St ι) (i : ι) (p : Pc ι) : (s.setPc i p).closer = s.closer := rfl

@[simp] lemma setPc_pc_self (s : St ι) (i : ι) (p : Pc ι) : (s.setPc i p).pc i = p :=
  Function.update_self i _ s.pc

lemma setPc_pc_of_ne (s : St ι) {i j : ι} (p : Pc ι) (h : j ≠ i) : (s.setPc i p).pc j = s.pc j :=
  Function.update_of_ne h _ s.pc

end Pc

/-! ### Where the workers can be -/

/-- What is known of a worker from where it is. -/
def WorkerOk (n : Node) : Pc ι → Prop
  | .created => n.create = none
  | .sending _ => n.Fails
  | .idle | .ready | .done => True

/-- A worker that gets past `Create` with an error to report has one from
`GenerateSelfSigned`. -/
lemma Node.Fails.certErr {n : Node} (hf : n.Fails) (hc : n.create = none) :
    ∃ err, n.certErr = some err :=
  Option.ne_none_iff_exists'.mp (hf.resolve_left (not_not.mpr hc))

lemma afterCreate_ne (n : Node) (i : ι) : n.afterCreate i ≠ .idle := by
  unfold Node.afterCreate
  cases n.create <;> simp

lemma afterCert_ne (n : Node) (i : ι) : n.afterCert i ≠ .idle := by
  unfold Node.afterCert
  cases n.certErr <;> simp

lemma workerOk_afterCreate (n : Node) (i : ι) : WorkerOk n (n.afterCreate i) := by
  unfold Node.afterCreate
  cases h : n.create with
  | none => exact h
  | some err => exact Or.inl (by simp [h])

lemma workerOk_afterCert (n : Node) (i : ι) : WorkerOk n (n.afterCert i) := by
  unfold Node.afterCert
  cases h : n.certErr with
  | none => trivial
  | some err => exact Or.inr (by simp [h])

/-- The workers when `push` is at a point. Once it has returned, either none was started, or all
are done and the channel was closed, or the loop has received from one. -/
def Crew (nodes : ι → Node) (pc : ι → Pc ι) : Main ι → Prop
  | .validate | .getNamespace | .createNamespace | .meshnet => ∀ i, pc i = .idle
  | .spawn => True
  | .collect => ∀ i, pc i ≠ .idle
  | .returned none => ∀ i, pc i = .done
  | .returned (some _) => (∀ i, pc i = .idle) ∨
      (∀ i, pc i ≠ .idle) ∧ ∃ k, (nodes k).Fails ∧ pc k = .done

structure Inv (nodes : ι → Node) (s : St ι) : Prop where
  workers : ∀ i, WorkerOk (nodes i) (s.pc i)
  crew : Crew nodes s.pc s.main
  closed : s.closer = .closed → ∀ i, s.pc i = .done

lemma inv_start (nodes : ι → Node) : Inv nodes (start ι) :=
  ⟨fun _ => trivial, fun _ => rfl, nofun⟩

variable [DecidableEq ι]

lemma workers_setPc {nodes : ι → Node} {s : St ι} {i : ι} {p : Pc ι}
    (hs : ∀ j, WorkerOk (nodes j) (s.pc j)) (hp : WorkerOk (nodes i) p) :
    ∀ j, WorkerOk (nodes j) ((s.setPc i p).pc j) :=
  (Function.forall_update_iff s.pc fun j q => WorkerOk (nodes j) q).mpr ⟨hp, fun j _ => hs j⟩

lemma crew_setPc {nodes : ι → Node} {s : St ι} {m : Main ι} {i : ι} {p : Pc ι}
    (hs : Crew nodes s.pc m) (hi : s.pc i ≠ .idle ∧ s.pc i ≠ .done) (hp : p ≠ .idle) :
    Crew nodes (s.setPc i p).pc m := by
  have hne : (∀ j, s.pc j ≠ .idle) → ∀ j, (s.setPc i p).pc j ≠ .idle :=
    fun h => (Function.forall_update_iff s.pc fun _ q => q ≠ .idle).mpr ⟨hp, fun j _ => h j⟩
  match m with
  | .validate | .getNamespace | .createNamespace | .meshnet => exact absurd (hs i) hi.1
  | .spawn => trivial
  | .collect => exact hne hs
  | .returned none => exact absurd (hs i) hi.2
  | .returned (some _) =>
    obtain h | ⟨h, k, hk, hd⟩ := hs
    · exact absurd (h i) hi.1
    · refine Or.inr ⟨hne h, k, hk, ?_⟩
      rw [setPc_pc_of_ne s p (by rintro rfl; exact hi.2 hd)]
      exact hd

lemma Inv.work {nodes : ι → Node} {s : St ι} (hs : Inv nodes s) {i : ι} {p : Pc ι}
    (hi : s.pc i ≠ .idle ∧ s.pc i ≠ .done) (hp : p ≠ .idle) (hok : WorkerOk (nodes i) p) :
    Inv nodes (s.setPc i p) :=
  ⟨workers_setPc hs.workers hok, crew_setPc hs.crew hi hp,
    fun hc => absurd (hs.closed hc i) hi.2⟩

/-! ### Steps -/

variable [Fintype ι]

/-- One step. The outcomes of the checks before the workers are the environment's; `deliver` is the
rendezvous of a worker's send with the loop, and `drain` is the end of the loop on the closed
channel. -/
def step (nodes : ι → Node) (s : St ι) : Act ι → Option (St ι)
  | .validate r =>
    if s.main = .validate then
      match r with
      | none => some { s with main := .getNamespace }
      | some (i, err) => some { s with main := .returned (some (.validate i err)) }
    else none
  | .getNamespace found =>
    if s.main = .getNamespace then
      some { s with main := if found then .meshnet else .createNamespace }
    else none
  | .createNamespace r =>
    if s.main = .createNamespace then
      match r with
      | none => some { s with main := .meshnet }
      | some (ns, err) => some { s with main := .returned (some (.createNamespace ns err)) }
    else none
  | .meshnet r =>
    if s.main = .meshnet then
      match r with
      | none => some { s with main := .spawn }
      | some err => some { s with main := .returned (some (.meshnet err)) }
    else none
  | .spawn i => if s.main = .spawn ∧ s.pc i = .idle then some (s.setPc i .ready) else none
  | .spawned =>
    if s.main = .spawn ∧ ∀ i, s.pc i ≠ .idle then
      some { s with main := .collect, closer := .waiting }
    else none
  | .create i => if s.pc i = .ready then some (s.setPc i ((nodes i).afterCreate i)) else none
  | .cert i => if s.pc i = .created then some (s.setPc i ((nodes i).afterCert i)) else none
  | .deliver i =>
    if s.main = .collect then
      match s.pc i with
      | .sending err => some { s.setPc i .done with main := .returned (some err) }
      | _ => none
    else none
  | .close =>
    if s.closer = .waiting ∧ ∀ i, s.pc i = .done then some { s with closer := .closed } else none
  | .drain =>
    if s.main = .collect ∧ s.closer = .closed then some { s with main := .returned none } else none

/-- What a step can do. -/
inductive Does (nodes : ι → Node) (s : St ι) : Act ι → St ι → Prop
  | prepare (a : Act ι) (m : Main ι)
      (hm : s.main ∈ [.validate, .getNamespace, .createNamespace, .meshnet])
      (hc : m ≠ .collect ∧ m ≠ .returned none) :
      Does nodes s a { s with main := m }
  | spawn (i : ι) (hm : s.main = .spawn) (hi : s.pc i = .idle) :
      Does nodes s (.spawn i) (s.setPc i .ready)
  | spawned (hm : s.main = .spawn) (hall : ∀ i, s.pc i ≠ .idle) :
      Does nodes s .spawned { s with main := .collect, closer := .waiting }
  | create (i : ι) (hi : s.pc i = .ready) :
      Does nodes s (.create i) (s.setPc i ((nodes i).afterCreate i))
  | cert (i : ι) (hi : s.pc i = .created) :
      Does nodes s (.cert i) (s.setPc i ((nodes i).afterCert i))
  | deliver (i : ι) (err : Failure ι) (hm : s.main = .collect) (hi : s.pc i = .sending err) :
      Does nodes s (.deliver i) { s.setPc i .done with main := .returned (some err) }
  | close (hw : s.closer = .waiting) (hall : ∀ i, s.pc i = .done) :
      Does nodes s .close { s with closer := .closed }
  | drain (hm : s.main = .collect) (hc : s.closer = .closed) :
      Does nodes s .drain { s with main := .returned none }

variable {nodes : ι → Node} {s t : St ι} {a : Act ι}

lemma step_does (h : step nodes s a = some t) : Does nodes s a t := by
  cases a with
  | validate r =>
    simp only [step] at h
    split_ifs at h with hm
    cases r <;> cases h <;> exact .prepare _ _ (by simp [hm]) (by simp)
  | getNamespace found =>
    simp only [step] at h
    split_ifs at h with hm <;> cases h <;> exact .prepare _ _ (by simp [hm]) (by simp)
  | createNamespace r =>
    simp only [step] at h
    split_ifs at h with hm
    cases r <;> cases h <;> exact .prepare _ _ (by simp [hm]) (by simp)
  | meshnet r =>
    simp only [step] at h
    split_ifs at h with hm
    cases r <;> cases h <;> exact .prepare _ _ (by simp [hm]) (by simp)
  | spawn i =>
    simp only [step] at h
    split_ifs at h with hm
    cases h
    exact .spawn i hm.1 hm.2
  | spawned =>
    simp only [step] at h
    split_ifs at h with hm
    cases h
    exact .spawned hm.1 hm.2
  | create i =>
    simp only [step] at h
    split_ifs at h with hi
    cases h
    exact .create i hi
  | cert i =>
    simp only [step] at h
    split_ifs at h with hi
    cases h
    exact .cert i hi
  | deliver i =>
    simp only [step] at h
    split_ifs at h with hm
    cases hi : s.pc i with
    | sending err =>
      rw [hi] at h
      cases h
      exact .deliver i err hm hi
    | idle => rw [hi] at h; cases h
    | ready => rw [hi] at h; cases h
    | created => rw [hi] at h; cases h
    | done => rw [hi] at h; cases h
  | close =>
    simp only [step] at h
    split_ifs at h with hc
    cases h
    exact .close hc.1 hc.2
  | drain =>
    simp only [step] at h
    split_ifs at h with hm
    cases h
    exact .drain hm.1 hm.2

lemma inv_step (hs : Inv nodes s) (h : step nodes s a = some t) : Inv nodes t := by
  cases step_does h with
  | prepare _ m hm hc =>
    have hidle : ∀ i, s.pc i = .idle := by
      have hcrew := hs.crew
      simp only [List.mem_cons, List.not_mem_nil, or_false] at hm
      rcases hm with hm | hm | hm | hm <;> rw [hm] at hcrew <;> exact hcrew
    refine ⟨hs.workers, ?_, hs.closed⟩
    match m with
    | .validate | .getNamespace | .createNamespace | .meshnet => exact hidle
    | .spawn => trivial
    | .collect => exact absurd rfl hc.1
    | .returned none => exact absurd rfl hc.2
    | .returned (some _) => exact Or.inl hidle
  | spawn i hm hi =>
    refine ⟨workers_setPc hs.workers trivial, ?_, fun hc => ?_⟩
    · rw [setPc_main, hm]
      trivial
    · have := hs.closed hc i
      rw [hi] at this
      cases this
  | spawned hm hall => exact ⟨hs.workers, hall, nofun⟩
  | create i hi =>
    exact hs.work (by simp [hi]) (afterCreate_ne _ i) (workerOk_afterCreate _ i)
  | cert i hi => exact hs.work (by simp [hi]) (afterCert_ne _ i) (workerOk_afterCert _ i)
  | deliver i err hm hi =>
    have hfails : (nodes i).Fails := by
      have := hs.workers i
      rwa [hi] at this
    have hcrew : Crew nodes s.pc .collect := by
      have := hs.crew
      rwa [hm] at this
    have hne : ∀ j, (s.setPc i .done).pc j ≠ .idle :=
      crew_setPc hcrew (by simp [hi]) (by simp)
    refine ⟨workers_setPc hs.workers trivial, Or.inr ⟨hne, i, hfails, setPc_pc_self s i .done⟩,
      fun hc => ?_⟩
    have := hs.closed hc i
    rw [hi] at this
    cases this
  | close hw hall => exact ⟨hs.workers, hs.crew, fun _ => hall⟩
  | drain hm hc => exact ⟨hs.workers, hs.closed hc, hs.closed⟩

lemma inv_run {as : List (Act ι)} (h : run (step nodes) (start ι) as = some s) : Inv nodes s :=
  run_inv (fun _ _ _ hs hst => inv_step hs hst) (inv_start nodes) h

/-! ### Finishing without a receive -/

/-- The worker can come to its end by steps of its own, without a receive on the channel. -/
def CanFinish (nodes : ι → Node) (s : St ι) (i : ι) : Prop :=
  ∃ as t, (∀ a ∈ as, a = .create i ∨ a = .cert i) ∧ run (step nodes) s as = some t ∧
    t.pc i = .done

lemma step_create {i : ι} (hi : s.pc i = .ready) :
    step nodes s (.create i) = some (s.setPc i ((nodes i).afterCreate i)) := if_pos hi

lemma step_cert {i : ι} (hi : s.pc i = .created) :
    step nodes s (.cert i) = some (s.setPc i ((nodes i).afterCert i)) := if_pos hi

lemma canFinish_created {i : ι} (hn : ¬ (nodes i).Fails) (hi : s.pc i = .created) :
    CanFinish nodes s i := by
  have hcert : (nodes i).afterCert i = .done := by
    unfold Node.afterCert
    rw [not_not.mp fun h => hn (Or.inr h)]
  refine ⟨[.cert i], s.setPc i .done, by simp, ?_, setPc_pc_self s i _⟩
  rw [run_cons, step_cert hi, hcert]
  rfl

lemma canFinish_ready {i : ι} (hn : ¬ (nodes i).Fails) (hi : s.pc i = .ready) :
    CanFinish nodes s i := by
  have hcreate : (nodes i).afterCreate i = .created := by
    unfold Node.afterCreate
    rw [not_not.mp fun h => hn (Or.inl h)]
  obtain ⟨as, t, has, hrun, ht⟩ :=
    canFinish_created (s := s.setPc i .created) hn (setPc_pc_self s i _)
  refine ⟨.create i :: as, t, ?_, ?_, ht⟩
  · exact List.forall_mem_cons.mpr ⟨Or.inl rfl, has⟩
  · rw [run_cons, step_create hi, hcreate]
    exact hrun

lemma canFinish_of_not_fails (hs : Inv nodes s) {i : ι} (hn : ¬ (nodes i).Fails)
    (hi : s.pc i ≠ .idle) : CanFinish nodes s i := by
  cases hp : s.pc i with
  | idle => exact absurd hp hi
  | ready => exact canFinish_ready hn hp
  | created => exact canFinish_created hn hp
  | sending err =>
    have := hs.workers i
    rw [hp] at this
    exact absurd this hn
  | done => exact ⟨[], s, by simp, rfl, hp⟩

/-- The send is ahead of the worker. -/
def Ahead (nodes : ι → Node) (i : ι) (s : St ι) : Prop :=
  s.pc i = .ready ∨ (s.pc i = .created ∧ (nodes i).create = none) ∨ ∃ err, s.pc i = .sending err

lemma ahead_work {i : ι} (hf : (nodes i).Fails) (hs : Ahead nodes i s)
    (ha : a = .create i ∨ a = .cert i) (h : step nodes s a = some t) : Ahead nodes i t := by
  obtain rfl | rfl := ha
  · simp only [step] at h
    split_ifs at h with hi
    cases h
    unfold Ahead
    rw [setPc_pc_self]
    unfold Node.afterCreate
    cases hc : (nodes i).create with
    | none => exact Or.inr (Or.inl ⟨rfl, rfl⟩)
    | some err => exact Or.inr (Or.inr ⟨_, rfl⟩)
  · simp only [step] at h
    split_ifs at h with hi
    cases h
    have hcreate : (nodes i).create = none := by
      rcases hs with h | ⟨-, h⟩ | ⟨err, h⟩
      · rw [hi] at h; cases h
      · exact h
      · rw [hi] at h; cases h
    obtain ⟨err, herr⟩ := hf.certErr hcreate
    refine Or.inr (Or.inr ⟨.cert i err, ?_⟩)
    rw [setPc_pc_self, Node.afterCert, herr]

lemma Ahead.not_canFinish {i : ι} (hs : Ahead nodes i s) (hf : (nodes i).Fails) :
    ¬ CanFinish nodes s i := by
  rintro ⟨as, t, has, hrun, hdone⟩
  have ht : Ahead nodes i t :=
    run_inv_along (fun _ _ _ hs ha hst => ahead_work hf hs ha hst) hs (along_of_mem has s) hrun
  unfold Ahead at ht
  rw [hdone] at ht
  simp at ht

/-! ### After the return -/

/-- Once `push` has returned, only its goroutines take steps. -/
inductive DoesAfter (nodes : ι → Node) (s : St ι) : Act ι → St ι → Prop
  | create (i : ι) (hi : s.pc i = .ready) :
      DoesAfter nodes s (.create i) (s.setPc i ((nodes i).afterCreate i))
  | cert (i : ι) (hi : s.pc i = .created) :
      DoesAfter nodes s (.cert i) (s.setPc i ((nodes i).afterCert i))
  | close : DoesAfter nodes s .close { s with closer := .closed }

lemma step_returned {r : Option (Failure ι)} (hr : s.main = .returned r)
    (h : step nodes s a = some t) : DoesAfter nodes s a t ∧ t.main = .returned r := by
  cases step_does h with
  | prepare a m hm hc => simp [hr] at hm
  | spawn i hm hi => rw [hr] at hm; cases hm
  | spawned hm hall => rw [hr] at hm; cases hm
  | create i hi => exact ⟨.create i hi, hr⟩
  | cert i hi => exact ⟨.cert i hi, hr⟩
  | deliver i err hm hi => rw [hr] at hm; cases hm
  | close hw hall => exact ⟨.close, hr⟩
  | drain hm hc => rw [hr] at hm; cases hm

/-- The two calls of a worker that write to the cluster. -/
def Act.IsWrite : Act ι → Prop
  | .create _ | .cert _ => True
  | _ => False

/-- No worker writes any more, however the goroutines go on. -/
def NoMoreWrites (nodes : ι → Node) (s : St ι) : Prop :=
  ∀ bs t a u, run (step nodes) s bs = some t → step nodes t a = some u → ¬ a.IsWrite

/-- `push` has returned, and every worker it started is done. -/
def Rested (s : St ι) : Prop :=
  (∃ r, s.main = .returned r) ∧ ∀ i, s.pc i = .idle ∨ s.pc i = .done

lemma rested_step (hs : Rested s) (h : step nodes s a = some t) : Rested t ∧ ¬ a.IsWrite := by
  obtain ⟨⟨r, hr⟩, hpc⟩ := hs
  obtain ⟨hd, hr'⟩ := step_returned hr h
  cases hd with
  | create i hi => have := hpc i; simp [hi] at this
  | cert i hi => have := hpc i; simp [hi] at this
  | close => exact ⟨⟨⟨r, hr'⟩, hpc⟩, id⟩

lemma Rested.noMoreWrites (hs : Rested s) : NoMoreWrites nodes s := fun _ _ _ _ hrun hst =>
  (rested_step (run_inv (fun _ _ _ h hst => (rested_step h hst).1) hs hrun) hst).2

omit [Fintype ι] [DecidableEq ι] in
lemma Inv.rested (hs : Inv nodes s) {r : Option (Failure ι)} (hr : s.main = .returned r)
    (hw : (∀ i, ¬ (nodes i).Fails) ∨ Subsingleton ι) : Rested s := by
  refine ⟨⟨r, hr⟩, fun i => ?_⟩
  have hcrew := hs.crew
  rw [hr] at hcrew
  match r with
  | none => exact Or.inr (hcrew i)
  | some err =>
    obtain h | ⟨-, k, hk, hd⟩ := hcrew
    · exact Or.inl (h i)
    · obtain hn | hsub := hw
      · exact absurd hk (hn k)
      · rw [Subsingleton.elim i k]
        exact Or.inr hd

/-! ### A failure overtakes the others -/

lemma spawn_all (nodes : ι → Node) (js : List ι) (hjs : js.Nodup) (hm : s.main = .spawn)
    (hidle : ∀ j ∈ js, s.pc j = .idle) :
    ∃ t, run (step nodes) s (js.map .spawn) = some t ∧ t.main = .spawn ∧
      (∀ j ∈ js, t.pc j = .ready) ∧ ∀ j ∉ js, t.pc j = s.pc j := by
  induction js generalizing s with
  | nil => exact ⟨s, rfl, hm, by simp, fun _ _ => rfl⟩
  | cons j js ih =>
    obtain ⟨hj, hjs⟩ := List.nodup_cons.mp hjs
    have hother : ∀ k ≠ j, (s.setPc j .ready).pc k = s.pc k := fun k hk => setPc_pc_of_ne s _ hk
    obtain ⟨t, hrun, htm, hin, hout⟩ := ih (s := s.setPc j .ready) hjs hm fun k hk => by
      rw [hother k (by rintro rfl; exact hj hk)]
      exact hidle k (List.mem_cons_of_mem j hk)
    refine ⟨t, ?_, htm, ?_, ?_⟩
    · have hst : step nodes s (.spawn j) = some (s.setPc j .ready) :=
        if_pos ⟨hm, hidle j List.mem_cons_self⟩
      rw [List.map_cons, run_cons, hst]
      exact hrun
    · refine List.forall_mem_cons.mpr ⟨?_, hin⟩
      rw [hout j hj]
      exact setPc_pc_self s j _
    · intro k hk
      obtain ⟨hkj, hk⟩ := not_or.mp (List.mem_cons.not.mp hk)
      rw [hout k hk, hother k hkj]

lemma exists_collect (nodes : ι → Node) : ∃ as s, run (step nodes) (start ι) as = some s ∧
    s.main = .collect ∧ ∀ i, s.pc i = .ready := by
  obtain ⟨t, hrun, hm, hready, -⟩ := spawn_all nodes (s := ⟨.spawn, fun _ => .idle, .idle⟩)
    Finset.univ.toList (Finset.nodup_toList _) rfl fun _ _ => rfl
  have hall : ∀ i, t.pc i = .ready := fun i => hready i (by simp)
  refine ⟨[.validate none, .getNamespace true, .meshnet none] ++
    (Finset.univ.toList.map .spawn ++ [.spawned]), { t with main := .collect, closer := .waiting },
    run_trans _ rfl (run_trans _ hrun ?_), rfl, hall⟩
  have hst : step nodes t .spawned = some { t with main := .collect, closer := .waiting } :=
    if_pos ⟨hm, fun i => by simp [hall i]⟩
  rw [run_cons, hst]
  rfl

lemma exists_sending {i : ι} (hf : (nodes i).Fails) (hi : s.pc i = .ready) :
    ∃ as err, run (step nodes) s as = some (s.setPc i (.sending err)) := by
  cases hc : (nodes i).create with
  | some err =>
    refine ⟨[.create i], .create i err, ?_⟩
    rw [run_cons, step_create hi, Node.afterCreate, hc]
    rfl
  | none =>
    obtain ⟨err, herr⟩ := hf.certErr hc
    have hcert : step nodes (s.setPc i .created) (.cert i) =
        some (s.setPc i (.sending (.cert i err))) := by
      rw [step_cert (setPc_pc_self s i _), Node.afterCert, herr]
      simp [St.setPc]
    refine ⟨[.create i, .cert i], .cert i err, ?_⟩
    rw [run_cons, step_create hi, Node.afterCreate, hc, Option.bind_some, run_cons, hcert]
    rfl

lemma exists_overtaken {i : ι} (hf : (nodes i).Fails) :
    ∃ as s err, run (step nodes) (start ι) as = some s ∧ s.main = .returned (some err) ∧
      ∀ j ≠ i, s.pc j = .ready := by
  obtain ⟨as, s, hrun, hm, hall⟩ := exists_collect nodes
  obtain ⟨bs, err, hsend⟩ := exists_sending hf (hall i)
  refine ⟨as ++ (bs ++ [.deliver i]),
    { (s.setPc i (.sending err)).setPc i .done with main := .returned (some err) }, err,
    run_trans _ hrun (run_trans _ hsend ?_), rfl, fun j hj => ?_⟩
  · simp [step, hm]
  · change ((s.setPc i (.sending err)).setPc i .done).pc j = .ready
    rw [setPc_pc_of_ne _ _ hj, setPc_pc_of_ne _ _ hj]
    exact hall j

/-- **Quiescence of `push`.** In every run in which `push` has returned, every worker it started
can finish without a further receive exactly when at most one node fails. That in addition no worker
writes to the cluster after an error was returned takes that no node fails, or that there is only
one. -/
theorem push_quiescent_iff (nodes : ι → Node) :
    ((∀ as s r, run (step nodes) (start ι) as = some s → s.main = .returned r →
        ∀ i, s.pc i ≠ .idle → CanFinish nodes s i) ↔
      ∀ i j, (nodes i).Fails → (nodes j).Fails → i = j) ∧
    ((∀ as s r, run (step nodes) (start ι) as = some s → s.main = .returned r →
        (∀ i, s.pc i ≠ .idle → CanFinish nodes s i) ∧ (r ≠ none → NoMoreWrites nodes s)) ↔
      (∀ i, ¬ (nodes i).Fails) ∨ Subsingleton ι) := by
  refine ⟨⟨fun h i j hi hj => ?_, fun huniq as s r hrun hr i hne => ?_⟩,
    ⟨fun h => ?_, fun hw as s r hrun hr => ?_⟩⟩
  · by_contra hij
    obtain ⟨as, s, err, hrun, hr, hothers⟩ := exists_overtaken hi
    have hready : s.pc j = .ready := hothers j (Ne.symm hij)
    have hahead : Ahead nodes j s := Or.inl hready
    exact hahead.not_canFinish hj (h as s _ hrun hr j (by simp [hready]))
  · have hinv := inv_run hrun
    have hcrew := hinv.crew
    rw [hr] at hcrew
    match r with
    | none => exact ⟨[], s, by simp, rfl, hcrew i⟩
    | some err =>
      obtain hidle | ⟨-, k, hk, hd⟩ := hcrew
      · exact absurd (hidle i) hne
      · by_cases hf : (nodes i).Fails
        · obtain rfl := huniq i k hf hk
          exact ⟨[], s, by simp, rfl, hd⟩
        · exact canFinish_of_not_fails hinv hf hne
  · by_contra hw
    obtain ⟨hfail, hmany⟩ := not_or.mp hw
    obtain ⟨i, hi⟩ := not_forall_not.mp hfail
    obtain ⟨j, hji⟩ : ∃ j, j ≠ i := by
      have := not_subsingleton_iff_nontrivial.mp hmany
      exact exists_ne i
    obtain ⟨as, s, err, hrun, hr, hothers⟩ := exists_overtaken hi
    have hquiet := (h as s _ hrun hr).2 (by simp)
    exact hquiet [] s (.create j) _ rfl (step_create (hothers j hji)) trivial
  · have hrest := (inv_run hrun).rested hr hw
    exact ⟨fun i hne => ⟨[], s, by simp, rfl, (hrest.2 i).resolve_left hne⟩,
      fun _ => hrest.noMoreWrites⟩

lemma sending_forever {i : ι} {err : Failure ι} (hr : ∃ r, s.main = .returned r)
    (hi : s.pc i = .sending err) {bs : List (Act ι)} (h : run (step nodes) s bs = some t) :
    t.pc i = .sending err := by
  refine (run_inv (P := fun s => (∃ r, s.main = .returned r) ∧ s.pc i = .sending err) ?_ ⟨hr, hi⟩
    h).2
  rintro s a t ⟨⟨r, hr⟩, hi⟩ hst
  obtain ⟨hd, hr'⟩ := step_returned hr hst
  refine ⟨⟨r, hr'⟩, ?_⟩
  cases hd with
  | create j hj => rwa [setPc_pc_of_ne s _ (by rintro rfl; rw [hi] at hj; cases hj)]
  | cert j hj => rwa [setPc_pc_of_ne s _ (by rintro rfl; rw [hi] at hj; cases hj)]
  | close => exact hi

end Step

/-- Two nodes whose `Create` fails. -/
def failing : Bool → Node
  | false => ⟨"\"r1\" (vendor: \"HOST\", model: \"\")", "r1", some "no such image", false, none⟩
  | true => ⟨"\"r2\" (vendor: \"HOST\", model: \"\")", "r2", some "no such image", false, none⟩

/-- Both workers stand at their send when the loop receives from the first. -/
def failingRun : List (Act Bool) :=
  [.validate none, .getNamespace true, .meshnet none, .spawn false, .spawn true, .spawned,
    .create false, .create true, .deliver false]

/-- **A second failure blocks its worker.** -/
theorem second_failure_blocks : ∃ s, run (step failing) (start Bool) failingRun = some s ∧
    s.main = .returned (some (.create false "no such image")) ∧
    ∀ bs t, run (step failing) s bs = some t →
      t.pc true = .sending (.create true "no such image") := by
  obtain ⟨s, hs⟩ : ∃ s, run (step failing) (start Bool) failingRun = some s := ⟨_, rfl⟩
  have hmain : s.main = .returned (some (.create false "no such image")) := by cases hs; rfl
  have hpc : s.pc true = .sending (.create true "no such image") := by cases hs; rfl
  exact ⟨s, hs, hmain, fun bs t h => sending_forever ⟨_, hmain⟩ hpc h⟩

end Kne.Push
