import Kne.WireStoreAlive
import Kne.WireStoreSync

/-!
The record of the wires comes to rest.

The worker and the removals may write an object that the other has read, which makes the other begin
again. But nobody begins again unless somebody has written, and whoever has written is done, with a
group of wires or with a removal. So what is left to do is measured by two numbers: how many wires,
groups and removals there are to be dealt with, and, while this number stays, how far each of them
is. Beginning again is paid for in the second number by the write that has lowered the first.
-/

namespace Kne.WireStore

open Kne.Runs Kne.WireModel Kne.WireTables

variable {s t : St}

/-! ### What is left to do -/

/-- The wires that the worker has taken, or the groups it has put them into. -/
def workerCount : Worker → ℕ
  | .idle => 0
  | .draining updates _ => updates.length
  | .filtering todo active _ => todo.length + active.length
  | .grouping groups _ => groups.length
  | .writing _ _ _ groups _ => groups.length + 1

def entryCount : Entry → ℕ
  | .status _ => 1
  | .flush _ => 0

def count (s : St) : ℕ :=
  s.spawned.length + (s.queue.map entryCount).sum + workerCount s.worker + s.removals.length

def entryWeight : Entry → ℕ
  | .status _ => 16
  | .flush _ => 4

def groupWeight (g : String × List ℕ) : ℕ := 2 * g.2.length + 9

/-- The object is no longer what was read. -/
def Stale (store : Objs) (topoNs : String) (version : ℕ) : Prop :=
  (store.lookup topoNs).map (·.version) ≠ some version

instance (store : Objs) (topoNs : String) (version : ℕ) : Decidable (Stale store topoNs version) :=
  inferInstanceAs (Decidable (_ ≠ _))

lemma stale_of_refused {store : Objs} {topoNs : String} {o : Obj} {version : ℕ}
    {items : List GWireStatus} (ho : store.lookup topoNs = some o)
    (hno : o.update version items = none) : Stale store topoNs version := by
  intro hv
  rw [ho] at hv
  rw [Obj.update, if_pos (Option.some.inj hv)] at hno
  cases hno

/-- How far an attempt for `n` wires is. One that has read an old object begins again. -/
def attemptWeight (store : Objs) (topoNs : String) (n : ℕ) : Attempt → ℕ
  | .start => 2 * n + 8
  | .get _ => 2 * n + 5 + if (store.lookup topoNs).isSome then 0 else 2
  | .create _ => 2 * n + 6
  | .check version _ todo =>
    2 * todo.length + 1 + if Stale store topoNs version then 2 * n + 8 else 0
  | .read version _ _ todo =>
    2 * todo.length + 2 + if Stale store topoNs version then 2 * n + 8 else 0

def workerWeight (store : Objs) : Worker → ℕ
  | .idle => 0
  | .draining updates _ => 12 * updates.length + 3
  | .filtering todo active _ => 12 * todo.length + 11 * active.length + 2
  | .grouping groups _ => (groups.map groupWeight).sum + 1
  | .writing topoNs ids a groups _ =>
    (groups.map groupWeight).sum + attemptWeight store topoNs ids.length a + 1

/-- The topology of the wire that is removed. -/
def Removal.topo (d : Daemon) (r : Removal) : Option String :=
  (d.objs r.id).map (·.topoNamespace)

def removalWeight (d : Daemon) (store : Objs) (r : Removal) : ℕ :=
  match r.stage with
  | .stop => 11
  | .close => 10
  | .delete => 9
  | .flush => 8
  | .wait _ => 3
  | .get => 2
  | .write version _ => 1 + if ∃ k ∈ r.topo d, Stale store k version then 2 else 0

def load (s : St) : ℕ :=
  17 * s.spawned.length + (s.queue.map entryWeight).sum + workerWeight s.store s.worker +
    (s.removals.map (removalWeight s.daemon s.store)).sum

/-- There is less to deal with, or what there is to deal with is further. -/
def Less (t s : St) : Prop := count t < count s ∨ count t = count s ∧ load t < load s

lemma less_iff : Less t s ↔ Prod.Lex (· < ·) (· < ·) (count t, load t) (count s, load s) := by
  rw [Prod.lex_def, Less]

lemma less_of (hcount : count t ≤ count s) (hload : count t = count s → load t < load s) :
    Less t s := by
  rcases hcount.lt_or_eq with h | h
  · exact .inl h
  · exact .inr ⟨h, hload h⟩

/-! ### Groups -/

lemma length_addToGroup (topoNs : String) (id : ℕ) (gs : List (String × List ℕ)) :
    (addToGroup topoNs id gs).length ≤ gs.length + 1 := by
  induction gs with
  | nil => simp [addToGroup]
  | cons g gs ih =>
    unfold addToGroup
    split
    · simp
    · simpa using ih

lemma sum_addToGroup (topoNs : String) (id : ℕ) (gs : List (String × List ℕ)) :
    ((addToGroup topoNs id gs).map groupWeight).sum ≤ (gs.map groupWeight).sum + 11 := by
  induction gs with
  | nil => simp [addToGroup, groupWeight]
  | cons g gs ih =>
    unfold addToGroup
    split
    · simp only [List.map_cons, List.sum_cons, groupWeight, List.length_append,
        List.length_singleton]
      omega
    · simp only [List.map_cons, List.sum_cons]
      omega

lemma length_groups (active : List ℕ) : (s.groups active).length ≤ active.length := by
  induction active using List.reverseRecOn with
  | nil => simp [St.groups]
  | append_singleton active id ih =>
    rw [groups_concat, List.length_append, List.length_singleton]
    exact (length_addToGroup _ _ _).trans (Nat.succ_le_succ ih)

lemma sum_groups (active : List ℕ) :
    ((s.groups active).map groupWeight).sum ≤ 11 * active.length := by
  induction active using List.reverseRecOn with
  | nil => simp [St.groups]
  | append_singleton active id ih =>
    have hadd := sum_addToGroup (s.topoOf id) id (s.groups active)
    rw [groups_concat, List.length_append, List.length_singleton]
    omega

/-! ### Every step brings them further -/

lemma less_turn {q : List Entry} {w : Worker} {closed : List ℕ}
    (hcount : (q.map entryCount).sum + workerCount w ≤
      (s.queue.map entryCount).sum + workerCount s.worker)
    (hload : (q.map entryCount).sum + workerCount w =
        (s.queue.map entryCount).sum + workerCount s.worker →
      (q.map entryWeight).sum + workerWeight s.store w <
        (s.queue.map entryWeight).sum + workerWeight s.store s.worker) :
    Less { s with queue := q, worker := w, closed := closed } s := by
  refine less_of ?_ fun heq => ?_
  · simp only [count]
    omega
  · simp only [count] at heq
    have := hload (by omega)
    simp only [load]
    omega

lemma attempt_less {topoNs : String} {ids : List ℕ} {a : Attempt} {next : Option Attempt}
    {written : Option Obj} (h : s.attempt topoNs ids a = some (next, written)) :
    next = none ∨
      (∃ a', next = some a' ∧ written = none ∧
        attemptWeight s.store topoNs ids.length a' < attemptWeight s.store topoNs ids.length a) ∨
      ∃ first, a = .create first ∧ next = some (.get first) ∧ s.store.lookup topoNs = none ∧
        written = some { items := [first] } := by
  cases a with
  | start =>
    simp only [St.attempt, Option.bind_eq_bind, Option.bind_eq_some_iff, Option.some.injEq,
      Prod.mk.injEq] at h
    obtain ⟨id, -, w, -, rfl, rfl⟩ := h
    refine .inr (.inl ⟨_, rfl, rfl, ?_⟩)
    simp only [attemptWeight]
    split <;> omega
  | get first =>
    simp only [St.attempt] at h
    split at h
    · next o ho =>
      cases h
      refine .inr (.inl ⟨_, rfl, rfl, ?_⟩)
      simp [attemptWeight, Stale, ho]
    · next ho =>
      cases h
      refine .inr (.inl ⟨_, rfl, rfl, ?_⟩)
      simp [attemptWeight, ho]
  | create first =>
    simp only [St.attempt] at h
    split at h
    · cases h
      exact .inl rfl
    · next ho =>
      cases h
      exact .inr (.inr ⟨first, rfl, rfl, ho, rfl⟩)
  | check version items todo =>
    cases todo with
    | nil =>
      simp only [St.attempt, Option.bind_eq_bind, Option.bind_eq_some_iff] at h
      obtain ⟨o, ho, h⟩ := h
      split at h
      · cases h
        exact .inl rfl
      · next hno =>
        cases h
        refine .inr (.inl ⟨_, rfl, rfl, ?_⟩)
        simp [attemptWeight, stale_of_refused ho hno]
    | cons id todo =>
      simp only [St.attempt] at h
      split at h <;> cases h <;> refine .inr (.inl ⟨_, rfl, rfl, ?_⟩) <;>
        simp only [attemptWeight, List.length_cons] <;> omega
  | read version items id todo =>
    simp only [St.attempt, Option.bind_eq_bind, Option.bind_eq_some_iff, Option.some.injEq,
      Prod.mk.injEq] at h
    obtain ⟨w, -, rfl, rfl⟩ := h
    refine .inr (.inl ⟨_, rfl, rfl, ?_⟩)
    simp only [attemptWeight]
    omega

lemma removalWeight_create {d : Daemon} {store : Objs} {topoNs : String} {o : Obj}
    (hnone : store.lookup topoNs = none) (r : Removal) :
    removalWeight d (store.insert topoNs o) r ≤ removalWeight d store r := by
  have hstale : ∀ k version, Stale (store.insert topoNs o) k version → Stale store k version := by
    intro k version h
    by_cases hk : k = topoNs
    · subst hk
      simp [Stale, hnone]
    · simpa [Stale, AList.lookup_insert_ne hk] using h
  simp only [removalWeight]
  cases r.stage with
  | write version items =>
    dsimp only
    split
    · next h =>
      obtain ⟨k, hk, hs⟩ := h
      rw [if_pos ⟨k, hk, hstale k version hs⟩]
    · exact Nat.le_add_right _ _
  | _ => exact le_rfl

lemma work_less (h : s.work = some t) : Less t s := by
  unfold St.work at h
  split at h
  · next hw =>
    split at h <;> cases h <;> rename_i hq <;> refine less_turn ?_ fun _ => ?_ <;>
      simp only [hw, hq, workerCount, entryCount, workerWeight, entryWeight, List.map_cons,
        List.sum_cons, List.length_singleton, List.length_nil] <;> omega
  · next updates signals hw =>
    split at h
    · split at h <;> cases h <;> rename_i hq <;>
        refine less_turn ?_ fun _ => ?_ <;>
        simp only [hw, hq, workerCount, entryCount, workerWeight, entryWeight, List.map_cons,
          List.map_nil, List.sum_cons, List.sum_nil, List.length_append, List.length_singleton,
          List.length_nil] <;> omega
    · cases h
      exact less_turn (by simp [hw, workerCount]) fun _ => by simp [hw, workerWeight]
  · next id todo active signals hw =>
    cases h
    refine less_turn ?_ ?_ <;> split <;>
      simp only [hw, workerCount, workerWeight, List.length_cons, List.length_append,
        List.length_nil] <;> omega
  · next active signals hw =>
    cases h
    have hlen := length_groups (s := s) active
    have hsum := sum_groups (s := s) active
    refine less_turn ?_ fun _ => ?_ <;>
      simp only [hw, workerCount, workerWeight, List.length_nil] <;> omega
  · next signals hw =>
    cases h
    exact less_turn (by simp [hw, workerCount]) fun _ => by simp [hw, workerWeight]
  · cases h
  · next topoNs ids a groups signals hw =>
    simp only [Option.bind_eq_bind, Option.bind_eq_some_iff] at h
    obtain ⟨⟨next, written⟩, hatt, h⟩ := h
    cases h
    rcases attempt_less hatt with rfl | ⟨a', rfl, rfl, hlt⟩ | ⟨first, rfl, rfl, hnone, rfl⟩
    · refine .inl ?_
      simp [count, hw, workerCount]
    · refine less_turn (by simp [hw, workerCount]) fun _ => ?_
      simp only [hw, workerWeight]
      omega
    · refine .inr ⟨by simp [count, hw, workerCount], ?_⟩
      have hsum := List.sum_le_sum (l := s.removals) fun r _ =>
        removalWeight_create (d := s.daemon) (o := { items := [first] }) hnone r
      simp only [load, hw, workerWeight, attemptWeight, AList.lookup_insert] at hsum ⊢
      simp only [Option.isSome_some, if_true]
      omega

lemma length_replace {r : Removal} (hr : r ∈ s.removals) (rs : List Removal) :
    (s.removals.erase r ++ rs).length + 1 = s.removals.length + rs.length := by
  have hpos := List.length_pos_of_mem hr
  rw [List.length_append, List.length_erase_of_mem hr]
  omega

lemma less_done {r : Removal} (hr : r ∈ s.removals) (store : Objs) :
    Less ({ s with store := store }.replace r []) s := by
  have hlen := length_replace hr []
  refine .inl ?_
  simp only [count, St.replace, List.length_nil] at hlen ⊢
  omega

lemma less_replace {d : Daemon} {q : List Entry} {n : ℕ} {r : Removal} {r' : Removal}
    (hr : r ∈ s.removals) (htopo : ∀ r : Removal, r.topo d = r.topo s.daemon)
    (hcount : (q.map entryCount).sum = (s.queue.map entryCount).sum)
    (hload : (q.map entryWeight).sum + removalWeight s.daemon s.store r' <
      (s.queue.map entryWeight).sum + removalWeight s.daemon s.store r) :
    Less ({ s with daemon := d, queue := q, tickets := n }.replace r [r']) s := by
  have hweight : removalWeight d s.store = removalWeight s.daemon s.store := by
    funext r
    simp only [removalWeight, htopo]
  have hlen := length_replace hr [r']
  have hsum := List.sum_map_erase (removalWeight s.daemon s.store) hr
  refine .inr ⟨?_, ?_⟩
  · simp only [count, St.replace, List.length_singleton] at hlen ⊢
    omega
  · simp only [load, St.replace, hweight, List.map_append, List.sum_append, List.map_singleton,
      List.sum_singleton]
    omega

lemma topo_stop (d : Daemon) (id : ℕ) (r : Removal) : r.topo (d.stop id) = r.topo d := by
  rw [Removal.topo, Daemon.stop, objs_modify]
  split
  · next h => rw [Removal.topo, h, Option.map_map]; rfl
  · rfl

lemma topo_atomicDelete (d : Daemon) (id : ℕ) (r : Removal) :
    r.topo (d.atomicDelete id) = r.topo d := by
  unfold Daemon.atomicDelete
  split <;> rfl

lemma remove_less {r : Removal} (hr : r ∈ s.removals) (h : s.remove r = some t) : Less t s := by
  unfold St.remove at h
  split at h
  · next hstage =>
    cases h
    exact less_replace hr (topo_stop _ _) rfl (by simp [removalWeight, hstage])
  · next hstage =>
    cases h
    refine less_replace hr (fun _ => rfl) rfl ?_
    cases r.inMem <;> simp [removalWeight, hstage]
  · next hstage =>
    cases h
    exact less_replace hr (topo_atomicDelete _ _) rfl (by simp [removalWeight, hstage])
  · next hstage =>
    split at h
    · cases h
      exact less_replace hr (fun _ => rfl) (by simp [entryCount])
        (by simp [entryWeight, removalWeight, hstage])
    · cases h
  · next n hstage =>
    split at h
    · cases h
      exact less_replace hr (fun _ => rfl) rfl (by simp [removalWeight, hstage])
    · cases h
  · next hstage =>
    simp only [Option.bind_eq_bind, Option.bind_eq_some_iff] at h
    obtain ⟨w, hw, h⟩ := h
    split at h
    · cases h
      exact less_done hr s.store
    · next o ho =>
      cases h
      exact less_replace hr (fun _ => rfl) rfl
        (by simp [removalWeight, hstage, Removal.topo, hw, Stale, ho])
  · next version items hstage =>
    simp only [Option.bind_eq_bind, Option.bind_eq_some_iff] at h
    obtain ⟨w, hw, o, ho, h⟩ := h
    split at h
    · cases h
      exact less_done hr _
    · next hno =>
      cases h
      exact less_replace hr (fun _ => rfl) rfl
        (by simp [removalWeight, hstage, Removal.topo, hw, stale_of_refused ho hno])

lemma enqueue_less {id : ℕ} (hid : id ∈ s.spawned) : Less (s.enqueue id) s := by
  have hpos := List.length_pos_of_mem hid
  have hlen := List.length_erase_of_mem hid
  unfold St.enqueue
  split
  · refine .inr ⟨?_, ?_⟩
    · simp only [count, List.map_append, List.sum_append, List.map_singleton, List.sum_singleton,
        entryCount]
      omega
    · simp only [load, List.map_append, List.sum_append, List.map_singleton, List.sum_singleton,
        entryWeight]
      omega
  · refine .inl ?_
    simp only [count]
    omega

lemma pick_less {g : String × List ℕ} (h : s.pick g = some t) : Less t s := by
  unfold St.pick at h
  split at h
  · next groups signals hw =>
    split at h
    · next hg =>
      cases h
      have hpos := List.length_pos_of_mem hg
      have hlen := List.length_erase_of_mem hg
      have hsum := ((List.perm_cons_erase hg).map groupWeight).sum_eq
      refine less_turn ?_ fun _ => ?_
      · simp only [hw, workerCount]
        omega
      · simp only [hw, workerWeight, attemptWeight, List.map_cons, List.sum_cons,
          groupWeight] at hsum ⊢
        omega
    · cases h
  · cases h

lemma less_of_own {a : Act} (ha : Own a) (h : step s a = some t) : Less t s := by
  cases a with
  | enqueue id =>
    simp only [step] at h
    split at h
    · next hid =>
      cases h
      exact enqueue_less hid
    · cases h
  | work => exact work_less h
  | pick g => exact pick_less h
  | remove r =>
    simp only [step] at h
    split at h
    · next hr => exact remove_less hr h
    · cases h
  | _ => exact ha.elim

/-- **The record settles.** Whatever has happened, failed calls and restarts of the daemon included:
in whatever order the goroutines that store and remove wires take their steps, they do not begin
again for ever because of each other's writes, and when none of them can take a step, none waits for
another, and nothing is left to do. -/
theorem record_settles {as : List Act} (hrun : run step {} as = some s) :
    (∀ f : ℕ → Act, (∀ n, Own (f n)) →
      ∃ n t, run step s ((List.range n).map f) = some t ∧ step t (f n) = none) ∧
    ((∀ a, Own a → step s a = none) → AtRest s) := by
  refine ⟨fun f hf => ?_, (alive_of_run hrun).atRest⟩
  refine run_ends (WellFounded.prod_lex wellFounded_lt wellFounded_lt)
    (fun s => (count s, load s)) (fun u a t ha hs => ?_) hf s
  exact less_iff.mp (less_of_own ha hs)

/-- A removal deletes the status of the wire 2 after the worker has read the object for the wire 1,
and the worker begins again. -/
def conflict : List Act :=
  List.flatten [
    [.createRemote (labEnd "ns1" 1 "eth1" 7) true, .createRemote (labEnd "ns1" 2 "eth2" 8) true,
      .enqueue 1],
    firstBatch, [.work, .work, .enqueue 2], batch [2],
    [.extract ⟨"ns1", 2⟩, .remove ⟨2, false, .stop⟩, .remove ⟨2, false, .close⟩,
      .remove ⟨2, false, .flush⟩],
    List.replicate 4 .work,
    [.remove ⟨2, false, .wait 0⟩, .remove ⟨2, false, .get⟩, .update 1 9 "10.0.0.3", .enqueue 1],
    List.replicate 4 .work, [.pick ("lab", [1])], List.replicate 4 .work,
    [.remove ⟨2, false, .write 1 [labStatus "ns1" 1 "eth1" 7 "10.0.0.2"]⟩, .work]]

theorem record_settles_conflict : ∃ s, run step {} conflict = some s ∧
    s.worker = .writing "lab" [1] .start [] [] ∧
    (∀ f : ℕ → Act, (∀ n, Own (f n)) →
      ∃ n t, run step s ((List.range n).map f) = some t ∧ step t (f n) = none) ∧
    ((∀ a, Own a → step s a = none) → AtRest s) := by
  have hend : (run step {} conflict).any fun s =>
      s.worker = .writing "lab" [1] .start [] [] := by decide +kernel
  obtain ⟨s, hrun, hs⟩ := (Option.any_eq_true _ _).mp hend
  exact ⟨s, hrun, of_decide_eq_true hs, record_settles hrun⟩

end Kne.WireStore
