import Kne.WireStoreTurns

/-!
Those who store and remove the wires of the record never wait in vain.

In every run, whatever fails: whoever waits for a flush has its marker in the queue or in the batch
of the worker, the wires that the worker and the removals are about were made, and an object that
was read once is still there. So when none of them can take a step, nothing is left to do.
-/

namespace Kne.WireStore

open Kne.Runs Kne.WireModel Kne.WireTables

variable {s t : St}

abbrev Objs := AList (fun _ : String => Obj)

/-- The steps that the goroutines of the record take by themselves. -/
def Own : Act → Prop
  | .enqueue _ | .work | .pick _ | .remove _ => True
  | _ => False

/-! ### The invariant -/

/-- The flush has been signalled, or is going to be. -/
def Coming (s : St) (ticket : ℕ) : Prop :=
  ticket ∈ s.closed ∨ Entry.flush ticket ∈ s.queue ∨ ticket ∈ signalsOf s.worker

/-- What an attempt that has read the object goes on with is there. -/
def AttemptAlive (store : Objs) : Worker → Prop
  | .writing topoNs ids (.check _ _ todo) _ _ => (store.lookup topoNs).isSome ∧ todo ⊆ ids
  | .writing topoNs ids (.read _ _ id todo) _ _ =>
    (store.lookup topoNs).isSome ∧ id :: todo ⊆ ids
  | _ => True

def StageAlive (s : St) (w : GRPCWire) : Stage → Prop
  | .wait ticket => Coming s ticket
  | .write _ _ => (s.store.lookup w.topoNamespace).isSome
  | _ => True

/-- What holds in every run, also after calls have failed. -/
structure Alive (s : St) : Prop where
  wf : Wf s.daemon
  wires : ∀ id ∈ outstanding s, (s.daemon.objs id).isSome
  removals : ∀ r ∈ s.removals, ∃ w, s.daemon.objs r.id = some w ∧ StageAlive s w r.stage
  groups : ∀ g ∈ groupsOf s.worker, g.2 ≠ []
  attempt : AttemptAlive s.store s.worker

lemma alive_of_idle {d : Daemon} {store : Objs} (h : Wf d) :
    Alive { daemon := d, store := store } where
  wf := h
  wires _ hid := by cases hid
  removals _ hr := by cases hr
  groups _ hg := by cases hg
  attempt := trivial

lemma stageAlive_mono {w w' : GRPCWire} (htopo : w'.topoNamespace = w.topoNamespace)
    (hstore : ∀ k, (s.store.lookup k).isSome → (t.store.lookup k).isSome)
    (hcoming : ∀ n, Coming s n → Coming t n) {stage : Stage} (h : StageAlive s w stage) :
    StageAlive t w' stage := by
  cases stage with
  | wait ticket => exact hcoming ticket h
  | write version items =>
    rw [StageAlive, htopo]
    exact hstore _ h
  | _ => trivial

lemma attemptAlive_mono {store store' : Objs} {w : Worker}
    (hstore : ∀ k, (store.lookup k).isSome → (store'.lookup k).isSome)
    (h : AttemptAlive store w) : AttemptAlive store' w := by
  revert h
  unfold AttemptAlive
  split
  · exact And.imp_left (hstore _)
  · exact And.imp_left (hstore _)
  · exact id

lemma isSome_of_grows {d d' : Daemon} (h : Grows d d') {id : ℕ} (hid : (d.objs id).isSome) :
    (d'.objs id).isSome := by
  obtain ⟨w, hw⟩ := Option.isSome_iff_exists.mp hid
  obtain ⟨w', hw', -⟩ := h.objs id w hw
  rw [hw']
  rfl

lemma Alive.moved (h : Alive s) (hwf : Wf t.daemon) (hgrows : Grows s.daemon t.daemon)
    (hwires : ∀ id ∈ outstanding t, id ∈ outstanding s ∨ (t.daemon.objs id).isSome)
    (hremovals : ∀ r ∈ t.removals, r ∈ s.removals ∨
      ∃ w, t.daemon.objs r.id = some w ∧ StageAlive t w r.stage)
    (hstore : ∀ k, (s.store.lookup k).isSome → (t.store.lookup k).isSome)
    (hcoming : ∀ n, Coming s n → Coming t n) (hgroups : ∀ g ∈ groupsOf t.worker, g.2 ≠ [])
    (hattempt : AttemptAlive t.store t.worker) : Alive t where
  wf := hwf
  wires id hid := (hwires id hid).elim (fun hid => isSome_of_grows hgrows (h.wires id hid))
    fun hid => hid
  removals r hr := by
    rcases hremovals r hr with hr | hnew
    · obtain ⟨w, hw, hstage⟩ := h.removals r hr
      obtain ⟨w', hw', hsame⟩ := hgrows.objs _ w hw
      exact ⟨w', hw', stageAlive_mono hsame.topo hstore hcoming hstage⟩
    · exact hnew
  groups := hgroups
  attempt := hattempt

lemma Alive.turn (h : Alive s) {q : List Entry} {w : Worker} {closed : List ℕ}
    (hwires : ∀ id ∈ outstanding { s with queue := q, worker := w, closed := closed },
      id ∈ outstanding s)
    (hcoming : ∀ n, Coming s n → Coming { s with queue := q, worker := w, closed := closed } n)
    (hgroups : ∀ g ∈ groupsOf w, g.2 ≠ []) (hattempt : AttemptAlive s.store w) :
    Alive { s with queue := q, worker := w, closed := closed } :=
  h.moved h.wf (.refl _) (fun id hid => .inl (hwires id hid)) (fun _ hr => .inl hr)
    (fun _ hk => hk) hcoming hgroups hattempt

lemma Alive.others (h : Alive s) {d : Daemon} {spawned : List ℕ} {rs : List Removal}
    (hwf : Wf d) (hgrows : Grows s.daemon d)
    (hspawned : ∀ id ∈ spawned, id ∈ s.spawned ∨ (d.objs id).isSome)
    (hremovals : ∀ r ∈ rs, r ∈ s.removals ∨
      ∃ w, d.objs r.id = some w ∧ StageAlive s w r.stage) :
    Alive { s with daemon := d, spawned := spawned, removals := rs } := by
  refine h.moved hwf hgrows (fun id hid => ?_) (fun r hr => ?_) (fun _ hk => hk) (fun _ hn => hn)
    h.groups h.attempt
  · rcases mem_outstanding.mp hid with hid | hid
    · rcases mem_waiting.mp hid with hid | hid
      · exact (hspawned id hid).imp_left fun hid =>
          mem_outstanding.mpr (.inl (mem_waiting.mpr (.inl hid)))
      · exact .inl (mem_outstanding.mpr (.inl (mem_waiting.mpr (.inr hid))))
    · exact .inl (mem_outstanding.mpr (.inr hid))
  · rcases hremovals r hr with hr | ⟨w, hw, hstage⟩
    · exact .inl hr
    · exact .inr ⟨w, hw, stageAlive_mono rfl (fun _ hk => hk) (fun _ hn => hn) hstage⟩

/-! ### The worker -/

lemma groups_concat (active : List ℕ) (id : ℕ) :
    s.groups (active ++ [id]) = addToGroup (s.topoOf id) id (s.groups active) := by
  simp [St.groups]

lemma addToGroup_ne_nil {topoNs : String} {id : ℕ} {gs : List (String × List ℕ)}
    (h : ∀ g ∈ gs, g.2 ≠ []) : ∀ g ∈ addToGroup topoNs id gs, g.2 ≠ [] := by
  induction gs with
  | nil => simp [addToGroup]
  | cons g₀ gs ih =>
    have hrest := ih fun g hg => h g (List.mem_cons_of_mem g₀ hg)
    unfold addToGroup
    split
    · intro g hg
      rcases List.mem_cons.mp hg with rfl | hg
      · simp
      · exact h g (List.mem_cons_of_mem g₀ hg)
    · intro g hg
      rcases List.mem_cons.mp hg with rfl | hg
      · exact h g List.mem_cons_self
      · exact hrest g hg

lemma groups_ne_nil (active : List ℕ) : ∀ g ∈ s.groups active, g.2 ≠ [] := by
  induction active using List.reverseRecOn with
  | nil => simp [St.groups]
  | append_singleton active id ih =>
    rw [groups_concat]
    exact addToGroup_ne_nil ih

lemma isSome_insert {store : Objs} {topoNs k : String} (o : Obj) (h : (store.lookup k).isSome) :
    ((store.insert topoNs o).lookup k).isSome := by
  by_cases hk : k = topoNs
  · subst hk
    simp
  · rwa [AList.lookup_insert_ne hk]

/-- The store after a step that may have written an object. -/
def stored (store : Objs) (topoNs : String) (written : Option Obj) : Objs :=
  match written with
  | some o => store.insert topoNs o
  | none => store

/-- Where the worker goes on after a step of an attempt. -/
def resumed (topoNs : String) (ids : List ℕ) (groups : List (String × List ℕ))
    (signals : List ℕ) : Option Attempt → Worker
  | some a => .writing topoNs ids a groups signals
  | none => .grouping groups signals

lemma isSome_stored {store : Objs} {topoNs k : String} (written : Option Obj)
    (h : (store.lookup k).isSome) : ((stored store topoNs written).lookup k).isSome := by
  cases written with
  | none => exact h
  | some o => exact isSome_insert o h

lemma attempt_alive {topoNs : String} {ids signals : List ℕ} {a a' : Attempt}
    {groups : List (String × List ℕ)} {written : Option Obj}
    (h : AttemptAlive s.store (.writing topoNs ids a groups signals))
    (hs : s.attempt topoNs ids a = some (some a', written)) :
    AttemptAlive (stored s.store topoNs written) (.writing topoNs ids a' groups signals) := by
  cases a with
  | start =>
    simp only [St.attempt, Option.bind_eq_bind, Option.bind_eq_some_iff, Option.some.injEq,
      Prod.mk.injEq] at hs
    obtain ⟨id, -, w, -, rfl, rfl⟩ := hs
    trivial
  | get first =>
    simp only [St.attempt] at hs
    split at hs
    · next o ho =>
      cases hs
      exact ⟨by rw [stored, ho]; rfl, List.Subset.refl ids⟩
    · cases hs
      trivial
  | create first =>
    simp only [St.attempt] at hs
    split at hs
    · cases hs
    · cases hs
      trivial
  | check version items todo =>
    cases todo with
    | nil =>
      simp only [St.attempt, Option.bind_eq_bind, Option.bind_eq_some_iff] at hs
      obtain ⟨o, -, hs⟩ := hs
      split at hs
      · cases hs
      · cases hs
        trivial
    | cons id todo =>
      simp only [St.attempt] at hs
      split at hs
      · cases hs
        exact h
      · cases hs
        exact ⟨h.1, fun j hj => h.2 (List.mem_cons_of_mem id hj)⟩
  | read version items id todo =>
    simp only [St.attempt, Option.bind_eq_bind, Option.bind_eq_some_iff, Option.some.injEq,
      Prod.mk.injEq] at hs
    obtain ⟨w, -, rfl, rfl⟩ := hs
    exact ⟨h.1, fun j hj => h.2 (List.mem_cons_of_mem id hj)⟩

lemma Alive.idle (h : Alive s) (hw : s.worker = .idle) (hs : s.work = some t) : Alive t := by
  simp only [St.work, hw] at hs
  split at hs
  · cases hs
  · next id q hq =>
    cases hs
    refine h.turn (fun j => ?_) (fun n => ?_) (fun g hg => by cases hg) trivial
    · simp [outstanding, waiting, queued, hq, hw, heldBy, groupsOf, or_comm, or_left_comm]
    · simp [Coming, hq, hw, signalsOf]
  · next ticket q hq =>
    cases hs
    refine h.turn (fun j => ?_) (fun n => ?_) (fun g hg => by cases hg) trivial
    · simp [outstanding, waiting, queued, hq, hw, heldBy, groupsOf]
    · simp [Coming, hq, hw, signalsOf, or_comm]

lemma Alive.draining (h : Alive s) {updates signals : List ℕ}
    (hw : s.worker = .draining updates signals) (hs : s.work = some t) : Alive t := by
  have hstop : Alive { s with worker := .filtering updates [] signals } := by
    refine h.turn (fun j => ?_) (fun n => ?_) (fun g hg => by cases hg) trivial
    · simp [outstanding, waiting, queued, hw, heldBy]
    · simp [Coming, hw, signalsOf]
  simp only [St.work, hw] at hs
  split at hs
  · split at hs
    · cases hs
      exact hstop
    · next id q hq =>
      cases hs
      refine h.turn (fun j => ?_) (fun n => ?_) (fun g hg => by cases hg) trivial
      · simp [outstanding, waiting, queued, hq, hw, heldBy, or_assoc, or_comm, or_left_comm]
      · simp [Coming, hq, hw, signalsOf]
    · next ticket q hq =>
      cases hs
      refine h.turn (fun j => ?_) (fun n => ?_) (fun g hg => by cases hg) trivial
      · simp [outstanding, waiting, queued, hq, hw, heldBy]
      · simp only [Coming, hq, hw, signalsOf, List.mem_cons, Entry.flush.injEq, List.mem_append]
        tauto
  · cases hs
    exact hstop

lemma Alive.writing (h : Alive s) {topoNs : String} {ids signals : List ℕ} {a : Attempt}
    {groups : List (String × List ℕ)} (hw : s.worker = .writing topoNs ids a groups signals)
    {next : Option Attempt} {written : Option Obj}
    (hs : s.attempt topoNs ids a = some (next, written)) :
    Alive { s with
      worker := resumed topoNs ids groups signals next
      store := stored s.store topoNs written } := by
  have hgroups := h.groups
  rw [hw] at hgroups
  refine h.moved h.wf (.refl _) (fun j hj => .inl ?_) (fun _ hr => .inl hr)
    (fun k hk => isSome_stored written hk) (fun n => ?_) (fun g hg => hgroups g ?_) ?_
  · refine mem_outstanding.mpr ((mem_outstanding.mp hj).imp_right fun hj => ?_)
    rw [hw]
    cases next with
    | none => exact List.mem_append_right _ hj
    | some a' => exact hj
  · cases next <;> simp [Coming, hw, signalsOf, resumed]
  · cases next with
    | none => exact List.mem_cons_of_mem _ hg
    | some a' => exact hg
  · cases next with
    | none => trivial
    | some a' =>
      have hatt := h.attempt
      rw [hw] at hatt
      exact attempt_alive hatt hs

lemma Alive.work (h : Alive s) (hs : s.work = some t) : Alive t := by
  cases hw : s.worker with
  | idle => exact h.idle hw hs
  | draining updates signals => exact h.draining hw hs
  | filtering todo active signals =>
    cases todo with
    | nil =>
      simp only [St.work, hw] at hs
      cases hs
      refine h.turn (fun j => ?_) (fun n => ?_) (groups_ne_nil active) trivial
      · simp only [mem_outstanding, hw, heldBy, groupsOf, mem_groups, List.nil_append]
        exact id
      · simp [Coming, hw, signalsOf]
    | cons i todo =>
      simp only [St.work, hw] at hs
      cases hs
      refine h.turn (fun j => ?_) (fun n => ?_) (fun g hg => by cases hg) trivial
      · simp only [mem_outstanding, hw, heldBy, List.mem_append, List.mem_cons]
        split
        · simp only [List.mem_append, List.mem_singleton]
          exact Or.imp id (by tauto)
        · exact Or.imp id (by tauto)
      · simp [Coming, hw, signalsOf]
  | grouping groups signals =>
    cases groups with
    | nil =>
      simp only [St.work, hw] at hs
      cases hs
      refine h.turn (fun j => ?_) (fun n => ?_) (fun g hg => by cases hg) trivial
      · simp [outstanding, waiting, queued, hw, heldBy, groupsOf]
      · simp only [Coming, hw, signalsOf, List.mem_append, List.not_mem_nil, or_false]
        tauto
    | cons g groups =>
      simp only [St.work, hw] at hs
      cases hs
  | writing topoNs ids a groups signals =>
    simp only [St.work, hw, Option.bind_eq_bind, Option.bind_eq_some_iff] at hs
    obtain ⟨⟨next, written⟩, hatt, hs⟩ := hs
    cases hs
    exact h.writing hw hatt

/-! ### Removals -/

lemma Alive.goesOn (h : Alive s) {d : Daemon} {r : Removal} {stage : Stage} {w : GRPCWire}
    (hwf : Wf d) (hgrows : Grows s.daemon d) (hw : s.daemon.objs r.id = some w)
    (hstage : StageAlive s w stage) :
    Alive ({ s with daemon := d }.replace r [{ r with stage := stage }]) := by
  refine h.others hwf hgrows (fun _ hid => .inl hid) fun r' hr' => ?_
  rcases List.mem_append.mp hr' with hr' | hr'
  · exact .inl (List.mem_of_mem_erase hr')
  · obtain rfl := List.mem_singleton.mp hr'
    obtain ⟨w', hw', hsame⟩ := hgrows.objs _ w hw
    exact .inr ⟨w', hw', stageAlive_mono hsame.topo (fun _ hk => hk) (fun _ hn => hn) hstage⟩

lemma Alive.over (h : Alive s) (r : Removal) : Alive (s.replace r []) := by
  refine h.others h.wf (.refl _) (fun _ hid => .inl hid) fun r' hr' => .inl ?_
  rw [List.append_nil] at hr'
  exact List.mem_of_mem_erase hr'

lemma Alive.flush (h : Alive s) {r : Removal} (hr : r ∈ s.removals) :
    Alive ({ s with
      queue := s.queue ++ [Entry.flush s.tickets]
      tickets := s.tickets + 1 }.replace r [{ r with stage := .wait s.tickets }]) := by
  refine h.moved h.wf (.refl _) (fun j hj => .inl ?_) (fun r' hr' => ?_) (fun _ hk => hk)
    (fun n hn => ?_) h.groups h.attempt
  · simpa [outstanding, waiting, queued, St.replace] using hj
  · rcases List.mem_append.mp hr' with hr' | hr'
    · exact .inl (List.mem_of_mem_erase hr')
    · obtain rfl := List.mem_singleton.mp hr'
      obtain ⟨w, hw, -⟩ := h.removals r hr
      exact .inr ⟨w, hw, .inr (.inl (List.mem_append_right _ List.mem_cons_self))⟩
  · exact hn.imp_right fun hn => hn.imp_left fun hn => List.mem_append_left _ hn

lemma Alive.wrote (h : Alive s) (topoNs : String) (o : Obj) :
    Alive { s with store := s.store.insert topoNs o } :=
  h.moved h.wf (.refl _) (fun _ hid => .inl hid) (fun _ hr => .inl hr)
    (fun _ hk => isSome_insert o hk) (fun _ hn => hn) h.groups
    (attemptAlive_mono (fun _ hk => isSome_insert o hk) h.attempt)

lemma Alive.remove (h : Alive s) {r : Removal} (hr : r ∈ s.removals)
    (hs : s.remove r = some t) : Alive t := by
  obtain ⟨w, hw, hstage⟩ := h.removals r hr
  unfold St.remove at hs
  split at hs
  · cases hs
    exact h.goesOn (h.wf.stop r.id) (grows_stop r.id) hw trivial
  · cases hs
    refine h.goesOn (h.wf.close r.id) (grows_of_objs rfl le_rfl) hw ?_
    cases r.inMem <;> trivial
  · cases hs
    exact h.goesOn (h.wf.atomicDelete r.id).1 (h.wf.atomicDelete r.id).2 hw trivial
  · split at hs
    · cases hs
      exact h.flush hr
    · cases hs
  · split at hs
    · cases hs
      exact h.goesOn h.wf (.refl _) hw trivial
    · cases hs
  · simp only [Option.bind_eq_bind, Option.bind_eq_some_iff] at hs
    obtain ⟨w', hw', hs⟩ := hs
    split at hs
    · cases hs
      exact h.over r
    · next o ho =>
      cases hs
      exact h.goesOn h.wf (.refl _) hw' (by rw [StageAlive, ho]; rfl)
  · simp only [Option.bind_eq_bind, Option.bind_eq_some_iff] at hs
    obtain ⟨w', hw', o, ho, hs⟩ := hs
    split at hs
    · next o' ho' =>
      cases hs
      exact (h.wrote w'.topoNamespace o').over r
    · cases hs
      exact h.goesOn h.wf (.refl _) hw' trivial

/-! ### Every run -/

lemma currId_make (d : Daemon) (f : ℕ → GRPCWire) (h : Wf d) :
    (d.make f).currId = d.currId + 1 :=
  (cleaned_make h (f (d.currId + 1))).currId

lemma Alive.create (h : Alive s) {d : Daemon} (hd : Wf d ∧ Grows s.daemon d)
    (hnew : d.currId = s.daemon.currId ∨ (d.objs d.currId).isSome) : Alive (s.create d) := by
  refine h.others hd.1 hd.2 (fun id hid => ?_) fun _ hr => .inl hr
  rcases List.mem_append.mp hid with hid | hid
  · exact .inl hid
  · split at hid
    · cases hid
    · next hne =>
      rw [List.mem_singleton.mp hid]
      exact .inr (hnew.resolve_left hne)

lemma isSome_make (h : Wf s.daemon) {f : ℕ → GRPCWire} (hf : ∀ id, (f id).localNodeIfaceID = id) :
    ((s.daemon.make f).objs (s.daemon.make f).currId).isSome := by
  rw [currId_make _ _ h, objs_make hf, if_pos rfl]
  rfl

lemma Alive.createLocal (h : Alive s) (wireDef : WireDef) (tapOk : Bool) :
    Alive (s.create (s.daemon.createGRPCWireLocal wireDef tapOk).1) := by
  refine h.create (h.wf.createLocal wireDef tapOk) ?_
  unfold Daemon.createGRPCWireLocal
  split
  · exact .inl rfl
  · split
    · exact .inr (isSome_make h.wf (createGWireLocal_id wireDef))
    · exact .inl rfl

lemma Alive.createRemote (h : Alive s) (wireDef : WireDef) (tapOk : Bool) :
    Alive (s.create (s.daemon.createOrFind wireDef tapOk).1) := by
  refine h.create (h.wf.createOrFind wireDef tapOk) ?_
  unfold Daemon.createOrFind
  split
  · exact .inl rfl
  · split
    · exact .inr (isSome_make h.wf (createGWire_id wireDef))
    · exact .inl rfl

lemma Alive.enqueue (h : Alive s) {id : ℕ} (hid : id ∈ s.spawned) : Alive (s.enqueue id) := by
  refine h.moved h.wf (.refl _) (fun j hj => .inl ?_) (fun _ hr => .inl hr) (fun _ hk => hk)
    (fun n hn => ?_) h.groups h.attempt
  · refine mem_outstanding.mpr ((mem_outstanding.mp hj).imp_left fun hj => mem_waiting.mpr ?_)
    rcases mem_waiting.mp hj with hj | hj
    · exact .inl (List.mem_of_mem_erase hj)
    · simp only [queued, St.enqueue] at hj ⊢
      split at hj
      · rw [List.filterMap_append, List.mem_append] at hj
        rcases hj with hj | hj
        · exact .inr hj
        · obtain rfl : j = id := by simpa using hj
          exact .inl hid
      · exact .inr hj
  · refine hn.imp_right fun hn => hn.imp_left fun hn => ?_
    simp only [St.enqueue]
    split
    · exact List.mem_append_left _ hn
    · exact hn

lemma Alive.pick (h : Alive s) {g : String × List ℕ} (hs : s.pick g = some t) : Alive t := by
  unfold St.pick at hs
  split at hs
  · next groups signals hw =>
    split at hs
    · next hg =>
      cases hs
      have hperm : (g :: groups.erase g).Perm groups := (List.perm_cons_erase hg).symm
      have hgroups := h.groups
      rw [hw] at hgroups
      refine h.turn (fun j hj => ?_) (fun n => ?_) (fun g' hg' => ?_) trivial
      · refine mem_outstanding.mpr ((mem_outstanding.mp hj).imp_right fun hj => ?_)
        rw [hw]
        exact (hperm.flatMap_right Prod.snd).mem_iff.mp hj
      · simp [Coming, hw, signalsOf]
      · exact hgroups g' (hperm.mem_iff.mp hg')
    · cases hs
  · cases hs

lemma Alive.fail (h : Alive s) (hs : s.fail = some t) : Alive t := by
  unfold St.fail at hs
  split at hs
  · next topoNs ids a groups signals hw =>
    cases hs
    have hgroups := h.groups
    rw [hw] at hgroups
    refine h.turn (fun j hj => ?_) (fun n => ?_) (fun g hg => ?_) trivial
    · refine mem_outstanding.mpr ((mem_outstanding.mp hj).imp_right fun hj => ?_)
      rw [hw]
      exact List.mem_append_right _ hj
    · simp [Coming, hw, signalsOf]
    · exact hgroups g (List.mem_cons_of_mem _ hg)
  · cases hs

lemma wf_reCreateGWire {d : Daemon} (h : Wf d) (attached : GWireStatus → Bool)
    (ws : GWireStatus) : Wf (reCreateGWire attached d ws) := by
  unfold reCreateGWire
  split
  · exact h
  · split
    · exact h.make (createGWire_id _)
    · exact h

lemma wf_reconGWires (attached : GWireStatus → Bool) (store : Objs) (order : List String) :
    Wf (reconGWires attached store order) := by
  refine List.foldlRecOn order _ wf_empty fun d hd topoNs _ => ?_
  exact List.foldlRecOn (itemsOf store topoNs) _ hd fun d hd ws _ => wf_reCreateGWire hd attached ws

lemma Alive.step (h : Alive s) {a : Act} (hs : step s a = some t) : Alive t := by
  cases a with
  | createLocal wireDef tapOk =>
    cases hs
    exact h.createLocal wireDef tapOk
  | createRemote wireDef tapOk =>
    cases hs
    exact h.createRemote wireDef tapOk
  | update id peerIntfId peerNodeIP =>
    simp only [WireStore.step] at hs
    split at hs
    · next hid =>
      cases hs
      have hd := h.wf.update id peerIntfId peerNodeIP
      refine h.others hd.1 hd.2 (fun j hj => ?_) fun _ hr => .inl hr
      rcases List.mem_append.mp hj with hj | hj
      · exact .inl hj
      · rw [List.mem_singleton.mp hj]
        exact .inr (isSome_of_grows hd.2 hid)
    · cases hs
  | extract k =>
    obtain ⟨id, hid, rfl⟩ := Option.map_eq_some_iff.mp hs
    obtain ⟨w, hw, -⟩ := h.wf.keyed k id hid
    refine h.others (h.wf.erase k) (grows_of_objs rfl le_rfl) (fun _ hid => .inl hid) fun r hr => ?_
    rcases List.mem_append.mp hr with hr | hr
    · exact .inl hr
    · rw [List.mem_singleton.mp hr]
      exact .inr ⟨w, hw, trivial⟩
  | down k =>
    obtain ⟨id, hid, rfl⟩ := Option.map_eq_some_iff.mp hs
    obtain ⟨w, hw, -⟩ := h.wf.keyed k id hid
    refine h.others h.wf (.refl _) (fun _ hid => .inl hid) fun r hr => ?_
    rcases List.mem_append.mp hr with hr | hr
    · exact .inl hr
    · rw [List.mem_singleton.mp hr]
      exact .inr ⟨w, hw, trivial⟩
  | enqueue id =>
    simp only [WireStore.step] at hs
    split at hs
    · next hid =>
      cases hs
      exact h.enqueue hid
    · cases hs
  | work => exact h.work hs
  | pick g => exact h.pick hs
  | fail => exact h.fail hs
  | remove r =>
    simp only [WireStore.step] at hs
    split at hs
    · next hr => exact h.remove hr hs
    · cases hs
  | abandon r =>
    simp only [WireStore.step] at hs
    split at hs
    · cases hs
      exact h.over r
    · cases hs
  | restart order attached =>
    simp only [WireStore.step] at hs
    split at hs
    · cases hs
      exact alive_of_idle (wf_reconGWires attached s.store order)
    · cases hs

lemma alive_of_run {as : List Act} (hrun : run step {} as = some s) : Alive s :=
  run_inv (fun _ _ _ h hs => Alive.step h hs) (alive_of_idle wf_empty) hrun

/-! ### Who can go on -/

lemma Alive.attempt_isSome (h : Alive s) {topoNs : String} {ids signals : List ℕ} {a : Attempt}
    {groups : List (String × List ℕ)} (hw : s.worker = .writing topoNs ids a groups signals) :
    (s.attempt topoNs ids a).isSome := by
  have hwire : ∀ id ∈ ids, ∃ w, s.daemon.objs id = some w := by
    intro id hid
    refine Option.isSome_iff_exists.mp (h.wires id (mem_outstanding.mpr (.inr ?_)))
    rw [hw]
    exact List.mem_append_left _ hid
  have hatt := h.attempt
  rw [hw] at hatt
  cases a with
  | start =>
    have hne : ids ≠ [] := h.groups (topoNs, ids) (by rw [hw]; exact List.mem_cons_self)
    obtain ⟨id, rest, rfl⟩ := List.exists_cons_of_ne_nil hne
    obtain ⟨w, hw⟩ := hwire id List.mem_cons_self
    simp [St.attempt, hw]
  | get first =>
    simp only [St.attempt]
    split <;> rfl
  | create first =>
    simp only [St.attempt]
    split <;> rfl
  | check version items todo =>
    cases todo with
    | nil =>
      obtain ⟨o, ho⟩ := Option.isSome_iff_exists.mp hatt.1
      simp only [St.attempt, ho, Option.bind_eq_bind, Option.bind_some]
      split <;> rfl
    | cons id todo =>
      simp only [St.attempt]
      split <;> rfl
  | read version items id todo =>
    obtain ⟨w, hw⟩ := hwire id (hatt.2 List.mem_cons_self)
    simp [St.attempt, hw]

lemma Alive.worker_goesOn (h : Alive s) (hwork : s.work = none) (hpick : ∀ g, s.pick g = none) :
    s.worker = .idle := by
  cases hw : s.worker with
  | idle => rfl
  | draining updates signals =>
    simp only [St.work, hw] at hwork
    split at hwork
    · split at hwork <;> cases hwork
    · cases hwork
  | filtering todo active signals => cases todo <;> simp [St.work, hw] at hwork
  | grouping groups signals =>
    cases groups with
    | nil => simp [St.work, hw] at hwork
    | cons g groups => simpa [St.pick, hw] using hpick g
  | writing topoNs ids a groups signals =>
    obtain ⟨x, hx⟩ := Option.isSome_iff_exists.mp (h.attempt_isSome hw)
    simp [St.work, hw, hx] at hwork

lemma Alive.removal_goesOn (h : Alive s) (hqueue : s.queue = []) (hworker : s.worker = .idle)
    {r : Removal} (hr : r ∈ s.removals) : (s.remove r).isSome := by
  obtain ⟨w, hw, hstage⟩ := h.removals r hr
  unfold St.remove
  split
  · rfl
  · rfl
  · rfl
  · rw [if_pos (by rw [hqueue]; decide)]
    rfl
  · next ticket hs =>
    -- the marker is neither in the queue nor in a batch
    rw [hs] at hstage
    have hclosed : ticket ∈ s.closed := by
      simpa [StageAlive, Coming, hqueue, hworker, signalsOf] using hstage
    rw [if_pos hclosed]
    rfl
  · simp only [hw, Option.bind_eq_bind, Option.bind_some]
    split <;> rfl
  · next version items hs =>
    rw [hs] at hstage
    obtain ⟨o, ho⟩ := Option.isSome_iff_exists.mp hstage
    simp only [hw, ho, Option.bind_eq_bind, Option.bind_some]
    split <;> rfl

lemma Alive.atRest (h : Alive s) (hstuck : ∀ a, Own a → WireStore.step s a = none) :
    AtRest s := by
  have hworker := h.worker_goesOn (hstuck .work trivial) fun g => hstuck (.pick g) trivial
  have hqueue : s.queue = [] := by
    have hwork : s.work = none := hstuck .work trivial
    simp only [St.work, hworker] at hwork
    split at hwork
    · assumption
    · cases hwork
    · cases hwork
  refine ⟨?_, hqueue, hworker, ?_⟩
  · refine List.eq_nil_iff_forall_not_mem.mpr fun id hid => ?_
    simpa [WireStore.step, hid] using hstuck (.enqueue id) trivial
  · refine List.eq_nil_iff_forall_not_mem.mpr fun r hr => ?_
    have hnone := hstuck (.remove r) trivial
    simp only [WireStore.step, if_pos hr] at hnone
    simpa [hnone] using h.removal_goesOn hqueue hworker hr

end Kne.WireStore
