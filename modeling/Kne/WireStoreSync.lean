import Kne.WireRestore
import Kne.WireStoreTurns

/-!
The record follows the wires. When nothing is left to do, the statuses stored for a topology are
those of its wires in the wire map, with the peers that the wires have; so a daemon that restarts
then comes back with the wires that it had.

A link must not be made again while it is being removed, nor in a network namespace in which an
older wire of it has still to be stored: removals delete by link, and the worker looks wires up by
key.
-/

namespace Kne.WireStore

open Kne.Runs Kne.WireModel Kne.WireTables Kne.KeyedLists

variable {L : Layout} {s s' : St}

/-! ### Steps of the removals -/

lemma Inv.requeue (h : Inv L s) {spawned : List ℕ} {q : List Entry} {n : ℕ}
    (hwait : ∀ id, id ∈ waiting { s with spawned := spawned, queue := q, tickets := n } ↔
      id ∈ waiting s)
    (htickets : ∀ t, t ∈ s.closed ∨ t ∈ signalsOf s.worker ∨ Entry.flush t ∈ q → t < n) :
    Inv L { s with spawned := spawned, queue := q, tickets := n } where
  tables := h.tables
  own id hid :=
    h.own id (mem_outstanding.mpr ((mem_outstanding.mp hid).imp_left (hwait id).mp))
  removing := h.removing
  guarded := h.guarded
  newer id hid ws hws j ws' hin hl := (h.newer id hid ws hws j ws' hin hl).imp_right (hwait j).mpr
  tickets := htickets
  good := h.good
  sound := h.sound
  complete id ws hin := (h.complete id ws hin).imp_left fun hid =>
    mem_outstanding.mpr ((mem_outstanding.mp hid).imp_left (hwait id).mpr)
  grouped := h.grouped
  attempt t ids a gs sigs hw := by
    have ha := h.attempt t ids a gs sigs hw
    have hmerged : ∀ {v items todo}, Merged L s t ids (gs.flatMap Prod.snd) v items todo →
        Merged L { s with spawned := spawned, queue := q, tickets := n } t ids
          (gs.flatMap Prod.snd) v items todo := fun hm =>
      ⟨hm.members, hm.good, hm.current, hm.sources, fun o ho hv id ws hin ht =>
        (hm.complete o ho hv id ws hin ht).imp_right fun hr => hr.imp_left (hwait id).mpr⟩
    cases a with
    | start => trivial
    | get first => exact ha
    | create first => exact ha
    | check v items todo => exact hmerged ha
    | read v items id todo => exact hmerged ha
  deletion := h.deletion

lemma Inv.enqueue (h : Inv L s) {id : ℕ} (hid : id ∈ s.spawned)
    (hroom : s.queue.length < queueCapacity) : Inv L (s.enqueue id) := by
  rw [St.enqueue, if_pos hroom]
  refine h.requeue (n := s.tickets) (fun j => ?_) fun t ht => h.tickets t ?_
  · have hperm := List.perm_cons_erase hid
    rw [mem_waiting, mem_waiting, hperm.mem_iff]
    simp [queued, or_assoc, or_comm, or_left_comm]
  · simpa using ht

lemma Inv.flush (h : Inv L s) {r : Removal} (hr : r ∈ s.removals) (hstage : r.stage = .flush) :
    Inv L ({ s with
      queue := s.queue ++ [Entry.flush s.tickets]
      tickets := s.tickets + 1 }.replace r [{ r with stage := .wait s.tickets }]) := by
  have hqueue : Inv L { s with
      queue := s.queue ++ [Entry.flush s.tickets], tickets := s.tickets + 1 } := by
    refine Inv.requeue h (fun j => ?_) fun t ht => ?_
    · simp [mem_waiting, queued]
    · rw [List.mem_append, List.mem_singleton] at ht
      rcases ht with ht | ht | ht | ht
      · exact (h.tickets t (.inl ht)).trans (Nat.lt_succ_self _)
      · exact (h.tickets t (.inr (.inl ht))).trans (Nat.lt_succ_self _)
      · exact (h.tickets t (.inr (.inr ht))).trans (Nat.lt_succ_self _)
      · cases ht
        exact Nat.lt_succ_self _
  refine hqueue.advance hr h.tables.wf (fun _ => rfl) rfl ⟨rfl, fun _ hmem => ?_⟩ (fun hm => ?_)
    (by simp [DeletionOk])
  · exact absurd (h.tickets _ (.inl hmem)) (Nat.lt_irrefl _)
  · rw [Mapped, hstage] at hm
    exact hm.2.elim

/-- What the end of a removal does to the store: the items of its link are gone, the others stay,
and an object that has changed has a new version. -/
structure Dropped (store store' : AList (fun _ : String => Obj)) (l : String × ℤ) : Prop where
  objs : ∀ t o, store.lookup t = some o → ∃ o', store'.lookup t = some o' ∧
    (o' = o ∨ o.version < o'.version) ∧ ∀ ws ∈ o.items, ws.link ≠ l → ws ∈ o'.items
  back : ∀ t o', store'.lookup t = some o' → ∃ o, store.lookup t = some o ∧
    o'.items.Sublist o.items ∧ ∀ ws ∈ o'.items, ws.link ≠ l

lemma Dropped.none {store store' : AList (fun _ : String => Obj)} {l : String × ℤ} {t : String}
    (h : Dropped store store' l) (ht : store.lookup t = none) : store'.lookup t = none := by
  by_contra hne
  obtain ⟨o', ho'⟩ := Option.ne_none_iff_exists'.mp hne
  obtain ⟨o, ho, -⟩ := h.back t o' ho'
  rw [ht] at ho
  cases ho

lemma Dropped.same {store store' : AList (fun _ : String => Obj)} {l : String × ℤ} {t : String}
    {v : ℕ} {o o' : Obj} (h : Dropped store store' l) (ho : store.lookup t = some o)
    (hv : v ≤ o.version) (ho' : store'.lookup t = some o') (hv' : o'.version = v) : o' = o := by
  obtain ⟨o₁, ho₁, hversion, -⟩ := h.objs t o ho
  rw [ho'] at ho₁
  obtain rfl := Option.some.inj ho₁
  rcases hversion with rfl | hlt
  · rfl
  · omega

lemma Dropped.current {store store' : AList (fun _ : String => Obj)} {l : String × ℤ} {t : String}
    {v : ℕ} {o : Obj} (h : Dropped store store' l) (ho : store.lookup t = some o)
    (hv : v ≤ o.version) : ∃ o', store'.lookup t = some o' ∧ v ≤ o'.version := by
  obtain ⟨o', ho', hversion, -⟩ := h.objs t o ho
  refine ⟨o', ho', ?_⟩
  rcases hversion with rfl | hlt
  · exact hv
  · exact hv.trans hlt.le

lemma Inv.finish (h : Inv L s) {r : Removal} {ws : GWireStatus}
    {store : AList (fun _ : String => Obj)} (hr : r ∈ s.removals) (hlate : ¬ Early s.closed r)
    (hws : stat s.daemon r.id = some ws) (hd : Dropped s.store store ws.link) :
    Inv L ({ s with store := store }.replace r []) := by
  have hmem : ∀ x, x ∈ s.removals.erase r ++ [] → x ∈ s.removals := fun x hx =>
    List.mem_of_mem_erase (by simpa using hx)
  have hstay : ∀ x ∈ s.removals, x ≠ r → x ∈ s.removals.erase r ++ [] := fun x hx hne => by
    simpa using (List.mem_erase_of_ne hne).mpr hx
  -- the link has no wire, as its removal is beyond the wire map
  have hnot : ∀ j ws', InMap s.daemon j ws' → ws'.link ≠ ws.link := by
    intro j ws' hin hl
    obtain ⟨ws₀, hws₀, hsame⟩ := h.removing r hr
    rw [hws] at hws₀
    obtain rfl := Option.some.inj hws₀
    have hm := (hsame j ws' hin hl).2.2
    unfold Early at hlate
    split at hm
    · next hs => rw [hs] at hlate; exact hlate trivial
    · next hs => rw [hs] at hlate; exact hlate trivial
    · next hs => rw [hs] at hlate; exact hlate trivial
    · exact hm
  have hmerged : ∀ {t ids rest v items todo}, Merged L s t ids rest v items todo →
      Merged L ({ s with store := store }.replace r []) t ids rest v items todo := by
    intro t ids rest v items todo hm
    obtain ⟨o, ho, hv⟩ := hm.current
    refine ⟨hm.members, hm.good, hd.current ho hv, fun o' ho' hv' => ?_, fun o' ho' hv' => ?_⟩
    · obtain rfl := hd.same ho hv ho' hv'
      exact hm.sources o' ho hv'
    · obtain rfl := hd.same ho hv ho' hv'
      exact hm.complete o' ho hv'
  refine ⟨h.tables, h.own, fun x hx => h.removing x (hmem x hx), fun id hid wsi hwsi => ?_, h.newer,
    h.tickets, fun t o' ho' => ?_, fun t o' ho' ws' hws' => ?_, fun id wsi hin => ?_, h.grouped,
    fun t ids a gs sigs hw => ?_, fun x hx v items hstage wsx hwsx => ?_⟩
  · rcases h.guarded id hid wsi hwsi with hl | ⟨x, hx, hearly, hlx⟩
    · exact .inl hl
    · exact .inr ⟨x, hstay x hx (fun heq => hlate (heq ▸ hearly)), hearly, hlx⟩
  · obtain ⟨o, ho, hsub, -⟩ := hd.back t o' ho'
    have hg := h.good t o ho
    exact ⟨hg.distinct.sublist (hsub.map _), fun ws' hws' => hg.planned ws' (hsub.subset hws')⟩
  · obtain ⟨o, ho, hsub, hne⟩ := hd.back t o' ho'
    rcases h.sound t o ho ws' (hsub.subset hws') with hl | ⟨x, hx, wsx, hwsx, hlx⟩
    · exact .inl hl
    · refine .inr ⟨x, hstay x hx ?_, wsx, hwsx, hlx⟩
      rintro rfl
      rw [hws] at hwsx
      obtain rfl := Option.some.inj hwsx
      exact hne ws' hws' hlx.symm
  · refine (h.complete id wsi hin).imp_right ?_
    rintro ⟨o, ho, hmem'⟩
    obtain ⟨o', ho', -, hkeep⟩ := hd.objs _ o ho
    exact ⟨o', ho', hkeep wsi hmem' (hnot id wsi hin)⟩
  · have ha := h.attempt t ids a gs sigs hw
    cases a with
    | start => trivial
    | get first => exact ha
    | create first => exact ⟨ha.1, hd.none ha.2⟩
    | check v items todo => exact hmerged ha
    | read v items id todo => exact hmerged ha
  · obtain ⟨o, ho, hv, hitems⟩ := h.deletion x (hmem x hx) v items hstage wsx hwsx
    obtain ⟨o', ho', hv'⟩ := hd.current ho hv
    refine ⟨o', ho', hv', fun heq => ?_⟩
    obtain rfl := hd.same ho hv ho' heq
    exact hitems heq

lemma Inv.remove (h : Inv L s) {r : Removal} (hr : r ∈ s.removals) (hs : s.remove r = some s') :
    Inv L s' := by
  obtain ⟨id, inMem, stage⟩ := r
  cases stage with
  | stop =>
    obtain rfl := Option.some.inj hs
    exact h.advance hr (h.tables.wf.stop id) (stat_stop s.daemon id) rfl ⟨rfl, fun he => he⟩
      (fun hm => hm) (by simp [DeletionOk])
  | close =>
    obtain rfl := Option.some.inj hs
    refine h.advance hr (h.tables.wf.close id) (fun _ => rfl) rfl ⟨rfl, fun _ => ?_⟩ (fun hm => ?_)
      ?_
    · cases inMem <;> trivial
    · obtain rfl : inMem = true := hm.1
      exact ⟨rfl, trivial⟩
    · cases inMem <;> simp [DeletionOk]
  | delete =>
    obtain rfl := Option.some.inj hs
    exact h.delete hr
  | flush =>
    simp only [St.remove] at hs
    split at hs
    · obtain rfl := Option.some.inj hs
      exact h.flush hr rfl
    · cases hs
  | wait t =>
    simp only [St.remove] at hs
    split at hs
    · next ht =>
      obtain rfl := Option.some.inj hs
      exact h.advance (d := s.daemon) hr h.tables.wf (fun _ => rfl) rfl
        ⟨rfl, fun he => absurd ht he⟩ (fun hm => hm.2.elim) (by simp [DeletionOk])
    · cases hs
  | get =>
    simp only [St.remove, Option.bind_eq_bind, Option.bind_eq_some_iff] at hs
    obtain ⟨w, hw, hs⟩ := hs
    have hws := stat_of_objs hw
    split at hs
    · next hnone =>
      obtain rfl := Option.some.inj hs
      refine Inv.finish h hr (fun he => he) hws ⟨fun t o ho => ⟨o, ho, .inl rfl,
        fun ws hws _ => hws⟩, fun t o ho => ⟨o, ho, .refl _, fun ws hmem hl => ?_⟩⟩
      have ht : ws.topoNamespace = t := ((h.good t o ho).planned ws hmem).1
      have ht' : ws.topoNamespace = w.topoNamespace := congrArg Prod.fst hl
      rw [← ht, ht', hnone] at ho
      cases ho
    · next o ho =>
      obtain rfl := Option.some.inj hs
      refine h.advance (d := s.daemon) hr h.tables.wf (fun _ => rfl) rfl ⟨rfl, fun he => he⟩
        (fun hm => hm.2.elim) fun v items hstage ws' hws' => ?_
      cases hstage
      rw [hws] at hws'
      obtain rfl := Option.some.inj hws'
      exact ⟨o, ho, le_rfl, fun _ => rfl⟩
  | write v items =>
    simp only [St.remove, Option.bind_eq_bind, Option.bind_eq_some_iff] at hs
    obtain ⟨w, hw, o, ho, hs⟩ := hs
    have hws := stat_of_objs hw
    split at hs
    · next o' hu =>
      obtain rfl := Option.some.inj hs
      obtain ⟨hv, rfl, hversion⟩ := update_eq_some hu
      obtain ⟨o₁, ho₁, -, hitems⟩ := h.deletion _ hr v _ rfl _ hws
      obtain rfl : o = o₁ := Option.some.inj (ho.symm.trans ho₁)
      have hfilter := hitems hv
      have hout : ∀ ws ∈ o'.items, ws ∈ o.items ∧ ws.link ≠ (createWireStatus w).link := by
        intro ws hmem
        rw [hfilter, List.mem_filter] at hmem
        exact ⟨hmem.1, fun hl => of_decide_eq_true hmem.2 (congrArg Prod.snd hl)⟩
      refine h.finish hr (fun he => he) hws ⟨fun t o₂ ho₂ => ?_, fun t o₂ ho₂ => ?_⟩
      · by_cases ht : t = w.topoNamespace
        · subst ht
          obtain rfl : o = o₂ := Option.some.inj (ho.symm.trans ho₂)
          refine ⟨o', AList.lookup_insert _, hversion, fun ws hmem hl => ?_⟩
          rw [hfilter, List.mem_filter]
          have ht' := ((h.good _ o ho).planned ws hmem).1
          exact ⟨hmem, decide_eq_true fun hid => hl (Prod.ext ht' hid)⟩
        · exact ⟨o₂, (AList.lookup_insert_ne ht).trans ho₂, .inl rfl, fun ws hmem _ => hmem⟩
      · by_cases ht : t = w.topoNamespace
        · subst ht
          rw [AList.lookup_insert] at ho₂
          obtain rfl := Option.some.inj ho₂
          exact ⟨o, ho, hfilter ▸ List.filter_sublist, fun ws hmem => (hout ws hmem).2⟩
        · rw [AList.lookup_insert_ne ht] at ho₂
          refine ⟨o₂, ho₂, .refl _, fun ws hmem hl => ht ?_⟩
          exact (((h.good t o₂ ho₂).planned ws hmem).1).symm.trans (congrArg Prod.fst hl)
    · obtain rfl := Option.some.inj hs
      exact h.advance (d := s.daemon) hr h.tables.wf (fun _ => rfl) rfl ⟨rfl, fun he => he⟩
        (fun hm => hm) (by simp [DeletionOk])

/-! ### Runs -/

/-- The link of the definition is not being removed, and no wire that waits has its key. -/
def Free (s : St) (wireDef : WireDef) : Prop :=
  (∀ r ∈ s.removals, ∀ w ∈ s.daemon.objs r.id,
    (w.topoNamespace, w.uid) ≠ (wireDef.topoNs, wireDef.linkUid)) ∧
  ∀ id ∈ outstanding s, ∀ w ∈ s.daemon.objs id, w.key ≠ wireDef.key

instance decidableFree (s : St) (wireDef : WireDef) : Decidable (Free s wireDef) :=
  inferInstanceAs (Decidable (_ ∧ _))

/-- The definition is that of the end of a link on this node. -/
def PlannedDef (L : Layout) (wireDef : WireDef) : Prop :=
  L.owner wireDef.localPodNetNs = (wireDef.topoNs, wireDef.localPodName) ∧
    L.links wireDef.topoNs wireDef.linkUid = some (wireDef.localPodName, wireDef.intfNameInPod)

instance decidablePlannedDef (L : Layout) (wireDef : WireDef) : Decidable (PlannedDef L wireDef) :=
  inferInstanceAs (Decidable (_ ∧ _))

/-- Nothing is dropped and no call fails; wires are made where nothing is left of an older one, and
updated unless another has their place; and TAP devices can be attached after a restart. -/
def Calm (L : Layout) (s : St) : Act → Prop
  | .createLocal wireDef _ | .createRemote wireDef _ =>
    PlannedDef L wireDef ∧ (s.daemon.getWireByUID wireDef.key = none → Free s wireDef)
  | .update id _ _ => ∀ w ∈ s.daemon.objs id, ∀ j ∈ s.daemon.getWireByUID w.key, j = id
  | .enqueue _ => s.queue.length < queueCapacity
  | .fail | .abandon _ => False
  | .restart order attached => ∀ t ∈ order, ∀ ws ∈ itemsOf s.store t, attached ws = true
  | .extract _ | .down _ | .work | .pick _ | .remove _ => True

instance decidableCalm (L : Layout) (s : St) : (a : Act) → Decidable (Calm L s a)
  | .createLocal wireDef _ | .createRemote wireDef _ =>
    inferInstanceAs (Decidable (PlannedDef L wireDef ∧ _))
  | .update id _ _ => inferInstanceAs (Decidable (∀ w ∈ s.daemon.objs id, _))
  | .enqueue _ => inferInstanceAs (Decidable (_ < _))
  | .fail | .abandon _ => inferInstanceAs (Decidable False)
  | .restart order _ => inferInstanceAs (Decidable (∀ t ∈ order, _))
  | .extract _ | .down _ | .work | .pick _ | .remove _ => inferInstanceAs (Decidable True)

lemma Inv.make (h : Inv L s) {wireDef : WireDef} {f : ℕ → GRPCWire}
    (hf : ∀ id, (f id).localNodeIfaceID = id)
    (hstatus : ∀ id, createWireStatus (f id) = createWireStatus (createGWire id wireDef))
    (hplanned : PlannedDef L wireDef) (hnone : s.daemon.getWireByUID wireDef.key = none)
    (hfree : Free s wireDef) : Inv L (s.create (s.daemon.make f)) := by
  have hid : (s.daemon.make f).currId = s.daemon.currId + 1 :=
    (cleaned_make h.tables.wf (f (s.daemon.currId + 1))).currId
  have hmade := made_make h.tables.wf hf
  rw [hstatus] at hmade
  rw [St.create, hid, if_neg (Nat.succ_ne_self _)]
  refine h.made (h.tables.wf.make hf) hmade ⟨hplanned.1, hplanned.2⟩ hnone (fun r hr ws hws => ?_)
    fun j hj ws hws => ?_
  · obtain ⟨w, hw, rfl⟩ := stat_eq_some.mp hws
    exact hfree.1 r hr w hw
  · obtain ⟨w, hw, rfl⟩ := stat_eq_some.mp hws
    exact hfree.2 j hj w hw

lemma Inv.unmade (h : Inv L s) {d : Daemon} (hwf : Wf d) (hid : d.currId = s.daemon.currId)
    (hstat : ∀ id, stat d id = stat s.daemon id) (hwires : d.wires = s.daemon.wires) :
    Inv L (s.create d) := by
  rw [St.create, if_pos hid, List.append_nil]
  exact h.still hwf hstat hwires (fun r hr => ⟨r, hr, rfl, fun he => he⟩) fun r hr => .inl hr

lemma Inv.createLocal (h : Inv L s) {wireDef : WireDef} {tapOk : Bool}
    (hplanned : PlannedDef L wireDef)
    (hfree : s.daemon.getWireByUID wireDef.key = none → Free s wireDef) :
    Inv L (s.create (s.daemon.createGRPCWireLocal wireDef tapOk).1) := by
  have hwf := (h.tables.wf.createLocal wireDef tapOk).1
  unfold Daemon.createGRPCWireLocal at hwf ⊢
  split
  · next id hid =>
    simp only [hid] at hwf
    refine h.unmade hwf rfl (fun j => ?_) rfl
    rw [stat, objs_modify]
    split
    · next hj =>
      subst hj
      cases hobj : s.daemon.objs j <;> simp [stat, hobj, createWireStatus]
    · rfl
  · next hnone =>
    split
    · exact h.make (createGWireLocal_id wireDef) (fun _ => rfl) hplanned hnone (hfree hnone)
    · exact h.unmade h.tables.wf rfl (fun _ => rfl) rfl

lemma Inv.createRemote (h : Inv L s) {wireDef : WireDef} {tapOk : Bool}
    (hplanned : PlannedDef L wireDef)
    (hfree : s.daemon.getWireByUID wireDef.key = none → Free s wireDef) :
    Inv L (s.create (s.daemon.createOrFind wireDef tapOk).1) := by
  unfold Daemon.createOrFind
  split
  · exact h.unmade h.tables.wf rfl (fun _ => rfl) rfl
  · next hnone =>
    split
    · exact h.make (createGWire_id wireDef) (fun _ => rfl) hplanned hnone (hfree hnone)
    · exact h.unmade h.tables.wf rfl (fun _ => rfl) rfl

lemma mem_itemsOf {store : AList (fun _ : String => Obj)} {t : String} {ws : GWireStatus} :
    ws ∈ itemsOf store t ↔ ∃ o, store.lookup t = some o ∧ ws ∈ o.items := by
  cases ho : store.lookup t <;> simp [itemsOf, ho]

lemma Inv.links_apart (h : Inv L s) {order : List String} (horder : order.Nodup) :
    (order.flatMap (itemsOf s.store)).Pairwise fun ws ws' => ws.link ≠ ws'.link := by
  have hgood : ∀ t ws, ws ∈ itemsOf s.store t → ws.topoNamespace = t ∧ Planned L ws := by
    intro t ws hws
    obtain ⟨o, ho, hmem⟩ := mem_itemsOf.mp hws
    exact (h.good t o ho).planned ws hmem
  rw [List.pairwise_flatMap]
  refine ⟨fun t _ => ?_, horder.imp fun hne ws hws ws' hws' hl => ?_⟩
  · cases ho : s.store.lookup t with
    | none => simp [itemsOf, ho]
    | some o =>
      have hitems : itemsOf s.store t = o.items := by simp [itemsOf, ho]
      have hd := List.pairwise_map.mp (h.good t o ho).distinct
      rw [hitems]
      refine hd.imp_of_mem fun hws hws' hkey hl => hkey ?_
      exact ((h.good t o ho).planned _ hws').2.itemKey_of_link ((h.good t o ho).planned _ hws).2 hl
  · exact hne ((hgood _ ws hws).1.symm.trans ((congrArg Prod.fst hl).trans (hgood _ ws' hws').1))

lemma Inv.restored (h : Inv L s) {order : List String} {attached : GWireStatus → Bool}
    (horder : order.Perm s.store.keys)
    (hattached : ∀ t ∈ order, ∀ ws ∈ itemsOf s.store t, attached ws = true) :
    Restored L (reconGWires attached s.store order) (order.flatMap (itemsOf s.store)) := by
  refine restored_reconGWires (fun t _ ws hws => ?_) hattached
    (h.links_apart (horder.nodup_iff.mpr s.store.nodupKeys))
  obtain ⟨o, ho, hmem⟩ := mem_itemsOf.mp hws
  exact ((h.good t o ho).planned ws hmem).2

lemma Inv.mem_flatMap (h : Inv L s) {order : List String} (horder : order.Perm s.store.keys)
    {ws : GWireStatus} : ws ∈ order.flatMap (itemsOf s.store) ↔
      ws ∈ itemsOf s.store ws.topoNamespace := by
  rw [List.mem_flatMap]
  constructor
  · rintro ⟨t, -, hmem⟩
    obtain ⟨o, ho, hws⟩ := mem_itemsOf.mp hmem
    rw [((h.good t o ho).planned ws hws).1]
    exact hmem
  · intro hmem
    obtain ⟨o, ho, -⟩ := mem_itemsOf.mp hmem
    refine ⟨ws.topoNamespace, horder.mem_iff.mpr ?_, hmem⟩
    exact AList.mem_keys.mpr (AList.lookup_isSome.mp (by rw [ho]; rfl))

lemma Inv.restart (h : Inv L s) {order : List String} {attached : GWireStatus → Bool}
    (horder : order.Perm s.store.keys)
    (hattached : ∀ t ∈ order, ∀ ws ∈ itemsOf s.store t, attached ws = true) :
    Inv L { daemon := reconGWires attached s.store order, store := s.store } where
  tables := (h.restored horder hattached).tables
  own _ hid := by cases hid
  removing _ hr := by cases hr
  guarded _ hid := by cases hid
  newer _ hid := by cases hid
  tickets _ ht := by simp [signalsOf] at ht
  good := h.good
  sound t o ho ws hws := by
    have hitem : ws ∈ itemsOf s.store ws.topoNamespace := by
      rw [((h.good t o ho).planned ws hws).1]
      exact mem_itemsOf.mpr ⟨o, ho, hws⟩
    obtain ⟨id, hin⟩ := ((h.restored horder hattached).inMap ws).mpr
      ((h.mem_flatMap horder).mpr hitem)
    exact .inl ⟨id, ws, hin, rfl⟩
  complete id ws hin := .inr (mem_itemsOf.mp ((h.mem_flatMap horder).mp
    (((h.restored horder hattached).inMap ws).mp ⟨id, hin⟩)))
  grouped _ hg := by cases hg
  attempt _ _ _ _ _ hw := by cases hw
  deletion _ hr := by cases hr

lemma Inv.step (h : Inv L s) {a : Act} (hcalm : Calm L s a) (hs : step s a = some s') :
    Inv L s' := by
  cases a with
  | createLocal wireDef tapOk =>
    obtain rfl := Option.some.inj hs
    exact h.createLocal hcalm.1 hcalm.2
  | createRemote wireDef tapOk =>
    obtain rfl := Option.some.inj hs
    exact h.createRemote hcalm.1 hcalm.2
  | update id peerIntfId peerNodeIP =>
    simp only [WireStore.step] at hs
    split at hs
    · next hid =>
      obtain rfl := Option.some.inj hs
      exact h.update hid hcalm
    · cases hs
  | extract k =>
    obtain ⟨id, hid, rfl⟩ := Option.map_eq_some_iff.mp hs
    exact h.extract hid
  | down k =>
    obtain ⟨id, hid, rfl⟩ := Option.map_eq_some_iff.mp hs
    exact h.down hid
  | enqueue id =>
    simp only [WireStore.step] at hs
    split at hs
    · next hid =>
      obtain rfl := Option.some.inj hs
      exact h.enqueue hid hcalm
    · cases hs
  | work => exact h.work hs
  | pick g =>
    simp only [WireStore.step, St.pick] at hs
    split at hs
    · next groups signals hw =>
      split at hs
      · next hg =>
        obtain rfl := Option.some.inj hs
        exact h.pick hw hg
      · cases hs
    · cases hs
  | fail => exact hcalm.elim
  | remove r =>
    simp only [WireStore.step] at hs
    split at hs
    · next hr => exact h.remove hr hs
    · cases hs
  | abandon r => exact hcalm.elim
  | restart order attached =>
    simp only [WireStore.step] at hs
    split at hs
    · next horder =>
      obtain rfl := Option.some.inj hs
      exact h.restart horder hcalm
    · cases hs

lemma inv_of_run {as : List Act} (hcalm : Along step (Calm L) {} as)
    (hrun : run step {} as = some s) : Inv L s :=
  run_inv_along (fun _ _ _ h hok hs => Inv.step h hok hs) (inv_init L) hcalm hrun

lemma Inv.mem_itemsOf_iff (h : Inv L s) (hrest : AtRest s) {ws : GWireStatus} :
    ws ∈ itemsOf s.store ws.topoNamespace ↔ ∃ id, InMap s.daemon id ws := by
  obtain ⟨hspawned, hqueue, hworker, hremovals⟩ := hrest
  have hstored : ∀ id ws, InMap s.daemon id ws → ws ∈ itemsOf s.store ws.topoNamespace := by
    intro id ws hin
    rcases h.complete id ws hin with hid | hstored
    · simp [outstanding, waiting, queued, hspawned, hqueue, hworker, heldBy, groupsOf] at hid
    · exact mem_itemsOf.mpr hstored
  constructor
  · intro hws
    obtain ⟨o, ho, hmem⟩ := mem_itemsOf.mp hws
    rcases h.sound _ o ho ws hmem with ⟨id, ws', hin, hl⟩ | ⟨r, hr, -⟩
    · -- the wire of the link is stored too, under the same key
      obtain ⟨o', ho', hmem'⟩ := mem_itemsOf.mp (hstored id ws' hin)
      have ht : ws'.topoNamespace = ws.topoNamespace := congrArg Prod.fst hl
      rw [ht, ho] at ho'
      obtain rfl := Option.some.inj ho'
      have hg := h.good _ o ho
      have heq := hg.distinct.eq hmem' hmem
        ((hg.planned ws hmem).2.itemKey_of_link (hg.planned ws' hmem').2 hl)
      exact ⟨id, heq ▸ hin⟩
    · rw [hremovals] at hr
      cases hr
  · rintro ⟨id, hin⟩
    exact hstored id ws hin

/-- The status of the wire under a key of the wire map. -/
def statusAt (d : Daemon) (k : LinkKey) : Option GWireStatus :=
  ((d.getWireByUID k).bind d.objs).map createWireStatus

lemma Tables.statusAt_iff {d : Daemon} (h : Tables L d) {k : LinkKey} {ws : GWireStatus} :
    statusAt d k = some ws ↔ ws.key = k ∧ ∃ id, InMap d id ws := by
  simp only [statusAt, Option.map_eq_some_iff, Option.bind_eq_some_iff]
  constructor
  · rintro ⟨w, ⟨id, hid, hw⟩, rfl⟩
    obtain ⟨w', hw', hkey⟩ := h.wf.keyed k id hid
    rw [hw] at hw'
    obtain rfl := Option.some.inj hw'
    exact ⟨hkey, id, by rw [show (createWireStatus w).key = k from hkey]; exact hid,
      stat_of_objs hw⟩
  · rintro ⟨rfl, id, hin⟩
    obtain ⟨w, hw, rfl⟩ := stat_eq_some.mp hin.stat
    exact ⟨w, ⟨id, hin.entry, hw⟩, rfl⟩

/-- **The record follows the wires.** In every run in which no status is lost and no link is made
again while something is left of its old wire, the worker and the removals interleaving in any way
with whatever makes, updates and removes wires: when nothing is left to do, the statuses stored for
a topology are those of its wires in the wire map, each once. -/
theorem record_follows_wires (L : Layout) {as : List Act} (hcalm : Along step (Calm L) {} as)
    (hrun : run step {} as = some s) (hrest : AtRest s) (topoNs : String) :
    (itemsOf s.store topoNs).Nodup ∧ ∀ ws, ws ∈ itemsOf s.store topoNs ↔
      ws.topoNamespace = topoNs ∧ ∃ k, statusAt s.daemon k = some ws := by
  have h := inv_of_run hcalm hrun
  have hmap : ∀ ws, (∃ k, statusAt s.daemon k = some ws) ↔ ∃ id, InMap s.daemon id ws := by
    intro ws
    simp only [h.tables.statusAt_iff]
    exact ⟨fun ⟨_, _, hin⟩ => hin, fun hin => ⟨_, rfl, hin⟩⟩
  refine ⟨?_, fun ws => ?_⟩
  · cases ho : s.store.lookup topoNs with
    | none => simp [itemsOf, ho]
    | some o =>
      have hnodup := (h.good topoNs o ho).distinct.of_map
      simpa [itemsOf, ho] using hnodup
  · rw [hmap]
    constructor
    · intro hws
      obtain ⟨o, ho, hmem⟩ := mem_itemsOf.mp hws
      have ht := ((h.good topoNs o ho).planned ws hmem).1
      refine ⟨ht, (h.mem_itemsOf_iff hrest).mp ?_⟩
      rw [ht]
      exact hws
    · rintro ⟨rfl, hin⟩
      exact (h.mem_itemsOf_iff hrest).mpr hin

instance decidableAtRest (s : St) : Decidable (AtRest s) := inferInstanceAs (Decidable (_ ∧ _))

/-- The pod `r1` of the topology `lab`, with the links 1 and 2. -/
def labLayout : Layout where
  owner _ := ("lab", "r1")
  links t u :=
    if t = "lab" ∧ u = 1 then some ("r1", "eth1")
    else if t = "lab" ∧ u = 2 then some ("r1", "eth2")
    else none
  apart t u u' e h h' := by
    split_ifs at h h' with h1 h2 h3 h4 h5 h6 <;> simp_all <;> subst h <;> simp at h'
  plain t u e h := by
    split_ifs at h <;> cases h <;> decide

/-- The end of a link in `r1`, when the pod has the network namespace `ns`. -/
def labEnd (ns : String) (uid : ℤ) (intf : String) (peerId : ℕ) : WireDef :=
  { linkUid := uid, topoNs := "lab", localPodName := "r1", localPodNetNs := ns
    intfNameInPod := intf, wireIfIdOnPeerNode := peerId, peerNodeIp := "10.0.0.2" }

def labStatus (ns : String) (uid : ℤ) (intf : String) (peerId : ℕ) (peerIP : String) :
    GWireStatus :=
  { linkId := uid, topoNamespace := "lab", localPodNetNs := ns, localPodName := "r1"
    localPodIp := "", localPodIfaceName := intf, wireIfaceIdOnPeerNode := peerId
    gWirePeerNodeIp := peerIP }

/-- The worker takes the wires that are queued and writes their statuses into the object. -/
def batch (ids : List ℕ) : List Act :=
  List.replicate (2 * ids.length + 2) .work ++ [.pick ("lab", ids)] ++
    List.replicate (2 * ids.length + 4) .work

/-- The worker makes the object for the first wire. -/
def firstBatch : List Act :=
  List.replicate 4 .work ++ [.pick ("lab", [1])] ++ List.replicate 6 .work

/-- The wire 2 is removed: its marker goes through the queue before its status is deleted. -/
def removal (version : ℕ) (items : List GWireStatus) : List Act :=
  [.remove ⟨2, false, .stop⟩, .remove ⟨2, false, .close⟩, .remove ⟨2, false, .flush⟩] ++
    List.replicate 4 .work ++ [.remove ⟨2, false, .wait 0⟩, .remove ⟨2, false, .get⟩,
      .remove ⟨2, false, .write version items⟩]

/-- The peer of link 1 moves between the worker's reading and its writing; link 2 is made, stored
and removed. -/
def peerMoves : List Act :=
  [.createRemote (labEnd "ns1" 1 "eth1" 7) true, .enqueue 1] ++ firstBatch ++
    [.update 1 9 "10.0.0.3", .createLocal (labEnd "ns1" 2 "eth2" 0) true, .work, .work, .enqueue 1,
      .enqueue 2] ++ batch [1, 2] ++ [.extract ⟨"ns1", 2⟩] ++
    removal 1 [labStatus "ns1" 1 "eth1" 9 "10.0.0.3"]

lemma peerMoves_calm : Along step (Calm labLayout) {} peerMoves := by decide +kernel

theorem record_follows_wires_peerMoves : ∃ s, run step {} peerMoves = some s ∧ AtRest s ∧
    itemsOf s.store "lab" = [labStatus "ns1" 1 "eth1" 9 "10.0.0.3"] ∧
    (itemsOf s.store "lab").Nodup ∧ ∀ ws, ws ∈ itemsOf s.store "lab" ↔
      ws.topoNamespace = "lab" ∧ ∃ k, statusAt s.daemon k = some ws := by
  have hend : (run step {} peerMoves).any fun s => AtRest s ∧
      itemsOf s.store "lab" = [labStatus "ns1" 1 "eth1" 9 "10.0.0.3"] := by decide +kernel
  obtain ⟨s, hrun, hs⟩ := (Option.any_eq_true _ _).mp hend
  obtain ⟨hrest, hitems⟩ := of_decide_eq_true hs
  exact ⟨s, hrun, hrest, hitems, record_follows_wires labLayout peerMoves_calm hrun hrest "lab"⟩

/-- Link 2 is made again, in a new network namespace, while its old wire waits to be removed. -/
def remade : List Act :=
  [.createRemote (labEnd "ns1" 1 "eth1" 7) true, .enqueue 1] ++ firstBatch ++
    [.work, .work, .createRemote (labEnd "ns1" 2 "eth2" 8) true, .enqueue 2] ++ batch [2] ++
    [.extract ⟨"ns1", 2⟩, .createRemote (labEnd "ns2" 2 "eth2" 8) true, .enqueue 3] ++ batch [3] ++
    removal 2 [labStatus "ns1" 1 "eth1" 7 "10.0.0.2"]

/-- The removal of the old wire then takes the status of the new one with it, and at rest a wire in
the map is not stored. -/
theorem remade_not_stored : ∃ s, run step {} remade = some s ∧ AtRest s ∧
    statusAt s.daemon ⟨"ns2", 2⟩ = some (labStatus "ns2" 2 "eth2" 8 "10.0.0.2") ∧
    itemsOf s.store "lab" = [labStatus "ns1" 1 "eth1" 7 "10.0.0.2"] := by
  have hend : (run step {} remade).any fun s => AtRest s ∧
      statusAt s.daemon ⟨"ns2", 2⟩ = some (labStatus "ns2" 2 "eth2" 8 "10.0.0.2") ∧
      itemsOf s.store "lab" = [labStatus "ns1" 1 "eth1" 7 "10.0.0.2"] := by decide +kernel
  obtain ⟨s, hrun, hs⟩ := (Option.any_eq_true _ _).mp hend
  exact ⟨s, hrun, of_decide_eq_true hs⟩

end Kne.WireStore
