import Kne.WireStoreInv

/-!
The worker keeps the invariant, from taking the wires out of the queue to writing their statuses.
-/

namespace Kne.WireStore

open Kne.WireModel Kne.WireTables Kne.KeyedLists

variable {L : Layout} {s s' : St}

/-! ### Steps of the worker -/

lemma Inv.turn (h : Inv L s) {q : List Entry} {w : Worker}
    (hown : ∀ id ∈ outstanding { s with queue := q, worker := w }, id ∈ outstanding s)
    (hcomplete : ∀ id ws, InMap s.daemon id ws → id ∈ outstanding s →
      id ∈ outstanding { s with queue := q, worker := w })
    (hactive : ∀ id ∈ activeOf w, ∀ ws, stat s.daemon id = some ws → Guarded s ws.link ∧
      ∀ j ws', InMap s.daemon j ws' → ws'.link = ws.link →
        j = id ∨ j ∈ waiting { s with queue := q, worker := w })
    (htickets : ∀ t, t ∈ signalsOf w ∨ Entry.flush t ∈ q → t < s.tickets)
    (hgrouped : ∀ g ∈ groupsOf w, ∀ id ∈ g.2, ∃ ws, stat s.daemon id = some ws ∧
      ws.topoNamespace = g.1)
    (hattempt : ∀ t ids a gs sigs, w = .writing t ids a gs sigs →
      AttemptOk L { s with queue := q, worker := w } t ids (gs.flatMap Prod.snd) a) :
    Inv L { s with queue := q, worker := w } where
  tables := h.tables
  own id hid := h.own id (hown id hid)
  removing := h.removing
  guarded id hid ws hws := (hactive id hid ws hws).1
  newer id hid ws hws := (hactive id hid ws hws).2
  tickets t ht := by
    rcases ht with ht | ht
    · exact h.tickets t (.inl ht)
    · exact htickets t ht
  good := h.good
  sound := h.sound
  complete id ws hin := (h.complete id ws hin).imp_left (hcomplete id ws hin)
  grouped := hgrouped
  attempt := hattempt
  deletion := h.deletion

lemma Inv.take (h : Inv L s) {q : List Entry} {w : Worker} (hactive : activeOf w = [])
    (hout : ∀ id, id ∈ outstanding { s with queue := q, worker := w } ↔ id ∈ outstanding s)
    (htickets : ∀ t, t ∈ signalsOf w ∨ Entry.flush t ∈ q → t < s.tickets)
    (hgroups : groupsOf w = []) : Inv L { s with queue := q, worker := w } := by
  refine h.turn (fun id hid => (hout id).mp hid) (fun id _ _ hid => (hout id).mpr hid)
    (fun id hid => ?_) htickets (fun g hg => ?_) fun t ids a gs sigs hw => ?_
  · rw [hactive] at hid; cases hid
  · rw [hgroups] at hg; cases hg
  · subst hw; cases hgroups

lemma Inv.idle (h : Inv L s) (hw : s.worker = .idle) (hs : s.work = some s') : Inv L s' := by
  simp only [St.work, hw] at hs
  split at hs
  · cases hs
  · next id q hq =>
    obtain rfl := Option.some.inj hs
    refine h.take rfl (fun j => ?_) (fun t ht => h.tickets t ?_) rfl
    · simp [outstanding, waiting, queued, hq, hw, heldBy, groupsOf, or_comm, or_left_comm]
    · rw [hq]
      rcases ht with ht | ht
      · cases ht
      · exact .inr (.inr (List.mem_cons_of_mem _ ht))
  · next t q hq =>
    obtain rfl := Option.some.inj hs
    refine h.take rfl (fun j => ?_) (fun t' ht => h.tickets t' ?_) rfl
    · simp [outstanding, waiting, queued, hq, hw, heldBy, groupsOf]
    · rw [hq]
      rcases ht with ht | ht
      · rw [List.mem_singleton.mp ht]
        exact .inr (.inr List.mem_cons_self)
      · exact .inr (.inr (List.mem_cons_of_mem _ ht))

lemma Inv.draining (h : Inv L s) {updates signals : List ℕ}
    (hw : s.worker = .draining updates signals) (hs : s.work = some s') : Inv L s' := by
  have hsignals : ∀ t ∈ signals, t < s.tickets := fun t ht =>
    h.tickets t (.inr (.inl (by rw [hw]; exact ht)))
  -- the worker has all it takes, and turns to the wire map
  have hstop : Inv L { s with worker := .filtering updates [] signals } := by
    refine h.take (q := s.queue) rfl (fun j => ?_) (fun t ht => ?_) rfl
    · simp [outstanding, waiting, queued, hw, heldBy]
    · exact ht.elim (hsignals t) fun ht => h.tickets t (.inr (.inr ht))
  simp only [St.work, hw] at hs
  split at hs
  · split at hs
    · obtain rfl := Option.some.inj hs
      exact hstop
    · next id q hq =>
      obtain rfl := Option.some.inj hs
      refine h.take rfl (fun j => ?_) (fun t ht => ?_) rfl
      · simp [outstanding, waiting, queued, hq, hw, heldBy, or_assoc, or_comm, or_left_comm]
      · refine ht.elim (hsignals t) fun ht => h.tickets t (.inr (.inr ?_))
        rw [hq]
        exact List.mem_cons_of_mem _ ht
    · next t q hq =>
      obtain rfl := Option.some.inj hs
      refine h.take rfl (fun j => ?_) (fun t' ht => ?_) rfl
      · simp [outstanding, waiting, queued, hq, hw, heldBy]
      · rcases ht with ht | ht
        · rcases List.mem_append.mp ht with ht | ht
          · exact hsignals t' ht
          · refine h.tickets t' (.inr (.inr ?_))
            rw [hq, List.mem_singleton.mp ht]
            exact List.mem_cons_self
        · refine h.tickets t' (.inr (.inr ?_))
          rw [hq]
          exact List.mem_cons_of_mem _ ht
  · obtain rfl := Option.some.inj hs
    exact hstop

lemma present_iff {id : ℕ} : s.present id = true ↔
    ∃ ws, stat s.daemon id = some ws ∧ ∃ j, s.daemon.wires.lookup ws.key = some j := by
  simp only [St.present, Option.any_eq_true, Option.isSome_iff_exists, stat_eq_some]
  constructor
  · rintro ⟨w, hw, j, hj⟩
    exact ⟨_, ⟨w, hw, rfl⟩, j, hj⟩
  · rintro ⟨_, ⟨w, hw, rfl⟩, j, hj⟩
    exact ⟨w, hw, j, hj⟩

lemma InMap.present {id : ℕ} {ws : GWireStatus} (h : InMap s.daemon id ws) :
    s.present id = true :=
  present_iff.mpr ⟨ws, h.stat, id, h.entry⟩

lemma Inv.inMap_of_present (h : Inv L s) {id : ℕ} (hid : id ∈ outstanding s)
    (hp : s.present id = true) {ws : GWireStatus} (hws : stat s.daemon id = some ws) :
    InMap s.daemon id ws := by
  obtain ⟨ws', hws', j, hj⟩ := present_iff.mp hp
  rw [hws] at hws'
  obtain rfl := Option.some.inj hws'
  obtain ⟨ws'', hws'', hown⟩ := h.own id hid
  rw [hws] at hws''
  obtain rfl := Option.some.inj hws''
  rw [hown j hj] at hj
  exact ⟨hj, hws⟩

lemma Inv.filtering (h : Inv L s) {id : ℕ} {todo active signals : List ℕ}
    (hw : s.worker = .filtering (id :: todo) active signals) :
    Inv L { s with
      worker := .filtering todo (if s.present id then active ++ [id] else active) signals } := by
  have hmem : id ∈ outstanding s := by simp [outstanding, hw, heldBy]
  refine h.turn (q := s.queue) (fun j hj => ?_) (fun j ws hin hj => ?_) (fun j hj ws hws => ?_)
    (fun t ht => h.tickets t ?_) (fun g hg => by cases hg) fun t ids a gs sigs hw' => by cases hw'
  · refine mem_outstanding.mpr ((mem_outstanding.mp hj).imp_right fun hj => ?_)
    rw [hw]
    simp only [heldBy, List.mem_append, List.mem_cons] at hj ⊢
    split at hj
    · rw [List.mem_append, List.mem_singleton] at hj
      tauto
    · tauto
  · refine mem_outstanding.mpr ((mem_outstanding.mp hj).imp_right fun hj => ?_)
    rw [hw] at hj
    simp only [heldBy, List.mem_append, List.mem_cons] at hj ⊢
    -- a wire in the map is not dropped
    by_cases hji : j = id
    · subst hji
      rw [if_pos hin.present]
      exact .inr (List.mem_append_right _ (List.mem_singleton_self j))
    · rcases hj with (hj | hj) | hj
      · exact absurd hj hji
      · exact .inl hj
      · refine .inr ?_
        split
        · exact List.mem_append_left _ hj
        · exact hj
  · have hcase : j ∈ activeOf s.worker ∨ j = id ∧ s.present id = true := by
      simp only [activeOf, hw] at hj ⊢
      split at hj
      · next hp => simpa [hp] using hj
      · exact .inl hj
    rcases hcase with hj | ⟨rfl, hp⟩
    · exact ⟨h.guarded j hj ws hws, h.newer j hj ws hws⟩
    · have hin := h.inMap_of_present hmem hp hws
      exact ⟨.inl ⟨j, ws, hin, rfl⟩, fun i ws' hi hl => .inl (h.tables.single hin hi hl)⟩
  · rw [hw]
    exact .inr ht

lemma mem_addToGroup {t : String} {id j : ℕ} {gs : List (String × List ℕ)} :
    j ∈ (addToGroup t id gs).flatMap Prod.snd ↔ j ∈ gs.flatMap Prod.snd ∨ j = id := by
  induction gs with
  | nil => simp [addToGroup]
  | cons g gs ih =>
    unfold addToGroup
    split
    · simp [or_comm, or_left_comm]
    · rw [List.flatMap_cons, List.mem_append, ih, List.flatMap_cons, List.mem_append, or_assoc]

lemma mem_groups {id : ℕ} {active : List ℕ} :
    id ∈ (s.groups active).flatMap Prod.snd ↔ id ∈ active := by
  induction active using List.reverseRecOn with
  | nil => simp [St.groups]
  | append_singleton active i ih =>
    rw [St.groups, List.foldl_concat, mem_addToGroup, ← St.groups, ih, List.mem_append,
      List.mem_singleton]

lemma forall_addToGroup {P : String → ℕ → Prop} {t : String} {id : ℕ}
    {gs : List (String × List ℕ)} (h : ∀ g ∈ gs, ∀ j ∈ g.2, P g.1 j) (hid : P t id) :
    ∀ g ∈ addToGroup t id gs, ∀ j ∈ g.2, P g.1 j := by
  induction gs with
  | nil =>
    intro g hg j hj
    obtain rfl := List.mem_singleton.mp hg
    obtain rfl := List.mem_singleton.mp hj
    exact hid
  | cons g₀ gs ih =>
    have hrest := fun g hg => h g (List.mem_cons_of_mem g₀ hg)
    unfold addToGroup
    split
    · next ht =>
      intro g hg j hj
      rcases List.mem_cons.mp hg with rfl | hg
      · rcases List.mem_append.mp hj with hj | hj
        · exact h g₀ List.mem_cons_self j hj
        · obtain rfl := List.mem_singleton.mp hj
          exact ht ▸ hid
      · exact hrest g hg j hj
    · intro g hg
      rcases List.mem_cons.mp hg with rfl | hg
      · exact h g List.mem_cons_self
      · exact ih hrest g hg

lemma topoOf_of_group {active : List ℕ} :
    ∀ g ∈ s.groups active, ∀ id ∈ g.2, s.topoOf id = g.1 := by
  induction active using List.reverseRecOn with
  | nil => simp [St.groups]
  | append_singleton active i ih =>
    rw [St.groups, List.foldl_concat]
    exact forall_addToGroup (P := fun t id => s.topoOf id = t) ih rfl

lemma topoOf_eq {id : ℕ} {ws : GWireStatus} (h : stat s.daemon id = some ws) :
    s.topoOf id = ws.topoNamespace := by
  obtain ⟨w, hw, rfl⟩ := stat_eq_some.mp h
  simp [St.topoOf, hw, createWireStatus]

lemma Inv.group (h : Inv L s) {active signals : List ℕ}
    (hw : s.worker = .filtering [] active signals) :
    Inv L { s with worker := .grouping (s.groups active) signals } := by
  have hheld : ∀ j, j ∈ outstanding { s with worker := .grouping (s.groups active) signals } ↔
      j ∈ outstanding s := by
    intro j
    simp only [mem_outstanding, hw, heldBy, groupsOf, mem_groups, List.nil_append]
    rfl
  refine h.turn (q := s.queue) (fun j hj => (hheld j).mp hj) (fun j _ _ hj => (hheld j).mpr hj)
    (fun j hj ws hws => ?_) (fun t ht => h.tickets t (by rw [hw]; exact .inr ht))
    (fun g hg j hj => ?_) fun t ids a gs sigs hw' => by cases hw'
  · have hj' : j ∈ activeOf s.worker := by
      rw [hw]
      exact mem_groups.mp hj
    exact ⟨h.guarded j hj' ws hws, h.newer j hj' ws hws⟩
  · have hact : j ∈ active := mem_groups.mp (List.mem_flatMap.mpr ⟨g, hg, hj⟩)
    obtain ⟨ws, hws⟩ := h.stat_of_active (by rw [hw]; exact hact)
    exact ⟨ws, hws, (topoOf_eq hws).symm.trans (topoOf_of_group g hg j hj)⟩

lemma Inv.pick (h : Inv L s) {g : String × List ℕ} {groups : List (String × List ℕ)}
    {signals : List ℕ} (hw : s.worker = .grouping groups signals) (hg : g ∈ groups) :
    Inv L { s with worker := .writing g.1 g.2 .start (groups.erase g) signals } := by
  have hperm : (g :: groups.erase g).Perm groups := (List.perm_cons_erase hg).symm
  have hheld : ∀ j, j ∈ (g :: groups.erase g).flatMap Prod.snd ↔ j ∈ groups.flatMap Prod.snd :=
    fun j => (hperm.flatMap_right Prod.snd).mem_iff
  have hout : ∀ j, j ∈ outstanding { s with
      worker := .writing g.1 g.2 .start (groups.erase g) signals } ↔ j ∈ outstanding s := by
    intro j
    rw [mem_outstanding, mem_outstanding, hw]
    exact or_congr_right (hheld j)
  refine h.turn (q := s.queue) (fun j hj => (hout j).mp hj) (fun j _ _ hj => (hout j).mpr hj)
    (fun j hj ws hws => ?_) (fun t ht => h.tickets t (by rw [hw]; exact .inr ht))
    (fun g' hg' => h.grouped g' (by rw [hw]; exact hperm.mem_iff.mp hg'))
    fun t ids a gs sigs hw' => ?_
  · have hj' : j ∈ activeOf s.worker := by
      rw [hw]
      exact (hheld j).mp hj
    exact ⟨h.guarded j hj' ws hws, h.newer j hj' ws hws⟩
  · cases hw'
    trivial

lemma Inv.signal (h : Inv L s) {signals : List ℕ} (hw : s.worker = .grouping [] signals) :
    Inv L { s with worker := .idle, closed := s.closed ++ signals } where
  tables := h.tables
  own id hid := h.own id (by simpa [outstanding, hw, heldBy, groupsOf, waiting, queued] using hid)
  removing := h.removing
  guarded id hid := by cases hid
  newer id hid := by cases hid
  tickets t ht := by
    refine h.tickets t ?_
    rw [hw]
    rcases ht with ht | ht | ht
    · exact (List.mem_append.mp ht).imp_right .inl
    · cases ht
    · exact .inr (.inr ht)
  good := h.good
  sound := h.sound
  complete id ws hin := by
    refine (h.complete id ws hin).imp_left fun hid => ?_
    simpa [outstanding, hw, heldBy, groupsOf, waiting, queued] using hid
  grouped g hg := by cases hg
  attempt t ids a gs sigs hw' := by cases hw'
  deletion := h.deletion

/-! ### Attempts to write a group -/

section Attempt

variable {t : String} {ids rest todo : List ℕ} {a : Attempt} {gs : List (String × List ℕ)}
  {sigs : List ℕ} {v : ℕ} {items : List GWireStatus} {first : GWireStatus} {o o' : Obj}

lemma AttemptOk.worker (h : AttemptOk L s t ids rest a) (w : Worker) :
    AttemptOk L { s with worker := w } t ids rest a := by
  cases a with
  | start => trivial
  | get first => exact h
  | create first => exact h
  | check v items todo => exact ⟨h.members, h.good, h.current, h.sources, h.complete⟩
  | read v items id todo => exact ⟨h.members, h.good, h.current, h.sources, h.complete⟩

lemma Inv.active_of_mem (hw : s.worker = .writing t ids a gs sigs) {id : ℕ} (hid : id ∈ ids) :
    id ∈ activeOf s.worker := by
  rw [hw]
  exact List.mem_flatMap.mpr ⟨(t, ids), List.mem_cons_self, hid⟩

lemma Inv.attempted (h : Inv L s) (hw : s.worker = .writing t ids a gs sigs) {a' : Attempt}
    (ha : AttemptOk L s t ids (gs.flatMap Prod.snd) a') :
    Inv L { s with worker := .writing t ids a' gs sigs } := by
  have hout : ∀ j, j ∈ outstanding { s with worker := .writing t ids a' gs sigs } ↔
      j ∈ outstanding s := by
    intro j
    rw [mem_outstanding, mem_outstanding, hw]
    rfl
  refine h.turn (q := s.queue) (fun j hj => (hout j).mp hj) (fun j _ _ hj => (hout j).mpr hj)
    (fun j hj ws hws => ?_) (fun t ht => h.tickets t (by rw [hw]; exact .inr ht))
    (fun g hg => h.grouped g (by rw [hw]; exact hg)) fun t' ids' a'' gs' sigs' hw' => ?_
  · have hj' : j ∈ activeOf s.worker := by rw [hw]; exact hj
    exact ⟨h.guarded j hj' ws hws, h.newer j hj' ws hws⟩
  · cases hw'
    exact ha.worker _

lemma Inv.firstOk (h : Inv L s) (hw : s.worker = .writing t ids a gs sigs) {id : ℕ}
    (hid : id ∈ ids) {w : GRPCWire} (hobj : s.daemon.objs id = some w) :
    FirstOk L s t ids (createWireStatus w) := by
  obtain ⟨ws, hws, ht⟩ := h.grouped (t, ids) (by rw [hw]; exact List.mem_cons_self) id hid
  have hstat := stat_of_objs hobj
  rw [hws] at hstat
  obtain rfl := Option.some.inj hstat
  exact ⟨h.tables.planned id _ hws, ht, id, hid, _, hws, rfl⟩

lemma Inv.merged (h : Inv L s) (hw : s.worker = .writing t ids a gs sigs)
    (ho : s.store.lookup t = some o) :
    Merged L s t ids (gs.flatMap Prod.snd) o.version o.items ids where
  members _ hid := hid
  good := h.good t o ho
  current := ⟨o, ho, le_rfl⟩
  sources o' ho' _ ws hws := by
    rw [ho] at ho'
    obtain rfl := Option.some.inj ho'
    exact .inl ⟨ws, hws, rfl⟩
  complete o' ho' _ id ws hin ht := by
    rw [ho] at ho'
    obtain rfl := Option.some.inj ho'
    rcases h.complete id ws hin with hid | ⟨o', ho', hmem⟩
    · rcases mem_outstanding.mp hid with hid | hid
      · exact .inr (.inl hid)
      · rw [hw] at hid
        exact .inr (.inr (by simpa [heldBy, groupsOf] using hid))
    · rw [ht, ho] at ho'
      obtain rfl := Option.some.inj ho'
      exact .inl hmem

lemma Merged.skip {id : ℕ} (h : Merged L s t ids rest v items (id :: todo))
    (hp : s.present id = false) : Merged L s t ids rest v items todo where
  members j hj := h.members j (List.mem_cons_of_mem id hj)
  good := h.good
  current := h.current
  sources := h.sources
  complete o ho hv j ws hin ht := by
    rcases h.complete o ho hv j ws hin ht with hj | hj | hj | hj
    · exact .inl hj
    · exact .inr (.inl hj)
    · rcases List.mem_cons.mp hj with rfl | hj
      · rw [hin.present] at hp; cases hp
      · exact .inr (.inr (.inl hj))
    · exact .inr (.inr (.inr hj))

/-- The status of a wire is put among the items. If another wire has taken its place meanwhile, that
one waits. -/
lemma Inv.merge (h : Inv L s) (hw : s.worker = .writing t ids a gs sigs) {id : ℕ}
    (hm : Merged L s t ids (gs.flatMap Prod.snd) v items (id :: todo)) {w : GRPCWire}
    (hobj : s.daemon.objs id = some w) :
    Merged L s t ids (gs.flatMap Prod.snd) v (put GWireStatus.itemKey items (createWireStatus w))
      todo := by
  have hid : id ∈ ids := hm.members id List.mem_cons_self
  obtain ⟨hp, ht, -⟩ := h.firstOk hw hid hobj
  have hstat := stat_of_objs hobj
  refine ⟨fun j hj => hm.members j (List.mem_cons_of_mem id hj), ⟨hm.good.distinct.put _, ?_⟩,
    hm.current, fun o ho hv ws hws => ?_, fun o ho hv j ws hin htj => ?_⟩
  · intro ws hws
    rcases mem_or_eq_of_mem_put hws with hws | rfl
    · exact hm.good.planned ws hws
    · exact ⟨ht, hp⟩
  · rcases mem_or_eq_of_mem_put hws with hws | rfl
    · exact hm.sources o ho hv ws hws
    · exact .inr ⟨id, hid, _, hstat, rfl⟩
  · have hself : j = id → ws = createWireStatus w := by
      rintro rfl
      exact Option.some.inj (hin.stat.symm.trans hstat)
    rcases hm.complete o ho hv j ws hin htj with hmem | hj | hj | hj
    · by_cases hkey : ws.itemKey = (createWireStatus w).itemKey
      · have hl := hp.link_of_itemKey (h.tables.planned j ws hin.stat) (htj.trans ht.symm) hkey
        rcases h.newer id (Inv.active_of_mem hw hid) _ hstat j ws hin hl with hj | hj
        · exact .inl (hself hj ▸ mem_put_self _ _)
        · exact .inr (.inl hj)
      · exact .inl (mem_put_of_ne hmem hkey)
    · exact .inr (.inl hj)
    · rcases List.mem_cons.mp hj with hj | hj
      · exact .inl (hself hj ▸ mem_put_self _ _)
      · exact .inr (.inr (.inl hj))
    · exact .inr (.inr (.inr hj))

lemma update_eq_some (h : o.update v items = some o') :
    o.version = v ∧ o'.items = items ∧ (o' = o ∨ o.version < o'.version) := by
  unfold Obj.update at h
  split at h
  · next hv =>
    obtain rfl := Option.some.inj h
    refine ⟨hv, rfl, ?_⟩
    by_cases hi : items = o.items
    · exact .inl (by simp [hi])
    · exact .inr (by simp [hi])
  · cases h

lemma Inv.write (h : Inv L s) {w : Worker}
    (hversion : ∀ o, s.store.lookup t = some o → o' = o ∨ o.version < o'.version)
    (hgood : GoodItems L t o'.items) (hsound : ∀ ws ∈ o'.items, Covered s ws.link)
    (hheld : ∀ id ∈ heldBy w, id ∈ heldBy s.worker)
    (hactive : ∀ id ∈ activeOf w, id ∈ activeOf s.worker)
    (hsignals : signalsOf w = signalsOf s.worker)
    (hgroups : ∀ g ∈ groupsOf w, g ∈ groupsOf s.worker)
    (hcomplete : ∀ id ws, InMap s.daemon id ws → id ∈ waiting s ∨ id ∈ heldBy w ∨
      ∃ o, (s.store.insert t o').lookup ws.topoNamespace = some o ∧ ws ∈ o.items)
    (hattempt : ∀ t' ids a gs sigs, w = .writing t' ids a gs sigs →
      AttemptOk L { s with worker := w, store := s.store.insert t o' } t' ids
        (gs.flatMap Prod.snd) a) :
    Inv L { s with worker := w, store := s.store.insert t o' } where
  tables := h.tables
  own id hid := h.own id (mem_outstanding.mpr ((mem_outstanding.mp hid).imp_right (hheld id)))
  removing := h.removing
  guarded id hid := h.guarded id (hactive id hid)
  newer id hid := h.newer id (hactive id hid)
  tickets t ht := h.tickets t (by rw [← hsignals]; exact ht)
  good t' o ho := by
    by_cases htt : t' = t
    · subst htt
      rw [AList.lookup_insert] at ho
      exact Option.some.inj ho ▸ hgood
    · rw [AList.lookup_insert_ne htt] at ho
      exact h.good t' o ho
  sound t' o ho ws hws := by
    by_cases htt : t' = t
    · subst htt
      rw [AList.lookup_insert] at ho
      obtain rfl := Option.some.inj ho
      exact hsound ws hws
    · rw [AList.lookup_insert_ne htt] at ho
      exact h.sound t' o ho ws hws
  complete id ws hin := by
    rcases hcomplete id ws hin with hid | hid | hstored
    · exact .inl (mem_outstanding.mpr (.inl hid))
    · exact .inl (mem_outstanding.mpr (.inr hid))
    · exact .inr hstored
  grouped g hg := h.grouped g (hgroups g hg)
  attempt := hattempt
  deletion r hr v items hstage ws hws := by
    obtain ⟨o, ho, hv, hitems⟩ := h.deletion r hr v items hstage ws hws
    by_cases htt : ws.topoNamespace = t
    · refine ⟨o', by rw [htt]; exact AList.lookup_insert _, ?_⟩
      rcases hversion o (htt ▸ ho) with rfl | hlt
      · exact ⟨hv, hitems⟩
      · exact ⟨hv.trans hlt.le, fun heq => absurd (heq ▸ hlt) (Nat.not_lt.mpr hv)⟩
    · exact ⟨o, by rw [AList.lookup_insert_ne htt]; exact ho, hv, hitems⟩

lemma Inv.create (h : Inv L s) (hw : s.worker = .writing t ids (.create first) gs sigs) :
    Inv L { s with
      worker := .writing t ids (.get first) gs sigs
      store := s.store.insert t { items := [first] } } := by
  obtain ⟨⟨hp, ht, id, hid, ws, hws, hl⟩, hnone⟩ := h.attempt t ids _ gs sigs hw
  refine h.write (fun o ho => ?_) ⟨List.nodup_singleton _, fun ws' hws' => ?_⟩ (fun ws' hws' => ?_)
    (by rw [hw]; exact fun _ h => h) (by rw [hw]; exact fun _ h => h) (by rw [hw]; rfl)
    (by rw [hw]; exact fun _ h => h) (fun j wsj hin => ?_) fun t' ids' a gs' sigs' hw' => ?_
  · rw [hnone] at ho; cases ho
  · rw [List.mem_singleton.mp hws']
    exact ⟨ht, hp⟩
  · rw [List.mem_singleton.mp hws', ← hl]
    exact (h.guarded id (Inv.active_of_mem hw hid) ws hws).covered
  · rcases h.complete j wsj hin with hj | ⟨o, ho, hmem⟩
    · rcases mem_outstanding.mp hj with hj | hj
      · exact .inl hj
      · exact .inr (.inl (by rw [hw] at hj; exact hj))
    · refine .inr (.inr ⟨o, ?_, hmem⟩)
      rw [AList.lookup_insert_ne]
      · exact ho
      · rintro htt
        rw [htt, hnone] at ho
        cases ho
  · cases hw'
    exact ⟨hp, ht, id, hid, ws, hws, hl⟩

lemma Inv.commit (h : Inv L s) (hw : s.worker = .writing t ids (.check v items []) gs sigs)
    (ho : s.store.lookup t = some o) (hu : o.update v items = some o') :
    Inv L { s with worker := .grouping gs sigs, store := s.store.insert t o' } := by
  obtain ⟨hv, rfl, hversion⟩ := update_eq_some hu
  have hm : Merged L s t ids (gs.flatMap Prod.snd) v o'.items [] := h.attempt t ids _ gs sigs hw
  have hsub : ∀ j ∈ gs.flatMap Prod.snd, j ∈ ((t, ids) :: gs).flatMap Prod.snd := fun j hj => by
    rw [List.flatMap_cons]
    exact List.mem_append_right _ hj
  refine h.write (fun o₁ ho₁ => ?_) hm.good (fun ws hws => ?_) (by rw [hw]; exact hsub)
    (by rw [hw]; exact hsub) (by rw [hw]; rfl)
    (by rw [hw]; exact fun g hg => List.mem_cons_of_mem _ hg) (fun j ws hin => ?_)
    fun t' ids' a gs' sigs' hw' => by cases hw'
  · rw [ho] at ho₁
    exact Option.some.inj ho₁ ▸ hversion
  · rcases hm.sources o ho hv ws hws with ⟨ws', hws', hl⟩ | ⟨id, hid, ws', hws', hl⟩
    · exact hl ▸ h.sound t o ho ws' hws'
    · exact hl ▸ (h.guarded id (Inv.active_of_mem hw hid) ws' hws').covered
  · by_cases htt : ws.topoNamespace = t
    · rcases hm.complete o ho hv j ws hin htt with hmem | hj | hj | hj
      · exact .inr (.inr ⟨o', by rw [htt]; exact AList.lookup_insert _, hmem⟩)
      · exact .inl hj
      · cases hj
      · exact .inr (.inl hj)
    · rcases h.complete j ws hin with hj | ⟨o₁, ho₁, hmem⟩
      · rcases mem_outstanding.mp hj with hj | hj
        · exact .inl hj
        · have hj' : j ∈ ids ++ gs.flatMap Prod.snd := by simpa [hw, heldBy, groupsOf] using hj
          rcases List.mem_append.mp hj' with hj | hj
          · obtain ⟨ws', hws', ht'⟩ := h.grouped (t, ids) (by rw [hw]; exact List.mem_cons_self)
              j hj
            rw [hin.stat] at hws'
            obtain rfl := Option.some.inj hws'
            exact absurd ht' htt
          · exact .inr (.inl hj)
      · exact .inr (.inr ⟨o₁, by rw [AList.lookup_insert_ne htt]; exact ho₁, hmem⟩)

end Attempt

lemma Inv.writing (h : Inv L s) {t : String} {ids : List ℕ} {a : Attempt}
    {gs : List (String × List ℕ)} {sigs : List ℕ} (hw : s.worker = .writing t ids a gs sigs)
    (hs : s.work = some s') : Inv L s' := by
  have ha := h.attempt t ids a gs sigs hw
  simp only [St.work, hw, Option.bind_eq_bind, Option.bind_eq_some_iff] at hs
  obtain ⟨⟨next, written⟩, hstep, hs⟩ := hs
  obtain rfl := Option.some.inj hs
  cases a with
  | start =>
    simp only [St.attempt, Option.bind_eq_bind, Option.bind_eq_some_iff] at hstep
    obtain ⟨id, hid, w, hobj, hstep⟩ := hstep
    cases hstep
    exact h.attempted hw (h.firstOk hw (List.mem_of_mem_head? hid) hobj)
  | get first =>
    simp only [St.attempt] at hstep
    split at hstep
    · next o ho =>
      cases hstep
      exact h.attempted hw (h.merged hw ho)
    · next hnone =>
      cases hstep
      exact h.attempted hw ⟨ha, hnone⟩
  | create first =>
    simp only [St.attempt, ha.2] at hstep
    cases hstep
    exact h.create hw
  | check v items todo =>
    cases todo with
    | nil =>
      simp only [St.attempt, Option.bind_eq_bind, Option.bind_eq_some_iff] at hstep
      obtain ⟨o, ho, hstep⟩ := hstep
      split at hstep
      · next o' hu =>
        cases hstep
        exact h.commit hw ho hu
      · cases hstep
        exact h.attempted hw trivial
    | cons id todo =>
      simp only [St.attempt] at hstep
      split at hstep
      · cases hstep
        exact h.attempted hw ha
      · next hp =>
        cases hstep
        exact h.attempted hw (Merged.skip ha (by simpa using hp))
  | read v items id todo =>
    simp only [St.attempt, Option.bind_eq_bind, Option.bind_eq_some_iff] at hstep
    obtain ⟨w, hobj, hstep⟩ := hstep
    cases hstep
    exact h.attempted hw (h.merge hw ha hobj)

lemma Inv.work (h : Inv L s) (hs : s.work = some s') : Inv L s' := by
  cases hw : s.worker with
  | idle => exact h.idle hw hs
  | draining updates signals => exact h.draining hw hs
  | filtering todo active signals =>
    cases todo with
    | nil =>
      simp only [St.work, hw] at hs
      obtain rfl := Option.some.inj hs
      exact h.group hw
    | cons id todo =>
      simp only [St.work, hw] at hs
      obtain rfl := Option.some.inj hs
      exact h.filtering hw
  | grouping groups signals =>
    cases groups with
    | nil =>
      simp only [St.work, hw] at hs
      obtain rfl := Option.some.inj hs
      exact h.signal hw
    | cons g groups =>
      simp only [St.work, hw] at hs
      cases hs
  | writing t ids a gs sigs => exact h.writing hw hs

end Kne.WireStore
