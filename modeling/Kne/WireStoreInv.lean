import Kne.WireStoreView

/-!
What holds at every moment between the wires, the queue and the store.

A wire in the map is stored with the status it has, or the worker has still to come to it. An item
in the store has a wire, or is about to be deleted. What the worker holds may have left the map
since it looked; then a removal is still going to wait for it, or the wire that took its place is
still going to be stored.
-/

namespace Kne.WireStore

open Kne.WireModel Kne.WireTables Kne.KeyedLists

/-! ### What is left to do -/

/-- The groups that the worker has still to write. -/
def groupsOf : Worker → List (String × List ℕ)
  | .grouping groups _ => groups
  | .writing topoNs ids _ groups _ => (topoNs, ids) :: groups
  | _ => []

/-- The wires that the worker has found in the wire map when it began the batch. -/
def activeOf : Worker → List ℕ
  | .filtering _ active _ => active
  | w => (groupsOf w).flatMap Prod.snd

/-- The wires that the worker has taken out of the queue and has not yet dealt with. -/
def heldBy : Worker → List ℕ
  | .draining updates _ => updates
  | .filtering todo active _ => todo ++ active
  | w => (groupsOf w).flatMap Prod.snd

def signalsOf : Worker → List ℕ
  | .idle => []
  | .draining _ signals | .filtering _ _ signals | .grouping _ signals | .writing _ _ _ _ signals =>
    signals

def queued (s : St) : List ℕ :=
  s.queue.filterMap fun
    | .status id => some id
    | .flush _ => none

/-- Wires that the worker has still to come to. -/
def waiting (s : St) : List ℕ := s.spawned ++ queued s

def outstanding (s : St) : List ℕ := waiting s ++ heldBy s.worker

def AtRest (s : St) : Prop :=
  s.spawned = [] ∧ s.queue = [] ∧ s.worker = .idle ∧ s.removals = []

/-- The wire of the removal may be in the wire map. -/
def Mapped (r : Removal) : Prop :=
  r.inMem = true ∧ match r.stage with
    | .stop | .close | .delete => True
    | _ => False

/-- The removal has still to wait for the batch that the worker is at. -/
def Early (closed : List ℕ) (r : Removal) : Prop :=
  match r.stage with
  | .wait t => t ∉ closed
  | .get | .write _ _ => False
  | _ => True

/-- There is a wire for the link. -/
def Linked (d : Daemon) (l : String × ℤ) : Prop := ∃ id ws, InMap d id ws ∧ ws.link = l

/-- There is a wire for the link, or it is being removed. -/
def Covered (s : St) (l : String × ℤ) : Prop :=
  Linked s.daemon l ∨ ∃ r ∈ s.removals, ∃ ws, stat s.daemon r.id = some ws ∧ ws.link = l

/-- There is a wire for the link, or a removal of it that will wait for the worker. -/
def Guarded (s : St) (l : String × ℤ) : Prop :=
  Linked s.daemon l ∨
    ∃ r ∈ s.removals, Early s.closed r ∧ ∃ ws, stat s.daemon r.id = some ws ∧ ws.link = l

lemma Guarded.covered {s : St} {l : String × ℤ} (h : Guarded s l) : Covered s l := by
  rcases h with h | ⟨r, hr, -, hl⟩
  · exact .inl h
  · exact .inr ⟨r, hr, hl⟩

/-! ### The invariant -/

/-- Items of a topology, one for each end. -/
structure GoodItems (L : Layout) (topoNs : String) (items : List GWireStatus) : Prop where
  distinct : Distinct GWireStatus.itemKey items
  planned : ∀ ws ∈ items, ws.topoNamespace = topoNs ∧ Planned L ws

/-- What the worker has made of an object: unless the object has changed since, the items are those
of the object and of wires of the group, and they are right for all wires but those still to
come. -/
structure Merged (L : Layout) (s : St) (topoNs : String) (ids rest : List ℕ) (version : ℕ)
    (items : List GWireStatus) (todo : List ℕ) : Prop where
  members : ∀ id ∈ todo, id ∈ ids
  good : GoodItems L topoNs items
  current : ∃ o, s.store.lookup topoNs = some o ∧ version ≤ o.version
  sources : ∀ o, s.store.lookup topoNs = some o → o.version = version → ∀ ws ∈ items,
    (∃ ws' ∈ o.items, ws'.link = ws.link) ∨
      ∃ id ∈ ids, ∃ ws', stat s.daemon id = some ws' ∧ ws'.link = ws.link
  complete : ∀ o, s.store.lookup topoNs = some o → o.version = version → ∀ id ws,
    InMap s.daemon id ws → ws.topoNamespace = topoNs →
    ws ∈ items ∨ id ∈ waiting s ∨ id ∈ todo ∨ id ∈ rest

/-- The status that was read first is that of an end of the group. -/
def FirstOk (L : Layout) (s : St) (topoNs : String) (ids : List ℕ) (first : GWireStatus) : Prop :=
  Planned L first ∧ first.topoNamespace = topoNs ∧
    ∃ id ∈ ids, ∃ ws, stat s.daemon id = some ws ∧ ws.link = first.link

def AttemptOk (L : Layout) (s : St) (topoNs : String) (ids rest : List ℕ) : Attempt → Prop
  | .start => True
  | .get first => FirstOk L s topoNs ids first
  | .create first => FirstOk L s topoNs ids first ∧ s.store.lookup topoNs = none
  | .check version items todo => Merged L s topoNs ids rest version items todo
  | .read version items id todo => Merged L s topoNs ids rest version items (id :: todo)

/-- What a removal is going to write is what it has read, without its link. -/
def DeletionOk (d : Daemon) (store : AList (fun _ : String => Obj)) (r : Removal) : Prop :=
  ∀ version items, r.stage = .write version items → ∀ ws, stat d r.id = some ws →
    ∃ o, store.lookup ws.topoNamespace = some o ∧ version ≤ o.version ∧
      (o.version = version → items = o.items.filter fun ws' => ws'.linkId ≠ ws.linkId)

structure Inv (L : Layout) (s : St) : Prop where
  tables : Tables L s.daemon
  /-- Whatever is stored under the key of a wire that waits is stored for that wire. -/
  own : ∀ id ∈ outstanding s, ∃ ws, stat s.daemon id = some ws ∧
    ∀ j, s.daemon.wires.lookup ws.key = some j → j = id
  removing : ∀ r ∈ s.removals, ∃ ws, stat s.daemon r.id = some ws ∧
    ∀ j ws', InMap s.daemon j ws' → ws'.link = ws.link → j = r.id ∧ Mapped r
  guarded : ∀ id ∈ activeOf s.worker, ∀ ws, stat s.daemon id = some ws → Guarded s ws.link
  /-- A wire that has taken the place of one the worker holds waits to be stored. -/
  newer : ∀ id ∈ activeOf s.worker, ∀ ws, stat s.daemon id = some ws → ∀ j ws',
    InMap s.daemon j ws' → ws'.link = ws.link → j = id ∨ j ∈ waiting s
  tickets : ∀ t, t ∈ s.closed ∨ t ∈ signalsOf s.worker ∨ Entry.flush t ∈ s.queue → t < s.tickets
  good : ∀ t o, s.store.lookup t = some o → GoodItems L t o.items
  sound : ∀ t o, s.store.lookup t = some o → ∀ ws ∈ o.items, Covered s ws.link
  complete : ∀ id ws, InMap s.daemon id ws → id ∈ outstanding s ∨
    ∃ o, s.store.lookup ws.topoNamespace = some o ∧ ws ∈ o.items
  grouped : ∀ g ∈ groupsOf s.worker, ∀ id ∈ g.2, ∃ ws, stat s.daemon id = some ws ∧
    ws.topoNamespace = g.1
  attempt : ∀ t ids a gs sigs, s.worker = .writing t ids a gs sigs →
    AttemptOk L s t ids (gs.flatMap Prod.snd) a
  deletion : ∀ r ∈ s.removals, DeletionOk s.daemon s.store r

lemma inv_init (L : Layout) : Inv L {} where
  tables := ⟨wf_empty, fun _ _ h => by cases h⟩
  own _ h := by cases h
  removing _ h := by cases h
  guarded _ h := by cases h
  newer _ h := by cases h
  tickets _ h := by simp [signalsOf] at h
  good _ _ h := by simp at h
  sound _ _ h := by simp at h
  complete _ _ h := by cases h.stat
  grouped _ h := by cases h
  attempt _ _ _ _ _ h := by cases h
  deletion _ h := by cases h

/-! ### Steps of the daemon -/

variable {L : Layout} {s s' : St}

lemma mem_waiting {id : ℕ} : id ∈ waiting s ↔ id ∈ s.spawned ∨ id ∈ queued s := List.mem_append

lemma mem_outstanding {id : ℕ} :
    id ∈ outstanding s ↔ id ∈ waiting s ∨ id ∈ heldBy s.worker := List.mem_append

/-- What happens to the wires and the removals, while the queue, the worker and the store stay. A
wire in the map is going to be stored or is unchanged, and when a wire leaves the map there is
another one for its link, or a removal. -/
structure Moved (s s' : St) : Prop where
  queue : s'.queue = s.queue
  worker : s'.worker = s.worker
  tickets : s'.tickets = s.tickets
  closed : s'.closed = s.closed
  store : s'.store = s.store
  kept : Kept s.daemon s'.daemon
  spawned : ∀ id ∈ s.spawned, id ∈ s'.spawned
  entries : ∀ id ws, InMap s'.daemon id ws → id ∈ s'.spawned ∨ InMap s.daemon id ws
  linked : ∀ id ws, InMap s.daemon id ws → Guarded s' ws.link
  removals : ∀ r ∈ s.removals, ∃ r' ∈ s'.removals, r'.id = r.id ∧
    (Early s.closed r → Early s.closed r')
  writes : ∀ r ∈ s'.removals, r ∈ s.removals ∨ DeletionOk s'.daemon s'.store r

namespace Moved

lemma waiting (h : Moved s s') {id : ℕ} (hid : id ∈ waiting s) : id ∈ WireStore.waiting s' := by
  rw [mem_waiting, queued, h.queue] at *
  exact hid.imp_left (h.spawned id)

lemma stat (h : Moved s s') {id : ℕ} {ws' : GWireStatus}
    (hs : ∃ ws, WireStore.stat s.daemon id = some ws)
    (hs' : WireStore.stat s'.daemon id = some ws') :
    ∃ ws, WireStore.stat s.daemon id = some ws ∧ ws'.key = ws.key ∧ ws'.link = ws.link := by
  obtain ⟨ws, hws⟩ := hs
  obtain ⟨v, hv, hkey, hlink⟩ := h.kept id ws hws
  rw [hs'] at hv
  obtain rfl := Option.some.inj hv
  exact ⟨ws, hws, hkey, hlink⟩

lemma guarded (h : Moved s s') {l : String × ℤ} (hl : Guarded s l) : Guarded s' l := by
  rcases hl with ⟨id, ws, hin, rfl⟩ | ⟨r, hr, hearly, ws, hws, rfl⟩
  · exact h.linked id ws hin
  · obtain ⟨r', hr', hid, hearly'⟩ := h.removals r hr
    obtain ⟨ws', hws', -, hlink⟩ := h.kept r.id ws hws
    exact .inr ⟨r', hr', by rw [h.closed]; exact hearly' hearly, ws',
      by rw [hid]; exact hws', hlink⟩

lemma covered (h : Moved s s') {l : String × ℤ} (hl : Covered s l) : Covered s' l := by
  rcases hl with ⟨id, ws, hin, rfl⟩ | ⟨r, hr, ws, hws, rfl⟩
  · exact (h.linked id ws hin).covered
  · obtain ⟨r', hr', hid, -⟩ := h.removals r hr
    obtain ⟨ws', hws', -, hlink⟩ := h.kept r.id ws hws
    exact .inr ⟨r', hr', ws', by rw [hid]; exact hws', hlink⟩

end Moved

lemma held_of_active {w : Worker} {id : ℕ} (h : id ∈ activeOf w) : id ∈ heldBy w := by
  cases w with
  | filtering todo active signals => exact List.mem_append_right todo h
  | idle | draining | grouping | writing => simp_all [activeOf, heldBy, groupsOf]

lemma Inv.stat_of_active (h : Inv L s) {id : ℕ} (hid : id ∈ activeOf s.worker) :
    ∃ ws, stat s.daemon id = some ws := by
  obtain ⟨ws, hws, -⟩ := h.own id (mem_outstanding.mpr (.inr (held_of_active hid)))
  exact ⟨ws, hws⟩

lemma FirstOk.moved {t : String} {ids : List ℕ} {first : GWireStatus}
    (h : FirstOk L s t ids first) (hm : Moved s s') : FirstOk L s' t ids first := by
  obtain ⟨hp, ht, id, hid, ws, hws, hl⟩ := h
  obtain ⟨ws', hws', -, hl'⟩ := hm.kept id ws hws
  exact ⟨hp, ht, id, hid, ws', hws', hl'.trans hl⟩

lemma Merged.moved {t : String} {ids rest todo : List ℕ} {v : ℕ} {items : List GWireStatus}
    (h : Merged L s t ids rest v items todo) (hm : Moved s s') :
    Merged L s' t ids rest v items todo where
  members := h.members
  good := h.good
  current := by rw [hm.store]; exact h.current
  sources o ho hv ws hws := by
    rw [hm.store] at ho
    refine (h.sources o ho hv ws hws).imp_right ?_
    rintro ⟨id, hid, ws', hws', hl⟩
    obtain ⟨ws'', hws'', -, hl'⟩ := hm.kept id ws' hws'
    exact ⟨id, hid, ws'', hws'', hl'.trans hl⟩
  complete o ho hv id ws hin ht := by
    rw [hm.store] at ho
    rcases hm.entries id ws hin with hid | hin
    · exact .inr (.inl (mem_waiting.mpr (.inl hid)))
    · exact (h.complete o ho hv id ws hin ht).imp_right fun hrest => hrest.imp_left hm.waiting

/-- The invariant is kept by whatever happens to wires and removals, as long as each wire that waits
has its key for itself and no removal has a new wire against it. -/
lemma Inv.moved (h : Inv L s) (hm : Moved s s') (htables : Tables L s'.daemon)
    (hown : ∀ id ∈ outstanding s', ∃ ws, stat s'.daemon id = some ws ∧
      ∀ j, s'.daemon.wires.lookup ws.key = some j → j = id)
    (hremoving : ∀ r ∈ s'.removals, ∃ ws, stat s'.daemon r.id = some ws ∧
      ∀ j ws', InMap s'.daemon j ws' → ws'.link = ws.link → j = r.id ∧ Mapped r) : Inv L s' where
  tables := htables
  own := hown
  removing := hremoving
  guarded id hid ws hws := by
    rw [hm.worker] at hid
    obtain ⟨ws', hws', -, hl⟩ := hm.stat (h.stat_of_active hid) hws
    rw [hl]
    exact hm.guarded (h.guarded id hid ws' hws')
  newer id hid ws hws j ws' hin hl := by
    rw [hm.worker] at hid
    obtain ⟨v, hv, -, hlv⟩ := hm.stat (h.stat_of_active hid) hws
    rcases hm.entries j ws' hin with hj | hin
    · exact .inr (mem_waiting.mpr (.inl hj))
    · exact (h.newer id hid v hv j ws' hin (hl.trans hlv)).imp_right hm.waiting
  tickets t ht := by
    rw [hm.tickets]
    rw [hm.closed, hm.worker, hm.queue] at ht
    exact h.tickets t ht
  good t o ho := h.good t o (hm.store ▸ ho)
  sound t o ho ws hws := hm.covered (h.sound t o (hm.store ▸ ho) ws hws)
  complete id ws hin := by
    rw [mem_outstanding, hm.worker, hm.store]
    rcases hm.entries id ws hin with hid | hin
    · exact .inl (.inl (mem_waiting.mpr (.inl hid)))
    · exact (h.complete id ws hin).imp_left fun hid => (mem_outstanding.mp hid).imp_left hm.waiting
  grouped g hg id hid := by
    rw [hm.worker] at hg
    obtain ⟨ws, hws, ht⟩ := h.grouped g hg id hid
    obtain ⟨ws', hws', -, hl⟩ := hm.kept id ws hws
    exact ⟨ws', hws', (congrArg Prod.fst hl).trans ht⟩
  attempt t ids a gs sigs hw := by
    have ha := h.attempt t ids a gs sigs (hm.worker ▸ hw)
    cases a with
    | start => trivial
    | get first => exact FirstOk.moved ha hm
    | create first => exact ⟨ha.1.moved hm, by rw [hm.store]; exact ha.2⟩
    | check version items todo => exact Merged.moved ha hm
    | read version items id todo => exact Merged.moved ha hm
  deletion r hr := by
    rcases hm.writes r hr with hr' | hok
    · intro v items hstage ws hws
      obtain ⟨ws₀, hws₀, -⟩ := h.removing r hr'
      obtain ⟨ws', hws', -, hl⟩ := hm.stat ⟨ws₀, hws₀⟩ hws
      have ht : ws.topoNamespace = ws'.topoNamespace := congrArg Prod.fst hl
      have hid : ws.linkId = ws'.linkId := congrArg Prod.snd hl
      rw [hm.store, ht, hid]
      exact h.deletion r hr' v items hstage ws' hws'
    · exact hok

/-- What `Inv.removing` says of a removal. -/
def RemovingOk (d : Daemon) (r : Removal) : Prop :=
  ∃ ws, stat d r.id = some ws ∧
    ∀ j ws', InMap d j ws' → ws'.link = ws.link → j = r.id ∧ Mapped r

/-- A removal goes on: it still waits for the worker if it did. -/
structure Advance (closed : List ℕ) (r r' : Removal) : Prop where
  id : r'.id = r.id
  early : Early closed r → Early closed r'

lemma Advance.keep {r r' : Removal} (h : Advance s.closed r r') (x : Removal)
    (hx : x ∈ s.removals) : ∃ x' ∈ s.removals.erase r ++ [r'], x'.id = x.id ∧
      (Early s.closed x → Early s.closed x') := by
  by_cases hxr : x = r
  · subst hxr
    exact ⟨r', by simp, h.id, h.early⟩
  · exact ⟨x, by simp [List.mem_erase_of_ne hxr, hx], rfl, fun hearly => hearly⟩

lemma Inv.still (h : Inv L s) {d : Daemon} {rs : List Removal} (hwf : Wf d)
    (hstat : ∀ id, stat d id = stat s.daemon id) (hwires : d.wires = s.daemon.wires)
    (hkeep : ∀ r ∈ s.removals, ∃ r' ∈ rs, r'.id = r.id ∧ (Early s.closed r → Early s.closed r'))
    (hnew : ∀ r ∈ rs, r ∈ s.removals ∨ DeletionOk d s.store r ∧ RemovingOk s.daemon r) :
    Inv L { s with daemon := d, removals := rs } := by
  have hin : ∀ id ws, InMap d id ws ↔ InMap s.daemon id ws := fun id ws =>
    ⟨fun hi => ⟨hwires ▸ hi.entry, hstat id ▸ hi.stat⟩,
      fun hi => ⟨hwires ▸ hi.entry, (hstat id).trans hi.stat⟩⟩
  refine h.moved ⟨rfl, rfl, rfl, rfl, rfl, fun id ws hws => ⟨ws, (hstat id).trans hws, rfl, rfl⟩,
    fun _ hid => hid, fun id ws hi => .inr ((hin id ws).mp hi),
    fun id ws hi => .inl ⟨id, ws, (hin id ws).mpr hi, rfl⟩, hkeep,
    fun r hr => (hnew r hr).imp_right And.left⟩
    ⟨hwf, fun id ws hws => h.tables.planned id ws (hstat id ▸ hws)⟩ (fun id hid => ?_)
    fun r hr => ?_
  · obtain ⟨ws, hws, hown⟩ := h.own id hid
    exact ⟨ws, (hstat id).trans hws, fun j hj => hown j (hwires ▸ hj)⟩
  · have hok : RemovingOk s.daemon r := (hnew r hr).elim (h.removing r) fun hr => hr.2
    obtain ⟨ws, hws, hsame⟩ := hok
    exact ⟨ws, (hstat r.id).trans hws, fun j ws' hj => hsame j ws' ((hin j ws').mp hj)⟩

lemma Inv.advance (h : Inv L s) {d : Daemon} {r r' : Removal} (hr : r ∈ s.removals) (hwf : Wf d)
    (hstat : ∀ id, stat d id = stat s.daemon id) (hwires : d.wires = s.daemon.wires)
    (ha : Advance s.closed r r') (hmapped : Mapped r → Mapped r')
    (hdel : DeletionOk d s.store r') : Inv L ({ s with daemon := d }.replace r [r']) := by
  refine h.still hwf hstat hwires ha.keep fun x hx => ?_
  rcases List.mem_append.mp hx with hx | hx
  · exact .inl (List.mem_of_mem_erase hx)
  · obtain rfl := List.mem_singleton.mp hx
    obtain ⟨ws, hws, hsame⟩ := h.removing r hr
    refine .inr ⟨hdel, ws, by rw [ha.id]; exact hws, fun j ws' hj hl => ?_⟩
    obtain ⟨hid, hm⟩ := hsame j ws' hj hl
    exact ⟨hid.trans ha.id.symm, hmapped hm⟩

lemma stat_stop (d : Daemon) (id j : ℕ) : stat (d.stop id) j = stat d j := by
  rw [stat, stat, Daemon.stop, objs_modify]
  split
  · next hj =>
    subst hj
    cases d.objs j <;> rfl
  · rfl

lemma Inv.update (h : Inv L s) {id peerIntfId : ℕ} {peerNodeIP : String}
    (hid : (s.daemon.objs id).isSome)
    (hown : ∀ w ∈ s.daemon.objs id, ∀ j ∈ s.daemon.getWireByUID w.key, j = id) :
    Inv L { s with
      daemon := s.daemon.updateWire id peerIntfId peerNodeIP
      spawned := s.spawned ++ [id] } := by
  obtain ⟨hwf, hgrows⟩ := h.tables.wf.update id peerIntfId peerNodeIP
  have hkept := kept_of_grows hgrows
  have hother : ∀ j, j ≠ id →
      stat (s.daemon.updateWire id peerIntfId peerNodeIP) j = stat s.daemon j := by
    intro j hj
    rw [stat, stat, Daemon.updateWire, objs_modify, if_neg hj]
  -- a wire has the key and the link that it had
  have hback : ∀ j ws', stat (s.daemon.updateWire id peerIntfId peerNodeIP) j = some ws' →
      ∃ ws, stat s.daemon j = some ws ∧ ws'.key = ws.key ∧ ws'.link = ws.link := by
    intro j ws' hws'
    obtain ⟨w', hw', rfl⟩ := stat_eq_some.mp hws'
    obtain ⟨w, hw, hs⟩ := sameEnd_of_modify (sameEnd_update peerIntfId peerNodeIP) hw'
    exact ⟨createWireStatus w, stat_of_objs hw, hs.key, Prod.ext hs.topo hs.uid⟩
  refine h.moved ⟨rfl, rfl, rfl, rfl, rfl, hkept, fun j hj => List.mem_append_left _ hj, ?_, ?_,
    fun r hr => ⟨r, hr, rfl, fun he => he⟩, fun r hr => .inl hr⟩ ⟨hwf, ?_⟩ ?_ ?_
  · intro j ws hj
    by_cases hji : j = id
    · exact .inl (List.mem_append_right _ (List.mem_singleton.mpr hji))
    · exact .inr ⟨hj.entry, (hother j hji) ▸ hj.stat⟩
  · intro j ws hj
    obtain ⟨ws', hws', hkey, hlink⟩ := hkept j ws hj.stat
    exact .inl ⟨j, ws', ⟨by rw [hkey]; exact hj.entry, hws'⟩, hlink⟩
  · intro j ws' hws'
    obtain ⟨w', hw', rfl⟩ := stat_eq_some.mp hws'
    obtain ⟨w, hw, hs⟩ := sameEnd_of_modify (sameEnd_update peerIntfId peerNodeIP) hw'
    have hp := h.tables.planned j _ (stat_of_objs hw)
    refine ⟨?_, ?_⟩
    · change L.owner w'.localPodNetNS = (w'.topoNamespace, w'.localPodName)
      rw [hs.netNS, hs.topo, hs.pod]
      exact hp.owner
    · change L.links w'.topoNamespace w'.uid = some (w'.localPodName, w'.localPodIfaceName)
      rw [hs.topo, hs.uid, hs.pod, hs.iface]
      exact hp.link
  · intro j hj
    have hold : ∃ ws, stat s.daemon j = some ws ∧
        ∀ i, s.daemon.wires.lookup ws.key = some i → i = j := by
      rcases mem_outstanding.mp hj with hj | hj
      · rcases mem_waiting.mp hj with hj | hj
        · rcases List.mem_append.mp hj with hj | hj
          · exact h.own j (mem_outstanding.mpr (.inl (mem_waiting.mpr (.inl hj))))
          · obtain rfl := List.mem_singleton.mp hj
            obtain ⟨w, hw⟩ := Option.isSome_iff_exists.mp hid
            exact ⟨createWireStatus w, stat_of_objs hw, fun i hi => hown w hw i hi⟩
        · exact h.own j (mem_outstanding.mpr (.inl (mem_waiting.mpr (.inr hj))))
      · exact h.own j (mem_outstanding.mpr (.inr hj))
    obtain ⟨ws, hws, hkey⟩ := hold
    obtain ⟨ws', hws', hk, -⟩ := hkept j ws hws
    exact ⟨ws', hws', fun i hi => hkey i (by rw [← hk]; exact hi)⟩
  · intro r hr
    obtain ⟨ws, hws, hsame⟩ := h.removing r hr
    obtain ⟨ws', hws', -, hl⟩ := hkept r.id ws hws
    refine ⟨ws', hws', fun j wsj hj hlj => ?_⟩
    obtain ⟨wsj₀, hwsj₀, hkj, hlj₀⟩ := hback j wsj hj.stat
    have hin : InMap s.daemon j wsj₀ := ⟨by rw [← hkj]; exact hj.entry, hwsj₀⟩
    exact hsame j wsj₀ hin (by rw [← hlj₀, hlj, hl])

lemma Inv.made (h : Inv L s) {d : Daemon} {id : ℕ} {ws : GWireStatus} (hwf : Wf d)
    (hm : Made s.daemon d id ws) (hp : Planned L ws) (hnone : s.daemon.wires.lookup ws.key = none)
    (hremovals : ∀ r ∈ s.removals, ∀ ws', stat s.daemon r.id = some ws' → ws'.link ≠ ws.link)
    (hwaiting : ∀ j ∈ outstanding s, ∀ ws', stat s.daemon j = some ws' → ws'.key ≠ ws.key) :
    Inv L { s with daemon := d, spawned := s.spawned ++ [id] } := by
  have hne : ∀ j ws', stat s.daemon j = some ws' → j ≠ id := by
    rintro j ws' hws' rfl
    rw [hm.fresh] at hws'
    cases hws'
  have hkept : ∀ j ws', stat s.daemon j = some ws' → stat d j = some ws' := fun j ws' hws' =>
    (hm.others j (hne j ws' hws')).trans hws'
  have hentry : ∀ j ws', j ≠ id → InMap d j ws' → InMap s.daemon j ws' := by
    intro j ws' hj hin
    refine ⟨hm.older _ j (fun hk => hj ?_) hin.entry, (hm.others j hj).symm.trans hin.stat⟩
    have := hin.entry
    rw [hk, hm.entry] at this
    exact (Option.some.inj this).symm
  refine h.moved ⟨rfl, rfl, rfl, rfl, rfl, fun j ws' hws' => ⟨ws', hkept j ws' hws', rfl, rfl⟩,
    fun j hj => List.mem_append_left _ hj, ?_, ?_, fun r hr => ⟨r, hr, rfl, fun he => he⟩,
    fun r hr => .inl hr⟩ ⟨hwf, ?_⟩ ?_ ?_
  · intro j ws' hin
    by_cases hj : j = id
    · exact .inl (List.mem_append_right _ (List.mem_singleton.mpr hj))
    · exact .inr (hentry j ws' hj hin)
  · intro j ws' hin
    by_cases hl : ws'.link = ws.link
    · exact .inl ⟨id, ws, ⟨hm.entry, hm.stat⟩, hl.symm⟩
    · refine .inl ⟨j, ws', hm.stay j ws' hin hl fun hk => ?_, rfl⟩
      have := hin.entry
      rw [hk, hnone] at this
      cases this
  · intro j ws' hws'
    by_cases hj : j = id
    · subst hj
      rw [hm.stat] at hws'
      exact Option.some.inj hws' ▸ hp
    · exact h.tables.planned j ws' ((hm.others j hj).symm.trans hws')
  · intro j hj
    by_cases hji : j = id
    · subst hji
      refine ⟨ws, hm.stat, fun i hi => ?_⟩
      change d.wires.lookup ws.key = some i at hi
      rw [hm.entry] at hi
      exact (Option.some.inj hi).symm
    · have hold : j ∈ outstanding s := by
        simpa [outstanding, waiting, queued, hji] using hj
      obtain ⟨ws', hws', hown⟩ := h.own j hold
      exact ⟨ws', hkept j ws' hws', fun i hi =>
        hown i (hm.older _ i (hwaiting j hold ws' hws') hi)⟩
  · intro r hr
    obtain ⟨ws', hws', hsame⟩ := h.removing r hr
    refine ⟨ws', hkept r.id ws' hws', fun j wsj hin hl => ?_⟩
    by_cases hj : j = id
    · subst hj
      have hwsj := hin.stat
      change stat d j = some wsj at hwsj
      rw [hm.stat] at hwsj
      exact absurd ((Option.some.inj hwsj) ▸ hl.symm) (hremovals r hr ws' hws')
    · exact hsame j wsj (hentry j wsj hj hin) hl

lemma Inv.erased (h : Inv L s) {d : Daemon} {k : LinkKey} {rs : List Removal} (hwf : Wf d)
    (hstat : ∀ id, stat d id = stat s.daemon id) (hwires : d.wires = s.daemon.wires.erase k)
    (hkeep : ∀ r ∈ s.removals, ∃ r' ∈ rs, r'.id = r.id ∧ (Early s.closed r → Early s.closed r'))
    (hcover : ∀ id ws, InMap s.daemon id ws → ws.key = k → ∃ r ∈ rs, Early s.closed r ∧
      ∃ ws', stat s.daemon r.id = some ws' ∧ ws'.link = ws.link)
    (hnew : ∀ r ∈ rs, r ∈ s.removals ∨ DeletionOk d s.store r ∧ RemovingOk d r) :
    Inv L { s with daemon := d, removals := rs } := by
  have hin : ∀ id ws, InMap d id ws → InMap s.daemon id ws := fun id ws hi =>
    ⟨(lookup_erase (hwires ▸ hi.entry)).2, hstat id ▸ hi.stat⟩
  refine h.moved ⟨rfl, rfl, rfl, rfl, rfl, fun id ws hws => ⟨ws, (hstat id).trans hws, rfl, rfl⟩,
    fun _ hid => hid, fun id ws hi => .inr (hin id ws hi), fun id ws hi => ?_, hkeep,
    fun r hr => (hnew r hr).imp_right And.left⟩
    ⟨hwf, fun id ws hws => h.tables.planned id ws (hstat id ▸ hws)⟩ (fun id hid => ?_)
    fun r hr => ?_
  · by_cases hk : ws.key = k
    · obtain ⟨r, hr, hearly, ws', hws', hl⟩ := hcover id ws hi hk
      exact .inr ⟨r, hr, hearly, ws', (hstat r.id).trans hws', hl⟩
    · refine .inl ⟨id, ws, ⟨?_, (hstat id).trans hi.stat⟩, rfl⟩
      change d.wires.lookup ws.key = some id
      rw [hwires, AList.lookup_erase_ne hk]
      exact hi.entry
  · obtain ⟨ws, hws, hown⟩ := h.own id hid
    exact ⟨ws, (hstat id).trans hws, fun j hj => hown j (lookup_erase (hwires ▸ hj)).2⟩
  · rcases hnew r hr with hr | ⟨-, hok⟩
    · obtain ⟨ws, hws, hsame⟩ := h.removing r hr
      exact ⟨ws, (hstat r.id).trans hws, fun j ws' hj => hsame j ws' (hin j ws' hj)⟩
    · exact hok

lemma not_inMap_erase {d d' : Daemon} {id j : ℕ} {ws ws' : GWireStatus} (hin : InMap d' j ws')
    (hws : stat d id = some ws) (hstat : ∀ id, stat d' id = stat d id)
    (hwires : d'.wires = d.wires.erase ws.key)
    (honly : ∀ j ws', InMap d j ws' → ws'.link = ws.link → j = id) : ws'.link ≠ ws.link := by
  intro hl
  have hentry := hin.entry
  rw [hwires] at hentry
  have hold : InMap d j ws' := ⟨(lookup_erase hentry).2, hstat j ▸ hin.stat⟩
  obtain rfl := honly j ws' hold hl
  have hsame := hold.stat
  rw [hws] at hsame
  exact (lookup_erase hentry).1 (by rw [Option.some.inj hsame])

lemma Inv.extract (h : Inv L s) {k : LinkKey} {id : ℕ} (hk : s.daemon.getWireByUID k = some id) :
    Inv L { s with
      daemon := { s.daemon with wires := s.daemon.wires.erase k }
      removals := s.removals ++ [⟨id, false, .stop⟩] } := by
  obtain ⟨ws, hin, rfl⟩ := h.tables.inMap hk
  refine h.erased (h.tables.wf.erase _) (fun _ => rfl) rfl
    (fun r hr => ⟨r, List.mem_append_left _ hr, rfl, fun he => he⟩) (fun j ws' hj hkey => ?_)
    fun r hr => ?_
  · refine ⟨⟨id, false, .stop⟩, by simp, trivial, ws, hin.stat, ?_⟩
    exact (h.tables.planned j ws' hj.stat).link_of_key (h.tables.planned id ws hin.stat) hkey.symm
  · rcases List.mem_append.mp hr with hr | hr
    · exact .inl hr
    · obtain rfl := List.mem_singleton.mp hr
      refine .inr ⟨by simp [DeletionOk], ws, hin.stat, fun j ws' hj hl => ?_⟩
      exact absurd hl (not_inMap_erase hj hin.stat (fun _ => rfl) rfl
        fun i wsi hi hli => h.tables.single hin hi hli)

lemma Inv.down (h : Inv L s) {k : LinkKey} {id : ℕ} (hk : s.daemon.getWireByUID k = some id) :
    Inv L { s with removals := s.removals ++ [⟨id, true, .stop⟩] } := by
  obtain ⟨ws, hin, rfl⟩ := h.tables.inMap hk
  refine h.still h.tables.wf (fun _ => rfl) rfl
    (fun r hr => ⟨r, List.mem_append_left _ hr, rfl, fun he => he⟩) fun r hr => ?_
  rcases List.mem_append.mp hr with hr | hr
  · exact .inl hr
  · obtain rfl := List.mem_singleton.mp hr
    exact .inr ⟨by simp [DeletionOk], ws, hin.stat, fun j ws' hj hl =>
      ⟨h.tables.single hin hj hl, rfl, trivial⟩⟩

lemma Inv.delete (h : Inv L s) {r : Removal} (hr : r ∈ s.removals) :
    Inv L ({ s with daemon := s.daemon.atomicDelete r.id }.replace r
      [{ r with stage := .flush }]) := by
  obtain ⟨ws, hws, honly⟩ := h.removing r hr
  obtain ⟨w, hw, rfl⟩ := stat_eq_some.mp hws
  have hd : s.daemon.atomicDelete r.id =
      { s.daemon.closeAndRemoveHandle r.id with wires := s.daemon.wires.erase w.key } := by
    simp [Daemon.atomicDelete, hw]
  have hstat : ∀ id, stat (s.daemon.atomicDelete r.id) id = stat s.daemon id := fun _ => by
    rw [hd]; rfl
  have ha : Advance s.closed r { r with stage := .flush } :=
    ⟨rfl, fun _ => trivial⟩
  refine h.erased (h.tables.wf.atomicDelete r.id).1 hstat (k := w.key) (by rw [hd]) ha.keep
    (fun j ws' hj hkey => ?_) fun x hx => ?_
  · refine ⟨{ r with stage := .flush }, by simp, trivial, _, hws, ?_⟩
    exact (h.tables.planned j ws' hj.stat).link_of_key (h.tables.planned r.id _ hws) hkey.symm
  · rcases List.mem_append.mp hx with hx | hx
    · exact .inl (List.mem_of_mem_erase hx)
    · obtain rfl := List.mem_singleton.mp hx
      refine .inr ⟨by simp [DeletionOk], createWireStatus w, ?_, fun j ws' hj hl => ?_⟩
      · rw [hstat]; exact hws
      · exact absurd hl (not_inMap_erase hj hws hstat (by rw [hd]; rfl)
          fun i wsi hi hli => (honly i wsi hi hli).1)

end Kne.WireStore
