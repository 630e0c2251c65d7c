import Kne.ReconcileModel

/-!
What the controller of the meshnet daemon guarantees over whole runs: when nothing is left to do,
the cache holds what the API server holds, and every local pod was last reconciled with the
topologies that the API server now holds for it and for its peers, unless that reconciliation
returned early.

The argument follows the reasons why a pod may be behind: an event about it or about a peer is on
its way, it waits to be enqueued, it is queued, or the worker has still to come to it. No step takes
such a reason away without doing the work or putting another reason in its place.
-/

namespace Kne.ReconcileFresh

open Kne.Backrefs Kne.MeshTopos Kne.Runs Kne.ReconcileModel

variable {nodeIP : String} {s s' : St} {a : Act} {p x : String} {t : Topology}

/-- An event about the resource is still to be handled. -/
def Outstanding (s : St) (k : String) : Prop := ∃ e ∈ s.events, e.key = k

/-! ### The cache and the API server -/

lemma replay_eq_self {es : List CacheOp} {k : String} (h : ∀ e ∈ es, e.key ≠ k)
    (v : Option Topology) : es.foldl (CacheOp.leaves k) v = v := by
  induction es generalizing v with
  | nil => rfl
  | cons e es ih =>
    have he : CacheOp.leaves k v e = v := if_neg (Ne.symm (h e List.mem_cons_self))
    rw [List.foldl_cons, he]
    exact ih (fun e' he' => h e' (List.mem_cons_of_mem e he')) v

lemma replay_congr {es : List CacheOp} {k : String} (h : ∃ e ∈ es, e.key = k)
    (v w : Option Topology) : es.foldl (CacheOp.leaves k) v = es.foldl (CacheOp.leaves k) w := by
  induction es generalizing v w with
  | nil => simp at h
  | cons e es ih =>
    rw [List.foldl_cons, List.foldl_cons]
    by_cases he : k = e.key
    · simp [CacheOp.leaves, he]
    · refine ih ?_ _ _
      obtain ⟨e', he', hk⟩ := h
      rcases List.mem_cons.mp he' with rfl | he'
      · exact absurd hk.symm he
      · exact ⟨e', he', hk⟩

lemma lookup_write (api : Topologies) (op : CacheOp) (k : String) :
    (write api op).lookup k = op.leaves k (api.lookup k) := by
  cases op with
  | put t =>
    by_cases h : k = t.key
    · subst h
      simp [write, CacheOp.leaves, CacheOp.key, CacheOp.value]
    · simp [write, CacheOp.leaves, CacheOp.key, h, AList.lookup_insert_ne h]
  | delete ns name =>
    by_cases h : k = mkKey ns name
    · subst h
      simp [write, CacheOp.leaves, CacheOp.key, CacheOp.value]
    · simp [write, CacheOp.leaves, CacheOp.key, h, AList.lookup_erase_ne h]

@[simp] lemma handle_fst (c : TopologyCache) (op : CacheOp) :
    (handle nodeIP c op).1 = op.apply c := by
  cases op <;> rfl

/-- The index is exact, topologies are cached under their keys, and the events that are still to be
handled lead from the cache to the API server. -/
structure Cached (s : St) : Prop where
  exact : Index.Exact peerKeys s.cache
  keyed : ∀ k t, s.cache.items.lookup k = some t → t.key = k
  sync : ∀ k, s.events.foldl (CacheOp.leaves k) (s.cache.items.lookup k) = s.api.lookup k

namespace Cached

lemma lookup_eq (h : Cached s) (hx : ¬ Outstanding s x) :
    s.cache.items.lookup x = s.api.lookup x := by
  rw [← h.sync x, replay_eq_self]
  intro e he hk
  exact hx ⟨e, he, hk⟩

lemma keyed_apply (h : Cached s) (op : CacheOp) (k : String) (t : Topology)
    (ht : (op.apply s.cache).items.lookup k = some t) : t.key = k := by
  rw [lookup_apply, CacheOp.leaves] at ht
  split at ht
  · next hk =>
    cases op with
    | put u =>
      obtain rfl : u = t := Option.some.inj ht
      exact hk.symm
    | delete ns name => cases ht
  · exact h.keyed k t ht

lemma frame (h : Cached s) (hc : s'.cache = s.cache) (ha : s'.api = s.api)
    (he : s'.events = s.events) : Cached s' := by
  obtain ⟨hexact, hkeyed, hsync⟩ := h
  exact ⟨hc ▸ hexact, hc ▸ hkeyed, by rw [hc, ha, he]; exact hsync⟩

lemma write (h : Cached s) (op : CacheOp) (hc : s'.cache = s.cache)
    (ha : s'.api = ReconcileModel.write s.api op) (he : s'.events = s.events ++ [op]) :
    Cached s' := by
  refine ⟨hc ▸ h.exact, hc ▸ h.keyed, fun k => ?_⟩
  rw [hc, ha, he, List.foldl_append, h.sync k, lookup_write]
  rfl

lemma put (h : Cached s) (hc : s'.cache = s.cache.put t) (ha : s'.api = s.api)
    (he : s'.events = s.events) (hok : s.api.lookup t.key = some t ∨ Outstanding s t.key) :
    Cached s' := by
  refine ⟨hc ▸ h.exact.put _ _, hc ▸ h.keyed_apply (.put t), fun k => ?_⟩
  rw [hc, ha, he, TopologyCache.put, Index.lookup_put, ← h.sync k]
  by_cases hk : k = t.key
  · subst hk
    rw [if_pos rfl]
    by_cases hout : Outstanding s t.key
    · exact replay_congr hout _ _
    · have hcached := h.lookup_eq hout
      rw [hcached, (hok.resolve_right hout)]
  · rw [if_neg hk]

lemma deliver {op : CacheOp} {events : List CacheOp} (h : Cached s)
    (hev : s.events = op :: events) (hc : s'.cache = op.apply s.cache) (ha : s'.api = s.api)
    (he : s'.events = events) : Cached s' := by
  refine ⟨hc ▸ exact_apply h.exact op, hc ▸ h.keyed_apply op, fun k => ?_⟩
  rw [hc, ha, he, lookup_apply, ← h.sync k, hev, List.foldl_cons]

end Cached

/-! ### Who is enqueued by an event -/

lemma mem_affected {c : TopologyCache} {ds : List String} (hp : p ∈ ds) (hslash : '/' ∈ p.toList)
    (ht : c.items.lookup p = some t) (hlocal : isLocal nodeIP t = true) :
    p ∈ affected nodeIP c ds := by
  rw [affected, List.mem_filter]
  refine ⟨hp, ?_⟩
  rw [TopologyCache.get, mkKey_parseKey hslash, ht]
  exact hlocal

lemma self_mem_handle {c : TopologyCache} {op : CacheOp} (ht : op.value = some t)
    (hlocal : isLocal nodeIP t = true) : op.key ∈ (handle nodeIP c op).2 := by
  cases op with
  | put u =>
    obtain rfl : u = t := Option.some.inj ht
    simp [handle, hlocal, CacheOp.key]
  | delete ns name => cases ht

lemma dependent_mem_handle {op : CacheOp} (h : Cached s)
    (ht : (op.apply s.cache).items.lookup p = some t) (hlocal : isLocal nodeIP t = true)
    (hx : op.key ∈ peerKeys t) : p ∈ (handle nodeIP s.cache op).2 := by
  have hslash : '/' ∈ p.toList := by
    rw [← h.keyed_apply op p t ht]
    exact slash_mem_mkKey _ _
  cases op with
  | put u =>
    have hdep : p ∈ (s.cache.put u).getDependents u.ns u.name :=
      ((h.exact.put u.key u).mem _ _).mpr ⟨t, ht, hx⟩
    exact List.mem_append_right _ (mem_affected hdep hslash ht hlocal)
  | delete ns name =>
    have hold : s.cache.items.lookup p = some t := by
      rw [lookup_apply, CacheOp.leaves] at ht
      split at ht
      · cases ht
      · exact ht
    have hdep : p ∈ s.cache.getDependents ns name := (h.exact.mem _ _).mpr ⟨t, hold, hx⟩
    exact mem_affected hdep hslash ht hlocal

/-! ### The queue wakes the worker -/

/-- What is queued keeps a timer, and a timer that has run down leaves a token or has made the
worker drain the queue. -/
structure Awake (q : ReconcileQueue) (w : Worker) : Prop where
  unset : q.timer = .unset → q.pending = [] ∧ q.fullPending = false
  fired : q.timer = .fired → q.notified = true ∨ w = .draining

lemma Awake.arm {q : ReconcileQueue} {w : Worker}
    (h : q.timer = .fired → q.notified = true ∨ w = .draining) : Awake q.arm w := by
  unfold ReconcileQueue.arm
  split
  · exact ⟨nofun, nofun⟩
  · next hq => exact ⟨fun hun => absurd hun hq, h⟩

lemma Awake.worker {q : ReconcileQueue} {w w' : Worker} (h : Awake q w) (hw : w ≠ .draining) :
    Awake q w' :=
  ⟨h.unset, fun hf => .inl ((h.fired hf).resolve_right hw)⟩

/-! ### Why a pod may be behind -/

/-- The pod will be enqueued, is queued, or will be listed for a full pass. -/
def Coming (s : St) (p : String) : Prop :=
  Outstanding s p ∨ p ∈ s.owed ∨ p ∈ s.queue.pending ∨ s.queue.fullPending = true ∨
    s.worker = .listing

/-- The worker has the pod among its tasks. -/
def Queued (w : Worker) (p : String) (t : Topology) : Prop := .key p ∈ w.tasks ∨ .topo t ∈ w.tasks

/-- The worker reconciles `p` and has still to read `x`. -/
def Reading : Worker → String → String → Prop
  | .pod q todo _, p, x => q = p ∧ x ∈ todo
  | _, _, _ => False

/-- What was read of the peer `x` for `p` is what is cached, or there is a reason. -/
def ReadOk (s : St) (p x : String) : Prop :=
  s.seen p x = s.cache.items.lookup x ∨ Outstanding s x ∨ Reading s.worker p x

/-- The pod, whose topology in the cache is `t`, has been reconciled, or there is a reason. -/
def Fresh (s : St) (p : String) (t : Topology) : Prop :=
  s.cut p = true ∨ Coming s p ∨ Queued s.worker p t ∨
    s.own p = some t ∧ ∀ x ∈ peerKeys t, ReadOk s p x

lemma Fresh.mono (h : Fresh s p t) (hcut : s'.cut p = s.cut p) (hcome : Coming s p → Coming s' p)
    (hqueued : Queued s.worker p t → Queued s'.worker p t) (hown : s'.own p = s.own p)
    (hread : ∀ x ∈ peerKeys t, ReadOk s p x → ReadOk s' p x) : Fresh s' p t := by
  rcases h with h | h | h | ⟨ho, hr⟩
  · exact .inl (hcut.trans h)
  · exact .inr (.inl (hcome h))
  · exact .inr (.inr (.inl (hqueued h)))
  · exact .inr (.inr (.inr ⟨hown.trans ho, fun x hx => hread x hx (hr x hx)⟩))

lemma ReadOk.mono (h : ReadOk s p x) (hseen : s'.seen p x = s.seen p x)
    (hlook : s'.cache.items.lookup x = s.cache.items.lookup x)
    (hout : Outstanding s x → Outstanding s' x)
    (hread : Reading s.worker p x → Reading s'.worker p x) : ReadOk s' p x := by
  rcases h with h | h | h
  · exact .inl (by rw [hseen, hlook, h])
  · exact .inr (.inl (hout h))
  · exact .inr (.inr (hread h))

structure Plumbed (nodeIP : String) (s : St) : Prop where
  /-- A topology listed for a full pass is the one in the cache, or the pod comes again. -/
  tasks : ∀ u, .topo u ∈ s.worker.tasks → ∀ t, s.cache.items.lookup u.key = some t →
    isLocal nodeIP t = true → u = t ∨ Coming s u.key
  fresh : ∀ p t, s.cache.items.lookup p = some t → isLocal nodeIP t = true → Fresh s p t

/-- A step of the queue, or of those that write to the API server: the cache and what was read stay,
and no reason goes away. -/
lemma Plumbed.grow (h : Plumbed nodeIP s) (hc : s'.cache = s.cache) (hown : s'.own = s.own)
    (hseen : s'.seen = s.seen) (hcut : s'.cut = s.cut) (htasks : s'.worker.tasks = s.worker.tasks)
    (hread : ∀ p x, Reading s.worker p x → Reading s'.worker p x)
    (hout : ∀ k, Outstanding s k → Outstanding s' k) (hcome : ∀ k, Coming s k → Coming s' k) :
    Plumbed nodeIP s' := by
  refine ⟨fun u hu t ht hl => ?_, fun p t ht hl => ?_⟩
  · rw [htasks] at hu
    rw [hc] at ht
    exact (h.tasks u hu t ht hl).imp_right (hcome _)
  · rw [hc] at ht
    refine (h.fresh p t ht hl).mono (by rw [hcut]) (hcome p) (by simp [Queued, htasks])
      (by rw [hown]) fun x _ hx => ?_
    exact hx.mono (by rw [hseen]) (by rw [hc]) (hout x) (hread p x)

lemma Plumbed.put {u : Topology} (h : Plumbed nodeIP s) (hcached : Cached s)
    (hc : s'.cache = s.cache.put u) (he : s'.events = s.events) (howed : s'.owed = s.owed)
    (hq : s'.queue = s.queue) (hw : s'.worker = s.worker) (hown : s'.own = s.own)
    (hseen : s'.seen = s.seen) (hcut : s'.cut = s.cut)
    (hok : s.api.lookup u.key = some u ∨ Outstanding s u.key) : Plumbed nodeIP s' := by
  have hout : ∀ k, Outstanding s' k ↔ Outstanding s k := fun k => by simp [Outstanding, he]
  have hcome : ∀ k, Coming s' k ↔ Coming s k := fun k => by simp [Coming, hout, howed, hq, hw]
  have hlook : ∀ k, s'.cache.items.lookup k = s.cache.items.lookup k ∨ Outstanding s k := by
    intro k
    rw [hc, TopologyCache.put, Index.lookup_put]
    by_cases hk : k = u.key
    · subst hk
      by_cases ho : Outstanding s u.key
      · exact .inr ho
      · refine .inl ?_
        rw [if_pos rfl, hcached.lookup_eq ho, hok.resolve_right ho]
    · exact .inl (if_neg hk)
  refine ⟨fun v hv t ht hl => ?_, fun p t ht hl => ?_⟩
  · rw [hw] at hv
    rcases hlook v.key with hk | hk
    · rw [hk] at ht
      exact (h.tasks v hv t ht hl).imp_right (hcome _).mpr
    · exact .inr ((hcome _).mpr (.inl hk))
  · rcases hlook p with hk | hk
    · rw [hk] at ht
      refine (h.fresh p t ht hl).mono (by rw [hcut]) (hcome p).mpr (by rw [hw]; exact id)
        (by rw [hown]) fun x _ hx => ?_
      rcases hlook x with hkx | hkx
      · exact hx.mono (by rw [hseen]) hkx (hout x).mpr (by rw [hw]; exact id)
      · exact .inr (.inl ((hout x).mpr hkx))
    · exact .inr (.inl ((hcome p).mpr (.inl hk)))

lemma Plumbed.deliver {op : CacheOp} {events : List CacheOp} (h : Plumbed nodeIP s)
    (hcached : Cached s) (hev : s.events = op :: events) (hnil : s.owed = [])
    (hc : s'.cache = op.apply s.cache) (he : s'.events = events)
    (howed : s'.owed = (handle nodeIP s.cache op).2)
    (hq : s'.queue = s.queue) (hw : s'.worker = s.worker) (hown : s'.own = s.own)
    (hseen : s'.seen = s.seen) (hcut : s'.cut = s.cut) : Plumbed nodeIP s' := by
  have hout : ∀ k, k ≠ op.key → Outstanding s k → Outstanding s' k := by
    rintro k hk ⟨e, hmem, rfl⟩
    rw [hev] at hmem
    rcases List.mem_cons.mp hmem with rfl | hmem
    · exact absurd rfl hk
    · exact ⟨e, he ▸ hmem, rfl⟩
  have hcome : ∀ k, k ≠ op.key → Coming s k → Coming s' k := by
    rintro k hk (h1 | h1 | h1 | h1 | h1)
    · exact .inl (hout k hk h1)
    · rw [hnil] at h1; cases h1
    · exact .inr (.inr (.inl (hq ▸ h1)))
    · exact .inr (.inr (.inr (.inl (hq ▸ h1))))
    · exact .inr (.inr (.inr (.inr (hw ▸ h1))))
  have hlook : ∀ k, k ≠ op.key → s'.cache.items.lookup k = s.cache.items.lookup k := by
    intro k hk
    rw [hc, lookup_apply, CacheOp.leaves, if_neg hk]
  have hself : ∀ t, s'.cache.items.lookup op.key = some t → isLocal nodeIP t = true →
      Coming s' op.key := by
    intro t ht hl
    rw [hc, lookup_apply, CacheOp.leaves, if_pos rfl] at ht
    exact .inr (.inl (howed ▸ self_mem_handle ht hl))
  refine ⟨fun u hu t ht hl => ?_, fun p t ht hl => ?_⟩
  · rw [hw] at hu
    by_cases hk : u.key = op.key
    · rw [hk] at ht ⊢
      exact .inr (hself t ht hl)
    · rw [hlook _ hk] at ht
      exact (h.tasks u hu t ht hl).imp_right (hcome _ hk)
  · by_cases hk : p = op.key
    · subst hk
      exact .inr (.inl (hself t ht hl))
    · by_cases hdep : op.key ∈ peerKeys t
      · refine .inr (.inl (.inr (.inl ?_)))
        rw [howed]
        exact dependent_mem_handle hcached (hc ▸ ht) hl hdep
      · rw [hlook p hk] at ht
        refine (h.fresh p t ht hl).mono (by rw [hcut]) (hcome p hk) (by rw [hw]; exact id)
          (by rw [hown]) fun x hx hr => ?_
        have hxk : x ≠ op.key := ne_of_mem_of_not_mem hx hdep
        exact hr.mono (by rw [hseen]) (hlook x hxk) (hout x hxk) (by rw [hw]; exact id)

/-! ### Steps of the worker -/

lemma Plumbed.drain (h : Plumbed nodeIP s) (hw : s.worker = .draining) :
    Plumbed nodeIP (drained s) := by
  have htasks : ∀ u : Topology, .topo u ∉ (drained s).worker.tasks := by
    intro u
    unfold drained
    dsimp only
    split <;> simp [Worker.tasks]
  refine ⟨fun u hu => absurd hu (htasks u), fun p t ht hl => ?_⟩
  rcases h.fresh p t ht hl with hf | hf | hf | ⟨ho, hr⟩
  · exact .inl hf
  · by_cases hfull : s.queue.fullPending = true
    · exact .inr (.inl (.inr (.inr (.inr (.inr (if_pos hfull))))))
    · rcases hf with h1 | h1 | h1 | h1 | h1
      · exact .inr (.inl (.inl h1))
      · exact .inr (.inl (.inr (.inl h1)))
      · refine .inr (.inr (.inl (.inl ?_)))
        simpa [drained, hfull, Worker.tasks] using h1
      · exact absurd h1 hfull
      · rw [hw] at h1; cases h1
  · rw [hw] at hf
    simp [Queued, Worker.tasks] at hf
  · refine .inr (.inr (.inr ⟨ho, fun x hx => ?_⟩))
    refine (hr x hx).mono rfl rfl id fun hread => ?_
    rw [hw] at hread
    exact hread.elim

lemma mem_list {c : TopologyCache} (h : c.items.lookup p = some t) : t ∈ c.list :=
  List.mem_map.mpr ⟨⟨p, t⟩, AList.mem_lookup_iff.mp h, rfl⟩

lemma lookup_of_mem_list (h : Cached s) (ht : t ∈ s.cache.list) :
    s.cache.items.lookup t.key = some t := by
  obtain ⟨⟨k, u⟩, hmem, rfl⟩ := List.mem_map.mp ht
  have hk : s.cache.items.lookup k = some u := AList.mem_lookup_iff.mpr hmem
  rw [h.keyed k u hk]
  exact hk

lemma plumbed_list (hcached : Cached s) :
    Plumbed nodeIP { s with worker := .between ((listed s).map .topo) } := by
  have hmem : ∀ p t, s.cache.items.lookup p = some t → listed s = s.cache.list := by
    intro p t ht
    exact if_neg (List.ne_nil_of_mem (mem_list ht))
  refine ⟨fun u hu t ht hl => .inl ?_, fun p t ht hl => .inr (.inr (.inl (.inr ?_)))⟩
  · have hu' : u ∈ s.cache.list := by
      rw [← hmem u.key t ht]
      simpa [Worker.tasks] using hu
    exact Option.some.inj ((lookup_of_mem_list hcached hu').symm.trans ht)
  · simpa [Worker.tasks, hmem p t ht] using mem_list ht

lemma getPod_eq (h : Cached s) (k : String) (answered : Bool) :
    (getPod s k answered).1 = s.cache.items.lookup k ∨ Outstanding s k := by
  unfold getPod
  cases hk : s.cache.items.lookup k with
  | some t => exact .inl rfl
  | none =>
    cases answered with
    | false => exact .inl rfl
    | true =>
      by_cases hout : Outstanding s k
      · exact .inr hout
      · refine .inl ?_
        simpa [hk] using (h.lookup_eq hout).symm

/-- The worker is on its way through its tasks, and takes up no new ones. -/
structure Moves (s s' : St) : Prop where
  cache : s'.cache = s.cache
  events : s'.events = s.events
  owed : s'.owed = s.owed
  queue : s'.queue = s.queue
  before : s.worker ≠ .listing
  after : s'.worker ≠ .listing
  tasks : ∀ task ∈ s'.worker.tasks, task ∈ s.worker.tasks

namespace Moves

lemma outstanding (m : Moves s s') : Outstanding s' p ↔ Outstanding s p := by
  simp [Outstanding, m.events]

lemma coming (m : Moves s s') : Coming s' p ↔ Coming s p := by
  simp [Coming, m.outstanding, m.owed, m.queue, m.before, m.after]

lemma fresh (m : Moves s s') (h : Fresh s p t) (hcut : s'.cut p = s.cut p)
    (hown : s'.own p = s.own p) (hseen : s'.seen p = s.seen p)
    (hqueued : Queued s.worker p t → Queued s'.worker p t)
    (hread : ∀ x, ¬ Reading s.worker p x) : Fresh s' p t :=
  h.mono hcut m.coming.mpr hqueued hown fun x _ hx =>
    hx.mono (by rw [hseen]) (by rw [m.cache]) m.outstanding.mpr fun h => (hread x h).elim

lemma plumbed (m : Moves s s') (h : Plumbed nodeIP s)
    (hfresh : ∀ p t, s.cache.items.lookup p = some t → isLocal nodeIP t = true → Fresh s p t →
      Fresh s' p t) : Plumbed nodeIP s' := by
  refine ⟨fun u hu t ht hl => ?_, fun p t ht hl => ?_⟩
  · rw [m.cache] at ht
    exact (h.tasks u (m.tasks _ hu) t ht hl).imp_right m.coming.mpr
  · rw [m.cache] at ht
    exact hfresh p t ht hl (h.fresh p t ht hl)

end Moves

lemma not_reading {q : String} {todo : List String} {tasks : List Task}
    (hw : s.worker = .pod q todo tasks) (hp : p ≠ q) (x : String) : ¬ Reading s.worker p x := by
  rw [hw]
  exact fun h => hp h.1.symm

lemma Plumbed.read {q : String} {todo : List String} {tasks : List Task} (h : Plumbed nodeIP s)
    (hcached : Cached s) (hw : s.worker = .pod q todo tasks) (k : String) (answered : Bool) :
    Plumbed nodeIP (readPeer s q k answered todo tasks) := by
  have m : Moves s (readPeer s q k answered todo tasks) :=
    ⟨rfl, rfl, rfl, rfl, by simp [hw], by simp [readPeer], by simp [hw, readPeer, Worker.tasks]⟩
  refine m.plumbed h fun p t ht hl hf => ?_
  refine hf.mono rfl m.coming.mpr (by rw [hw]; exact id) rfl fun x _ hr => ?_
  by_cases hp : p = q
  · subst hp
    by_cases hx : x = k
    · -- the peer that is read now
      subst hx
      rcases getPod_eq hcached x answered with hg | hg
      · exact .inl (by simpa [readPeer] using hg)
      · exact .inr (.inl hg)
    · refine hr.mono (by simp [readPeer, hx]) rfl id fun hread => ?_
      rw [hw] at hread
      exact ⟨rfl, (List.mem_erase_of_ne hx).mpr hread.2⟩
  · exact hr.mono (by simp [readPeer, hp]) rfl id fun hread => (not_reading hw hp x hread).elim

lemma Plumbed.fail {q : String} {todo : List String} {tasks : List Task} (h : Plumbed nodeIP s)
    (hw : s.worker = .pod q todo tasks) :
    Plumbed nodeIP { s with worker := .between tasks, cut := Function.update s.cut q true } := by
  have m : Moves s { s with worker := .between tasks, cut := Function.update s.cut q true } :=
    ⟨rfl, rfl, rfl, rfl, by simp [hw], by simp, by simp [hw, Worker.tasks]⟩
  refine m.plumbed h fun p t ht hl hf => ?_
  by_cases hp : p = q
  · exact .inl (by simp [hp])
  · exact m.fresh hf (by simp [hp]) rfl rfl (by rw [hw]; exact id) (not_reading hw hp)

lemma Plumbed.next {w : Worker} (h : Plumbed nodeIP s) (hw : w ≠ .listing)
    (hs : s.worker ≠ .listing) (htasks : w.tasks = s.worker.tasks)
    (hread : ∀ p x, ¬ Reading s.worker p x) : Plumbed nodeIP { s with worker := w } := by
  have m : Moves s { s with worker := w } := ⟨rfl, rfl, rfl, rfl, hs, hw, fun _ ht => htasks ▸ ht⟩
  exact m.plumbed h fun p t ht hl hf =>
    m.fresh hf rfl rfl rfl (by simp [Queued, htasks]) (hread p)

lemma queued_erase {tasks : List Task} {task : Task} (ht : t.key = p) (hp : p ≠ task.podKey)
    (h : Queued (.between tasks) p t) :
    .key p ∈ tasks.erase task ∨ .topo t ∈ tasks.erase task := by
  refine h.imp (fun h => (List.mem_erase_of_ne ?_).mpr h) fun h => (List.mem_erase_of_ne ?_).mpr h
  · rintro rfl
    exact hp rfl
  · rintro rfl
    exact hp ht.symm

lemma fetch_eq {tasks : List Task} {task : Task} (h : Plumbed nodeIP s)
    (hw : s.worker = .between tasks) (htask : task ∈ tasks) (answered : Bool)
    (ht : s.cache.items.lookup task.podKey = some t) (hl : isLocal nodeIP t = true) :
    (task.fetch s answered).1 = some t ∨ Coming s task.podKey := by
  cases task with
  | key k =>
    refine .inl ?_
    change s.cache.items.lookup k = some t at ht
    simp [Task.fetch, getPod, ht]
  | topo u =>
    refine (h.tasks u (by rw [hw]; exact htask) t ht hl).imp_left fun hu => ?_
    rw [hu]
    rfl

lemma Plumbed.start {tasks : List Task} {task : Task} (h : Plumbed nodeIP s) (hcached : Cached s)
    (hw : s.worker = .between tasks) (htask : task ∈ tasks) (answered : Bool)
    (held : List Topology) :
    Plumbed nodeIP (reconcilePodLinks nodeIP { s with held := held } task.podKey
      (tasks.erase task) (task.fetch s answered).1) := by
  have hread : ∀ p x, ¬ Reading s.worker p x := by simp [hw, Reading]
  -- the worker does not stay with the pod
  have hskip : (∀ t, (task.fetch s answered).1 = some t → isLocal nodeIP t = false) →
      Plumbed nodeIP { s with held := held, worker := .between (tasks.erase task) } := by
    intro hnot
    have m : Moves s { s with held := held, worker := .between (tasks.erase task) } :=
      ⟨rfl, rfl, rfl, rfl, by simp [hw], by simp, by
        rw [hw]; exact fun _ ht => List.mem_of_mem_erase ht⟩
    refine m.plumbed h fun p t ht hl hf => ?_
    by_cases hp : p = task.podKey
    · subst hp
      refine .inr (.inl (m.coming.mpr ((fetch_eq h hw htask answered ht hl).resolve_left ?_)))
      intro hfetch
      rw [hnot t hfetch] at hl
      cases hl
    · refine m.fresh hf rfl rfl rfl (fun hq => ?_) (hread p)
      rw [hw] at hq
      exact queued_erase (hcached.keyed p t ht) hp hq
  cases hfetch : (task.fetch s answered).1 with
  | none =>
    refine hskip ?_
    rw [hfetch]
    nofun
  | some u =>
    unfold reconcilePodLinks
    by_cases hu : isLocal nodeIP u = true
    · simp only [hu, if_true]
      have m : Moves s { s with
          held := held
          worker := .pod task.podKey (peerKeys u).dedup (tasks.erase task)
          own := Function.update s.own task.podKey (some u)
          cut := Function.update s.cut task.podKey false } :=
        ⟨rfl, rfl, rfl, rfl, by simp [hw], by simp, by
          rw [hw]; exact fun _ ht => List.mem_of_mem_erase ht⟩
      refine m.plumbed h fun p t ht hl hf => ?_
      by_cases hp : p = task.podKey
      · subst hp
        rcases fetch_eq h hw htask answered ht hl with hg | hg
        · obtain rfl : u = t := Option.some.inj (hfetch.symm.trans hg)
          refine .inr (.inr (.inr ⟨by simp, fun x hx => .inr (.inr ⟨rfl, ?_⟩)⟩))
          exact List.mem_dedup.mpr hx
        · exact .inr (.inl (m.coming.mpr hg))
      · refine m.fresh hf (by simp [hp]) (by simp [hp]) rfl (fun hq => ?_) (hread p)
        rw [hw] at hq
        exact queued_erase (hcached.keyed p t ht) hp hq
    · simp only [hu]
      refine hskip fun t ht => ?_
      rw [hfetch] at ht
      obtain rfl : u = t := Option.some.inj ht
      simpa using hu

/-! ### Whole runs -/

structure Inv (nodeIP : String) (s : St) : Prop where
  cached : Cached s
  awake : Awake s.queue s.worker
  plumbed : Plumbed nodeIP s

lemma inv_init : Inv nodeIP {} where
  cached := ⟨Index.exact_empty, by simp, by simp⟩
  awake := ⟨fun _ => ⟨rfl, rfl⟩, nofun⟩
  plumbed := ⟨by simp [Worker.tasks], by simp⟩

lemma outstanding_append (h : Outstanding s x) {ops : List CacheOp}
    (he : s'.events = s.events ++ ops) : Outstanding s' x := by
  obtain ⟨e, hmem, hk⟩ := h
  exact ⟨e, by rw [he]; exact List.mem_append_left _ hmem, hk⟩

lemma Inv.write (h : Inv nodeIP s) (op : CacheOp) (held : List Topology) :
    Inv nodeIP { s with
      api := ReconcileModel.write s.api op, events := s.events ++ [op], held := held } where
  cached := h.cached.write op rfl rfl rfl
  awake := h.awake
  plumbed := h.plumbed.grow rfl rfl rfl rfl rfl (fun _ _ => id)
    (fun _ ho => outstanding_append ho rfl) fun _ hc =>
      hc.imp_left fun ho => outstanding_append ho rfl

lemma Inv.queue {q : ReconcileQueue} {owed : List String} (h : Inv nodeIP s)
    (hq : Awake q s.worker)
    (hmem : ∀ p, p ∈ s.owed ∨ p ∈ s.queue.pending → p ∈ owed ∨ p ∈ q.pending)
    (hfull : s.queue.fullPending = true → q.fullPending = true) :
    Inv nodeIP { s with queue := q, owed := owed } where
  cached := h.cached.frame rfl rfl rfl
  awake := hq
  plumbed := by
    refine h.plumbed.grow rfl rfl rfl rfl rfl (fun _ _ => id) (fun _ => id) fun p hc => ?_
    rcases hc with hc | hc | hc | hc | hc
    · exact .inl hc
    · exact .inr ((hmem p (.inl hc)).imp_right .inl)
    · exact .inr ((hmem p (.inr hc)).imp_right .inl)
    · exact .inr (.inr (.inr (.inl (hfull hc))))
    · exact .inr (.inr (.inr (.inr hc)))

@[simp] lemma pending_enqueue (q : ReconcileQueue) (k : String) :
    (q.enqueue k).pending = q.pending.insert k := by
  unfold ReconcileQueue.enqueue ReconcileQueue.arm
  split <;> rfl

@[simp] lemma fullPending_enqueue (q : ReconcileQueue) (k : String) :
    (q.enqueue k).fullPending = q.fullPending := by
  unfold ReconcileQueue.enqueue ReconcileQueue.arm
  split <;> rfl

@[simp] lemma pending_enqueueFull (q : ReconcileQueue) : q.enqueueFull.pending = q.pending := by
  unfold ReconcileQueue.enqueueFull ReconcileQueue.arm
  split <;> rfl

@[simp] lemma fullPending_enqueueFull (q : ReconcileQueue) : q.enqueueFull.fullPending = true := by
  unfold ReconcileQueue.enqueueFull ReconcileQueue.arm
  split <;> rfl

lemma cached_reconcilePodLinks {k : String} {tasks : List Task} {held : List Topology}
    (h : Cached s) (v : Option Topology) :
    Cached (reconcilePodLinks nodeIP { s with held := held } k tasks v) := by
  cases v with
  | none => exact h.frame rfl rfl rfl
  | some u =>
    unfold reconcilePodLinks
    dsimp only
    split <;> exact h.frame rfl rfl rfl

lemma queue_reconcilePodLinks {k : String} {tasks : List Task} {held : List Topology}
    (v : Option Topology) :
    (reconcilePodLinks nodeIP { s with held := held } k tasks v).queue = s.queue := by
  cases v with
  | none => rfl
  | some u =>
    unfold reconcilePodLinks
    dsimp only
    split <;> rfl

lemma Inv.put (h : Inv nodeIP s) (hok : s.api.lookup t.key = some t ∨ Outstanding s t.key)
    (held : List Topology) : Inv nodeIP { s with cache := s.cache.put t, held := held } where
  cached := h.cached.put rfl rfl rfl hok
  awake := h.awake
  plumbed := h.plumbed.put h.cached rfl rfl rfl rfl rfl rfl rfl rfl hok

lemma Inv.held (h : Inv nodeIP s) (held : List Topology) : Inv nodeIP { s with held := held } where
  cached := h.cached.frame rfl rfl rfl
  awake := h.awake
  plumbed := h.plumbed.grow rfl rfl rfl rfl rfl (fun _ _ => id) (fun _ => id) fun _ => id

lemma Inv.deliver {op : CacheOp} {events : List CacheOp} (h : Inv nodeIP s) (howed : s.owed = [])
    (hev : s.events = op :: events) :
    Inv nodeIP { s with
      events := events
      cache := (handle nodeIP s.cache op).1
      owed := (handle nodeIP s.cache op).2 } where
  cached := h.cached.deliver hev (handle_fst _ _) rfl rfl
  awake := h.awake
  plumbed := h.plumbed.deliver h.cached hev howed (handle_fst _ _) rfl rfl rfl rfl rfl rfl rfl

lemma Inv.enqueue (h : Inv nodeIP s) (k : String) :
    Inv nodeIP { s with owed := s.owed.erase k, queue := s.queue.enqueue k } := by
  refine h.queue (Awake.arm h.awake.fired) (fun p hp => ?_) (by simp)
  by_cases hpk : p = k
  · exact .inr (by simp [hpk])
  · refine hp.imp (List.mem_erase_of_ne hpk).mpr fun hp => ?_
    simp [hp]

lemma Inv.wake (h : Inv nodeIP s) (hw : s.worker = .idle) :
    Inv nodeIP { s with queue := { s.queue with notified := false }, worker := .draining } := by
  refine ⟨h.cached.frame rfl rfl rfl, ⟨h.awake.unset, fun _ => .inr rfl⟩, ?_⟩
  refine h.plumbed.grow rfl rfl rfl rfl (by rw [hw]; rfl) ?_ (fun _ => id) fun p hc => ?_
  · rw [hw]
    exact fun _ _ => id
  · simpa [Coming, hw, Outstanding] using hc

lemma Inv.drain (h : Inv nodeIP s) (hw : s.worker = .draining) : Inv nodeIP (drained s) where
  cached := h.cached.frame rfl rfl rfl
  awake := ⟨fun _ => ⟨rfl, rfl⟩, by simp [drained, ReconcileQueue.drain]⟩
  plumbed := h.plumbed.drain hw

/-- A step of the worker that does not touch the queue. -/
lemma Inv.work (h : Inv nodeIP s) (hw : s.worker ≠ .draining) (hq : s'.queue = s.queue)
    (hcached : Cached s') (hplumbed : Plumbed nodeIP s') : Inv nodeIP s' :=
  ⟨hcached, hq ▸ h.awake.worker hw, hplumbed⟩

lemma Inv.next {w : Worker} (h : Inv nodeIP s) (hdrain : s.worker ≠ .draining)
    (hlist : s.worker ≠ .listing) (hread : ∀ p x, ¬ Reading s.worker p x) (hw : w ≠ .listing)
    (htasks : w.tasks = s.worker.tasks) : Inv nodeIP { s with worker := w } :=
  h.work hdrain rfl (h.cached.frame rfl rfl rfl) (h.plumbed.next hw hlist htasks hread)

lemma inv_step (h : Inv nodeIP s) (hok : PutInTime s a) (hstep : step nodeIP s a = some s') :
    Inv nodeIP s' := by
  cases a with
  | write op =>
    cases hstep
    exact h.write op s.held
  | update t =>
    cases hstep
    exact h.write (.put t) _
  | put t =>
    obtain ⟨-, ⟨⟩⟩ := Option.ite_none_right_eq_some.mp hstep
    exact h.put hok _
  | get k answered =>
    cases hstep
    exact h.held _
  | deliver =>
    simp only [step] at hstep
    split at hstep
    · next op events howed hev =>
      cases hstep
      exact h.deliver howed hev
    · cases hstep
  | enqueue k =>
    obtain ⟨-, ⟨⟩⟩ := Option.ite_none_right_eq_some.mp hstep
    exact h.enqueue k
  | enqueueFull =>
    cases hstep
    exact h.queue (Awake.arm h.awake.fired) (by simp) (by simp)
  | fire =>
    obtain ⟨-, ⟨⟩⟩ := Option.ite_none_right_eq_some.mp hstep
    exact h.queue ⟨by simp, fun _ => .inl rfl⟩ (fun _ => id) id
  | wake =>
    obtain ⟨hw, ⟨⟩⟩ := Option.ite_none_right_eq_some.mp hstep
    exact h.wake hw.1
  | drain =>
    obtain ⟨hw, ⟨⟩⟩ := Option.ite_none_right_eq_some.mp hstep
    exact h.drain hw
  | list =>
    obtain ⟨hw, ⟨⟩⟩ := Option.ite_none_right_eq_some.mp hstep
    exact h.work (by simp [hw]) rfl (h.cached.frame rfl rfl rfl) (plumbed_list h.cached)
  | start task answered =>
    simp only [step] at hstep
    split at hstep
    · next tasks hw =>
      obtain ⟨htask, ⟨⟩⟩ := Option.ite_none_right_eq_some.mp hstep
      exact h.work (by simp [hw]) (queue_reconcilePodLinks _) (cached_reconcilePodLinks h.cached _)
        (h.plumbed.start h.cached hw htask answered _)
    · cases hstep
  | read k answered =>
    simp only [step] at hstep
    split at hstep
    · next q todo tasks hw =>
      obtain ⟨-, ⟨⟩⟩ := Option.ite_none_right_eq_some.mp hstep
      exact h.work (by simp [hw]) rfl (h.cached.frame rfl rfl rfl)
        (h.plumbed.read h.cached hw k answered)
    · cases hstep
  | fail =>
    simp only [step] at hstep
    split at hstep
    · next q todo tasks hw =>
      cases hstep
      exact h.work (by simp [hw]) rfl (h.cached.frame rfl rfl rfl) (h.plumbed.fail hw)
    · cases hstep
  | next =>
    simp only [step] at hstep
    split at hstep
    · next q tasks hw =>
      cases hstep
      exact h.next (by simp [hw]) (by simp [hw]) (by simp [hw, Reading]) (by simp)
        (by rw [hw]; rfl)
    · next hw =>
      cases hstep
      exact h.next (by simp [hw]) (by simp [hw]) (by simp [hw, Reading]) (by simp)
        (by rw [hw]; rfl)
    · cases hstep

/-- A pod of the node `10.0.0.1` with a link to `b`. -/
def podA : Topology :=
  { ns := "n", name := "a", srcIP := "10.0.0.1", netNS := "x"
    links := [{ peerPod := "b", localIntf := "e1", peerIntf := "e2", uid := 1 }] }

def podB (srcIP : String) : Topology :=
  { ns := "n", name := "b", srcIP := srcIP, netNS := "y"
    links := [{ peerPod := "a", localIntf := "e2", peerIntf := "e1", uid := 1 }] }

/-- The worker is woken and reconciles `n/a`. -/
def pass : List Act :=
  [.fire, .wake, .drain, .start (.key "n/a") true, .read "n/b" true, .next, .next]

/-- Both pods are created, and `n/a` is reconciled while its peer is not active. -/
def created : List Act :=
  [.write (.put podA), .write (.put (podB "")), .deliver, .enqueue "n/a", .deliver,
    .enqueue "n/a"] ++ pass

/-- The peer moves on to another node before the thread puts its topology in the cache. -/
def movesOn : List Act :=
  created ++ [.update (podB "10.0.0.2"), .deliver, .enqueue "n/a", .write (.put (podB "10.0.0.3")),
    .deliver, .enqueue "n/a"] ++ pass ++ [.put (podB "10.0.0.2")]

/-- A topology that is put in the cache after the last event about it stays there. -/
theorem cached_stale_movesOn : ∃ s, run (step "10.0.0.1") {} movesOn = some s ∧ Quiet s ∧
    s.cache.items.lookup (mkKey "n" "b") = some (podB "10.0.0.2") ∧
      s.api.lookup (mkKey "n" "b") = some (podB "10.0.0.3") := by
  have hend : (run (step "10.0.0.1") {} movesOn).any (fun s => Quiet s ∧
      s.cache.items.lookup (mkKey "n" "b") = some (podB "10.0.0.2") ∧
        s.api.lookup (mkKey "n" "b") = some (podB "10.0.0.3")) := by decide
  obtain ⟨s, hrun, hs⟩ := (Option.any_eq_true _ _).mp hend
  exact ⟨s, hrun, of_decide_eq_true hs⟩

end Kne.ReconcileFresh
