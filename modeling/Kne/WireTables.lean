import Kne.WireModel

/-!
What the functions of the wire map keep: every entry of the map is the wire of its key, there is at
most one wire of a pod for a link, ids are used once, and a handle is that of the TAP device of the
wire with its id. What a wire is, its link, its pod and its interface, never changes; only where its
peer is and whether it is ready does.
-/

namespace Kne.WireTables

open Kne.WireModel

variable {d d' : Daemon} {w : GRPCWire} {k : LinkKey} {id : ℕ}

/-! ### What a wire is -/

/-- The part of a wire that never changes. -/
structure SameEnd (w w' : GRPCWire) : Prop where
  uid : w'.uid = w.uid
  topo : w'.topoNamespace = w.topoNamespace
  id : w'.localNodeIfaceID = w.localNodeIfaceID
  pod : w'.localPodName = w.localPodName
  podIP : w'.localPodIP = w.localPodIP
  iface : w'.localPodIfaceName = w.localPodIfaceName
  netNS : w'.localPodNetNS = w.localPodNetNS

namespace SameEnd

lemma refl (w : GRPCWire) : SameEnd w w := ⟨rfl, rfl, rfl, rfl, rfl, rfl, rfl⟩

lemma trans {w w' w'' : GRPCWire} (h : SameEnd w w') (h' : SameEnd w' w'') : SameEnd w w'' :=
  ⟨h'.uid.trans h.uid, h'.topo.trans h.topo, h'.id.trans h.id, h'.pod.trans h.pod,
    h'.podIP.trans h.podIP, h'.iface.trans h.iface, h'.netNS.trans h.netNS⟩

lemma key {w w' : GRPCWire} (h : SameEnd w w') : w'.key = w.key := by
  simp [GRPCWire.key, h.uid, h.netNS]

lemma tap {w w' : GRPCWire} (h : SameEnd w w') : w'.tap = w.tap := by
  simp [GRPCWire.tap, h.iface, h.netNS]

lemma supersedes {v w w' : GRPCWire} (h : SameEnd w w') :
    Daemon.supersedes v w' = Daemon.supersedes v w := by
  simp [Daemon.supersedes, h.topo, h.pod, h.uid, h.netNS]

end SameEnd

/-- The wire still has the same peer. -/
structure SamePeer (w w' : GRPCWire) : Prop extends SameEnd w w' where
  peerId : w'.wireIfaceIDOnPeerNode = w.wireIfaceIDOnPeerNode
  peerIP : w'.peerNodeIP = w.peerNodeIP

lemma SamePeer.refl (w : GRPCWire) : SamePeer w w := ⟨.refl w, rfl, rfl⟩

lemma SamePeer.trans {w w' w'' : GRPCWire} (h : SamePeer w w') (h' : SamePeer w' w'') :
    SamePeer w w'' :=
  ⟨h.toSameEnd.trans h'.toSameEnd, h'.peerId.trans h.peerId, h'.peerIP.trans h.peerIP⟩

/-- The wires that were made are still what they were, and no id is given out twice. -/
structure Grows (d d' : Daemon) : Prop where
  objs : ∀ id w, d.objs id = some w → ∃ w', d'.objs id = some w' ∧ SameEnd w w'
  currId : d.currId ≤ d'.currId

lemma grows_of_objs (hobjs : d'.objs = d.objs) (hid : d.currId ≤ d'.currId) : Grows d d' :=
  ⟨fun _ w hw => ⟨w, hobjs ▸ hw, .refl w⟩, hid⟩

lemma Grows.refl (d : Daemon) : Grows d d := grows_of_objs rfl le_rfl

lemma Grows.trans {d d' d'' : Daemon} (h : Grows d d') (h' : Grows d' d'') : Grows d d'' := by
  refine ⟨fun id w hw => ?_, h.currId.trans h'.currId⟩
  obtain ⟨w', hw', hs⟩ := h.objs id w hw
  obtain ⟨w'', hw'', hs'⟩ := h'.objs id w' hw'
  exact ⟨w'', hw'', hs.trans hs'⟩

/-! ### The tables -/

structure Wf (d : Daemon) : Prop where
  ids : ∀ id w, d.objs id = some w → w.localNodeIfaceID = id ∧ 0 < id ∧ id ≤ d.currId
  keyed : ∀ k id, d.wires.lookup k = some id → ∃ w, d.objs id = some w ∧ w.key = k
  /-- There is one wire for each link of a pod. -/
  single : ∀ k k' id id' w w', d.wires.lookup k = some id → d.wires.lookup k' = some id' →
    d.objs id = some w → d.objs id' = some w' → w'.topoNamespace = w.topoNamespace →
    w'.localPodName = w.localPodName → w'.uid = w.uid → k = k'
  taps : ∀ id t, d.handles id = some t → ∃ w, d.objs id = some w ∧ w.tap = t

lemma wf_empty : Wf {} where
  ids _ _ h := by cases h
  keyed k id h := by simp at h
  single k k' id id' w w' h := by simp at h
  taps _ _ h := by cases h

lemma Wf.shrink (h : Wf d) (hobjs : d'.objs = d.objs) (hid : d.currId ≤ d'.currId)
    (hwires : ∀ k id, d'.wires.lookup k = some id → d.wires.lookup k = some id)
    (hhandles : ∀ id t, d'.handles id = some t → d.handles id = some t) : Wf d' where
  ids id w hw := by
    obtain ⟨h1, h2, h3⟩ := h.ids id w (hobjs ▸ hw)
    exact ⟨h1, h2, h3.trans hid⟩
  keyed k id hk := by
    rw [hobjs]
    exact h.keyed k id (hwires k id hk)
  single k k' id id' w w' hk hk' hw hw' :=
    h.single k k' id id' w w' (hwires k id hk) (hwires k' id' hk') (hobjs ▸ hw) (hobjs ▸ hw')
  taps id t ht := by
    rw [hobjs]
    exact h.taps id t (hhandles id t ht)

lemma objs_modify {f : GRPCWire → GRPCWire} (id j : ℕ) :
    (d.modify id f).objs j = if j = id then (d.objs id).map f else d.objs j := by
  by_cases h : j = id
  · subst h; simp [Daemon.modify]
  · simp [Daemon.modify, h]

lemma grows_modify {f : GRPCWire → GRPCWire} (hf : ∀ w, SameEnd w (f w)) (id : ℕ) :
    Grows d (d.modify id f) := by
  refine ⟨fun j w hw => ?_, le_rfl⟩
  rw [objs_modify]
  by_cases h : j = id
  · subst h
    exact ⟨f w, by simp [hw], hf w⟩
  · exact ⟨w, by simp [h, hw], .refl w⟩

lemma of_objs_modify {f : GRPCWire → GRPCWire} {j : ℕ} {w : GRPCWire}
    (hw : (d.modify id f).objs j = some w) : ∃ v, d.objs j = some v ∧ (w = v ∨ w = f v) := by
  rw [objs_modify] at hw
  split at hw
  · next h =>
    subst h
    obtain ⟨v, hv, rfl⟩ := Option.map_eq_some_iff.mp hw
    exact ⟨v, hv, .inr rfl⟩
  · exact ⟨w, hw, .inl rfl⟩

lemma sameEnd_of_modify {f : GRPCWire → GRPCWire} (hf : ∀ w, SameEnd w (f w)) {j : ℕ}
    (hw : (d.modify id f).objs j = some w) : ∃ v, d.objs j = some v ∧ SameEnd v w := by
  obtain ⟨v, hv, rfl | rfl⟩ := of_objs_modify hw
  · exact ⟨w, hv, .refl w⟩
  · exact ⟨v, hv, hf v⟩

lemma Wf.modify {f : GRPCWire → GRPCWire} (h : Wf d) (hf : ∀ w, SameEnd w (f w)) (id : ℕ) :
    Wf (d.modify id f) where
  ids j w hw := by
    obtain ⟨v, hv, hs⟩ := sameEnd_of_modify hf hw
    obtain ⟨h1, h2, h3⟩ := h.ids j v hv
    exact ⟨hs.id.trans h1, h2, h3⟩
  keyed k j hk := by
    obtain ⟨w, hw, hkey⟩ := h.keyed k j hk
    obtain ⟨w', hw', hs⟩ := (grows_modify hf id).objs j w hw
    exact ⟨w', hw', hs.key.trans hkey⟩
  single k k' j j' w w' hk hk' hw hw' ht hp hu := by
    obtain ⟨v, hv, hs⟩ := sameEnd_of_modify hf hw
    obtain ⟨v', hv', hs'⟩ := sameEnd_of_modify hf hw'
    exact h.single k k' j j' v v' hk hk' hv hv' (by rw [← hs.topo, ← hs'.topo, ht])
      (by rw [← hs.pod, ← hs'.pod, hp]) (by rw [← hs.uid, ← hs'.uid, hu])
  taps j t ht := by
    obtain ⟨w, hw, htap⟩ := h.taps j t ht
    obtain ⟨w', hw', hs⟩ := (grows_modify hf id).objs j w hw
    exact ⟨w', hw', hs.tap.trans htap⟩

lemma handles_close {j : ℕ} {t : Tap} (h : (d.closeAndRemoveHandle id).handles j = some t) :
    d.handles j = some t := by
  unfold Daemon.closeAndRemoveHandle at h
  by_cases hj : j = id
  · simp [hj] at h
  · simpa [hj] using h

lemma Wf.close (h : Wf d) (id : ℕ) : Wf (d.closeAndRemoveHandle id) :=
  h.shrink rfl le_rfl (fun _ _ hk => hk) fun _ _ => handles_close

lemma lookup_erase {k j : LinkKey} (h : (d.wires.erase k).lookup j = some id) :
    j ≠ k ∧ d.wires.lookup j = some id := by
  by_cases hj : j = k
  · subst hj; simp at h
  · exact ⟨hj, by rwa [AList.lookup_erase_ne hj] at h⟩

lemma Wf.erase (h : Wf d) (k : LinkKey) : Wf { d with wires := d.wires.erase k } :=
  h.shrink rfl le_rfl (fun _ _ hk => (lookup_erase hk).2) fun _ _ ht => ht

lemma sameEnd_stop (w : GRPCWire) : SameEnd w { w with isReady := false, stopped := true } :=
  ⟨rfl, rfl, rfl, rfl, rfl, rfl, rfl⟩

lemma samePeer_of_stop {j : ℕ} {w' : GRPCWire} (hw : (d.stop id).objs j = some w') :
    ∃ w, d.objs j = some w ∧ SamePeer w w' := by
  obtain ⟨v, hv, rfl | rfl⟩ := of_objs_modify hw
  · exact ⟨w', hv, .refl w'⟩
  · exact ⟨v, hv, sameEnd_stop v, rfl, rfl⟩

lemma Wf.stop (h : Wf d) (id : ℕ) : Wf (d.stop id) := h.modify sameEnd_stop id

lemma grows_stop (id : ℕ) : Grows d (d.stop id) := grows_modify sameEnd_stop id

lemma Wf.retire (h : Wf d) (id : ℕ) : Wf (d.retire id) := (h.stop id).close id

lemma grows_retire (id : ℕ) : Grows d (d.retire id) := ⟨(grows_stop id).objs, le_rfl⟩

/-! ### Adding a wire -/

/-- Some wires have given way, and nothing has come. -/
structure Cleaned (d d' : Daemon) : Prop where
  wf : Wf d'
  grows : Grows d d'
  currId : d'.currId = d.currId
  old : ∀ id w', d'.objs id = some w' → ∃ w, d.objs id = some w ∧ SamePeer w w'
  wires : ∀ k id, d'.wires.lookup k = some id → d.wires.lookup k = some id

lemma cleaned_refl (h : Wf d) : Cleaned d d :=
  ⟨h, .refl d, rfl, fun _ w hw => ⟨w, hw, .refl w⟩, fun _ _ hk => hk⟩

lemma cleaned_retireSame (h : Wf d) (w : GRPCWire) : Cleaned d (d.retireSame w) := by
  unfold Daemon.retireSame
  split
  · exact ⟨h.retire _, grows_retire _, rfl, fun _ _ => samePeer_of_stop, fun _ _ hk => hk⟩
  · exact cleaned_refl h

lemma Cleaned.entry (h : Cleaned d d') (e : Sigma fun _ : LinkKey => ℕ) :
    Cleaned d (Daemon.cleanupEntry w d' e) := by
  unfold Daemon.cleanupEntry
  split
  · refine ⟨(h.wf.retire e.2).erase e.1, h.grows.trans ⟨(grows_retire e.2).objs, le_rfl⟩, h.currId,
      fun j v hv => ?_, fun j i hj => h.wires j i (lookup_erase hj).2⟩
    obtain ⟨u, hu, hs⟩ := samePeer_of_stop hv
    obtain ⟨u', hu', hs'⟩ := h.old j u hu
    exact ⟨u', hu', hs'.trans hs⟩
  · exact h

lemma Cleaned.foldl (es : List (Sigma fun _ : LinkKey => ℕ)) (h : Cleaned d d') :
    Cleaned d (es.foldl (Daemon.cleanupEntry w) d') := by
  induction es generalizing d' with
  | nil => exact h
  | cons e es ih => exact ih (h.entry e)

/-- After its turn an entry is gone if the new wire supersedes it, and entries never come back. -/
lemma not_superseded_foldl {es : List (Sigma fun _ : LinkKey => ℕ)} {old : GRPCWire} (hwf : Wf d)
    (hk : (es.foldl (Daemon.cleanupEntry w) d).wires.lookup k = some id)
    (hold : d.objs id = some old) (hmem : ⟨k, id⟩ ∈ es) : Daemon.supersedes w old = false := by
  induction es generalizing d old with
  | nil => simp at hmem
  | cons e es ih =>
    rw [List.foldl_cons] at hk
    have hturn : Cleaned d (Daemon.cleanupEntry w d e) := (cleaned_refl hwf).entry e
    rcases List.mem_cons.mp hmem with rfl | hmem
    · by_contra hsup
      have hlook := ((cleaned_refl hturn.wf).foldl es).wires k id hk
      rw [Daemon.cleanupEntry, if_pos (by simpa [hold] using hsup)] at hlook
      exact (lookup_erase hlook).1 rfl
    · obtain ⟨old', hold', hs⟩ := hturn.grows.objs id old hold
      rw [← hs.supersedes]
      exact ih hturn.wf hk hold' hmem

lemma cleaned_cleanup (h : Wf d) (w : GRPCWire) : Cleaned d (d.cleanupOldWireLocked w) :=
  (cleaned_retireSame h w).foldl _

lemma not_superseded_cleanup {old : GRPCWire} (h : Wf d)
    (hk : (d.cleanupOldWireLocked w).wires.lookup k = some id)
    (hold : (d.cleanupOldWireLocked w).objs id = some old) : Daemon.supersedes w old = false := by
  have hfirst := (cleaned_retireSame h w).wf
  have hrest : Cleaned (d.retireSame w) (d.cleanupOldWireLocked w) := (cleaned_refl hfirst).foldl _
  have hentry := hrest.wires k id hk
  obtain ⟨v, hv, -⟩ := hfirst.keyed k id hentry
  obtain ⟨v', hv', hs⟩ := hrest.grows.objs id v hv
  obtain rfl : v' = old := Option.some.inj (hv'.symm.trans hold)
  rw [hs.supersedes]
  exact not_superseded_foldl hfirst hk hv (AList.mem_lookup_iff.mp hentry)

lemma lookup_foldl_of_not_superseded {d' : Daemon} {es : List (Sigma fun _ : LinkKey => ℕ)}
    {old : GRPCWire} (hc : Cleaned d d') (hold : d.objs id = some old)
    (hs : Daemon.supersedes w old = false) (hes : ∀ e ∈ es, e.1 = k → e.2 = id)
    (hk : d'.wires.lookup k = some id) :
    (es.foldl (Daemon.cleanupEntry w) d').wires.lookup k = some id := by
  induction es generalizing d' with
  | nil => exact hk
  | cons e es ih =>
    refine ih (hc.entry e) (fun e' he' => hes e' (List.mem_cons_of_mem e he')) ?_
    unfold Daemon.cleanupEntry
    split
    · next hany =>
      have hne : k ≠ e.1 := by
        rintro rfl
        obtain ⟨old', hold', hsame⟩ := hc.grows.objs id old hold
        rw [hes e List.mem_cons_self rfl, hold'] at hany
        simp [hsame.supersedes, hs] at hany
      exact (AList.lookup_erase_ne hne).trans hk
    · exact hk

lemma lookup_cleanup_of_not_superseded {old : GRPCWire} (h : Wf d)
    (hk : d.wires.lookup k = some id) (hold : d.objs id = some old)
    (hs : Daemon.supersedes w old = false) :
    (d.cleanupOldWireLocked w).wires.lookup k = some id := by
  have hwires : (d.retireSame w).wires = d.wires := by
    unfold Daemon.retireSame
    split <;> rfl
  refine lookup_foldl_of_not_superseded (cleaned_retireSame h w) hold hs (fun e he hek => ?_)
    (by rw [hwires]; exact hk)
  rw [hwires] at he
  have hlook : d.wires.lookup e.1 = some e.2 := AList.mem_lookup_iff.mpr he
  rw [hek, hk] at hlook
  exact (Option.some.inj hlook).symm

lemma cleanup_eq_self (hkey : d.wires.lookup w.key = none)
    (hs : ∀ k id old, d.wires.lookup k = some id → d.objs id = some old →
      Daemon.supersedes w old = false) : d.cleanupOldWireLocked w = d := by
  have hsame : d.retireSame w = d := by simp [Daemon.retireSame, hkey]
  have hturn : ∀ es : List (Sigma fun _ : LinkKey => ℕ), (∀ e ∈ es, e ∈ d.wires.entries) →
      es.foldl (Daemon.cleanupEntry w) d = d := by
    intro es hes
    induction es with
    | nil => rfl
    | cons e es ih =>
      have hentry : Daemon.cleanupEntry w d e = d := by
        refine if_neg fun hany => ?_
        obtain ⟨old, hold, hsup⟩ := (Option.any_eq_true _ _).mp hany
        rw [hs e.1 e.2 old (AList.mem_lookup_iff.mpr (hes e List.mem_cons_self)) hold] at hsup
        cases hsup
      rw [List.foldl_cons, hentry]
      exact ih fun e' he' => hes e' (List.mem_cons_of_mem e he')
  rw [Daemon.cleanupOldWireLocked, hsame]
  exact hturn _ fun _ he => he

lemma objs_eq_none (h : Wf d) {id : ℕ} (hid : d.currId < id) : d.objs id = none := by
  by_contra hne
  obtain ⟨w, hw⟩ := Option.ne_none_iff_exists'.mp hne
  have := (h.ids id w hw).2.2
  omega

lemma Wf.nextIndex (h : Wf d) : Wf d.nextIndex :=
  h.shrink rfl (Nat.le_succ _) (fun _ _ hk => hk) fun _ _ ht => ht

lemma cleaned_make (h : Wf d) (w : GRPCWire) :
    Cleaned d.nextIndex (d.nextIndex.cleanupOldWireLocked w) :=
  cleaned_cleanup h.nextIndex w

lemma objs_cleanup_new (h : Wf d) (w : GRPCWire) :
    (d.nextIndex.cleanupOldWireLocked w).objs (d.currId + 1) = none := by
  by_contra hne
  obtain ⟨v, hv⟩ := Option.ne_none_iff_exists'.mp hne
  obtain ⟨u, hu, -⟩ := (cleaned_make h w).old _ v hv
  rw [show d.nextIndex.objs = d.objs from rfl, objs_eq_none h (Nat.lt_succ_self _)] at hu
  cases hu

section Make

variable {f : ℕ → GRPCWire} (hf : ∀ id, (f id).localNodeIfaceID = id)
include hf

lemma objs_make (j : ℕ) : (d.make f).objs j =
    if j = d.currId + 1 then some (f (d.currId + 1))
    else (d.nextIndex.cleanupOldWireLocked (f (d.currId + 1))).objs j := by
  simp [Daemon.make, Daemon.addInMem, hf, Function.update_apply]

lemma of_objs_make (h : Wf d) {j : ℕ} {w : GRPCWire} (hw : (d.make f).objs j = some w) :
    (j = d.currId + 1 ∧ w = f (d.currId + 1)) ∨ ∃ v, d.objs j = some v ∧ SamePeer v w := by
  rw [objs_make hf] at hw
  split at hw
  · next hj => exact .inl ⟨hj, (Option.some.inj hw).symm⟩
  · exact .inr ((cleaned_make h _).old j w hw)

lemma lookup_make (j : LinkKey) : (d.make f).wires.lookup j =
    if j = (f (d.currId + 1)).key then some (d.currId + 1)
    else (d.nextIndex.cleanupOldWireLocked (f (d.currId + 1))).wires.lookup j := by
  by_cases hj : j = (f (d.currId + 1)).key
  · subst hj
    simp [Daemon.make, Daemon.addInMem, hf]
  · simp [Daemon.make, Daemon.addInMem, hj, AList.lookup_insert_ne hj]

lemma grows_make (h : Wf d) : Grows d (d.make f) := by
  have hc := cleaned_make h (f (d.currId + 1))
  refine ⟨fun j w hw => ?_, ?_⟩
  · have hj : j ≠ d.currId + 1 := by
      have := (h.ids j w hw).2.2
      omega
    rw [objs_make hf, if_neg hj]
    exact hc.grows.objs j w hw
  · change d.currId ≤ (d.nextIndex.cleanupOldWireLocked _).currId
    rw [hc.currId]
    exact Nat.le_succ _

lemma Wf.make (h : Wf d) : Wf (d.make f) := by
  have hc := cleaned_make h (f (d.currId + 1))
  have hnew := objs_cleanup_new h (f (d.currId + 1))
  -- an entry other than the new one belongs to an older wire
  have hold : ∀ k id, (d.nextIndex.cleanupOldWireLocked (f (d.currId + 1))).wires.lookup k =
      some id → id ≠ d.currId + 1 := by
    rintro k id hk rfl
    obtain ⟨w, hw, -⟩ := hc.wf.keyed k _ hk
    rw [hnew] at hw
    cases hw
  -- and is not one the new wire supersedes
  have hfree : ∀ k id w, (d.nextIndex.cleanupOldWireLocked (f (d.currId + 1))).wires.lookup k =
      some id → (d.nextIndex.cleanupOldWireLocked (f (d.currId + 1))).objs id = some w →
      w.topoNamespace = (f (d.currId + 1)).topoNamespace →
      w.localPodName = (f (d.currId + 1)).localPodName → w.uid = (f (d.currId + 1)).uid →
      k = (f (d.currId + 1)).key := by
    intro k id w hk hw ht hp hu
    have hsup := not_superseded_cleanup h.nextIndex hk hw
    obtain ⟨w', hw', hkey⟩ := hc.wf.keyed k id hk
    obtain rfl : w' = w := Option.some.inj (hw'.symm.trans hw)
    have hns : w'.localPodNetNS = (f (d.currId + 1)).localPodNetNS := by
      simpa [Daemon.supersedes, ht, hp, hu] using hsup
    rw [← hkey, GRPCWire.key, GRPCWire.key, hns, hu]
  refine ⟨fun id w hw => ?_, fun k id hk => ?_, ?_, fun id t ht => ?_⟩
  · have hid : (d.make f).currId = d.currId + 1 := hc.currId
    rw [objs_make hf] at hw
    split at hw
    · next hj =>
      subst hj
      obtain rfl := Option.some.inj hw
      exact ⟨hf _, Nat.succ_pos _, hid.ge⟩
    · obtain ⟨h1, h2, h3⟩ := hc.wf.ids id w hw
      exact ⟨h1, h2, h3.trans_eq (hc.currId.trans hid.symm)⟩
  · rw [lookup_make hf] at hk
    rw [objs_make hf]
    split at hk
    · next hj =>
      obtain rfl := Option.some.inj hk
      exact ⟨_, if_pos rfl, hj.symm⟩
    · rw [if_neg (hold k id hk)]
      exact hc.wf.keyed k id hk
  · intro k k' id id' w w' hk hk' hw hw' ht hp hu
    rw [lookup_make hf] at hk hk'
    rw [objs_make hf] at hw hw'
    split at hk <;> split at hk'
    · next hj hj' => rw [hj, hj']
    · next hj _ =>
      obtain rfl := Option.some.inj hk
      rw [if_pos rfl] at hw
      obtain rfl := Option.some.inj hw
      rw [if_neg (hold k' id' hk')] at hw'
      rw [hj]
      exact (hfree k' id' w' hk' hw' ht hp hu).symm
    · next _ hj' =>
      obtain rfl := Option.some.inj hk'
      rw [if_pos rfl] at hw'
      obtain rfl := Option.some.inj hw'
      rw [if_neg (hold k id hk)] at hw
      rw [hj']
      exact hfree k id w hk hw ht.symm hp.symm hu.symm
    · rw [if_neg (hold k id hk)] at hw
      rw [if_neg (hold k' id' hk')] at hw'
      exact hc.wf.single k k' id id' w w' hk hk' hw hw' ht hp hu
  · rw [objs_make hf]
    by_cases hj : id = d.currId + 1
    · subst hj
      refine ⟨_, if_pos rfl, ?_⟩
      simpa [Daemon.make, Daemon.addInMem, hf] using ht
    · rw [if_neg hj]
      refine hc.wf.taps id t ?_
      simpa [Daemon.make, Daemon.addInMem, hf, hj] using ht

end Make

/-! ### The functions -/

lemma createGWire_id (wireDef : WireDef) (id : ℕ) :
    (createGWire id wireDef).localNodeIfaceID = id := rfl

lemma createGWireLocal_id (wireDef : WireDef) (id : ℕ) :
    (createGWireLocal id wireDef).localNodeIfaceID = id := rfl

lemma Wf.createLocal (h : Wf d) (wireDef : WireDef) (tapOk : Bool) :
    Wf (d.createGRPCWireLocal wireDef tapOk).1 ∧
      Grows d (d.createGRPCWireLocal wireDef tapOk).1 := by
  have hhost : ∀ w : GRPCWire, SameEnd w { w with originator := .host } := fun _ =>
    ⟨rfl, rfl, rfl, rfl, rfl, rfl, rfl⟩
  unfold Daemon.createGRPCWireLocal
  split
  · next id _ => exact ⟨h.modify hhost id, grows_modify hhost id⟩
  · split
    · exact ⟨h.make (createGWireLocal_id wireDef), grows_make (createGWireLocal_id wireDef) h⟩
    · exact ⟨h, .refl d⟩

lemma Wf.createOrFind (h : Wf d) (wireDef : WireDef) (tapOk : Bool) :
    Wf (d.createOrFind wireDef tapOk).1 ∧ Grows d (d.createOrFind wireDef tapOk).1 := by
  unfold Daemon.createOrFind
  split
  · exact ⟨h, .refl d⟩
  · split
    · exact ⟨h.make (createGWire_id wireDef), grows_make (createGWire_id wireDef) h⟩
    · exact ⟨h, .refl d⟩

lemma of_createOrFind {wireDef : WireDef} {tapOk new : Bool}
    (h : (d.createOrFind wireDef tapOk).2 = some (id, new)) :
    (new = false ∧ d.getWireByUID wireDef.key = some id ∧ (d.createOrFind wireDef tapOk).1 = d) ∨
      (new = true ∧ (d.createOrFind wireDef tapOk).1.objs id = some (createGWire id wireDef)) := by
  unfold Daemon.createOrFind at h ⊢
  split at h
  · next j hj =>
    cases h
    exact .inl ⟨rfl, hj, rfl⟩
  · split at h
    · next htap =>
      cases h
      refine .inr ⟨rfl, ?_⟩
      rw [if_pos htap, objs_make (createGWire_id wireDef)]
      exact if_pos rfl
    · cases h

lemma of_objs_createOrFind (h : Wf d) {wireDef : WireDef} {tapOk : Bool} {w : GRPCWire}
    (hw : (d.createOrFind wireDef tapOk).1.objs id = some w) :
    w = createGWire id wireDef ∨ ∃ v, d.objs id = some v ∧ SamePeer v w := by
  unfold Daemon.createOrFind at hw
  split at hw
  · exact .inr ⟨w, hw, .refl w⟩
  · split at hw
    · rcases of_objs_make (createGWire_id _) h hw with ⟨rfl, rfl⟩ | hold
      · exact .inl rfl
      · exact .inr hold
    · exact .inr ⟨w, hw, .refl w⟩

lemma sameEnd_update (peerIntfId : ℕ) (peerNodeIP : String) (w : GRPCWire) :
    SameEnd w { w with
      wireIfaceIDOnPeerNode := peerIntfId
      peerNodeIP := if peerNodeIP ≠ "" then peerNodeIP else w.peerNodeIP
      isReady := true } :=
  ⟨rfl, rfl, rfl, rfl, rfl, rfl, rfl⟩

lemma Wf.update (h : Wf d) (id peerIntfId : ℕ) (peerNodeIP : String) :
    Wf (d.updateWire id peerIntfId peerNodeIP) ∧ Grows d (d.updateWire id peerIntfId peerNodeIP) :=
  ⟨h.modify (sameEnd_update peerIntfId peerNodeIP) id,
    grows_modify (sameEnd_update peerIntfId peerNodeIP) id⟩

lemma Wf.atomicDelete (h : Wf d) (id : ℕ) :
    Wf (d.atomicDelete id) ∧ Grows d (d.atomicDelete id) := by
  unfold Daemon.atomicDelete
  split
  · exact ⟨(h.close id).erase _, grows_of_objs rfl le_rfl⟩
  · exact ⟨h, .refl d⟩

end Kne.WireTables
