import Kne.WireStore

/-!
The wires of a node, as far as their statuses show them: which wires there are in the wire map, and
what making a wire does to it.

The record is kept by pods and interfaces, the wire map by network namespaces and links, and
removals go by links alone. The three agree as long as a network namespace belongs to one pod, and
each link has one end on the node.
-/

namespace Kne.WireStore

open Kne.WireModel Kne.WireTables Kne.KeyedLists

/-! ### The ends of links -/

/-- Which pod a network namespace belongs to, and which interface of which pod is the end of a link
on this node. -/
structure Layout where
  owner : String → String × String
  links : String → ℤ → Option (String × String)
  apart : ∀ t u u' e, links t u = some e → links t u' = some e → u' = u
  /-- The names of pods have no `@`. -/
  plain : ∀ t u e, links t u = some e → '@' ∉ e.1.toList

structure Planned (L : Layout) (ws : GWireStatus) : Prop where
  owner : L.owner ws.localPodNetNs = (ws.topoNamespace, ws.localPodName)
  link : L.links ws.topoNamespace ws.linkId = some (ws.localPodName, ws.localPodIfaceName)

lemma eq_of_first {α : Type*} {a : α} {xs ys zs us : List α} (hx : a ∉ xs) (hy : a ∉ ys)
    (h : xs ++ a :: zs = ys ++ a :: us) : xs = ys ∧ zs = us := by
  rw [List.append_eq_append_iff] at h
  rcases h with ⟨cs, rfl, h⟩ | ⟨cs, rfl, h⟩ <;> rcases cs with _ | ⟨c, cs⟩ <;> simp_all

namespace Planned

variable {L : Layout} {ws ws' : GWireStatus}

lemma link_of_key (h : Planned L ws) (h' : Planned L ws') (hk : ws'.key = ws.key) :
    ws'.link = ws.link := by
  have hns : ws'.localPodNetNs = ws.localPodNetNs := congrArg LinkKey.ns hk
  have hid : ws'.linkId = ws.linkId := congrArg LinkKey.linkUID hk
  have howner := h'.owner
  rw [hns, h.owner] at howner
  exact Prod.ext (congrArg Prod.fst howner).symm hid

lemma end_of_link (h : Planned L ws) (h' : Planned L ws') (hl : ws'.link = ws.link) :
    ws'.localPodName = ws.localPodName ∧ ws'.localPodIfaceName = ws.localPodIfaceName := by
  have ht : ws'.topoNamespace = ws.topoNamespace := congrArg Prod.fst hl
  have hid : ws'.linkId = ws.linkId := congrArg Prod.snd hl
  have hlink := h'.link
  rw [ht, hid, h.link] at hlink
  have he := Option.some.inj hlink
  exact ⟨(congrArg Prod.fst he).symm, (congrArg Prod.snd he).symm⟩

lemma itemKey_of_link (h : Planned L ws) (h' : Planned L ws') (hl : ws'.link = ws.link) :
    ws'.itemKey = ws.itemKey := by
  obtain ⟨hpod, hiface⟩ := h.end_of_link h' hl
  rw [GWireStatus.itemKey, GWireStatus.itemKey, hpod, hiface]

lemma link_of_itemKey (h : Planned L ws) (h' : Planned L ws')
    (ht : ws'.topoNamespace = ws.topoNamespace) (hk : ws'.itemKey = ws.itemKey) :
    ws'.link = ws.link := by
  have hchars : ws'.localPodName.toList ++ '@' :: ws'.localPodIfaceName.toList =
      ws.localPodName.toList ++ '@' :: ws.localPodIfaceName.toList := by
    simpa [GWireStatus.itemKey] using congrArg String.toList hk
  obtain ⟨hpod, hiface⟩ := eq_of_first (L.plain _ _ _ h'.link) (L.plain _ _ _ h.link) hchars
  have hend : (ws'.localPodName, ws'.localPodIfaceName) =
      (ws.localPodName, ws.localPodIfaceName) :=
    Prod.ext (String.toList_inj.mp hpod) (String.toList_inj.mp hiface)
  have hlink := h'.link
  rw [ht, hend] at hlink
  exact Prod.ext ht (L.apart _ _ _ _ h.link hlink)

end Planned

/-! ### The wire map -/

def stat (d : Daemon) (id : ℕ) : Option GWireStatus := (d.objs id).map createWireStatus

lemma stat_eq_some {d : Daemon} {id : ℕ} {ws : GWireStatus} :
    stat d id = some ws ↔ ∃ w, d.objs id = some w ∧ createWireStatus w = ws :=
  Option.map_eq_some_iff

lemma stat_of_objs {d : Daemon} {id : ℕ} {w : GRPCWire} (h : d.objs id = some w) :
    stat d id = some (createWireStatus w) := by
  rw [stat, h]; rfl

/-- The wire is in the wire map, and has this status. -/
structure InMap (d : Daemon) (id : ℕ) (ws : GWireStatus) : Prop where
  entry : d.wires.lookup ws.key = some id
  stat : stat d id = some ws

/-- The wires are as the layout has them. -/
structure Tables (L : Layout) (d : Daemon) : Prop where
  wf : Wf d
  planned : ∀ id ws, stat d id = some ws → Planned L ws

section Tables

variable {L : Layout} {d d' : Daemon} {id j : ℕ} {ws ws' : GWireStatus} {k : LinkKey}

lemma Tables.inMap (h : Tables L d) (hk : d.wires.lookup k = some id) :
    ∃ ws, InMap d id ws ∧ ws.key = k := by
  obtain ⟨w, hw, rfl⟩ := h.wf.keyed k id hk
  exact ⟨createWireStatus w, ⟨hk, stat_of_objs hw⟩, rfl⟩

lemma Tables.single (h : Tables L d) (hi : InMap d id ws) (hj : InMap d j ws')
    (hl : ws'.link = ws.link) : j = id := by
  obtain ⟨hpod, -⟩ := (h.planned id ws hi.stat).end_of_link (h.planned j ws' hj.stat) hl
  obtain ⟨w, hw, rfl⟩ := stat_eq_some.mp hi.stat
  obtain ⟨w', hw', rfl⟩ := stat_eq_some.mp hj.stat
  have hkey := h.wf.single _ _ _ _ w w' hi.entry hj.entry hw hw' (congrArg Prod.fst hl) hpod
    (congrArg Prod.snd hl)
  have hentry := hj.entry
  rw [← hkey, hi.entry] at hentry
  exact (Option.some.inj hentry).symm

/-- The wires are what they were, also where they were updated. -/
def Kept (d d' : Daemon) : Prop :=
  ∀ id ws, stat d id = some ws →
    ∃ ws', stat d' id = some ws' ∧ ws'.key = ws.key ∧ ws'.link = ws.link

lemma kept_of_grows (h : Grows d d') : Kept d d' := by
  intro id ws hs
  obtain ⟨w, hw, rfl⟩ := stat_eq_some.mp hs
  obtain ⟨w', hw', hsame⟩ := h.objs id w hw
  exact ⟨createWireStatus w', stat_of_objs hw', hsame.key, Prod.ext hsame.topo hsame.uid⟩

lemma status_of_samePeer {w w' : GRPCWire} (h : SamePeer w w') :
    createWireStatus w' = createWireStatus w := by
  simp [createWireStatus, h.uid, h.topo, h.netNS, h.pod, h.podIP, h.iface, h.peerId, h.peerIP]

/-- A wire is made and entered: it has a new id, and the entries of other links stay. -/
structure Made (d d' : Daemon) (id : ℕ) (ws : GWireStatus) : Prop where
  stat : stat d' id = some ws
  others : ∀ j, j ≠ id → WireStore.stat d' j = WireStore.stat d j
  fresh : WireStore.stat d id = none
  entry : d'.wires.lookup ws.key = some id
  older : ∀ k j, k ≠ ws.key → d'.wires.lookup k = some j → d.wires.lookup k = some j
  stay : ∀ j ws', InMap d j ws' → ws'.link ≠ ws.link → ws'.key ≠ ws.key → InMap d' j ws'

lemma made_make (h : Wf d) {f : ℕ → GRPCWire} (hf : ∀ id, (f id).localNodeIfaceID = id) :
    Made d (d.make f) (d.currId + 1) (createWireStatus (f (d.currId + 1))) := by
  have hc := cleaned_make h (f (d.currId + 1))
  have hothers : ∀ j, j ≠ d.currId + 1 → stat (d.make f) j = stat d j := by
    intro j hj
    rw [stat, objs_make hf, if_neg hj]
    cases hold : d.objs j with
    | none =>
      cases hnew : (d.nextIndex.cleanupOldWireLocked (f (d.currId + 1))).objs j with
      | none => simp [stat, hold]
      | some w' =>
        obtain ⟨w, hw, -⟩ := hc.old j w' hnew
        rw [show d.nextIndex.objs = d.objs from rfl, hold] at hw
        cases hw
    | some w =>
      obtain ⟨w', hw', -⟩ := hc.grows.objs j w hold
      obtain ⟨v, hv, hs⟩ := hc.old j w' hw'
      obtain rfl : w = v := Option.some.inj (hold.symm.trans hv)
      rw [hw', stat, hold, Option.map_some, Option.map_some, status_of_samePeer hs]
  refine ⟨?_, hothers, ?_, ?_, fun k j hk hj => ?_, fun j ws' hj hl hk => ⟨?_, ?_⟩⟩
  · rw [stat, objs_make hf, if_pos rfl]; rfl
  · rw [stat, objs_eq_none h (Nat.lt_succ_self _)]; rfl
  · rw [lookup_make hf]
    exact if_pos rfl
  · rw [lookup_make hf, if_neg (show ¬ k = (f (d.currId + 1)).key from hk)] at hj
    exact hc.wires k j hj
  · obtain ⟨w, hw, rfl⟩ := stat_eq_some.mp hj.stat
    rw [lookup_make hf, if_neg (show ¬ (createWireStatus w).key = (f (d.currId + 1)).key from hk)]
    refine lookup_cleanup_of_not_superseded h.nextIndex hj.entry hw ?_
    rw [Daemon.supersedes, decide_eq_false_iff_not]
    rintro ⟨ht, -, hu, -⟩
    exact hl (Prod.ext ht hu)
  · obtain ⟨w, hw, rfl⟩ := stat_eq_some.mp hj.stat
    rw [hothers j (by have := (h.ids j w hw).2.2; omega)]
    exact hj.stat

end Tables

end Kne.WireStore
