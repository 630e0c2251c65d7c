import Kne.WireStoreView

/-!
`ReconGWires` makes a wire for every item of the store: a daemon that starts with the statuses of
some wires, one for each link, has just these wires in its wire map, all of them ready and with the
handles of their TAP devices.
-/

namespace Kne.WireStore

open Kne.WireModel Kne.WireTables

variable {L : Layout} {d : Daemon} {ws : GWireStatus} {attached : GWireStatus → Bool}

/-- The wires are those with the given statuses. -/
structure Restored (L : Layout) (d : Daemon) (items : List GWireStatus) : Prop where
  tables : Tables L d
  inMap : ∀ ws, (∃ id, InMap d id ws) ↔ ws ∈ items
  ready : ∀ id w, d.objs id = some w → w.isReady = true ∧ d.handles id = some w.tap

lemma restored_empty (L : Layout) : Restored L {} [] where
  tables := ⟨wf_empty, fun _ _ h => by cases h⟩
  inMap ws := by
    refine ⟨?_, fun h => by cases h⟩
    rintro ⟨_, h⟩
    cases h.stat
  ready _ _ h := by cases h

lemma planned_wireDefOf (h : Planned L ws) (id : ℕ) :
    Planned L (createWireStatus (createGWire id (wireDefOf ws))) := ⟨h.owner, h.link⟩

lemma Restored.next {items : List GWireStatus} (h : Restored L d items) (hp : Planned L ws)
    (hlink : ∀ ws' ∈ items, ws'.link ≠ ws.link) (hattached : attached ws = true) :
    Restored L (reCreateGWire attached d ws) (items ++ [ws]) := by
  have hold : ∀ k id, d.wires.lookup k = some id → ∃ ws', InMap d id ws' ∧ ws'.key = k ∧
      ws'.link ≠ ws.link := by
    intro k id hk
    obtain ⟨ws', hin, hkey⟩ := h.tables.inMap hk
    exact ⟨ws', hin, hkey, hlink ws' ((h.inMap ws').mp ⟨id, hin⟩)⟩
  have hnone : d.wires.lookup ws.key = none := by
    by_contra hne
    obtain ⟨id, hid⟩ := Option.ne_none_iff_exists'.mp hne
    obtain ⟨ws', hin, hkey, hl⟩ := hold _ id hid
    exact hl (hp.link_of_key (h.tables.planned id ws' hin.stat) hkey)
  have hmake : reCreateGWire attached d ws = d.make fun id => createGWire id (wireDefOf ws) := by
    simp [reCreateGWire, Daemon.getWireByUID, hnone, hattached, Daemon.reconLocalGRPCWire]
  -- no wire gives way, as none is of this link
  have hclean : d.nextIndex.cleanupOldWireLocked (createGWire (d.currId + 1) (wireDefOf ws)) =
      d.nextIndex := by
    refine cleanup_eq_self hnone fun k id old hk hobj => ?_
    obtain ⟨ws', hin, -, hl⟩ := hold k id hk
    have hws' := stat_of_objs (d := d) hobj
    rw [hin.stat] at hws'
    obtain rfl := Option.some.inj hws'
    rw [Daemon.supersedes, decide_eq_false_iff_not]
    rintro ⟨ht, -, hu, -⟩
    exact hl (Prod.ext ht hu)
  have hmade := made_make h.tables.wf (createGWire_id (wireDefOf ws))
  rw [hmake]
  refine ⟨⟨h.tables.wf.make (createGWire_id _), fun j ws' hws' => ?_⟩, fun ws' => ⟨?_, ?_⟩,
    fun j w hw => ?_⟩
  · by_cases hj : j = d.currId + 1
    · subst hj
      rw [hmade.stat] at hws'
      exact Option.some.inj hws' ▸ planned_wireDefOf hp _
    · exact h.tables.planned j ws' ((hmade.others j hj).symm.trans hws')
  · rintro ⟨j, hin⟩
    by_cases hj : j = d.currId + 1
    · subst hj
      have hstat := hin.stat
      rw [hmade.stat] at hstat
      exact List.mem_append_right _ (List.mem_singleton.mpr (Option.some.inj hstat).symm)
    · refine List.mem_append_left _
        ((h.inMap ws').mp ⟨j, hmade.older _ j (fun hk => hj ?_) hin.entry,
        (hmade.others j hj).symm.trans hin.stat⟩)
      have hentry := hin.entry
      rw [hk, hmade.entry] at hentry
      exact (Option.some.inj hentry).symm
  · intro hmem
    rcases List.mem_append.mp hmem with hmem | hmem
    · obtain ⟨j, hin⟩ := (h.inMap ws').mpr hmem
      refine ⟨j, hmade.stay j ws' hin (hlink ws' hmem) fun hk => ?_⟩
      have hentry := hin.entry
      rw [hk] at hentry
      cases hnone.symm.trans hentry
    · obtain rfl := List.mem_singleton.mp hmem
      exact ⟨d.currId + 1, hmade.entry, hmade.stat⟩
  · rw [objs_make (createGWire_id _), hclean] at hw
    by_cases hj : j = d.currId + 1
    · subst hj
      rw [if_pos rfl] at hw
      obtain rfl := Option.some.inj hw
      refine ⟨rfl, ?_⟩
      simp [Daemon.make, Daemon.addInMem, createGWire_id]
    · rw [if_neg hj] at hw
      have hhandle : (d.make fun id => createGWire id (wireDefOf ws)).handles j =
          d.nextIndex.handles j := by
        simp [Daemon.make, Daemon.addInMem, createGWire_id, hclean, hj]
      exact ⟨(h.ready j w hw).1, hhandle.trans (h.ready j w hw).2⟩

lemma Restored.foldl {items rest : List GWireStatus} (h : Restored L d items)
    (hplanned : ∀ ws ∈ rest, Planned L ws) (hattached : ∀ ws ∈ rest, attached ws = true)
    (hlinks : (items ++ rest).Pairwise fun ws ws' => ws.link ≠ ws'.link) :
    Restored L (rest.foldl (reCreateGWire attached) d) (items ++ rest) := by
  induction rest generalizing d items with
  | nil => simpa using h
  | cons ws rest ih =>
    have hnext := h.next (hplanned ws List.mem_cons_self)
      (fun ws' hws' => (List.pairwise_append.mp hlinks).2.2 ws' hws' ws List.mem_cons_self)
      (hattached ws List.mem_cons_self)
    have hall := ih hnext (fun ws' hws' => hplanned ws' (List.mem_cons_of_mem ws hws'))
      (fun ws' hws' => hattached ws' (List.mem_cons_of_mem ws hws')) (by simpa using hlinks)
    simpa using hall

lemma restored_reconGWires {store : AList (fun _ : String => Obj)} {order : List String}
    (hplanned : ∀ t ∈ order, ∀ ws ∈ itemsOf store t, Planned L ws)
    (hattached : ∀ t ∈ order, ∀ ws ∈ itemsOf store t, attached ws = true)
    (hlinks : (order.flatMap (itemsOf store)).Pairwise fun ws ws' => ws.link ≠ ws'.link) :
    Restored L (reconGWires attached store order) (order.flatMap (itemsOf store)) := by
  have hfold : reconGWires attached store order =
      (order.flatMap (itemsOf store)).foldl (reCreateGWire attached) {} := by
    rw [reconGWires, List.foldl_flatMap]
  have hmem : ∀ ws ∈ order.flatMap (itemsOf store), Planned L ws ∧ attached ws = true := by
    intro ws hws
    obtain ⟨t, ht, hitem⟩ := List.mem_flatMap.mp hws
    exact ⟨hplanned t ht ws hitem, hattached t ht ws hitem⟩
  rw [hfold]
  exact (restored_empty L).foldl (fun ws hws => (hmem ws hws).1) (fun ws hws => (hmem ws hws).2)
    hlinks

end Kne.WireStore
