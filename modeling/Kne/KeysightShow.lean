import Kne.Checked
import Kne.NodeShow

/-!
The pods and services of a Keysight node, as its package finds them again, and the two places that
print them. The package looks up in the cluster the names which the status of the custom resource
reports. It makes room for the pods by the status and for the services by the spec, and a name that
is not found leaves a nil in its place.

`Manager.Show` reads the first pod of a node without asking whether it is there, and hands the
services to a function that does ask. The command `kne show` asks for pods but not for services.
-/

namespace Kne.KeysightShow

open Kne.Checked Kne.TopoModel Kne.NodeModel Kne.NodeShow

/-- What is read of an `IxiaTG`: how many endpoints its spec has, and of its status the pods of the
interfaces, the pod of the API and the services of the API. -/
structure IxiaTG where
  apiEndPoints : ℕ
  interfacePods : List String := []
  apiPod : String := ""
  serviceNames : List String := []
  deriving DecidableEq, Repr

structure Pod where
  name : String
  podIP : String := ""
  deriving DecidableEq, Repr

section Slots

variable {α : Type}

/-- A write into a slice of pointers. -/
def store (slots : List (Option α)) (i : ℕ) (a : α) : Except Err (List (Option α)) :=
  if i < slots.length then .ok (slots.set i (some a)) else .error (.panic "index out of range")

/-- Write what is found under the names one after the other, from a place on. -/
def fill (find : String → Option α) :
    ℕ → List String → List (Option α) → Except Err (List (Option α))
  | _, [], slots => .ok slots
  | i, name :: names, slots =>
    match find name with
    | none => fill find (i + 1) names slots
    | some a => store slots i a >>= fill find (i + 1) names

end Slots

/-- `Pods`. -/
def pods (crd : IxiaTG) (items : List Pod) : Except Err (List (Option Pod)) :=
  let find name := items.find? (·.name = name)
  fill find 1 crd.interfacePods (List.replicate (crd.interfacePods.length + 1) none) >>= fun pods =>
    match find crd.apiPod with
    | some pod => store pods 0 pod
    | none => .ok pods.tail

/-- `Services`. -/
def services (crd : IxiaTG) (items : List Service) : Except Err (List (Option Service)) :=
  fill (fun name => items.find? (·.name = name)) 0 crd.serviceNames
    (List.replicate crd.apiEndPoints none)

/-! ### Where the lists are used -/

/-- What `Manager.Resources` returns. -/
structure Resources where
  pods : AList fun _ : String => List (Option Pod)
  services : AList fun _ : String => List (Option Service)

/-- A node of the topology with its service map. -/
structure ShownNode where
  name : String
  services : ServiceMap := ∅

def nilDeref : Err := .panic "invalid memory address or nil pointer dereference"

/-- The turn of `Manager.Show` for a node: the address and the service map it writes. -/
def showNode (r : Resources) (n : ShownNode) : Except Err (String × ServiceMap) :=
  match r.pods.lookup n.name with
  | none | some [] => .error (.failed ("pods for node " ++ n.name ++ " not found"))
  | some (none :: _) => .error nilDeref
  | some (some pod :: _) =>
    if n.services.keys = [] then .ok (pod.podIP, n.services)
    else
      match r.services.lookup n.name with
      | none => .error (.failed ("services for node " ++ n.name ++ " not found"))
      | some svcs =>
        match svcs.foldlM (fun m svc => populateServiceMap svc (some m)) n.services with
        | .error err => .error (.failed err)
        | .ok m => .ok (pod.podIP, m)

/-- The loop of `Manager.Show` over the nodes. -/
def showNodes (r : Resources) (nodes : List ShownNode) : Except Err (List (String × ServiceMap)) :=
  nodes.mapM (showNode r)

def podLine (topo : String) : Option Pod → String
  | none => "pod in unknown state: nil"
  | some p => topo ++ ":" ++ p.name ++ " IP:" ++ p.podIP

/-- The line of a service, without its spec and status. -/
def serviceLine (topo : String) : Option Service → Except Err String
  | none => .error nilDeref
  | some s => .ok (topo ++ ":" ++ s.name)

/-- `showFn` on the resources, which it goes through in the orders given. -/
def showFn (topo : String) (r : Resources) (o o' : Order) : Except Err (List String) := do
  let podLines := (o.keys r.pods.keys).flatMap fun k =>
    ("Pod " ++ k ++ ":") :: ((r.pods.lookup k).getD []).map (podLine topo)
  let svcLines ← (o'.keys r.services.keys).mapM fun k =>
    ((r.services.lookup k).getD []).mapM (serviceLine topo)
  return ("Pods:" :: podLines) ++ ("Services:" :: svcLines.flatten)

/-! ### What is found -/

section Slots

variable {α : Type} {find : String → Option α} {i : ℕ} {names : List String}
  {slots : List (Option α)}

/-- No name that is found lies beyond the slice. -/
def Fits (find : String → Option α) (i : ℕ) (names : List String) (n : ℕ) : Prop :=
  ∀ j, ((names[j]?).bind find).isSome → i + j < n

/-- The slice with what was found. -/
def filled (find : String → Option α) (i : ℕ) (names : List String) (slots : List (Option α)) :
    List (Option α) :=
  slots.mapIdx fun k slot => if k < i then slot else ((names[k - i]?).bind find).or slot

lemma fits_cons {name : String} {n : ℕ} : Fits find i (name :: names) n ↔
    ((find name).isSome → i < n) ∧ Fits find (i + 1) names n := by
  constructor
  · intro h
    refine ⟨fun hfound => by simpa using h 0 (by simpa using hfound), fun j hj => ?_⟩
    have hlt := h (j + 1) (by simpa using hj)
    omega
  · rintro ⟨hname, hrest⟩ j hj
    rcases j with _ | j
    · simpa using hname (by simpa using hj)
    · have hlt := hrest j (by simpa using hj)
      omega

lemma filled_cons {name : String} : filled find i (name :: names) slots =
    filled find (i + 1) names ((find name).elim slots fun a => slots.set i (some a)) := by
  apply List.ext_getElem?
  intro k
  simp only [filled, List.getElem?_mapIdx]
  rcases Nat.lt_trichotomy k i with hk | rfl | hk
  · have hslot : ((find name).elim slots fun a => slots.set i (some a))[k]? = slots[k]? := by
      cases find name <;> simp [List.getElem?_set_ne hk.ne']
    simp [hslot, hk, Nat.lt_succ_of_lt hk]
  · cases hname : find name with
    | none => simp [hname]
    | some a =>
      by_cases hk : k < slots.length
      · simp [hname, hk]
      · simp [hk]
  · have hslot : ((find name).elim slots fun a => slots.set i (some a))[k]? = slots[k]? := by
      cases find name <;> simp [List.getElem?_set_ne hk.ne]
    have hsub : k - i = k - (i + 1) + 1 := by omega
    simp [hslot, hsub, Nat.not_lt.mpr hk.le, Nat.not_lt.mpr (Nat.succ_le_of_lt hk)]

lemma fill_eq_ok (h : Fits find i names slots.length) :
    fill find i names slots = .ok (filled find i names slots) := by
  induction names generalizing i slots with
  | nil =>
    have hfilled : filled find i [] slots = slots := by
      apply List.ext_getElem?
      intro k
      simp [filled]
    rw [hfilled]
    rfl
  | cons name names ih =>
    obtain ⟨hname, hrest⟩ := fits_cons.mp h
    rw [filled_cons]
    cases hfound : find name with
    | none =>
      simp only [fill, hfound, Option.elim_none]
      exact ih hrest
    | some a =>
      have hi : i < slots.length := hname (by simp [hfound])
      simp only [fill, hfound, store, hi, if_true, Option.elim_some]
      exact ih (by simpa using hrest)

lemma fill_panics (h : ¬ Fits find i names slots.length) :
    ∃ msg, fill find i names slots = .error (.panic msg) := by
  induction names generalizing i slots with
  | nil => exact absurd (fun j hj => by simp at hj) h
  | cons name names ih =>
    rw [fits_cons, Classical.not_and_iff_not_or_not, Classical.not_imp] at h
    cases hfound : find name with
    | none =>
      simp only [fill, hfound]
      exact ih (h.resolve_left (by simp [hfound]))
    | some a =>
      by_cases hi : i < slots.length
      · simp only [fill, hfound, store, hi, if_true]
        have hrest : ¬ Fits find (i + 1) names (slots.set i (some a)).length := by
          simpa [hi] using h
        exact ih hrest
      · exact ⟨_, by simp only [fill, hfound, store, hi, if_false]; rfl⟩

end Slots

variable {crd : IxiaTG} {podItems : List Pod} {svcItems : List Service}

lemma pods_eq : pods crd podItems =
    .ok (((podItems.find? (·.name = crd.apiPod)).map some).toList ++
      crd.interfacePods.map fun name => podItems.find? (·.name = name)) := by
  have hfits : Fits (fun name => podItems.find? (·.name = name)) 1 crd.interfacePods
      (List.replicate (crd.interfacePods.length + 1) (none : Option Pod)).length := by
    intro j hj
    have hlt : j < crd.interfacePods.length := by
      by_contra hge
      simp [List.getElem?_eq_none (Nat.not_lt.mp hge)] at hj
    simp only [List.length_replicate]
    omega
  have htail : filled (fun name => podItems.find? (·.name = name)) 1 crd.interfacePods
      (List.replicate (crd.interfacePods.length + 1) none) =
        none :: crd.interfacePods.map fun name => podItems.find? (·.name = name) := by
    apply List.ext_getElem?
    intro k
    rcases k with _ | k
    · simp [filled]
    · by_cases hk : k < crd.interfacePods.length
      · simp [filled, hk]
      · simp [filled, hk]
  simp only [pods, fill_eq_ok hfits, htail]
  cases hapi : podItems.find? (·.name = crd.apiPod) with
  | none => simp [bind, Except.bind]
  | some pod => simp [bind, Except.bind, store]

lemma found_iff {i : ℕ} :
    (((crd.serviceNames[i]?).bind fun name => svcItems.find? (·.name = name)).isSome) ↔
      ∃ svc ∈ svcItems, crd.serviceNames[i]? = some svc.name := by
  cases hname : crd.serviceNames[i]? with
  | none => simp
  | some name =>
    simp only [Option.bind_some, List.find?_isSome, decide_eq_true_eq, Option.some.injEq]
    exact exists_congr fun svc => and_congr_right fun _ => eq_comm

lemma services_eq_ok
    (h : Fits (fun name => svcItems.find? (·.name = name)) 0 crd.serviceNames crd.apiEndPoints) :
    services crd svcItems = .ok ((List.range crd.apiEndPoints).map fun i =>
      (crd.serviceNames[i]?).bind fun name => svcItems.find? (·.name = name)) := by
  rw [services, fill_eq_ok (by simpa using h)]
  congr 1
  apply List.ext_getElem?
  intro k
  by_cases hk : k < crd.apiEndPoints
  · simp [filled, hk]
  · simp [filled, hk]

/-! ### Who dereferences a nil -/

def Panics {α : Type} (x : Except Err α) : Prop := ∃ msg, x = .error (.panic msg)

variable {r : Resources} {n : ShownNode} {nodes : List ShownNode} {topo : String} {o o' : Order}

lemma showNode_panics_iff :
    Panics (showNode r n) ↔ ∃ ps, r.pods.lookup n.name = some (none :: ps) := by
  unfold Panics showNode
  rcases r.pods.lookup n.name with _ | _ | ⟨_ | pod, ps⟩
  · simp
  · simp
  · simp [nilDeref]
  · simp only [Option.some.injEq, List.cons.injEq, reduceCtorEq, false_and, exists_false, iff_false,
      not_exists]
    intro msg
    split_ifs
    · simp
    · split
      · simp
      · split <;> simp

lemma exists_showNode_panics (h : Panics (showNodes r nodes)) :
    ∃ n ∈ nodes, Panics (showNode r n) := by
  obtain ⟨msg, hmsg⟩ := h
  obtain ⟨n, hn, herr⟩ := exists_of_mapM_error hmsg
  exact ⟨n, hn, msg, herr⟩

lemma serviceLine_error {svc : Option Service} {err : Err} (h : serviceLine topo svc = .error err) :
    svc = none ∧ err = nilDeref := by
  cases svc with
  | none => exact ⟨rfl, by simpa [serviceLine, eq_comm] using h⟩
  | some s => simp [serviceLine] at h

lemma showFn_error {err : Err} (h : showFn topo r o o' = .error err) :
    err = nilDeref ∧ ∃ k svcs, r.services.lookup k = some svcs ∧ none ∈ svcs := by
  unfold showFn at h
  cases hlines : (o'.keys r.services.keys).mapM fun k =>
      ((r.services.lookup k).getD []).mapM (serviceLine topo) with
  | ok lines => simp [hlines, bind, Except.bind, pure, Except.pure] at h
  | error err' =>
    obtain rfl : err' = err := by simpa [hlines, bind, Except.bind] using h
    obtain ⟨k, -, hk⟩ := exists_of_mapM_error hlines
    obtain ⟨svc, hsvc, herr⟩ := exists_of_mapM_error hk
    obtain ⟨rfl, rfl⟩ := serviceLine_error herr
    cases hsvcs : r.services.lookup k with
    | none => simp [hsvcs] at hsvc
    | some svcs => exact ⟨rfl, k, svcs, hsvcs, by simpa [hsvcs] using hsvc⟩

lemma showFn_panics_iff : Panics (showFn topo r o o') ↔
    ∃ k svcs, r.services.lookup k = some svcs ∧ none ∈ svcs := by
  constructor
  · rintro ⟨msg, h⟩
    exact (showFn_error h).2
  · rintro ⟨k, svcs, hsvcs, hnil⟩
    cases hshow : showFn topo r o o' with
    | error err => exact ⟨_, by rw [(showFn_error hshow).1]; rfl⟩
    | ok lines =>
      obtain ⟨svcLines, hlines, -⟩ := bind_ok_iff.mp hshow
      have hkey : k ∈ o'.keys r.services.keys := o'.mem_keys_of_lookup hsvcs
      obtain ⟨out, hout⟩ := ok_of_mapM_ok hlines k hkey
      obtain ⟨line, hline⟩ := ok_of_mapM_ok hout none (by simpa [hsvcs] using hnil)
      cases hline

/-! ### When the listing is safe -/

/-- Both lists are returned, and whatever else is shown with them, as long as there is no nil in it,
no nil is dereferenced. -/
def Safe (crd : IxiaTG) (podItems : List Pod) (svcItems : List Service) : Prop :=
  ∃ ps svcs, pods crd podItems = .ok ps ∧ services crd svcItems = .ok svcs ∧
    ∀ name (r : Resources), r.pods.lookup name = some ps → r.services.lookup name = some svcs →
      (∀ k ≠ name, (∀ l ∈ r.pods.lookup k, none ∉ l) ∧ ∀ l ∈ r.services.lookup k, none ∉ l) →
      ∀ nodes topo o o', ¬ Panics (showNodes r nodes) ∧ ¬ Panics (showFn topo r o o')

/-- The names that are found are those of the first places, as many as there are endpoints. -/
def Listed (crd : IxiaTG) (svcItems : List Service) : Prop :=
  ∀ i, (∃ svc ∈ svcItems, crd.serviceNames[i]? = some svc.name) ↔ i < crd.apiEndPoints

/-- The first entry is the pod of the API, that of the first interface, or there is none. -/
def PodFound (crd : IxiaTG) (podItems : List Pod) : Prop :=
  (∃ pod ∈ podItems, pod.name = crd.apiPod) ∨
    ∀ name ∈ crd.interfacePods.head?, ∃ pod ∈ podItems, pod.name = name

lemma podFound_iff : PodFound crd podItems ↔
    (((podItems.find? (·.name = crd.apiPod)).map some).toList ++
      crd.interfacePods.map fun name => podItems.find? (·.name = name)).head? ≠ some none := by
  unfold PodFound
  cases hapi : podItems.find? (·.name = crd.apiPod) with
  | some pod =>
    have hmem := List.mem_of_find?_eq_some hapi
    have hname := List.find?_some hapi
    simp only [Option.map_some, Option.toList_some, List.cons_append, List.head?_cons, ne_eq,
      Option.some.injEq, reduceCtorEq, not_false_iff, iff_true]
    exact .inl ⟨pod, hmem, by simpa using hname⟩
  | none =>
    have hnone : ¬ ∃ pod ∈ podItems, pod.name = crd.apiPod := by
      simpa using hapi
    cases hpods : crd.interfacePods with
    | nil => simp
    | cons name names => simp [hnone]

lemma listed_iff : Listed crd svcItems ↔
    Fits (fun name => svcItems.find? (·.name = name)) 0 crd.serviceNames crd.apiEndPoints ∧
      none ∉ (List.range crd.apiEndPoints).map fun i =>
        (crd.serviceNames[i]?).bind fun name => svcItems.find? (·.name = name) := by
  simp only [Listed, ← found_iff, Fits, Nat.zero_add, List.mem_map, List.mem_range, not_exists,
    not_and]
  constructor
  · intro h
    refine ⟨fun i => (h i).mp, fun i hi hnil => ?_⟩
    simpa [hnil] using (h i).mpr hi
  · rintro ⟨hfits, hfound⟩ i
    exact ⟨hfits i, fun hi => Option.isSome_iff_ne_none.mpr (hfound i hi)⟩

/-- Resources of a single node. -/
def single (name : String) (ps : List (Option Pod)) (svcs : List (Option Service)) : Resources :=
  ⟨(∅ : AList _).insert name ps, (∅ : AList _).insert name svcs⟩

variable {name : String} {ps : List (Option Pod)} {svcs : List (Option Service)}

lemma lookup_pods_single : (single name ps svcs).pods.lookup name = some ps :=
  AList.lookup_insert _

lemma lookup_services_single : (single name ps svcs).services.lookup name = some svcs :=
  AList.lookup_insert _

lemma no_nil_else_single (k : String) (hk : k ≠ name) :
    (∀ l ∈ (single name ps svcs).pods.lookup k, none ∉ l) ∧
      ∀ l ∈ (single name ps svcs).services.lookup k, none ∉ l := by
  have hpods : (single name ps svcs).pods.lookup k = none :=
    (AList.lookup_insert_ne hk).trans (AList.lookup_empty k)
  have hsvcs : (single name ps svcs).services.lookup k = none :=
    (AList.lookup_insert_ne hk).trans (AList.lookup_empty k)
  simp [hpods, hsvcs]

lemma exists_panic_single (name : String) (h : ps.head? = some none ∨ none ∈ svcs) :
    Panics (showNodes (single name ps svcs) [⟨name, ∅⟩]) ∨
      Panics (showFn name (single name ps svcs) keptOrder keptOrder) := by
  rcases h with hhead | hnil
  · obtain ⟨tl, rfl⟩ := List.head?_eq_some_iff.mp hhead
    obtain ⟨msg, hmsg⟩ : Panics (showNode (single name (none :: tl) svcs) ⟨name, ∅⟩) :=
      showNode_panics_iff.mpr ⟨tl, lookup_pods_single⟩
    exact .inl ⟨msg, by simp [showNodes, hmsg, bind, Except.bind]⟩
  · exact .inr (showFn_panics_iff.mpr ⟨name, svcs, lookup_services_single, hnil⟩)

/-- **When the lists of a Keysight node can be shown.** Exactly if the service names that are found
are as many as the endpoints of the spec and stand before the others, and the first pod is found. -/
theorem keysight_shown_iff (crd : IxiaTG) (podItems : List Pod) (svcItems : List Service) :
    Safe crd podItems svcItems ↔ Listed crd svcItems ∧ PodFound crd podItems := by
  rw [listed_iff, podFound_iff]
  constructor
  · rintro ⟨ps, svcs, hps, hsvcs, hsafe⟩
    have hfits : Fits (fun name => svcItems.find? (·.name = name)) 0 crd.serviceNames
        crd.apiEndPoints := by
      by_contra hnot
      have hlong : ¬ Fits (fun name => svcItems.find? (·.name = name)) 0 crd.serviceNames
          (List.replicate crd.apiEndPoints (none : Option Service)).length := by simpa using hnot
      obtain ⟨msg, hmsg⟩ := fill_panics hlong
      rw [services, hmsg] at hsvcs
      cases hsvcs
    rw [services_eq_ok hfits] at hsvcs
    rw [pods_eq] at hps
    cases hsvcs
    cases hps
    -- the node is shown alone
    have hshown := fun nodes => hsafe "otg" (single "otg" _ _) lookup_pods_single
      lookup_services_single no_nil_else_single nodes "otg" keptOrder keptOrder
    have hnone := fun h => (exists_panic_single "otg" h).elim (hshown _).1 (hshown []).2
    exact ⟨⟨hfits, fun h => hnone (.inr h)⟩, fun h => hnone (.inl h)⟩
  · rintro ⟨⟨hfits, hnil⟩, hhead⟩
    refine ⟨_, _, pods_eq, services_eq_ok hfits, ?_⟩
    intro name r hps hsvcs helse nodes topo o o'
    constructor
    · intro hpanic
      obtain ⟨n, -, hn⟩ := exists_showNode_panics hpanic
      obtain ⟨tl, htl⟩ := showNode_panics_iff.mp hn
      by_cases hname : n.name = name
      · rw [hname, hps] at htl
        exact hhead (by rw [Option.some.inj htl]; rfl)
      · exact (helse n.name hname).1 _ htl List.mem_cons_self
    · intro hpanic
      obtain ⟨k, svcs, hk, hmem⟩ := showFn_panics_iff.mp hpanic
      by_cases hname : k = name
      · rw [hname, hsvcs] at hk
        exact hnil (by rw [Option.some.inj hk]; exact hmem)
      · exact (helse k hname).2 svcs hk hmem

/-- A resource whose status names more services than its spec has endpoints, and one whose pods are
not there yet. -/
def moreServices : IxiaTG where
  apiEndPoints := 1
  serviceNames := ["service-gnmi", "service-https"]

def earlyPods : IxiaTG where
  apiEndPoints := 1
  interfacePods := ["otg-port-eth1"]
  apiPod := "otg-controller"
  serviceNames := ["service-gnmi"]

def otgServices : List Service :=
  [{ name := "service-gnmi", labels := [], selector := [] },
    { name := "service-https", labels := [], selector := [] }]

theorem listing_crashes :
    services moreServices otgServices = .error (.panic "index out of range") ∧
    pods earlyPods [] = .ok [none] ∧ services earlyPods [] = .ok [none] ∧
    showNodes (single "otg" [none] [none]) [⟨"otg", ∅⟩] = .error nilDeref ∧
    showFn "lab" (single "otg" [none] [none]) keptOrder keptOrder = .error nilDeref ∧
    ¬ Safe moreServices [] otgServices ∧ ¬ Safe earlyPods [] [] := by
  have hmore : services moreServices otgServices = .error (.panic "index out of range") := by
    decide +kernel
  have hpods : pods earlyPods [] = .ok [none] := by decide +kernel
  have hsvcs : services earlyPods [] = .ok [none] := by decide +kernel
  have hshow : showNodes (single "otg" [none] [none]) [⟨"otg", ∅⟩] = .error nilDeref := rfl
  have hcmd : showFn "lab" (single "otg" [none] [none]) keptOrder keptOrder = .error nilDeref := rfl
  refine ⟨hmore, hpods, hsvcs, hshow, hcmd, ?_, ?_⟩
  · rintro ⟨_, svcs, -, hok, -⟩
    rw [hmore] at hok
    cases hok
  · rintro ⟨ps, svcs, hok, hok', hsafe⟩
    rw [hpods] at hok
    rw [hsvcs] at hok'
    cases hok
    cases hok'
    refine (hsafe "otg" (single "otg" _ _) lookup_pods_single lookup_services_single
      no_nil_else_single [⟨"otg", ∅⟩] "lab" keptOrder keptOrder).1 ⟨_, hshow⟩

end Kne.KeysightShow
