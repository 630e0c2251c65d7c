import Kne.NodeFailed

/-!
When the creation of a pod crashes instead of returning an error. Two things can crash it: a
resource quantity is parsed by a function that panics on what it cannot parse, and the volume of the
config is dereferenced although there is none for an empty config. Whether the code gets there
depends on what the vendor does before.
-/

namespace Kne.NodePanics

open Kne.Objects Kne.NodeModel Kne.NodePrograms Kne.NodeServices Kne.NodeMade Kne.NodeFailed

variable {w : Env} {pb : Proto} {s t : Cluster} {α β : Type} {x : Prog α}

/-! ### Panics -/

/-- The program panics. -/
def Panics (x : Prog α) (s : Cluster) : Prop := ∃ text t, x s = .error (.panic text) t

lemma panics_bind_iff {next : α → Prog β} :
    Panics (x >>= next) s ↔ Panics x s ∨ ∃ a t, x s = .ok a t ∧ Panics (next a) t := by
  unfold Panics
  simp only [bind_eq_error_iff]
  constructor
  · rintro ⟨text, t, h | ⟨a, u, hx, hnext⟩⟩
    · exact Or.inl ⟨text, t, h⟩
    · exact Or.inr ⟨a, u, hx, text, t, hnext⟩
  · rintro (⟨text, t, h⟩ | ⟨a, u, hx, text, t, hnext⟩)
    · exact ⟨text, t, Or.inl h⟩
    · exact ⟨text, t, Or.inr ⟨a, u, hx, hnext⟩⟩

lemma panics_wrap_iff (pre : String) : Panics (wrap pre x) s ↔ Panics x s := by
  unfold Panics wrap
  cases x s with
  | ok a t => simp
  | error e t => cases e <;> simp [Err.wrap]

lemma panics_undoing_iff (created : List Service) : Panics (undoing created x) s ↔ Panics x s := by
  unfold Panics undoing
  cases x s with
  | ok a t => simp
  | error e t => simp

lemma not_panics_pure (a : α) : ¬ Panics (pure a : Prog α) s := by
  rintro ⟨text, t, h⟩
  exact pure_ne_error h

lemma not_panics_throw (text : String) : ¬ Panics (throw (.failed text) : Prog α) s := by
  rintro ⟨text', t, h⟩
  cases (throw_eq_error_iff.mp h).1

lemma panics_throw (text : String) : Panics (throw (.panic text) : Prog α) s :=
  ⟨text, s, throw_eq_error_iff.mpr ⟨rfl, rfl⟩⟩

lemma not_panics_orFail (r : Except String α) : ¬ Panics (orFail r) s := by
  cases r with
  | ok a => exact not_panics_pure a
  | error err => exact not_panics_throw err

lemma not_panics_createObj (o : Obj) : ¬ Panics (createObj w o) s := by
  rintro ⟨text, t, h⟩
  unfold createObj at h
  cases hr : w.refuse o.key with
  | some err => simp [hr] at h
  | none => cases hc : s.create o <;> simp [hr, hc] at h

lemma panics_bind_of_not {next : α → Prog β} (h : ¬ Panics x s) :
    Panics (x >>= next) s ↔ ∃ a t, x s = .ok a t ∧ Panics (next a) t := by
  rw [panics_bind_iff, or_iff_right h]

lemma panics_bind_iff_and {next : α → Prog β} {p : Prop} (hx : ¬ Panics x s)
    (h : ∀ a t, x s = .ok a t → (Panics (next a) t ↔ p)) :
    Panics (x >>= next) s ↔ (∃ a t, x s = .ok a t) ∧ p := by
  rw [panics_bind_of_not hx]
  constructor
  · rintro ⟨a, t, hok, hnext⟩
    exact ⟨⟨a, t, hok⟩, (h a t hok).mp hnext⟩
  · rintro ⟨⟨a, t, hok⟩, hp⟩
    exact ⟨a, t, hok, (h a t hok).mpr hp⟩

lemma panics_orFail_bind_iff {r : Except String α} {next : α → Prog β} :
    Panics (orFail r >>= next) s ↔ ∃ a, r = .ok a ∧ Panics (next a) s := by
  rw [panics_bind_of_not (not_panics_orFail r)]
  simp only [orFail_ok_iff, and_assoc, exists_and_left, exists_eq_left']

/-! ### Quantities -/

/-- A constraint on the CPU or the memory is no quantity. -/
def BadQuantity (w : Env) (pb : Proto) : Prop :=
  ∃ name ∈ ["cpu", "memory"], ∃ quantity, pb.constraints.lookup name = some quantity ∧
    w.quantityErr quantity ≠ none

lemma panics_parseConstraint_iff (name : String) : Panics (parseConstraint w pb name) s ↔
    ∃ quantity, pb.constraints.lookup name = some quantity ∧ w.quantityErr quantity ≠ none := by
  unfold parseConstraint
  cases pb.constraints.lookup name with
  | none => simpa using not_panics_pure ()
  | some quantity =>
    simp only [mustParse, Option.some.injEq, exists_eq_left']
    cases w.quantityErr quantity with
    | none => simpa using not_panics_pure ()
    | some err => simpa using panics_throw _

lemma parseConstraint_of_not_panics {name : String} (h : ¬ Panics (parseConstraint w pb name) s) :
    parseConstraint w pb name s = .ok () s := by
  cases hs : parseConstraint w pb name s with
  | ok z t => rw [parseConstraint_ok hs]
  | error e t =>
    obtain ⟨text, rfl⟩ := parseConstraint_error hs
    exact absurd ⟨text, t, hs⟩ h

lemma panics_toResourceRequirements_iff :
    Panics (toResourceRequirements w pb) s ↔ BadQuantity w pb := by
  unfold toResourceRequirements BadQuantity
  rw [panics_bind_iff]
  simp only [List.mem_cons, List.not_mem_nil, or_false, exists_eq_or_imp, exists_eq_left,
    ← panics_parseConstraint_iff (s := s)]
  constructor
  · rintro (h | ⟨z, t, hcpu, hmemory⟩)
    · exact Or.inl h
    · rw [parseConstraint_ok hcpu]
      exact Or.inr hmemory
  · rintro (h | h)
    · exact Or.inl h
    · by_cases hcpu : Panics (parseConstraint w pb "cpu") s
      · exact Or.inl hcpu
      · exact Or.inr ⟨(), s, parseConstraint_of_not_panics hcpu, h⟩

lemma panics_resources_bind_iff {next : Unit → Prog β} :
    Panics (toResourceRequirements w pb >>= next) s ↔ BadQuantity w pb ∨ Panics (next ()) s := by
  rw [panics_bind_iff, panics_toResourceRequirements_iff]
  constructor
  · rintro (h | ⟨z, t, hres, hnext⟩)
    · exact Or.inl h
    · rw [toResourceRequirements_ok hres]
      exact Or.inr hnext
  · rintro (h | h)
    · exact Or.inl h
    · by_cases hbad : BadQuantity w pb
      · exact Or.inl hbad
      · refine Or.inr ⟨(), s, ?_, h⟩
        cases hs : toResourceRequirements w pb s with
        | ok z t => rw [toResourceRequirements_ok hs]
        | error e t =>
          obtain ⟨text, rfl⟩ := toResourceRequirements_error hs
          exact absurd (panics_toResourceRequirements_iff.mp ⟨text, t, hs⟩) hbad

/-! ### Configs -/

/-- The config is set but has no bytes. -/
def EmptyConfig (w : Env) (pb : Proto) : Prop :=
  pb.config.configData ≠ none ∧ readConfig w pb = .ok []

lemma not_panics_createTemp (data : Bytes) : ¬ Panics (createTemp w pb data) s := by
  unfold createTemp
  cases w.tempErr with
  | some err => exact not_panics_throw err
  | none =>
    simp only
    rw [panics_bind_of_not (not_panics_createObj _)]
    rintro ⟨z, t, -, h⟩
    cases hw : w.writeErr with
    | none =>
      rw [hw] at h
      exact not_panics_pure _ h
    | some err =>
      rw [hw] at h
      rcases panics_bind_iff.mp h with ⟨text, u, h⟩ | ⟨z', u, -, h⟩
      · cases h
      · exact not_panics_throw err h

lemma not_panics_createConfig : ¬ Panics (createConfig w pb) s := by
  unfold createConfig
  rw [panics_orFail_bind_iff]
  rintro ⟨data, -, h⟩
  split_ifs at h
  · exact not_panics_pure _ h
  · rw [panics_bind_of_not (not_panics_createObj _)] at h
    obtain ⟨z, t, -, h⟩ := h
    exact not_panics_pure _ h
  · rw [panics_bind_of_not (not_panics_createTemp data)] at h
    obtain ⟨path, t, -, h⟩ := h
    exact not_panics_pure _ h

lemma createConfig_none_iff :
    (∃ t, createConfig w pb s = .ok none t) ↔ readConfig w pb = .ok [] := by
  constructor
  · rintro ⟨t, h⟩
    obtain ⟨data, cfg, hread, hm, -⟩ := createConfig_made h
    cases hm
    exact hread
  · intro hread
    exact ⟨s, bind_eq_ok_iff.mpr ⟨[], s, orFail_ok_iff.mpr ⟨hread, rfl⟩, rfl⟩⟩

lemma panics_mountConfig_iff : Panics (mountConfig w pb) s ↔ EmptyConfig w pb := by
  unfold mountConfig EmptyConfig
  cases hd : pb.config.configData with
  | none => simpa using not_panics_pure _
  | some d =>
    rw [panics_bind_of_not not_panics_createConfig, ← createConfig_none_iff (s := s)]
    simp only [ne_eq, reduceCtorEq, not_false_eq_true, true_and]
    constructor
    · rintro ⟨vol, t, hconfig, h⟩
      cases vol with
      | none => exact ⟨t, hconfig⟩
      | some vol => exact absurd h (not_panics_pure _)
    · rintro ⟨t, hconfig⟩
      exact ⟨none, t, hconfig, panics_throw _⟩

lemma panics_mounted_iff {pod : List Volume × List VolumeMount → Prog Unit}
    (h : ∀ x s, ¬ Panics (pod x) s) :
    Panics (toResourceRequirements w pb >>= fun _ => mountConfig w pb >>= pod) s ↔
      BadQuantity w pb ∨ EmptyConfig w pb := by
  rw [panics_resources_bind_iff, panics_bind_iff, panics_mountConfig_iff]
  refine or_congr_right (or_iff_left ?_)
  rintro ⟨x, t, -, hpod⟩
  exact h x t hpod

lemma panics_copied_iff {pod : Option Volume → Prog Unit} (h : ∀ x s, ¬ Panics (pod x) s) :
    Panics (toResourceRequirements w pb >>= fun _ => createConfig w pb >>= pod) s ↔
      BadQuantity w pb := by
  rw [panics_resources_bind_iff, panics_bind_of_not not_panics_createConfig]
  refine or_iff_left ?_
  rintro ⟨x, t, -, hpod⟩
  exact h x t hpod

/-! ### Services -/

lemma not_panics_createServices (created svcs : List Service) :
    ¬ Panics (createServices w created svcs) s := by
  induction svcs generalizing created s with
  | nil => exact not_panics_pure created
  | cons svc svcs ih =>
    rw [createServices, panics_bind_iff, panics_undoing_iff]
    rintro (h | ⟨z, t, -, h⟩)
    · exact not_panics_createObj _ h
    · exact ih _ h

lemma not_panics_createProxy (created : List Service) : ¬ Panics (createProxy w pb created) s := by
  unfold createProxy
  cases proxiedPorts pb created with
  | nil => exact not_panics_pure ()
  | cons port ports =>
    rw [panics_wrap_iff]
    exact not_panics_createObj _

lemma not_panics_createService : ¬ Panics (createService w pb) s := by
  unfold createService
  split_ifs
  · exact not_panics_pure ()
  · rw [panics_orFail_bind_iff]
    rintro ⟨ports, -, h⟩
    rw [panics_bind_of_not (not_panics_createServices _ _)] at h
    obtain ⟨created, t, -, h⟩ := h
    rw [panics_undoing_iff] at h
    exact not_panics_createProxy created h

/-! ### The vendors -/

/-- Alpine's files can be read and stored. -/
def FilesOk (w : Env) (pb : Proto) (s : Cluster) : Prop :=
  match pb.config.vendorData with
  | none => True
  | some (.alpine files _ _) =>
    files = [] ∨ (∃ contents, readFiles w files = .ok contents) ∧
      Free w s ⟨.configMap, pb.name ++ "-files"⟩
  | some _ => False

/-- Ciena's equipment file can be read and stored. -/
def EquipmentOk (w : Env) (pb : Proto) (s : Cluster) : Prop :=
  match pb.config.vendorData with
  | none => True
  | some (.ciena _ equipmentJson) =>
    (∃ contents, w.readFile w.basePath equipmentJson = .ok contents) ∧
      Free w s ⟨.configMap, pb.name ++ "-file"⟩
  | some _ => False

/-- The code that may crash is reached with something to crash on. -/
def Crashes (w : Env) (pb : Proto) (s : Cluster) : NodeType → Prop
  | .impl => LinksOk w pb ∧ (BadQuantity w pb ∨ EmptyConfig w pb)
  | .cisco => w.constraintsErr = none ∧
      (BadQuantity w pb ∨ pb.model ≠ modelXRD ∧ EmptyConfig w pb)
  | .juniper => BadQuantity w pb
  | .alpine => BadQuantity w pb ∨ FilesOk w pb s ∧ EmptyConfig w pb
  | .sonic => BadQuantity w pb ∨ EmptyConfig w pb
  | .ciena => EquipmentOk w pb s ∧ (BadQuantity w pb ∨ EmptyConfig w pb)
  | .forward => (∃ plan, forwardPlan pb = .ok plan) ∧ (BadQuantity w pb ∨ EmptyConfig w pb)

/-- `CreatePod`, and `Create` for Cisco and Juniper, which have no `CreatePod` of their own. -/
def podProgram (w : Env) (pb : Proto) : NodeType → Prog Unit
  | .cisco => ciscoCreate w pb
  | .juniper => juniperCreate w pb
  | .impl => implCreatePod w pb
  | .alpine => alpineCreatePod w pb
  | .sonic => sonicCreatePod w pb
  | .ciena => cienaCreatePod w pb
  | .forward => forwardCreatePod w pb

section Stored
variable {r : Except String β} {o : β → Obj} {y : α}

lemma not_panics_stored : ¬ Panics (do let c ← orFail r; createObj w (o c); pure y) s := by
  rw [panics_orFail_bind_iff]
  rintro ⟨contents, -, h⟩
  rw [panics_bind_of_not (not_panics_createObj _)] at h
  obtain ⟨z, t, -, h⟩ := h
  exact not_panics_pure _ h

lemma stored_ok_iff {k : Key} (hk : ∀ c, (o c).key = k) :
    (∃ x t, (do let c ← orFail r; createObj w (o c); pure y : Prog α) s = .ok x t) ↔
      (∃ c, r = .ok c) ∧ Free w s k := by
  constructor
  · rintro ⟨x, t, h⟩
    obtain ⟨c, u, hor, hrest⟩ := bind_eq_ok_iff.mp h
    obtain ⟨hr, rfl⟩ := orFail_ok_iff.mp hor
    obtain ⟨u, hcreate, -⟩ := seq_eq_ok_iff.mp hrest
    refine ⟨⟨c, hr⟩, ?_⟩
    rw [← hk c]
    exact (createObj_ok_iff _).mp ⟨u, hcreate⟩
  · rintro ⟨⟨c, hr⟩, hfree⟩
    rw [← hk c] at hfree
    obtain ⟨t, ht⟩ := (createObj_ok_iff _).mpr hfree
    exact ⟨y, t, bind_eq_ok_iff.mpr ⟨c, s, orFail_ok_iff.mpr ⟨hr, rfl⟩,
      seq_eq_ok_iff.mpr ⟨t, ht, rfl⟩⟩⟩

end Stored

lemma not_panics_alpineFiles : ¬ Panics (alpineFiles w pb) s := by
  unfold alpineFiles
  split
  · exact not_panics_pure _
  · split_ifs
    · exact not_panics_pure _
    · exact not_panics_stored
  · exact not_panics_throw _

lemma alpineFiles_ok_iff : (∃ x t, alpineFiles w pb s = .ok x t) ↔ FilesOk w pb s := by
  unfold alpineFiles FilesOk
  match pb.config.vendorData with
  | none => exact iff_of_true ⟨_, s, rfl⟩ trivial
  | some (.alpine files mountDir containers) =>
    simp only
    split_ifs with hf
    · exact iff_of_true ⟨_, s, rfl⟩ (Or.inl hf)
    · rw [or_iff_right hf]
      exact stored_ok_iff fun _ => rfl
  | some (.ciena _ _) | some (.forward _) | some (.other _) =>
    refine iff_of_false ?_ id
    rintro ⟨x, t, h⟩
    exact throw_ne_ok h

lemma not_panics_cienaEquipment : ¬ Panics (cienaEquipment w pb) s := by
  unfold cienaEquipment
  split
  · exact not_panics_pure _
  · exact not_panics_stored
  · exact not_panics_throw _

lemma cienaEquipment_ok_iff : (∃ x t, cienaEquipment w pb s = .ok x t) ↔ EquipmentOk w pb s := by
  unfold cienaEquipment EquipmentOk
  match pb.config.vendorData with
  | none => exact iff_of_true ⟨_, s, rfl⟩ trivial
  | some (.ciena mountDir equipmentJson) => exact stored_ok_iff fun _ => rfl
  | some (.alpine _ _ _) | some (.forward _) | some (.other _) =>
    refine iff_of_false ?_ id
    rintro ⟨x, t, h⟩
    exact throw_ne_ok h

lemma not_panics_wrapped (pre : String) (o : Obj) : ¬ Panics (wrap pre (createObj w o)) s := by
  rw [panics_wrap_iff]
  exact not_panics_createObj o

lemma panics_checked_iff {r : Except String α}
    {pod : α → List Volume × List VolumeMount → Prog Unit} (h : ∀ a x s, ¬ Panics (pod a x) s) :
    Panics (orFail r >>= fun a => toResourceRequirements w pb >>= fun _ =>
      mountConfig w pb >>= pod a) s ↔
      (∃ a, r = .ok a) ∧ (BadQuantity w pb ∨ EmptyConfig w pb) := by
  rw [panics_bind_iff_and (not_panics_orFail r) fun a t _ => panics_mounted_iff (h a)]
  simp only [orFail_ok_iff, exists_and_left, exists_eq', and_true]

lemma panics_implCreatePod_iff : Panics (implCreatePod w pb) s ↔ Crashes w pb s .impl :=
  panics_checked_iff fun _ _ _ => not_panics_createObj _

lemma panics_forwardCreatePod_iff : Panics (forwardCreatePod w pb) s ↔ Crashes w pb s .forward :=
  panics_checked_iff fun _ _ _ => not_panics_createObj _

lemma panics_cienaCreatePod_iff : Panics (cienaCreatePod w pb) s ↔ Crashes w pb s .ciena := by
  unfold cienaCreatePod Crashes
  rw [← cienaEquipment_ok_iff]
  refine panics_bind_iff_and not_panics_cienaEquipment fun x t _ => ?_
  exact panics_mounted_iff fun x s => not_panics_wrapped _ _

lemma panics_alpineCreatePod_iff : Panics (alpineCreatePod w pb) s ↔ Crashes w pb s .alpine := by
  unfold alpineCreatePod Crashes
  rw [panics_resources_bind_iff, ← alpineFiles_ok_iff]
  refine or_congr_right (panics_bind_iff_and not_panics_alpineFiles fun x t _ => ?_)
  rw [panics_bind_iff, panics_mountConfig_iff]
  refine or_iff_left ?_
  rintro ⟨y, u, -, h⟩
  exact not_panics_createObj _ h

lemma panics_then_services_iff {pod : Prog Unit} :
    Panics (pod >>= fun _ => createService w pb) s ↔ Panics pod s := by
  rw [panics_bind_iff]
  refine or_iff_left ?_
  rintro ⟨z, t, -, h⟩
  exact not_panics_createService h

lemma panics_validated_iff {pre : String} :
    Panics (validateConstraints w pre >>= fun _ => x) s ↔ w.constraintsErr = none ∧ Panics x s := by
  have hnot : ¬ Panics (validateConstraints w pre) s := by
    unfold validateConstraints
    cases w.constraintsErr with
    | none => exact not_panics_pure ()
    | some err => exact not_panics_throw _
  have hsame : ∀ z t, validateConstraints w pre s = .ok z t → (Panics x t ↔ Panics x s) := by
    intro z t hok
    rw [(validateConstraints_ok_iff.mp hok).2]
  rw [panics_bind_iff_and hnot hsame]
  simp only [validateConstraints_ok_iff, exists_and_left, exists_eq', exists_const, and_true]

lemma panics_ciscoCreate_iff : Panics (ciscoCreate w pb) s ↔ Crashes w pb s .cisco := by
  unfold ciscoCreate Crashes
  rw [panics_validated_iff]
  refine and_congr_right fun _ => ?_
  split_ifs with hm
  · rw [panics_then_services_iff, or_iff_left (fun h => h.1 hm)]
    exact panics_copied_iff fun x s => not_panics_wrapped _ _
  · rw [panics_then_services_iff, and_iff_right hm]
    exact panics_mounted_iff fun x s => not_panics_wrapped _ _

lemma panics_juniperCreate_iff : Panics (juniperCreate w pb) s ↔ Crashes w pb s .juniper := by
  unfold juniperCreate
  rw [panics_then_services_iff]
  exact panics_copied_iff fun x s => not_panics_wrapped _ _

/-- The program returns, with or without an error. -/
def Returns (x : Prog α) (s : Cluster) : Prop :=
  (∃ a t, x s = .ok a t) ∨ ∃ text t, x s = .error (.failed text) t

lemma returns_iff : Returns x s ↔ ¬ Panics x s := by
  unfold Returns Panics
  cases x s with
  | ok a t => simp
  | error e t => cases e <;> simp

/-- **Crashes.** Creating the pod of a node returns unless the code meets, after all that the vendor
does before and that may fail, a quantity that does not parse or a config without bytes. -/
theorem pod_creation_returns_iff (w : Env) (pb : Proto) (v : NodeType) (s : Cluster) :
    Returns (podProgram w pb v) s ↔ ¬ Crashes w pb s v := by
  rw [returns_iff, not_iff_not]
  cases v with
  | impl => exact panics_implCreatePod_iff
  | cisco => exact panics_ciscoCreate_iff
  | juniper => exact panics_juniperCreate_iff
  | alpine => exact panics_alpineCreatePod_iff
  | sonic => exact panics_mounted_iff fun x s => not_panics_createObj _
  | ciena => exact panics_cienaCreatePod_iff
  | forward => exact panics_forwardCreatePod_iff

/-- A node whose config is there and has no bytes. -/
def emptyConfigNode : Proto where
  name := "r1"
  config := { configPath := "/etc", configFile := "config", configData := some (.data []) }

/-- A node that asks for memory in words. -/
def wordyNode : Proto where
  name := "r1"
  constraints := AList.insert "memory" "lots" ∅

def parsingEnv : Env :=
  { bareEnv with quantityErr := fun quantity =>
      if quantity = "lots" then some "quantities must match the regular expression" else none }

/-- **An empty config crashes the node, and so does a bad quantity.** -/
theorem empty_config_panics :
    podProgram bareEnv emptyConfigNode .impl Store.empty =
        .error (.panic "invalid memory address or nil pointer dereference") Store.empty ∧
      podProgram parsingEnv wordyNode .juniper Store.empty =
        .error (.panic "cannot parse 'lots': quantities must match the regular expression")
          Store.empty :=
  ⟨rfl, rfl⟩

end Kne.NodePanics
