import Kne.DeployModel

/-!
What the walk of `decode` does to a value without kinds and specs: it looks at the files that the
tagged texts name, and it puts their paths in the place of the names. It changes nothing else, and
leaves the deployment as it is.
-/

namespace Kne.DeployWalk

open Kne.Reflect Kne.Reflect.Value Kne.Paths Kne.DeployModel

variable {ν : Type} {files : Files} {c : Config} {handle : Handler ν} {d : Deployment ν}
  {path : List String} {tag : Tag}

/-! ### One file -/

/-- The file of this name is accepted. -/
def Passes (files : Files) (c : Config) (name : String) : Prop :=
  match files.stat (c.resolve name) with
  | .error _ => c.ignoreMissingFiles = true
  | .ok regular =>
    regular = true ∧ files.openErr (c.resolve name) = none ∧ files.yamlErr (c.resolve name) = none

instance (files : Files) (c : Config) (name : String) : Decidable (Passes files c name) := by
  unfold Passes
  exact match files.stat (c.resolve name) with
    | .error _ => inferInstanceAs (Decidable (c.ignoreMissingFiles = true))
    | .ok regular => inferInstanceAs (Decidable (regular = true ∧ _ ∧ _))

lemma checkYAMLFile_of_passes {name : String} (h : Passes files c name) :
    checkYAMLFile files c true name = .ok (c.resolve name) := by
  unfold Passes at h
  unfold checkYAMLFile
  cases hs : files.stat (c.resolve name) with
  | error err => simp_all
  | ok regular => simp_all

lemma checkYAMLFile_of_not_passes {name : String} (h : ¬ Passes files c name) :
    ∃ err, checkYAMLFile files c true name = .error (.error err) := by
  unfold Passes at h
  unfold checkYAMLFile
  cases hs : files.stat (c.resolve name) with
  | error err => simp_all
  | ok regular =>
    cases regular with
    | false => simp [hs]
    | true =>
      cases ho : files.openErr (c.resolve name) <;> cases hy : files.yamlErr (c.resolve name) <;>
        simp_all

/-- All names are empty or those of files that are accepted. -/
def AllPass (files : Files) (c : Config) (names : List String) : Prop :=
  ∀ s ∈ names, s ≠ "" → Passes files c s

instance (files : Files) (c : Config) (names : List String) : Decidable (AllPass files c names) :=
  inferInstanceAs (Decidable (∀ s ∈ names, s ≠ "" → Passes files c s))

lemma allPass_append {l l' : List String} :
    AllPass files c (l ++ l') ↔ AllPass files c l ∧ AllPass files c l' := by
  simp only [AllPass, List.mem_append]
  constructor
  · intro h
    exact ⟨fun s hs => h s (.inl hs), fun s hs => h s (.inr hs)⟩
  · rintro ⟨h, h'⟩ s (hs | hs)
    · exact h s hs
    · exact h' s hs

/-- What is put in the place of a name. -/
def pathOf (c : Config) (name : String) : String := if name = "" then "" else c.resolve name

/-- The fields for names of YAML files. -/
def isYaml (fd : StructField) : Bool := fd.tag.get "kne" = "yaml"

/-! ### Values without kinds and specs -/

mutual

/-- No field holds a kind or a spec, no pointer is nil, and every tagged text is in a field that the
walk comes to and can set. The first flag says whether the value can be set, the second one whether
it is tagged. -/
def Plain (settable on : Bool) : Value ν → Prop
  | .string _ => on = true → settable = true
  | .scalar _ => True
  | .node _ => True
  | .array vs => PlainList settable on vs
  | .slice vs => PlainList true on vs
  | .map vs => on = false ∧ PlainMap vs
  | .pointer none => False
  | .pointer (some v) => Plain true on v
  | .struct _ fields => PlainFields settable fields

def PlainList (settable on : Bool) : List (Value ν) → Prop
  | [] => True
  | v :: vs => Plain settable on v ∧ PlainList settable on vs

def PlainMap : List (Option String × Value ν) → Prop
  | [] => True
  | (none, v) :: vs => tagged isYaml false v = [] ∧ PlainMap vs
  | (some _, v) :: vs => Plain false false v ∧ PlainMap vs

def PlainFields (settable : Bool) : List (StructField × Value ν) → Prop
  | [] => True
  | (fd, v) :: fields =>
    fd.tag.get "yaml" ≠ "kind" ∧ fd.tag.get "yaml" ≠ "spec" ∧
      (fd.tag.get "yaml" = "" → tagged isYaml (isYaml fd) v = []) ∧
      (fd.tag.get "yaml" ≠ "" → Plain settable (isYaml fd) v) ∧ PlainFields settable fields

end

/-- How a part of the walk ends: the names are accepted and the paths are put in their place, or
there is an error. -/
def Walked {α : Type} (files : Files) (c : Config) (names : List String) (new : α)
    (d : Deployment ν) (result : Except Stop (α × Deployment ν)) : Prop :=
  (AllPass files c names ∧ result = .ok (new, d)) ∨
    (¬ AllPass files c names ∧ ∃ err, result = .error (.error err))

lemma Walked.map {α β : Type} {names : List String} {new : α}
    {result : Except Stop (α × Deployment ν)} (h : Walked files c names new d result) (f : α → β) :
    Walked files c names (f new) d (result.map fun r => (f r.1, r.2)) := by
  rcases h with ⟨hp, rfl⟩ | ⟨hp, err, rfl⟩
  · exact .inl ⟨hp, rfl⟩
  · exact .inr ⟨hp, err, rfl⟩

lemma Walked.bind {α β γ : Type} {names names' : List String} {new : α} {new' : β}
    {result : Except Stop (α × Deployment ν)}
    {next : α × Deployment ν → Except Stop (β × Deployment ν)} (f : α → β → γ)
    (h : Walked files c names new d result) (h' : Walked files c names' new' d (next (new, d))) :
    Walked files c (names ++ names') (f new new') d
      (result >>= fun r => next r >>= fun rest => pure (f r.1 rest.1, rest.2)) := by
  rcases h with ⟨hp, rfl⟩ | ⟨hp, err, rfl⟩
  · have hnext : (Except.ok (new, d) >>= fun r => next r >>= fun rest =>
        pure (f r.1 rest.1, rest.2)) =
        next (new, d) >>= fun rest => (pure (f new rest.1, rest.2) : Except Stop _) := rfl
    rw [hnext]
    rcases h' with ⟨hp', hn⟩ | ⟨hp', err, hn⟩
    · exact .inl ⟨allPass_append.mpr ⟨hp, hp'⟩, by rw [hn]; rfl⟩
    · exact .inr ⟨fun hall => hp' (allPass_append.mp hall).2, err, by rw [hn]; rfl⟩
  · exact .inr ⟨fun hall => hp (allPass_append.mp hall).1, err, rfl⟩

lemma walkText_plain {settable : Bool} {on : Bool} (hon : on = decide (tag.get "kne" = "yaml"))
    (hset : on = true → settable = true) (s : String) :
    Walked files c (if on then [s] else []) (if on then pathOf c s else s) d
      ((walkText files c settable path tag s).map fun s => (s, d)) := by
  unfold walkText
  cases on with
  | false =>
    have hne : tag.get "kne" ≠ "yaml" := by simpa using hon.symm
    exact .inl ⟨by simp [AllPass], by simp [hne, Except.map]⟩
  | true =>
    have hyaml : tag.get "kne" = "yaml" := by simpa using hon.symm
    obtain rfl := hset rfl
    by_cases hs : s = ""
    · subst hs
      exact .inl ⟨by simp [AllPass], by simp [pathOf, Except.map]⟩
    · by_cases hp : Passes files c s
      · refine .inl ⟨by simp [AllPass, hp], ?_⟩
        simp [hs, hyaml, checkYAMLFile_of_passes hp, Except.map, pathOf]
      · obtain ⟨err, herr⟩ := checkYAMLFile_of_not_passes hp
        refine .inr ⟨by simp [AllPass, hs, hp], joined path ++ ": " ++ err, ?_⟩
        simp [hs, hyaml, herr, Except.map]

lemma walk_string {settable on : Bool} (path : List String) (tag : Tag)
    (hon : on = decide (tag.get "kne" = "yaml")) (s : String)
    (h : Plain settable on (.string s : Value ν)) :
    Walked files c (tagged isYaml on (.string s : Value ν))
      (mapTagged isYaml (pathOf c) on (.string s)) d
      (walk files c handle settable path tag d (.string s)) := by
  have hw : Walked files c (if on then [s] else []) (if on then pathOf c s else s) d
      ((walkText files c settable path tag s).map fun s => (s, d)) := walkText_plain hon h s
  have hmap : walk files c handle settable path tag d (.string s) =
      ((walkText files c settable path tag s).map fun s => (s, d)).map
        fun r => (Value.string r.1, r.2) := by
    rw [walk]
    cases walkText files c settable path tag s <;> rfl
  rw [hmap, tagged, mapTagged]
  cases on <;> exact hw.map Value.string

mutual

/-- **What the walk does.** -/
theorem walk_plain {settable on : Bool} (path : List String) (tag : Tag)
    (hon : on = decide (tag.get "kne" = "yaml")) (v : Value ν) (h : Plain settable on v) :
    Walked files c (tagged isYaml on v) (mapTagged isYaml (pathOf c) on v) d
      (walk files c handle settable path tag d v) := by
  match v with
  | .string s => exact walk_string path tag hon s h
  | .scalar s => exact .inl ⟨by simp [tagged, AllPass], rfl⟩
  | .node n => exact .inl ⟨by simp [tagged, AllPass], rfl⟩
  | .array vs => exact (walkList_plain path tag 0 hon vs h).map Value.array
  | .slice vs => exact (walkList_plain path tag 0 hon vs h).map Value.slice
  | .map vs =>
    obtain ⟨rfl, hvs⟩ := h
    exact (walkMap_plain path tag hon vs hvs).map Value.map
  | .pointer (some v) =>
    exact (walk_plain path tag hon v h).map fun v => Value.pointer (some v)
  | .struct name fields => exact (walkFields_plain path name fields h).map (Value.struct name)

theorem walkList_plain {settable on : Bool} (path : List String) (tag : Tag) (i : ℕ)
    (hon : on = decide (tag.get "kne" = "yaml")) (vs : List (Value ν))
    (h : PlainList settable on vs) :
    Walked files c (taggedList isYaml on vs) (mapTaggedList isYaml (pathOf c) on vs) d
      (walkList files c handle settable path i tag d vs) := by
  match vs with
  | [] => exact .inl ⟨by simp [taggedList, AllPass], rfl⟩
  | v :: vs =>
    exact (walk_plain _ tag hon v h.1).bind List.cons (walkList_plain path tag (i + 1) hon vs h.2)

theorem walkMap_plain (path : List String) (tag : Tag)
    (hon : false = decide (tag.get "kne" = "yaml")) (vs : List (Option String × Value ν))
    (h : PlainMap vs) :
    Walked files c (taggedMap isYaml false vs) (mapTaggedMap isYaml (pathOf c) false vs) d
      (walkMap files c handle path tag d vs) := by
  match vs with
  | [] => exact .inl ⟨by simp [taggedMap, AllPass], rfl⟩
  | (none, v) :: vs =>
    have hrest := walkMap_plain path tag hon vs h.2
    rw [taggedMap, h.1, mapTaggedMap, mapTagged_of_tagged_nil isYaml (pathOf c) false v h.1]
    exact hrest.map fun vs => (none, v) :: vs
  | (some k, v) :: vs =>
    exact (walk_plain _ tag hon v h.1).bind (fun v vs => (some k, v) :: vs)
      (walkMap_plain path tag hon vs h.2)

theorem walkFields_plain {settable : Bool} (path : List String) (name : String)
    (fields : List (StructField × Value ν)) (h : PlainFields settable fields) :
    Walked files c (taggedFields isYaml fields) (mapTaggedFields isYaml (pathOf c) fields) d
      (walkFields files c handle settable path name "" none d fields) := by
  match fields with
  | [] => exact .inl ⟨by simp [taggedFields, AllPass], rfl⟩
  | (fd, v) :: fields =>
    obtain ⟨hkind, hspec, hbare, hplain, hfields⟩ := h
    have hrest := walkFields_plain path name fields hfields
    rw [walkFields, if_neg hkind, if_neg hspec]
    split_ifs with hempty
    · rw [taggedFields, hbare hempty, mapTaggedFields,
        mapTagged_of_tagged_nil isYaml (pathOf c) (isYaml fd) v (hbare hempty)]
      exact hrest.map fun fields => (fd, v) :: fields
    · exact (walk_plain _ fd.tag rfl v (hplain hempty)).bind (fun v fields => (fd, v) :: fields)
        hrest

end

end Kne.DeployWalk
