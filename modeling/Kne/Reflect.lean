import Mathlib.Tactic

/-!
Values as a program sees them that looks at them by reflection: texts, sequences, maps, pointers and
structs whose fields carry tags. The texts under the fields with a given tag can be listed and be
changed in place, wherever they are in a value.
-/

namespace Kne.Reflect

/-- The entries of the tag of a field. -/
abbrev Tag := List (String × String)

/-- `StructTag.Get`. -/
def Tag.get (tag : Tag) (key : String) : String := (tag.lookup key).getD ""

/-- A field of a struct. -/
structure StructField where
  name : String
  tag : Tag := []
  deriving DecidableEq, Repr

/-- Values. The type `ν` is that of documents which are kept as they are, and the entries of a map
stand in the order in which the program comes to them. -/
inductive Value (ν : Type)
  | string (s : String)
  /-- Numbers and all else that nobody looks into, by what is printed of them. -/
  | scalar (s : String)
  | node (n : ν)
  | array (vs : List (Value ν))
  | slice (vs : List (Value ν))
  /-- The entries, with their keys as far as these are texts. -/
  | map (vs : List (Option String × Value ν))
  | pointer (v : Option (Value ν))
  | struct (name : String) (fields : List (StructField × Value ν))

namespace Value

variable {ν : Type}

section Tagged

variable (sel : StructField → Bool) (f : String → String)

mutual

/-- The texts of a value that are under a selected field. The flag says whether the value itself is
one; a field of a struct is selected by its own tag. -/
def tagged (on : Bool) : Value ν → List String
  | string s => if on then [s] else []
  | scalar _ => []
  | node _ => []
  | array vs => taggedList on vs
  | slice vs => taggedList on vs
  | map vs => taggedMap on vs
  | pointer none => []
  | pointer (some v) => tagged on v
  | struct _ fields => taggedFields fields

def taggedList (on : Bool) : List (Value ν) → List String
  | [] => []
  | v :: vs => tagged on v ++ taggedList on vs

def taggedMap (on : Bool) : List (Option String × Value ν) → List String
  | [] => []
  | (_, v) :: vs => tagged on v ++ taggedMap on vs

def taggedFields : List (StructField × Value ν) → List String
  | [] => []
  | (fd, v) :: fields => tagged (sel fd) v ++ taggedFields fields

end

mutual

/-- Change the texts that are under a selected field. -/
def mapTagged (on : Bool) : Value ν → Value ν
  | string s => if on then string (f s) else string s
  | scalar s => scalar s
  | node n => node n
  | array vs => array (mapTaggedList on vs)
  | slice vs => slice (mapTaggedList on vs)
  | map vs => map (mapTaggedMap on vs)
  | pointer none => pointer none
  | pointer (some v) => pointer (some (mapTagged on v))
  | struct name fields => struct name (mapTaggedFields fields)

def mapTaggedList (on : Bool) : List (Value ν) → List (Value ν)
  | [] => []
  | v :: vs => mapTagged on v :: mapTaggedList on vs

def mapTaggedMap (on : Bool) : List (Option String × Value ν) → List (Option String × Value ν)
  | [] => []
  | (k, v) :: vs => (k, mapTagged on v) :: mapTaggedMap on vs

def mapTaggedFields : List (StructField × Value ν) → List (StructField × Value ν)
  | [] => []
  | (fd, v) :: fields => (fd, mapTagged (sel fd) v) :: mapTaggedFields fields

end

mutual

/-- What is listed after a change is what was listed before, changed. -/
theorem tagged_mapTagged (on : Bool) (v : Value ν) :
    tagged sel on (mapTagged sel f on v) = (tagged sel on v).map f := by
  match v with
  | string s => cases on <;> simp [tagged, mapTagged]
  | scalar s => rfl
  | node n => rfl
  | array vs => simp [tagged, mapTagged, taggedList_mapTaggedList on vs]
  | slice vs => simp [tagged, mapTagged, taggedList_mapTaggedList on vs]
  | map vs => simp [tagged, mapTagged, taggedMap_mapTaggedMap on vs]
  | pointer none => simp [tagged, mapTagged]
  | pointer (some v) => simp [tagged, mapTagged, tagged_mapTagged on v]
  | struct name fields => simp [tagged, mapTagged, taggedFields_mapTaggedFields fields]

theorem taggedList_mapTaggedList (on : Bool) (vs : List (Value ν)) :
    taggedList sel on (mapTaggedList sel f on vs) = (taggedList sel on vs).map f := by
  match vs with
  | [] => rfl
  | v :: vs =>
    simp [taggedList, mapTaggedList, tagged_mapTagged on v, taggedList_mapTaggedList on vs]

theorem taggedMap_mapTaggedMap (on : Bool) (vs : List (Option String × Value ν)) :
    taggedMap sel on (mapTaggedMap sel f on vs) = (taggedMap sel on vs).map f := by
  match vs with
  | [] => rfl
  | (k, v) :: vs =>
    simp [taggedMap, mapTaggedMap, tagged_mapTagged on v, taggedMap_mapTaggedMap on vs]

theorem taggedFields_mapTaggedFields (fields : List (StructField × Value ν)) :
    taggedFields sel (mapTaggedFields sel f fields) = (taggedFields sel fields).map f := by
  match fields with
  | [] => rfl
  | (fd, v) :: fields =>
    simp [taggedFields, mapTaggedFields, tagged_mapTagged (sel fd) v,
      taggedFields_mapTaggedFields fields]

end

mutual

/-- Where nothing is listed, nothing is changed. -/
theorem mapTagged_of_tagged_nil (on : Bool) (v : Value ν) (h : tagged sel on v = []) :
    mapTagged sel f on v = v := by
  match v with
  | string s => cases on <;> simp_all [tagged, mapTagged]
  | scalar s => rfl
  | node n => rfl
  | array vs => rw [mapTagged, mapTaggedList_of_nil on vs h]
  | slice vs => rw [mapTagged, mapTaggedList_of_nil on vs h]
  | map vs => rw [mapTagged, mapTaggedMap_of_nil on vs h]
  | pointer none => rfl
  | pointer (some v) => rw [mapTagged, mapTagged_of_tagged_nil on v h]
  | struct name fields => rw [mapTagged, mapTaggedFields_of_nil fields h]

theorem mapTaggedList_of_nil (on : Bool) (vs : List (Value ν)) (h : taggedList sel on vs = []) :
    mapTaggedList sel f on vs = vs := by
  match vs with
  | [] => rfl
  | v :: vs =>
    obtain ⟨hv, hvs⟩ := List.append_eq_nil_iff.mp h
    rw [mapTaggedList, mapTagged_of_tagged_nil on v hv, mapTaggedList_of_nil on vs hvs]

theorem mapTaggedMap_of_nil (on : Bool) (vs : List (Option String × Value ν))
    (h : taggedMap sel on vs = []) : mapTaggedMap sel f on vs = vs := by
  match vs with
  | [] => rfl
  | (k, v) :: vs =>
    obtain ⟨hv, hvs⟩ := List.append_eq_nil_iff.mp h
    rw [mapTaggedMap, mapTagged_of_tagged_nil on v hv, mapTaggedMap_of_nil on vs hvs]

theorem mapTaggedFields_of_nil (fields : List (StructField × Value ν))
    (h : taggedFields sel fields = []) : mapTaggedFields sel f fields = fields := by
  match fields with
  | [] => rfl
  | (fd, v) :: fields =>
    obtain ⟨hv, hfields⟩ := List.append_eq_nil_iff.mp h
    rw [mapTaggedFields, mapTagged_of_tagged_nil (sel fd) v hv,
      mapTaggedFields_of_nil fields hfields]

end

end Tagged

end Value

end Kne.Reflect
