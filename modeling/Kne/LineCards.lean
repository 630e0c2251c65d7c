import Kne.Patterns
import Kne.Texts
import Mathlib.Data.Finset.Basic
import Mathlib.Data.List.Sort

/-!
The line cards of an SR Linux node (`lineCards` in `topo/node/nokia/nokia.go`). They are given with
the node or else, for a chassis with several slots, derived from the names of its interfaces. The
names come in the order in which Go goes through a map, which is any.
-/

namespace Kne.LineCards

open Kne.Patterns Kne.Patterns.Regex Kne.Texts

/-! ### The model -/

/-- An entry of `spec.components`. -/
structure Component where
  slot : ℤ
  type : Option String := none
  deriving DecidableEq, Repr

def component (slot : ℤ) (imm : String) : Component := ⟨slot, if imm ≠ "" then some imm else none⟩

/-- A component of the vendor data. -/
structure CardConfig where
  slot : UInt32
  type : String
  deriving DecidableEq

/-- The part of a node that the line cards are made from. Of the vendor data it is the components or
the error of `UnmarshalTo`, of the interfaces the names. -/
structure NokiaNode where
  vendorData : Option (Except String (List CardConfig))
  model : String
  interfaces : Finset String

/-- `-\d+`. -/
def dashNumber : Regex := seq (lit "-") (plus digit)

/-- `^e(\d+)-\d+(?:-\d+)?$`. -/
def ifaceSlotRE : Grouped where
  pre := seq textStart (lit "e")
  group := plus digit
  post := seq dashNumber (seq (opt dashNumber) textEnd)

def modularModels : List (String × ℤ) := [("ixr6", 4), ("ixr6e", 4), ("ixr10", 8), ("ixr10e", 8)]

/-- The slot of an interface, if it is one of the chassis. -/
def slotOf (maxSlot : ℤ) (name : String) : Option ℤ :=
  match ifaceSlotRE.findStringSubmatch name with
  | none => none
  | some m =>
    match parseInt 32 m with
    | .error _ => none
    | .ok slot => if slot < 1 then none else if slot > maxSlot then none else some slot

/-- One turn of the loop over the interfaces. -/
def addSlot (maxSlot : ℤ) (slots : List ℤ) (name : String) : List ℤ :=
  match slotOf maxSlot name with
  | none => slots
  | some slot => if slot ∈ slots then slots else slots ++ [slot]

/-- What is derived from the names of the interfaces. -/
def derived (maxSlot : ℤ) (order : List String) : Option (List Component) :=
  let slots := order.foldl (addSlot maxSlot) []
  if slots = [] ∨ slots = [1] then none
  else some ((slots.insertionSort (· ≤ ·)).map fun slot => component slot "")

/-- `lineCards`, for an order of the interfaces. -/
def lineCards (pb : NokiaNode) (order : List String) : Except String (Option (List Component)) :=
  match pb.vendorData with
  | some (.error err) => .error ("failed to unmarshal vendor data: " ++ err)
  | some (.ok (c :: cs)) => .ok (some ((c :: cs).map fun c => component c.slot.toNat c.type))
  | some (.ok []) | none =>
    match modularModels.lookup pb.model with
    | none => .ok none
    | some maxSlot => .ok (derived maxSlot order)

/-! ### Names -/

def Digits (cs : List Char) : Prop := cs ≠ [] ∧ ∀ c ∈ cs, c.isDigit = true

/-- The name is `e<x>-<p>` or `e<x>-<p>-<b>`. -/
def SlotName (x : List Char) (name : String) : Prop :=
  Digits x ∧ ∃ p tail, Digits p ∧ (tail = [] ∨ ∃ b, Digits b ∧ tail = '-' :: b) ∧
    name.toList = 'e' :: x ++ '-' :: p ++ tail

/-- The number that digits stand for. Zeros before it do not count. -/
def value (x : List Char) : ℤ := (Nat.ofDigitChars 10 x 0 : ℤ)

variable {p q : Place} {x y : List Char} {name : String} {s maxSlot : ℤ}

lemma mem_ends_lit {text : String} {c : Char} (htext : text.toList = [c]) :
    q ∈ (lit text).ends p ↔ p.rest = c :: q.rest ∧ q.before = some c := by
  have hlit : lit text = seq (char (· == c)) empty := by simp [lit, htext]
  rw [hlit, mem_ends_seq]
  constructor
  · rintro ⟨a, ha, hq⟩
    obtain ⟨d, hd, hrest, hbefore⟩ := mem_ends_char.mp ha
    rw [List.mem_singleton.mp hq, hrest, hbefore, beq_iff_eq.mp hd]
    exact ⟨rfl, rfl⟩
  · rintro ⟨hrest, hbefore⟩
    exact ⟨q, mem_ends_char.mpr ⟨c, beq_self_eq_true c, hrest, hbefore⟩, List.mem_singleton_self q⟩

lemma mem_ends_dashNumber : q ∈ dashNumber.ends p ↔
    ∃ ds, Digits ds ∧ p.rest = '-' :: ds ++ q.rest ∧ q.before = ds.getLast? := by
  have hdash : "-".toList = ['-'] := rfl
  rw [dashNumber, mem_ends_seq]
  simp only [mem_ends_lit hdash, digit, mem_ends_plus_char, Digits]
  constructor
  · rintro ⟨x, ⟨hx, -⟩, ds, hne, hds, hrest, hbefore⟩
    exact ⟨ds, ⟨hne, hds⟩, by rw [hx, hrest]; rfl, hbefore⟩
  · rintro ⟨ds, ⟨hne, hds⟩, hrest, hbefore⟩
    exact ⟨⟨some '-', ds ++ q.rest⟩, ⟨hrest, rfl⟩, ds, hne, hds, rfl, hbefore⟩

lemma exists_mem_post : (∃ z, z ∈ ifaceSlotRE.post.ends p) ↔
    ∃ y tail, Digits y ∧ (tail = [] ∨ ∃ b, Digits b ∧ tail = '-' :: b) ∧
      p.rest = '-' :: y ++ tail := by
  simp only [ifaceSlotRE, mem_ends_seq, mem_ends_opt, mem_ends_textEnd]
  constructor
  · rintro ⟨z, a, ha, b, hb, hend, -⟩
    obtain ⟨y, hy, hrest, -⟩ := mem_ends_dashNumber.mp ha
    rcases hb with hb | rfl
    · obtain ⟨d, hd, hrest', -⟩ := mem_ends_dashNumber.mp hb
      rw [hend, List.append_nil] at hrest'
      exact ⟨y, _, hy, .inr ⟨d, hd, hrest'⟩, hrest⟩
    · exact ⟨y, _, hy, .inl hend, hrest⟩
  · rintro ⟨y, tail, hy, htail, hrest⟩
    have ha : (⟨y.getLast?, tail⟩ : Place) ∈ dashNumber.ends p :=
      mem_ends_dashNumber.mpr ⟨y, hy, hrest, rfl⟩
    rcases htail with rfl | ⟨b, hb, rfl⟩
    · exact ⟨_, _, ha, _, .inr rfl, rfl, rfl⟩
    · have hb : (⟨b.getLast?, []⟩ : Place) ∈ dashNumber.ends ⟨y.getLast?, '-' :: b⟩ :=
        mem_ends_dashNumber.mpr ⟨b, hb, by simp, rfl⟩
      exact ⟨_, _, ha, _, .inl hb, rfl, rfl⟩

lemma mem_texts_ifaceSlotRE :
    x ∈ ifaceSlotRE.texts ⟨none, name.toList⟩ ↔ SlotName x name := by
  have he : "e".toList = ['e'] := rfl
  rw [Grouped.mem_texts]
  constructor
  · rintro ⟨a, ha, b, hb, z, hz, rfl⟩
    obtain ⟨_, hstart, ha⟩ := mem_ends_seq.mp ha
    obtain ⟨-, rfl⟩ := mem_ends_textStart.mp hstart
    obtain ⟨hname, -⟩ := (mem_ends_lit he).mp ha
    dsimp only at hname
    obtain ⟨ds, hne, hds, hrest, -⟩ := mem_ends_plus_char.mp hb
    obtain ⟨y, tail, hy, htail, hpost⟩ := exists_mem_post.mp ⟨z, hz⟩
    have htake : a.rest.take (a.rest.length - b.rest.length) = ds := by simp [hrest]
    rw [htake]
    refine ⟨⟨hne, hds⟩, y, tail, hy, htail, ?_⟩
    simp [hname, hrest, hpost]
  · rintro ⟨⟨hne, hds⟩, y, tail, hy, htail, hname⟩
    obtain ⟨z, hz⟩ := exists_mem_post.mpr
      ⟨y, tail, hy, htail, (rfl : (⟨x.getLast?, '-' :: y ++ tail⟩ : Place).rest = _)⟩
    refine ⟨⟨some 'e', x ++ ('-' :: y ++ tail)⟩, ?_, ⟨x.getLast?, '-' :: y ++ tail⟩, ?_, z, hz, ?_⟩
    · refine mem_ends_seq.mpr ⟨_, mem_ends_textStart.mpr ⟨rfl, rfl⟩, ?_⟩
      exact (mem_ends_lit he).mpr ⟨by simp [hname], rfl⟩
    · exact mem_ends_plus_char.mpr ⟨x, hne, hds, rfl, rfl⟩
    · simp

lemma SlotName.unique (hx : SlotName x name) (hy : SlotName y name) : x = y := by
  have hspan : ∀ z, SlotName z name → z = (name.toList.drop 1).takeWhile Char.isDigit := by
    rintro z ⟨⟨-, hz⟩, p, tail, -, -, hname⟩
    have hrest : name.toList.drop 1 = z ++ '-' :: (p ++ tail) := by simp [hname]
    rw [hrest, List.takeWhile_append_of_pos hz, List.takeWhile_cons_of_neg (by decide),
      List.append_nil]
  rw [hspan x hx, hspan y hy]

/-- **The names that are matched**, and what is found in them. -/
lemma findStringSubmatch_eq_some_iff :
    ifaceSlotRE.findStringSubmatch name = some x ↔ SlotName x name := by
  have hstart : ∀ c t, ifaceSlotRE.texts ⟨some c, t⟩ = [] := fun c t => rfl
  rw [Grouped.findStringSubmatch, Grouped.search_of_start hstart]
  constructor
  · intro h
    exact mem_texts_ifaceSlotRE.mp (List.mem_of_mem_head? h)
  · intro h
    have hmem := mem_texts_ifaceSlotRE.mpr h
    obtain ⟨y, ys, hys⟩ := List.exists_cons_of_ne_nil (List.ne_nil_of_mem hmem)
    have hy : SlotName y name := mem_texts_ifaceSlotRE.mp (by simp [hys])
    rw [hys, h.unique hy]
    rfl

/-! ### Slots -/

/-- The slot is that of one of the names. -/
def Occurs (interfaces : Finset String) (s : ℤ) : Prop :=
  ∃ name ∈ interfaces, ∃ x, SlotName x name ∧ value x = s

/-- The slots of the chassis that occur in the names. -/
def cardSlots (maxSlot : ℤ) (interfaces : Finset String) : Set ℤ :=
  {s | 1 ≤ s ∧ s ≤ maxSlot ∧ Occurs interfaces s}

lemma slotOf_eq_some_iff (hmax : maxSlot < 2 ^ 31) : slotOf maxSlot name = some s ↔
    ∃ x, SlotName x name ∧ value x = s ∧ 1 ≤ s ∧ s ≤ maxSlot := by
  cases hfind : ifaceSlotRE.findStringSubmatch name with
  | none =>
    have hno : ∀ x, ¬ SlotName x name := by
      intro x hx
      rw [findStringSubmatch_eq_some_iff.mpr hx] at hfind
      cases hfind
    simp [slotOf, hfind, hno]
  | some x =>
    have hx := findStringSubmatch_eq_some_iff.mp hfind
    have hunique : ∀ y, SlotName y name ↔ y = x :=
      fun y => ⟨fun hy => hy.unique hx, fun h => h ▸ hx⟩
    have hslot : slotOf maxSlot name =
        if value x < 1 ∨ value x > maxSlot then none else some (value x) := by
      have hparse : parseInt 32 x =
          if Nat.ofDigitChars 10 x 0 < 2 ^ 31 then .ok (value x) else .error .outOfRange :=
        parseInt_digits hx.1.1 hx.1.2
      unfold slotOf
      rw [hfind]
      dsimp only
      by_cases hfits : Nat.ofDigitChars 10 x 0 < 2 ^ 31
      · rw [hparse, if_pos hfits, ite_or]
      · -- a number that is too large is above the chassis
        have hlarge : value x > maxSlot := by
          unfold value
          omega
        rw [hparse, if_neg hfits, if_pos (.inr hlarge)]
    rw [hslot]
    simp only [hunique, exists_eq_left]
    grind

/-! ### The loop -/

lemma nodup_addSlot {slots : List ℤ} (h : slots.Nodup) : (addSlot maxSlot slots name).Nodup := by
  unfold addSlot
  split
  · exact h
  · split
    · exact h
    · rename_i hs
      exact List.nodup_append.mpr ⟨h, by simp, by grind⟩

lemma mem_addSlot {slots : List ℤ} :
    s ∈ addSlot maxSlot slots name ↔ s ∈ slots ∨ slotOf maxSlot name = some s := by
  unfold addSlot
  split
  · simp [*]
  · split <;> grind

lemma nodup_foldl_addSlot (order : List String) : (order.foldl (addSlot maxSlot) []).Nodup := by
  induction order using List.reverseRecOn with
  | nil => exact List.nodup_nil
  | append_singleton order name ih =>
    rw [List.foldl_append]
    exact nodup_addSlot ih

lemma mem_foldl_addSlot {order : List String} :
    s ∈ order.foldl (addSlot maxSlot) [] ↔ ∃ name ∈ order, slotOf maxSlot name = some s := by
  induction order using List.reverseRecOn with
  | nil => simp
  | append_singleton order name ih =>
    rw [List.foldl_append, List.foldl_cons, List.foldl_nil, mem_addSlot, ih]
    simp [or_and_right, exists_or]

lemma mem_slots_iff (hmax : maxSlot < 2 ^ 31) {interfaces : Finset String} {order : List String}
    (horder : order.toFinset = interfaces) :
    s ∈ order.foldl (addSlot maxSlot) [] ↔ s ∈ cardSlots maxSlot interfaces := by
  rw [mem_foldl_addSlot]
  simp only [slotOf_eq_some_iff hmax, cardSlots, Occurs, ← horder, List.mem_toFinset,
    Set.mem_ofPred_eq]
  grind

lemma eq_nil_or_eq_singleton_iff {slots : List ℤ} (h : slots.Nodup) (a : ℤ) :
    slots = [] ∨ slots = [a] ↔ ∀ s ∈ slots, s = a := by
  constructor
  · rintro (rfl | rfl) <;> simp
  · intro hall
    rcases slots with _ | ⟨b, _ | ⟨c, slots⟩⟩
    · exact .inl rfl
    · exact .inr (by rw [hall b (by simp)])
    · have hbc : b = c := (hall b (by simp)).trans (hall c (by simp)).symm
      exact absurd hbc (by simp_all)

variable {interfaces interfaces' : Finset String} {order order' : List String}

/-- **The slots in their order.** What is derived depends on the slots that occur and on nothing
else. -/
lemma exists_derived (hmax : maxSlot < 2 ^ 31) (horder : order.toFinset = interfaces) :
    ∃ slots : List ℤ, slots.SortedLT ∧ (∀ s, s ∈ slots ↔ s ∈ cardSlots maxSlot interfaces) ∧
      derived maxSlot order =
        if slots = [] ∨ slots = [1] then none else some (slots.map fun slot => ⟨slot, none⟩) := by
  let found := order.foldl (addSlot maxSlot) []
  have hperm := List.perm_insertionSort (· ≤ ·) found
  refine ⟨found.insertionSort (· ≤ ·), ?_, ?_, ?_⟩
  · have hnodup := hperm.nodup_iff.mpr (nodup_foldl_addSlot order)
    have hle : (found.insertionSort (· ≤ ·)).Pairwise (· ≤ ·) :=
      List.sortedLE_insertionSort.pairwise
    exact ((hle.and hnodup).imp fun h => lt_of_le_of_ne h.1 h.2).sortedLT
  · intro s
    rw [hperm.mem_iff, mem_slots_iff hmax horder]
  · have hnil : found.insertionSort (· ≤ ·) = [] ↔ found = [] := by
      rw [← List.perm_nil, ← List.perm_nil, hperm.congr_left]
    have hone : found.insertionSort (· ≤ ·) = [1] ↔ found = [1] := by
      rw [← List.perm_singleton, ← List.perm_singleton, hperm.congr_left]
    simp only [hnil, hone]
    rfl

lemma derived_eq_none_iff (hmax : maxSlot < 2 ^ 31) (horder : order.toFinset = interfaces) :
    derived maxSlot order = none ↔ cardSlots maxSlot interfaces ⊆ {1} := by
  obtain ⟨slots, hsorted, hmem, hderived⟩ := exists_derived hmax horder
  have hnone : derived maxSlot order = none ↔ slots = [] ∨ slots = [1] := by
    rw [hderived]
    split <;> simp [*]
  rw [hnone, eq_nil_or_eq_singleton_iff hsorted.nodup]
  simp only [hmem]
  rfl

lemma derived_congr (hmax : maxSlot < 2 ^ 31) (horder : order.toFinset = interfaces)
    (horder' : order'.toFinset = interfaces')
    (hslots : cardSlots maxSlot interfaces = cardSlots maxSlot interfaces') :
    derived maxSlot order = derived maxSlot order' := by
  obtain ⟨slots, hsorted, hmem, hderived⟩ := exists_derived hmax horder
  obtain ⟨slots', hsorted', hmem', hderived'⟩ := exists_derived hmax horder'
  have hperm : slots.Perm slots' := by
    rw [List.perm_ext_iff_of_nodup hsorted.nodup hsorted'.nodup]
    intro s
    rw [hmem, hmem', hslots]
  rw [hderived, hderived', hperm.eq_of_sortedLE hsorted.sortedLE hsorted'.sortedLE]

/-! ### The line cards -/

/-- The node has no components in its vendor data. -/
def NokiaNode.NoComponents (pb : NokiaNode) : Prop :=
  pb.vendorData = none ∨ pb.vendorData = some (.ok [])

/-- A name that does not count: another name, or one with a slot that the chassis has not. -/
def Idle (maxSlot : ℤ) (name : String) : Prop :=
  ∀ x, SlotName x name → value x < 1 ∨ maxSlot < value x

lemma lineCards_of_noComponents {pb : NokiaNode} (hvendor : pb.NoComponents)
    (hmodel : modularModels.lookup pb.model = some maxSlot) (order : List String) :
    lineCards pb order = .ok (derived maxSlot order) := by
  rcases hvendor with h | h <;> simp [lineCards, h, hmodel]

lemma maxSlot_lt {model : String} (hmodel : modularModels.lookup model = some maxSlot) :
    maxSlot < 2 ^ 31 := by
  have hall : ∀ m ∈ modularModels, m.2 < 2 ^ 31 := by decide
  obtain ⟨l₁, l₂, hl, -⟩ := List.lookup_eq_some_iff.mp hmodel
  exact hall (model, maxSlot) (by simp [hl])

lemma cardSlots_of_idle
    (h : ∀ name, Idle maxSlot name ∨ (name ∈ interfaces ↔ name ∈ interfaces')) :
    cardSlots maxSlot interfaces = cardSlots maxSlot interfaces' := by
  ext s
  have hoccurs : 1 ≤ s → s ≤ maxSlot → (Occurs interfaces s ↔ Occurs interfaces' s) := by
    intro hpos hle
    refine exists_congr fun name => and_congr_left ?_
    rintro ⟨x, hx, rfl⟩
    exact (h name).resolve_left fun hidle => by have := hidle x hx; omega
  exact and_congr_right fun hpos => and_congr_right fun hle => hoccurs hpos hle

/-- **The line cards are canonical.** Of a node without components, with a chassis of several slots:
whatever the order in which the interfaces come, there is nothing if no slot but the first occurs in
their names, and else one entry without a type for each slot that occurs, in the order of the slots.
Names that do not count can be added and left out. -/
theorem lineCards_canonical {pb : NokiaNode} (hvendor : pb.NoComponents)
    (hmodel : modularModels.lookup pb.model = some maxSlot)
    (horder : order.toFinset = pb.interfaces) :
    (lineCards pb order = .ok none ↔ cardSlots maxSlot pb.interfaces ⊆ {1}) ∧
      (¬ cardSlots maxSlot pb.interfaces ⊆ {1} →
        ∃ components, lineCards pb order = .ok (some components) ∧
          (components.map Component.slot).SortedLT ∧
          (∀ s, s ∈ components.map Component.slot ↔ s ∈ cardSlots maxSlot pb.interfaces) ∧
          ∀ c ∈ components, c.type = none) ∧
      ∀ interfaces' order', order'.toFinset = interfaces' →
        (∀ name, Idle maxSlot name ∨ (name ∈ pb.interfaces ↔ name ∈ interfaces')) →
        lineCards { pb with interfaces := interfaces' } order' = lineCards pb order := by
  have hmax := maxSlot_lt hmodel
  have hcards := lineCards_of_noComponents hvendor hmodel
  have hnone : lineCards pb order = .ok none ↔ cardSlots maxSlot pb.interfaces ⊆ {1} := by
    rw [hcards, ← derived_eq_none_iff hmax horder, Except.ok.injEq]
  refine ⟨hnone, fun hsome => ?_, fun interfaces' order' horder' hidle => ?_⟩
  · obtain ⟨slots, hsorted, hmem, hderived⟩ := exists_derived hmax horder
    have hne : ¬ (slots = [] ∨ slots = [1]) := by
      intro hnil
      rw [if_pos hnil] at hderived
      exact hsome (hnone.mp (by rw [hcards, hderived]))
    have hslots : (slots.map fun slot => Component.mk slot none).map Component.slot = slots := by
      simp [Function.comp_def]
    refine ⟨_, by rw [hcards, hderived, if_neg hne], ?_, ?_, by simp⟩
    · rwa [hslots]
    · rwa [hslots]
  · have hcards' : lineCards { pb with interfaces := interfaces' } order' =
        lineCards pb order' := rfl
    rw [hcards', hcards, hcards, derived_congr hmax horder horder' (cardSlots_of_idle hidle)]

/-- Six interfaces on a chassis with eight slots. -/
def ixr10e : NokiaNode where
  vendorData := some (.ok [])
  model := "ixr10e"
  interfaces := {"e1-1", "e2-1", "e02-5", "e9-1", "e99999999999999999999-1", "mgmt0"}

theorem ixr10e_cards :
    lineCards ixr10e ["mgmt0", "e02-5", "e99999999999999999999-1", "e2-1", "e9-1", "e1-1"] =
        .ok (some [⟨1, none⟩, ⟨2, none⟩]) ∧
      ¬ cardSlots 8 ixr10e.interfaces ⊆ {1} := by
  have hcards :
      lineCards ixr10e ["mgmt0", "e02-5", "e99999999999999999999-1", "e2-1", "e9-1", "e1-1"] =
        .ok (some [⟨1, none⟩, ⟨2, none⟩]) := by
    decide +kernel
  have hvendor : ixr10e.NoComponents := .inr rfl
  have hmodel : modularModels.lookup ixr10e.model = some 8 := by decide
  have horder : ["mgmt0", "e02-5", "e99999999999999999999-1", "e2-1", "e9-1", "e1-1"].toFinset =
      ixr10e.interfaces := by
    decide +kernel
  have hcanonical := lineCards_canonical hvendor hmodel horder
  refine ⟨hcards, fun hsub => ?_⟩
  have hnone := hcanonical.1.mpr hsub
  rw [hcards] at hnone
  cases hnone

end Kne.LineCards
