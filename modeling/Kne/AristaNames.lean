import Kne.NodeRename
import Kne.Patterns
import Kne.Sweep
import Kne.Texts

/-!
The names of the interfaces of an Arista node: `FixInterfaces` completes them, and `CreateCRD` puts
them into the custom resource as `IntfMapping`. A name that is left out is made from the key of its
interface, without a look at the names that were given.
-/

namespace Kne.AristaNames

open Kne.TopoModel Kne.NodeRename Kne.Patterns Kne.Patterns.Regex Kne.Renaming Kne.Sweep Kne.Texts

/-- The names of the interfaces, by the keys of the map. -/
abbrev IntfNames := AList fun _ : String => String

/-- A slash and a number. -/
def slashNumber : Regex := seq (lit "/") (plus digit)

def ethIntfRe : Regex :=
  seq textStart (seq (lit "Ethernet") (seq (plus digit)
    (seq (opt slashNumber) (seq (opt slashNumber) textEnd))))

def mgmtIntfRe : Regex :=
  seq textStart (seq (lit "Management") (seq (plus digit) (seq (opt slashNumber) textEnd)))

/-- The turn of `FixInterfaces` for an interface: the name it has afterwards. -/
def fixInterface (k name : String) : Except String String :=
  if !hasPrefix k "eth" || ethIntfRe.matchString name || mgmtIntfRe.matchString name then .ok name
  else if name = "" then .ok ("Ethernet" ++ trimPrefix k "eth")
  else .error ("Unrecognized interface name: " ++ name)

def fixTurn (m : IntfNames) (k : String) : Except String IntfNames :=
  match m.lookup k with
  | none => .ok m
  | some name => (fixInterface k name).map fun name' => m.insert k name'

/-- `FixInterfaces`. -/
def fixInterfaces (o : Order) (m : IntfNames) : Except String IntfNames :=
  (o.keys m.keys).foldlM fixTurn m

/-- `IntfMapping` of a `CEosLabDevice`. -/
def intfMapping (o : Order) (m : IntfNames) : IntfNames :=
  rename keep () (ranged m (o.keys m.keys))

/-! ### What the loops leave -/

variable {o : Order} {m m' : IntfNames} {k : String}

lemma lookup_intfMapping : (intfMapping o m).lookup k = m.lookup k := by
  have hfst : (ranged m (o.keys m.keys)).map Prod.fst = o.keys m.keys :=
    map_fst_ranged fun k => o.mem_keys.mp
  have hnd : ((ranged m (o.keys m.keys)).map Prod.fst).Nodup := by
    rw [hfst]
    exact o.nodup_keys m
  apply Option.ext
  intro name
  rw [intfMapping, lookup_rename_keep hnd, mem_ranged (o.perm _)]

/-- The loop as a pass over the interfaces, each of which is fixed by itself. -/
def fixing : Pass IntfNames String String Unit String where
  get m k := m.lookup k
  put m k name := m.insert k name
  view _ := ()
  op _ k name := fixInterface k name
  get_put_self m _ _ _ _ := AList.lookup_insert m
  get_put_ne _ _ _ _ hne := AList.lookup_insert_ne hne
  view_put _ _ _ _ _ _ := rfl
  op_view _ _ _ _ _ := rfl

lemma fixInterfaces_ok (hfix : fixInterfaces o m = .ok m') :
    (m.lookup k = none → m'.lookup k = none) ∧ ∀ name, m.lookup k = some name →
      ∃ name', fixInterface k name = .ok name' ∧ m'.lookup k = some name' := by
  have hturn : fixTurn = fixing.turn := by
    funext m k
    unfold fixTurn Pass.turn
    cases hk : m.lookup k <;> simp [fixing, hk]
  have hsweep : fixing.sweep m (o.keys m.keys) = .ok m' := by
    rw [Pass.sweep, ← hturn]
    exact hfix
  obtain ⟨-, hother, hfixed⟩ :=
    Pass.sweep_ok (o.nodup_keys m) hsweep
  exact ⟨fun hk => (hother k (.inr hk)).trans hk, fun name hk =>
    hfixed k (o.mem_keys_of_lookup hk) name hk⟩

/-! ### Keys that are counted -/

/-- Every key is `eth` with a number. -/
def Counted (m : IntfNames) : Prop := ∀ k ∈ m, ∃ n, k = eth n

/-- No name is given to two interfaces. -/
def GivenApart (m : IntfNames) : Prop :=
  ∀ k k' name, m.lookup k = some name → m.lookup k' = some name → name ≠ "" → k = k'

/-- The name that an interface without one gets. -/
def defaultName (n : ℕ) : String := "Ethernet" ++ toString n

/-- The name an interface ends up with. -/
def finalName (n : ℕ) (name : String) : String := if name = "" then defaultName n else name

lemma fixInterface_eth {n : ℕ} {name name' : String} (h : fixInterface (eth n) name = .ok name') :
    name' = finalName n name := by
  unfold fixInterface at h
  have hpre : hasPrefix (eth n) "eth" = true := hasPrefix_append _ _
  have hempty : (ethIntfRe.matchString "" || mgmtIntfRe.matchString "") = false := by decide +kernel
  by_cases hname : name = ""
  · subst hname
    simp only [hpre, Bool.not_true, Bool.false_or, hempty, Bool.false_eq_true, if_false,
      if_true, Except.ok.injEq] at h
    rw [← h, finalName, if_pos rfl, defaultName, eth, trimPrefix_append]
  · rw [finalName, if_neg hname]
    split_ifs at h with hre
    exact (Except.ok.inj h).symm

lemma defaultName_injective : Function.Injective defaultName := by
  intro i j h
  have hrepr : toString i = toString j := String.append_right_inj "Ethernet" |>.mp h
  refine eth_injective ?_
  rw [eth, eth, hrepr]

lemma lookup_fixed (o' : Order) (hkeys : Counted m) (hfix : fixInterfaces o m = .ok m')
    {name : String} :
    (intfMapping o' m').lookup k = some name ↔
      ∃ n given, k = eth n ∧ m.lookup k = some given ∧ name = finalName n given := by
  obtain ⟨hnone, hfixed⟩ := fixInterfaces_ok (k := k) hfix
  rw [lookup_intfMapping]
  cases hk : m.lookup k with
  | none => simp [hnone hk]
  | some given =>
    obtain ⟨n, rfl⟩ := hkeys k (AList.lookup_isSome.mp (by simp [hk]))
    obtain ⟨name', hok, hm'⟩ := hfixed given hk
    rw [hm', fixInterface_eth hok]
    constructor
    · rintro ⟨⟩
      exact ⟨n, given, rfl, rfl, rfl⟩
    · rintro ⟨n', given', heq, hgiven, rfl⟩
      rw [eth_injective heq, Option.some.inj hgiven]

/-- **When distinct interfaces get distinct names.** For a node with counted keys, whose interfaces
were fixed and whose given names are distinct: exactly if no given name is the one that is made for
an interface without a name. -/
theorem intfMapping_distinct_iff (o o' : Order) (m m' : IntfNames) (hkeys : Counted m)
    (hgiven : GivenApart m) (hfix : fixInterfaces o m = .ok m') :
    Distinct (intfMapping o' m') ↔
      ∀ n k, m.lookup (eth n) = some "" → m.lookup k ≠ some (defaultName n) := by
  constructor
  · intro hdistinct n k hn hk
    have hne : defaultName n ≠ "" := by simp [defaultName]
    obtain ⟨n', rfl⟩ := hkeys k (AList.lookup_isSome.mp (by simp [hk]))
    have heq := hdistinct (eth n) (eth n') (defaultName n)
      ((lookup_fixed o' hkeys hfix).mpr ⟨n, "", rfl, hn, rfl⟩)
      ((lookup_fixed o' hkeys hfix).mpr ⟨n', _, rfl, hk, by rw [finalName, if_neg hne]⟩)
    rw [← heq, hn] at hk
    exact hne (Option.some.inj hk).symm
  · intro hnot k k' name hk hk'
    obtain ⟨n, given, rfl, hg, rfl⟩ := (lookup_fixed o' hkeys hfix).mp hk
    obtain ⟨n', given', rfl, hg', heq⟩ := (lookup_fixed o' hkeys hfix).mp hk'
    unfold finalName at heq
    split_ifs at heq with h h' h'
    · -- both names are made from the keys
      rw [defaultName_injective heq]
    · subst h
      rw [← heq] at hg'
      exact absurd hg' (hnot n _ hg)
    · subst h'
      rw [heq] at hg
      exact absurd hg (hnot n' _ hg')
    · subst heq
      exact hgiven _ _ given hg hg' h

/-- One interface with a name and one without. -/
def mixedNames (name : String) : IntfNames :=
  ((∅ : IntfNames).insert "eth2" "").insert "eth1" name

def fixedNames (name : String) : IntfNames :=
  ((∅ : IntfNames).insert "eth1" name).insert "eth2" "Ethernet2"

lemma counted_mixedNames (name : String) : Counted (mixedNames name) := by
  intro k hk
  have hmem : k ∈ ["eth1", "eth2"] := hk
  rcases List.mem_cons.mp hmem with rfl | hmem
  · exact ⟨1, rfl⟩
  · rw [List.mem_singleton] at hmem
    exact ⟨2, hmem⟩

lemma lookup_mixedNames {k name given : String} (h : (mixedNames name).lookup k = some given) :
    (k = "eth1" ∧ given = name) ∨ (k = "eth2" ∧ given = "") := by
  unfold mixedNames at h
  by_cases h1 : k = "eth1"
  · subst h1
    rw [AList.lookup_insert] at h
    exact .inl ⟨rfl, (Option.some.inj h).symm⟩
  · rw [AList.lookup_insert_ne h1] at h
    by_cases h2 : k = "eth2"
    · subst h2
      rw [AList.lookup_insert] at h
      exact .inr ⟨rfl, (Option.some.inj h).symm⟩
    · rw [AList.lookup_insert_ne h2] at h
      cases h

lemma givenApart_mixedNames (name : String) : GivenApart (mixedNames name) := by
  intro k k' given hk hk' hne
  rcases lookup_mixedNames hk with ⟨rfl, rfl⟩ | ⟨rfl, rfl⟩
  · rcases lookup_mixedNames hk' with ⟨rfl, -⟩ | ⟨-, rfl⟩
    · rfl
    · exact absurd rfl hne
  · exact absurd rfl hne

theorem mixedNames_distinct :
    fixInterfaces keptOrder (mixedNames "Ethernet1/1") = .ok (fixedNames "Ethernet1/1") ∧
    Distinct (intfMapping keptOrder (fixedNames "Ethernet1/1")) := by
  have hfix : fixInterfaces keptOrder (mixedNames "Ethernet1/1") =
      .ok (fixedNames "Ethernet1/1") := by rfl
  refine ⟨hfix, (intfMapping_distinct_iff keptOrder keptOrder _ _ (counted_mixedNames _)
    (givenApart_mixedNames _) hfix).mpr ?_⟩
  intro n k hn hk
  rcases lookup_mixedNames hn with ⟨-, hempty⟩ | ⟨heq, -⟩
  · exact absurd hempty (by decide)
  · obtain rfl : n = 2 := eth_injective heq
    rcases lookup_mixedNames hk with ⟨-, hname⟩ | ⟨-, hname⟩
    · exact absurd hname (by decide)
    · exact absurd hname (by decide)

/-- The name given to the first interface is made for the second one too. -/
theorem given_name_made_again :
    Counted (mixedNames "Ethernet2") ∧ GivenApart (mixedNames "Ethernet2") ∧
    fixInterfaces keptOrder (mixedNames "Ethernet2") = .ok (fixedNames "Ethernet2") ∧
    (intfMapping keptOrder (fixedNames "Ethernet2")).lookup "eth1" = some "Ethernet2" ∧
    (intfMapping keptOrder (fixedNames "Ethernet2")).lookup "eth2" = some "Ethernet2" ∧
    ¬ Distinct (intfMapping keptOrder (fixedNames "Ethernet2")) := by
  have h1 : (intfMapping keptOrder (fixedNames "Ethernet2")).lookup "eth1" = some "Ethernet2" := by
    decide +kernel
  have h2 : (intfMapping keptOrder (fixedNames "Ethernet2")).lookup "eth2" = some "Ethernet2" := by
    decide +kernel
  refine ⟨counted_mixedNames _, givenApart_mixedNames _, rfl, h1, h2, fun hdistinct => ?_⟩
  exact absurd (hdistinct _ _ _ h1 h2) (by decide)

end Kne.AristaNames
