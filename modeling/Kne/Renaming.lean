import Mathlib.Tactic
import Mathlib.Data.List.AList

/-!
Giving new keys to the entries of a map: a loop over the entries stores each value under the name
that its key is given, and the name may depend on a counter or another state of the loop. A name
that is given twice loses an entry; nothing else can go wrong.

Keys, values and states are arbitrary.
-/

namespace Kne.Renaming

variable {κ α σ : Type*} {name : σ → κ → κ × σ}

/-- The names that the loop gives to the keys. -/
def names (name : σ → κ → κ × σ) : σ → List κ → List κ
  | _, [] => []
  | s, k :: ks => (name s k).1 :: names name (name s k).2 ks

@[simp] lemma length_names (s : σ) (ks : List κ) : (names name s ks).length = ks.length := by
  induction ks generalizing s with
  | nil => rfl
  | cons k ks ih => simp [names, ih]

lemma names_eq_map {f : κ → κ} (h : ∀ s k, (name s k).1 = f k) (s : σ) (ks : List κ) :
    names name s ks = ks.map f := by
  induction ks generalizing s with
  | nil => rfl
  | cons k ks ih => rw [names, h, ih, List.map_cons]

variable [DecidableEq κ]

/-- The loop, from a state and a map that is there already. -/
def renameFrom (name : σ → κ → κ × σ) :
    σ → AList (fun _ : κ => α) → List (κ × α) → AList (fun _ : κ => α)
  | _, out, [] => out
  | s, out, (k, v) :: kvs => renameFrom name (name s k).2 (out.insert (name s k).1 v) kvs

def rename (name : σ → κ → κ × σ) (s : σ) (kvs : List (κ × α)) : AList (fun _ : κ => α) :=
  renameFrom name s ∅ kvs

lemma mem_renameFrom (s : σ) (out : AList (fun _ : κ => α)) (kvs : List (κ × α)) (n : κ) :
    n ∈ renameFrom name s out kvs ↔ n ∈ out ∨ n ∈ names name s (kvs.map Prod.fst) := by
  induction kvs generalizing s out with
  | nil => simp [renameFrom, names]
  | cons kv kvs ih =>
    rw [renameFrom, ih, AList.mem_insert, List.map_cons, names, List.mem_cons]
    tauto

lemma lookup_renameFrom (s : σ) (out : AList (fun _ : κ => α)) (kvs : List (κ × α)) {n : κ} {v : α}
    (hnd : (names name s (kvs.map Prod.fst)).Nodup)
    (hout : ∀ n ∈ names name s (kvs.map Prod.fst), n ∉ out) :
    (renameFrom name s out kvs).lookup n = some v ↔
      out.lookup n = some v ∨
        (n, v) ∈ (names name s (kvs.map Prod.fst)).zip (kvs.map Prod.snd) := by
  induction kvs generalizing s out with
  | nil => simp [renameFrom, names]
  | cons kv kvs ih =>
    obtain ⟨k, u⟩ := kv
    simp only [List.map_cons, names, List.nodup_cons, List.forall_mem_cons] at hnd hout
    have hout' : ∀ m ∈ names name (name s k).2 (kvs.map Prod.fst),
        m ∉ out.insert (name s k).1 u := by
      intro m hm hmem
      rcases (AList.mem_insert _).mp hmem with rfl | hmem
      · exact hnd.1 hm
      · exact hout.2 m hm hmem
    rw [renameFrom, ih _ _ hnd.2 hout']
    simp only [List.map_cons, names, List.zip_cons_cons, List.mem_cons, Prod.mk.injEq]
    -- the new entry is the only one under its name
    by_cases hn : n = (name s k).1
    · subst hn
      have hnone : out.lookup (name s k).1 = none := AList.lookup_eq_none.mpr hout.1
      rw [AList.lookup_insert, hnone]
      simp [eq_comm]
    · rw [AList.lookup_insert_ne hn]
      simp [hn]

variable (s : σ) (kvs : List (κ × α))

lemma length_keys_rename_iff :
    (rename name s kvs).keys.length = kvs.length ↔ (names name s (kvs.map Prod.fst)).Nodup := by
  have hkeys : (rename name s kvs).keys.toFinset =
      (names name s (kvs.map Prod.fst)).toFinset := by
    ext n
    rw [List.mem_toFinset, List.mem_toFinset, AList.mem_keys.symm, rename, mem_renameFrom]
    simp
  have hcard : (rename name s kvs).keys.length =
      (names name s (kvs.map Prod.fst)).toFinset.card := by
    rw [← hkeys, List.toFinset_card_of_nodup (AList.keys_nodup _)]
  have hlen : kvs.length = (names name s (kvs.map Prod.fst)).length := by simp
  rw [hcard, hlen]
  constructor
  · intro h
    exact Multiset.toFinset_card_eq_card_iff_nodup.mp h
  · exact List.toFinset_card_of_nodup

/-! ### The entries of a map -/

/-- The entries of a map in the order of the keys. -/
def ranged (m : AList (fun _ : κ => α)) (ks : List κ) : List (κ × α) :=
  ks.filterMap fun k => (m.lookup k).map fun v => (k, v)

variable {m : AList (fun _ : κ => α)} {ks : List κ}

lemma mem_ranged (hks : ks.Perm m.keys) {k : κ} {v : α} :
    (k, v) ∈ ranged m ks ↔ m.lookup k = some v := by
  unfold ranged
  rw [List.mem_filterMap]
  constructor
  · rintro ⟨k', -, h⟩
    obtain ⟨v', hv, heq⟩ := Option.map_eq_some_iff.mp h
    cases heq
    exact hv
  · intro h
    refine ⟨k, hks.mem_iff.mpr (AList.mem_keys.mp (AList.lookup_isSome.mp (by rw [h]; rfl))), ?_⟩
    rw [h]
    rfl

lemma map_fst_ranged (hks : ∀ k ∈ ks, k ∈ m) : (ranged m ks).map Prod.fst = ks := by
  induction ks with
  | nil => rfl
  | cons k ks ih =>
    rw [List.forall_mem_cons] at hks
    obtain ⟨v, hv⟩ := Option.isSome_iff_exists.mp (AList.lookup_isSome.mpr hks.1)
    have hrest := ih hks.2
    unfold ranged at hrest ⊢
    rw [List.filterMap_cons, hv]
    simpa using hrest

/-! ### A name for each key -/

/-- Where the keys of one name have one value, that value is found under the name, in whatever order
the entries come. -/
lemma lookup_renameFrom_map {f : κ → κ} {s : σ} {out : AList (fun _ : κ => α)} {kvs : List (κ × α)}
    (hnames : names name s (kvs.map Prod.fst) = (kvs.map Prod.fst).map f) {n : κ} {v : α}
    (huniq : ∀ e ∈ kvs, ∀ e' ∈ kvs, f e.1 = n → f e'.1 = n → e.2 = e'.2) :
    (renameFrom name s out kvs).lookup n = some v ↔
      (∃ k, f k = n ∧ (k, v) ∈ kvs) ∨ out.lookup n = some v ∧ ∀ e ∈ kvs, f e.1 ≠ n := by
  induction kvs generalizing s out with
  | nil => simp [renameFrom]
  | cons kv kvs ih =>
    obtain ⟨k, u⟩ := kv
    simp only [List.map_cons, names, List.cons.injEq] at hnames
    have huniq' : ∀ e ∈ kvs, ∀ e' ∈ kvs, f e.1 = n → f e'.1 = n → e.2 = e'.2 :=
      fun e he e' he' => huniq e (List.mem_cons_of_mem _ he) e' (List.mem_cons_of_mem _ he')
    rw [renameFrom, ih hnames.2 huniq', hnames.1]
    simp only [List.mem_cons, forall_eq_or_imp, Prod.mk.injEq]
    by_cases hk : f k = n
    · -- the value is that of `k`, or of a later key with the same value
      have hu : ∀ e ∈ kvs, f e.1 = n → e.2 = u := fun e he hn =>
        huniq e (List.mem_cons_of_mem _ he) (k, u) List.mem_cons_self hn hk
      rw [← hk, AList.lookup_insert]
      constructor
      · rintro (⟨k', hk', hmem⟩ | ⟨hv, -⟩)
        · exact .inl ⟨k', hk', .inr hmem⟩
        · exact .inl ⟨k, rfl, .inl ⟨rfl, (Option.some.inj hv).symm⟩⟩
      · rintro (⟨k', hk', ⟨rfl, rfl⟩ | hmem⟩ | ⟨-, hne, -⟩)
        · by_cases hlater : ∃ e ∈ kvs, f e.1 = n
          · obtain ⟨e, he, hn⟩ := hlater
            exact .inl ⟨e.1, hn.trans hk.symm, by rw [← hu e he hn]; exact he⟩
          · exact .inr ⟨rfl, fun e he heq => hlater ⟨e, he, heq.trans hk⟩⟩
        · exact .inl ⟨k', hk', hmem⟩
        · exact absurd rfl hne
    · rw [AList.lookup_insert_ne (Ne.symm hk)]
      constructor
      · rintro (⟨k', hk', hmem⟩ | ⟨hv, hne⟩)
        · exact .inl ⟨k', hk', .inr hmem⟩
        · exact .inr ⟨hv, hk, hne⟩
      · rintro (⟨k', hk', ⟨rfl, -⟩ | hmem⟩ | ⟨hv, -, hne⟩)
        · exact absurd hk' hk
        · exact .inl ⟨k', hk', hmem⟩
        · exact .inr ⟨hv, hne⟩

lemma lookup_rename_map {f : κ → κ} {s : σ} (hks : ks.Perm m.keys)
    (hnames : names name s ks = ks.map f) {n : κ} {v : α}
    (huniq : ∀ a ∈ ks, ∀ b ∈ ks, f a = n → f b = n → a = b) :
    (rename name s (ranged m ks)).lookup n = some v ↔ ∃ k, f k = n ∧ m.lookup k = some v := by
  have hfst : (ranged m ks).map Prod.fst = ks :=
    map_fst_ranged fun k hk => AList.mem_keys.mpr (hks.mem_iff.mp hk)
  have hkey : ∀ e ∈ ranged m ks, e.1 ∈ ks := fun e he => by
    rw [← hfst]
    exact List.mem_map_of_mem he
  rw [rename, lookup_renameFrom_map (by rw [hfst]; exact hnames)]
  · simp only [mem_ranged hks, AList.lookup_empty, reduceCtorEq, false_and, or_false]
  · rintro ⟨a, v⟩ ha ⟨b, w⟩ hb hna hnb
    obtain rfl := huniq a (hkey _ ha) b (hkey _ hb) hna hnb
    exact Option.some.inj (((mem_ranged hks).mp ha).symm.trans ((mem_ranged hks).mp hb))

/-! ### The last entry -/

/-- The state of the loop after the keys. -/
def after (name : σ → κ → κ × σ) (s : σ) (ks : List κ) : σ :=
  ks.foldl (fun s k => (name s k).2) s

lemma renameFrom_concat (s : σ) (out : AList (fun _ : κ => α)) (kvs : List (κ × α)) (k : κ)
    (v : α) : renameFrom name s out (kvs ++ [(k, v)]) =
      (renameFrom name s out kvs).insert (name (after name s (kvs.map Prod.fst)) k).1 v := by
  induction kvs generalizing s out with
  | nil => rfl
  | cons kv kvs ih =>
    rw [List.cons_append, renameFrom, ih]
    rfl

lemma lookup_rename_last {k : κ} {v : α} (s : σ) (hks : ∀ k ∈ ks, k ∈ m)
    (hk : m.lookup k = some v) :
    (rename name s (ranged m (ks ++ [k]))).lookup (name (after name s ks) k).1 = some v := by
  have hlast : ranged m (ks ++ [k]) = ranged m ks ++ [(k, v)] := by
    simp [ranged, List.filterMap_append, hk]
  rw [hlast, rename, renameFrom_concat, map_fst_ranged hks]
  exact AList.lookup_insert _

/-! ### Entries that keep their keys -/

/-- Each entry is stored under its own key. -/
def keep (_ : Unit) (k : κ) : κ × Unit := (k, ())

omit [DecidableEq κ] in
lemma names_keep (ks : List κ) : names keep () ks = ks := by
  have hname : ∀ (s : Unit) (k : κ), (keep s k).1 = id k := fun _ _ => rfl
  calc names keep () ks = ks.map id := names_eq_map hname () ks
    _ = ks := List.map_id ks

lemma lookup_rename_keep {kvs : List (κ × α)} (h : (kvs.map Prod.fst).Nodup) {k : κ} {v : α} :
    (rename keep () kvs).lookup k = some v ↔ (k, v) ∈ kvs := by
  have hzip : (kvs.map Prod.fst).zip (kvs.map Prod.snd) = kvs := by
    rw [← List.unzip_fst, ← List.unzip_snd, List.zip_unzip]
  rw [rename, lookup_renameFrom () ∅ kvs (by rwa [names_keep]) (by simp), names_keep, hzip]
  simp

/-! ### No entry is lost -/

/-- No two keys have the same value. -/
def Distinct (m : AList (fun _ : κ => α)) : Prop :=
  ∀ k k' v, m.lookup k = some v → m.lookup k' = some v → k = k'

lemma distinct_of_nodup (h : (m.entries.map Sigma.snd).Nodup) : Distinct m := by
  intro k k' v hk hk'
  have heq := List.inj_on_of_nodup_map h (AList.mem_lookup_iff.mp hk) (AList.mem_lookup_iff.mp hk')
    rfl
  exact congrArg Sigma.fst heq

/-- No entry is lost: their number stays, and each value is under exactly one key. -/
def LosesNone (m out : AList (fun _ : κ => α)) : Prop :=
  out.keys.length = m.keys.length ∧ ∀ k v, m.lookup k = some v → ∃! n, out.lookup n = some v

/-- **Renaming.** If the values are distinct, no entry is lost just if no name is given twice. -/
theorem losesNone_rename_iff (hks : ks.Perm m.keys) (hm : Distinct m) :
    LosesNone m (rename name s (ranged m ks)) ↔ (names name s ks).Nodup := by
  have hfst : (ranged m ks).map Prod.fst = ks :=
    map_fst_ranged fun k hk => AList.mem_keys.mpr (hks.mem_iff.mp hk)
  have hnodup : (ranged m ks).Nodup := by
    refine List.Nodup.of_map Prod.fst ?_
    rw [hfst]
    exact hks.nodup_iff.mpr (AList.keys_nodup m)
  have hsnd : ((ranged m ks).map Prod.snd).Nodup := by
    refine List.Nodup.map_on ?_ hnodup
    rintro ⟨k, v⟩ hk ⟨k', v'⟩ hk' rfl
    rw [hm k k' v ((mem_ranged hks).mp hk) ((mem_ranged hks).mp hk')]
  have hlen : (ranged m ks).length = m.keys.length := by
    rw [← hks.length_eq, ← hfst, List.length_map, hfst]
  have hcount : (rename name s (ranged m ks)).keys.length = (ranged m ks).length ↔
      (names name s ((ranged m ks).map Prod.fst)).Nodup := length_keys_rename_iff s (ranged m ks)
  rw [hlen, hfst] at hcount
  unfold LosesNone
  rw [hcount]
  refine and_iff_left_of_imp fun hnd k v hkv => ?_
  have hlookup : ∀ n, (rename name s (ranged m ks)).lookup n = some v ↔
      (n, v) ∈ (names name s ks).zip ((ranged m ks).map Prod.snd) := by
    intro n
    rw [rename, lookup_renameFrom s ∅ (ranged m ks) (by rwa [hfst]) (by simp), hfst]
    simp
  have hzip : ((names name s ks).zip ((ranged m ks).map Prod.snd)).map Prod.snd =
      (ranged m ks).map Prod.snd := List.map_snd_zip (by simp [hlen, hks.length_eq])
  have hmem : v ∈ (ranged m ks).map Prod.snd :=
    List.mem_map_of_mem (f := Prod.snd) ((mem_ranged hks).mpr hkv)
  rw [← hzip] at hmem hsnd
  obtain ⟨⟨n, v'⟩, hn, rfl⟩ := List.mem_map.mp hmem
  refine ⟨n, (hlookup n).mpr hn, fun n' hn' => ?_⟩
  exact congrArg Prod.fst (List.inj_on_of_nodup_map hsnd ((hlookup n').mp hn') hn rfl)

end Kne.Renaming
