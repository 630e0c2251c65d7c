import Kne.KindModel

/-!
The nodes of a cluster are read twice from what `kind get nodes` prints: by `clusterKindNodes`
(`cluster/kind/kind.go`), which cuts at blanks, and by `retagInKindNodes` (`deploy/deploy.go`),
which cuts at the ends of lines and leaves out lines with blanks. A list of several nodes is read
correctly by one of the two at most.
-/

namespace Kne.KindNodes

open Kne.Commands Kne.KindModel Kne.Objects Kne.Texts

/-! ### What is printed -/

/-- A list of names, separated by blanks or by newlines, with or without one more at the end. -/
structure Printed where
  names : List String
  nonempty : names ≠ []
  plain : ∀ n ∈ names, n ≠ "" ∧ ∀ c ∈ n.toList, isSpace c = false
  spaced : Bool
  terminated : Bool

namespace Printed

variable (p : Printed)

def separator : Char := if p.spaced then ' ' else '\n'

def text : String :=
  String.ofList ([p.separator].intercalate (p.names.map String.toList) ++
    if p.terminated then [p.separator] else [])

/-- What is between the separators. -/
def fields : List (List Char) := p.names.map String.toList ++ if p.terminated then [[]] else []

variable {p}

lemma separator_of_spaced (h : p.spaced = true) : p.separator = ' ' := if_pos h

lemma separator_of_lines (h : p.spaced = false) : p.separator = '\n' := by
  rw [separator, h]
  rfl

lemma isSpace_separator : isSpace p.separator = true := by
  unfold separator
  split <;> decide

lemma toList_ne_nil {n : String} (hn : n ∈ p.names) : n.toList ≠ [] := by
  have hne := (p.plain n hn).1
  contrapose! hne
  exact String.toList_eq_nil_iff.mp hne

lemma not_mem_of_isSpace {n : String} (hn : n ∈ p.names) {c : Char} (hc : isSpace c = true) :
    c ∉ n.toList := by
  intro hmem
  rw [(p.plain n hn).2 c hmem] at hc
  cases hc

lemma intercalate_snoc_nil (c : Char) {xs : List (List Char)} (h : xs ≠ []) :
    [c].intercalate (xs ++ [[]]) = [c].intercalate xs ++ [c] := by
  induction xs with
  | nil => exact absurd rfl h
  | cons x xs ih =>
    cases xs with
    | nil => simp
    | cons y ys =>
      have hrest := ih (List.cons_ne_nil y ys)
      simp only [List.cons_append] at hrest ⊢
      rw [List.intercalate_cons_cons, List.intercalate_cons_cons, hrest]
      simp only [List.append_assoc]

lemma text_eq : p.text.toList = [p.separator].intercalate p.fields := by
  have hne : p.names.map String.toList ≠ [] := by simpa using p.nonempty
  rw [text, String.toList_ofList, fields]
  split
  · rw [intercalate_snoc_nil _ hne]
  · rw [List.append_nil, List.append_nil]

lemma splitOn_separator : p.text.toList.splitOn p.separator = p.fields := by
  rw [text_eq]
  refine List.splitOn_intercalate p.separator ?_ ?_
  · intro f hf
    rcases List.mem_append.mp hf with hf | hf
    · obtain ⟨n, hn, rfl⟩ := List.mem_map.mp hf
      exact not_mem_of_isSpace hn isSpace_separator
    · split at hf
      · rw [List.mem_singleton.mp hf]
        exact List.not_mem_nil
      · cases hf
  · simp [fields, p.nonempty]

lemma not_mem_text {c : Char} (hc : isSpace c = true) (hne : c ≠ p.separator) :
    c ∉ p.text.toList := by
  have hbody : ∀ ns : List String, (∀ n ∈ ns, n ∈ p.names) →
      c ∉ [p.separator].intercalate (ns.map String.toList) := by
    intro ns hns
    induction ns with
    | nil => simp
    | cons n ns ih =>
      obtain ⟨hn, hrest⟩ := List.forall_mem_cons.mp hns
      have hfirst := not_mem_of_isSpace hn hc
      cases ns with
      | nil => simpa using hfirst
      | cons m ms =>
        have hothers := ih hrest
        rw [List.map_cons] at hothers
        rw [List.map_cons, List.map_cons, List.intercalate_cons_cons]
        simp only [List.mem_append, List.mem_singleton]
        rintro ((h | h) | h)
        · exact hfirst h
        · exact hne h
        · exact hothers h
  rw [text, String.toList_ofList, List.mem_append]
  rintro (h | h)
  · exact hbody p.names (fun n hn => hn) h
  · split at h
    · exact hne (List.mem_singleton.mp h)
    · cases h

end Printed

/-! ### The nodes that are read -/

section Trim

lemma trimSpace_append {cs spaces : List Char} (hcs : ∀ c ∈ cs, isSpace c = false) (hne : cs ≠ [])
    (hspaces : ∀ c ∈ spaces, isSpace c = true) :
    trimSpace (String.ofList (cs ++ spaces)) = String.ofList cs := by
  have hfront : (cs ++ spaces).dropWhile isSpace = cs ++ spaces := by
    obtain ⟨c, cs', rfl⟩ := List.exists_cons_of_ne_nil hne
    exact List.dropWhile_cons_of_neg (by simp [hcs c List.mem_cons_self])
  have hback : (cs ++ spaces).reverse.dropWhile isSpace = cs.reverse := by
    rw [List.reverse_append, List.dropWhile_append_of_pos (by simpa using hspaces)]
    obtain ⟨c, cs', hrev⟩ := List.exists_cons_of_ne_nil (List.reverse_ne_nil_iff.mpr hne)
    have hc : isSpace c = false := hcs c (List.mem_reverse.mp (hrev ▸ List.mem_cons_self))
    rw [hrev]
    exact List.dropWhile_cons_of_neg (by simp [hc])
  rw [trimSpace, String.toList_ofList, hfront, hback, List.reverse_reverse]

lemma trimSpace_plain {n : String} (hn : ∀ c ∈ n.toList, isSpace c = false) (hne : n.toList ≠ []) :
    trimSpace n = n := by
  have h := @trimSpace_append n.toList [] hn hne (by simp)
  rwa [List.append_nil, String.ofList_toList] at h

lemma mem_trimSpace {xs ys : List Char} {c : Char} (hx : ∃ x ∈ xs, isSpace x = false)
    (hy : ∃ y ∈ ys, isSpace y = false) :
    c ∈ (trimSpace (String.ofList (xs ++ c :: ys))).toList := by
  have hkeep : ∀ {us vs : List Char}, (∃ u ∈ us, isSpace u = false) →
      (us ++ vs).dropWhile isSpace = us.dropWhile isSpace ++ vs := by
    intro us vs ⟨u, hu, hspace⟩
    have hne : us.dropWhile isSpace ≠ [] := by
      intro hnil
      have := List.dropWhile_eq_nil_iff.mp hnil u hu
      rw [hspace] at this
      cases this
    rw [List.dropWhile_append, if_neg (by simpa using hne)]
  have hy' : ∃ y ∈ ys.reverse, isSpace y = false := by simpa using hy
  rw [trimSpace, String.toList_ofList, String.toList_ofList, hkeep hx, List.reverse_append,
    List.reverse_cons, List.append_assoc, hkeep hy']
  simp

end Trim

lemma trimNewline_of_not_mem {cs : List Char} (h : '\n' ∉ cs) : trimNewline cs = cs :=
  if_neg fun hlast => h (List.mem_of_getLast? hlast)

section Read

variable {p : Printed}

lemma text_ne_empty : p.text ≠ "" := by
  intro h
  have hfields : p.fields = [[]] := by
    rw [← Printed.splitOn_separator, h]
    rfl
  obtain ⟨n, ns, hnames⟩ := List.exists_cons_of_ne_nil p.nonempty
  have hn : n.toList ≠ [] := Printed.toList_ne_nil (hnames ▸ List.mem_cons_self)
  rw [Printed.fields, hnames, List.map_cons, List.cons_append] at hfields
  exact hn (List.cons.inj hfields).1

lemma clusterNodes_spaced (h : p.spaced = true) :
    clusterNodes p.text = p.names ++ if p.terminated then [""] else [] := by
  have hsep := Printed.separator_of_spaced h
  have hsplit := Printed.splitOn_separator (p := p)
  rw [hsep] at hsplit
  have hnames : (p.names.map String.toList).map (fun n => String.ofList (trimNewline n)) =
      p.names := by
    rw [List.map_map]
    refine (List.map_congr_left fun n hn => ?_).trans (List.map_id p.names)
    rw [Function.comp_apply, trimNewline_of_not_mem (Printed.not_mem_of_isSpace hn (by decide)),
      String.ofList_toList, id]
  rw [clusterNodes, if_neg text_ne_empty, hsplit, Printed.fields, List.map_append, hnames]
  split <;> rfl

lemma clusterNodes_lines (h : p.spaced = false) :
    clusterNodes p.text = [String.ofList (trimNewline p.text.toList)] := by
  have hsep := Printed.separator_of_lines h
  have hblank : ' ' ∉ p.text.toList := Printed.not_mem_text (by decide) (by rw [hsep]; decide)
  rw [clusterNodes, if_neg text_ne_empty, List.splitOn_eq_singleton hblank, List.map_singleton]

lemma isNode_name {n : String} (hn : n ∈ p.names) : isNode n = true := by
  have hblank : ' ' ∉ n.toList := Printed.not_mem_of_isSpace hn (by decide)
  have htab : '\t' ∉ n.toList := Printed.not_mem_of_isSpace hn (by decide)
  simp only [isNode, Bool.and_eq_true, decide_eq_true_eq, Bool.not_eq_true', List.any_eq_false,
    Bool.or_eq_true, not_or]
  exact ⟨(p.plain n hn).1, fun c hc => ⟨fun e => hblank (e ▸ hc), fun e => htab (e ▸ hc)⟩⟩

lemma isNode_of_blank {line : String} (h : ' ' ∈ line.toList) : isNode line = false := by
  have hany : (line.toList.any fun c => c = ' ' || c = '\t') = true :=
    List.any_eq_true.mpr ⟨' ', h, rfl⟩
  rw [isNode, hany, Bool.not_true, Bool.and_false]

lemma retagNodes_lines (h : p.spaced = false) : retagNodes p.text = p.names := by
  have hsep := Printed.separator_of_lines h
  have hsplit := Printed.splitOn_separator (p := p)
  rw [hsep] at hsplit
  have hnames : ((p.names.map String.toList).map String.ofList).map trimSpace = p.names := by
    rw [List.map_map, List.map_map]
    refine (List.map_congr_left fun n hn => ?_).trans (List.map_id p.names)
    simp only [Function.comp_apply, String.ofList_toList, id]
    exact trimSpace_plain (p.plain n hn).2 (Printed.toList_ne_nil hn)
  have hkept : p.names.filter isNode = p.names :=
    List.filter_eq_self.mpr fun n hn => isNode_name hn
  rw [retagNodes, lines, hsplit, Printed.fields, List.map_append, List.map_append, hnames,
    List.filter_append, hkept]
  split
  · have hempty : (([[]] : List (List Char)).map String.ofList).map trimSpace = [""] := by decide
    rw [hempty]
    simp [isNode]
  · simp

lemma trimSpace_text_of_one {n : String} (hnames : p.names = [n]) : trimSpace p.text = n := by
  have hn : n ∈ p.names := hnames ▸ List.mem_cons_self
  rw [Printed.text, hnames, List.map_singleton, List.intercalate_singleton,
    trimSpace_append (p.plain n hn).2 (Printed.toList_ne_nil hn), String.ofList_toList]
  intro c hc
  split at hc
  · rw [List.mem_singleton.mp hc]
    exact Printed.isSpace_separator
  · cases hc

lemma separator_mem_trimSpace {n m : String} {ns : List String} (hnames : p.names = n :: m :: ns) :
    p.separator ∈ (trimSpace p.text).toList := by
  have hn : n ∈ p.names := by simp [hnames]
  have hm : m ∈ p.names := by simp [hnames]
  obtain ⟨x, xs, hx⟩ := List.exists_cons_of_ne_nil (Printed.toList_ne_nil hn)
  obtain ⟨y, ys, hy⟩ := List.exists_cons_of_ne_nil (Printed.toList_ne_nil hm)
  have hxspace : isSpace x = false := (p.plain n hn).2 x (hx ▸ List.mem_cons_self)
  have hyspace : isSpace y = false := (p.plain m hm).2 y (hy ▸ List.mem_cons_self)
  have htail : y ∈ [p.separator].intercalate (m.toList :: ns.map String.toList) := by
    cases ns with
    | nil => simp [hy]
    | cons k ks =>
      rw [List.map_cons, List.intercalate_cons_cons]
      simp [hy]
  rw [Printed.text, hnames, List.map_cons, List.map_cons, List.intercalate_cons_cons]
  simp only [List.append_assoc, List.cons_append, List.nil_append]
  exact mem_trimSpace ⟨x, hx ▸ List.mem_cons_self, hxspace⟩
    ⟨y, List.mem_append_left _ htail, hyspace⟩

lemma retagNodes_spaced (h : p.spaced = true) :
    retagNodes p.text = if p.names.length = 1 then p.names else [] := by
  have hsep := Printed.separator_of_spaced h
  have hnewline : '\n' ∉ p.text.toList := Printed.not_mem_text (by decide) (by rw [hsep]; decide)
  have hline : (lines p.text).map trimSpace = [trimSpace p.text] := by
    rw [lines, List.splitOn_eq_singleton hnewline, List.map_singleton, List.map_singleton,
      String.ofList_toList]
  obtain ⟨n, ns, hnames⟩ := List.exists_cons_of_ne_nil p.nonempty
  rw [retagNodes, hline, List.filter_singleton, hnames]
  cases ns with
  | nil =>
    rw [trimSpace_text_of_one hnames, isNode_name (hnames ▸ List.mem_cons_self)]
    rfl
  | cons m ns =>
    have hblank : ' ' ∈ (trimSpace p.text).toList := hsep ▸ separator_mem_trimSpace hnames
    rw [isNode_of_blank hblank]
    simp

end Read

/-! ### The programs -/

/-- `kind` knows the cluster in use and prints its nodes, and they can be tagged. -/
structure Lists (h : Host) (p : Printed) : Prop where
  context : ∀ log, (h.reply log .currentContext).err = none
  found : ∀ log, ∃ c cs,
    clusterKindNameRE.findStringSubmatch (h.reply log .currentContext).out = some (c :: cs)
  nodes : ∀ log flags, h.reply log (.kind ["get", "nodes"] flags) = { out := p.text }
  tags : ∀ log n src dst, (h.reply log (.tagOnNode n src dst)).err = none

/-- The nodes on which an image was tagged. -/
def tagged (log : List Cmd) : List String :=
  log.filterMap fun
    | .tagOnNode n _ _ => some n
    | _ => none

lemma tagged_append (log log' : List Cmd) : tagged (log ++ log') = tagged log ++ tagged log' :=
  List.filterMap_append

lemma tagged_map (ns : List String) (src dst : String) :
    tagged (ns.map (.tagOnNode · src dst)) = ns := by
  induction ns with
  | nil => rfl
  | cons n ns ih => exact congrArg (n :: ·) ih

section Programs

variable {h : Host} {p : Printed} (hp : Lists h p) (src dst cluster : String) (log : List Cmd)

include hp

lemma clusterKindNodes_eq : ∃ t, clusterKindNodes h log = .ok (clusterNodes p.text) t := by
  obtain ⟨c, cs, hfound⟩ := hp.found log
  have hcontext : clusterName h log =
      .ok (h.reply log .currentContext).out (log ++ [.currentContext]) := by
    refine (bind_apply_of_ok rfl).trans ?_
    rw [hp.context log]
    rfl
  have hattempt : attempt (clusterName h) log =
      .ok (.ok (h.reply log .currentContext).out) (log ++ [.currentContext]) := by
    rw [attempt, hcontext]
  have hname : clusterKindName h log =
      .ok (String.ofList (c :: cs)) (log ++ [.currentContext]) := by
    refine (bind_apply_of_ok hattempt).trans ?_
    simp only [hfound]
    rfl
  refine ⟨log ++ [.currentContext] ++ [.kind ["get", "nodes"] [.name (String.ofList (c :: cs))]],
    (bind_apply_of_ok hname).trans ((bind_apply_of_ok rfl).trans ?_)⟩
  rw [hp.nodes]
  rfl

lemma forM_tag (ns : List String) (wrap : String → String → String) :
    (ns.forM fun n => h.runOr (wrap n) (.tagOnNode n src dst)) log =
      .ok () (log ++ ns.map (.tagOnNode · src dst)) := by
  induction ns generalizing log with
  | nil => exact congrArg (EStateM.Result.ok ()) (List.append_nil log).symm
  | cons n ns ih =>
    have hfirst : h.runOr (wrap n) (.tagOnNode n src dst) log =
        .ok () (log ++ [.tagOnNode n src dst]) := by
      refine (bind_apply_of_ok rfl).trans ?_
      rw [hp.tags]
      rfl
    refine (bind_apply_of_ok hfirst).trans ((ih _).trans ?_)
    rw [List.append_assoc, List.singleton_append, List.map_cons]

lemma tagged_retag :
    tagged (after (retagInKindNodes h src dst cluster) log) =
      tagged log ++ retagNodes p.text := by
  have hlist : h.run (.kind ["get", "nodes"] (nameFlag cluster)) log =
      .ok { out := p.text } (log ++ [.kind ["get", "nodes"] (nameFlag cluster)]) := by
    rw [Host.run, exec, hp.nodes]
  have hget : tagged (log ++ [.kind ["get", "nodes"] (nameFlag cluster)]) = tagged log := by
    rw [tagged_append]
    exact List.append_nil _
  rw [retagInKindNodes, after_bind hlist]
  cases hnodes : retagNodes p.text with
  | nil =>
    simp only
    rw [List.append_nil]
    exact hget
  | cons n ns =>
    simp only
    rw [after_ok (forM_tag hp src dst _ (n :: ns) _), tagged_append, hget, tagged_map]

end Programs

/-! ### Agreement -/

/-- The texts that both read correctly. -/
def Single (p : Printed) : Prop := p.names.length = 1 ∧ ¬ (p.spaced = true ∧ p.terminated = true)

section Agreement

variable {p : Printed}

lemma nodes_of_single (hs : Single p) :
    clusterNodes p.text = p.names ∧ retagNodes p.text = p.names := by
  obtain ⟨hone, hend⟩ := hs
  cases hspaced : p.spaced with
  | true =>
    have hterminated : p.terminated = false := by simpa [hspaced] using hend
    refine ⟨?_, ?_⟩
    · rw [clusterNodes_spaced hspaced, hterminated]
      exact List.append_nil _
    · rw [retagNodes_spaced hspaced, if_pos hone]
  | false =>
    refine ⟨?_, retagNodes_lines hspaced⟩
    obtain ⟨n, hnames⟩ := List.length_eq_one_iff.mp hone
    have hn : n ∈ p.names := hnames ▸ List.mem_cons_self
    have hnewline : '\n' ∉ n.toList := Printed.not_mem_of_isSpace hn (by decide)
    have hsep := Printed.separator_of_lines hspaced
    have htrim : trimNewline p.text.toList = n.toList := by
      rw [Printed.text, String.toList_ofList, hnames, List.map_singleton,
        List.intercalate_singleton, hsep]
      split
      · rw [trimNewline, List.getLast?_concat, if_pos rfl, List.dropLast_concat]
      · rw [List.append_nil, trimNewline_of_not_mem hnewline]
    rw [clusterNodes_lines hspaced, htrim, String.ofList_toList, hnames]

lemma single_of_agree (h : clusterNodes p.text = retagNodes p.text) : Single p := by
  have hlength := congrArg List.length h
  have hpos : 0 < p.names.length := List.length_pos_iff.mpr p.nonempty
  cases hspaced : p.spaced with
  | true =>
    rw [clusterNodes_spaced hspaced, retagNodes_spaced hspaced, List.length_append] at hlength
    by_cases hone : p.names.length = 1
    · refine ⟨hone, fun hboth => ?_⟩
      rw [if_pos hone, if_pos hboth.2, List.length_singleton] at hlength
      omega
    · rw [if_neg hone, List.length_nil] at hlength
      omega
  | false =>
    rw [clusterNodes_lines hspaced, retagNodes_lines hspaced, List.length_singleton] at hlength
    exact ⟨hlength.symm, by simp [hspaced]⟩

end Agreement

/-- **The two readers agree** on the printed nodes just for a single name that no blank follows, and
they agree on any list of nodes only then. -/
theorem readers_agree_iff (h : Host) (p : Printed) (hp : Lists h p) (src dst cluster : String)
    (log : List Cmd) :
    (((∃ t, clusterKindNodes h log = .ok p.names t) ∧
        tagged (after (retagInKindNodes h src dst cluster) log) = tagged log ++ p.names) ↔
      p.names.length = 1 ∧ ¬ (p.spaced = true ∧ p.terminated = true)) ∧
    ((∃ nodes t, clusterKindNodes h log = .ok nodes t ∧
        tagged (after (retagInKindNodes h src dst cluster) log) = tagged log ++ nodes) ↔
      p.names.length = 1 ∧ ¬ (p.spaced = true ∧ p.terminated = true)) := by
  obtain ⟨t, hread⟩ := clusterKindNodes_eq hp log
  have hagree : ∀ {nodes u}, clusterKindNodes h log = .ok nodes u →
      tagged (after (retagInKindNodes h src dst cluster) log) = tagged log ++ nodes →
        Single p := by
    intro nodes u hnodes htagged
    rw [hread] at hnodes
    cases hnodes
    rw [tagged_retag hp] at htagged
    exact single_of_agree (List.append_cancel_left htagged).symm
  have hboth : Single p → clusterKindNodes h log = .ok p.names t ∧
      tagged (after (retagInKindNodes h src dst cluster) log) = tagged log ++ p.names := by
    intro hs
    obtain ⟨hcluster, hretag⟩ := nodes_of_single hs
    rw [hread, tagged_retag hp, hcluster, hretag]
    exact ⟨rfl, rfl⟩
  refine ⟨⟨fun ⟨⟨u, hu⟩, htagged⟩ => hagree hu htagged, fun hs => ?_⟩,
    ⟨fun ⟨nodes, u, hu, htagged⟩ => hagree hu htagged, fun hs => ?_⟩⟩
  · exact ⟨⟨t, (hboth hs).1⟩, (hboth hs).2⟩
  · exact ⟨p.names, t, hboth hs⟩

/-- A host with the cluster `kne`, on which every command succeeds. -/
def printing (text : String) : Host where
  reply _ c :=
    match c with
    | .currentContext => { out := "kind-kne\n" }
    | .kind _ _ => { out := text }
    | _ => {}

lemma find_kne : clusterKindNameRE.findStringSubmatch "kind-kne\n" = some ['k', 'n', 'e'] := by
  decide

lemma lists_printing (p : Printed) : Lists (printing p.text) p where
  context _ := rfl
  found _ := ⟨'k', ['n', 'e'], find_kne⟩
  nodes _ _ := rfl
  tags _ _ _ _ := rfl

def oneNode : Printed where
  names := ["kne-control-plane"]
  nonempty := by decide
  plain := by simp [isSpace]
  spaced := false
  terminated := true

theorem readers_agree_on_one :
    Lists (printing oneNode.text) oneNode ∧
    (((∃ t, clusterKindNodes (printing oneNode.text) [] = .ok oneNode.names t) ∧
        tagged (after (retagInKindNodes (printing oneNode.text) "a" "b" "kne") []) =
          tagged [] ++ oneNode.names) ↔
      oneNode.names.length = 1 ∧ ¬ (oneNode.spaced = true ∧ oneNode.terminated = true)) ∧
    ((∃ nodes t, clusterKindNodes (printing oneNode.text) [] = .ok nodes t ∧
        tagged (after (retagInKindNodes (printing oneNode.text) "a" "b" "kne") []) =
          tagged [] ++ nodes) ↔
      oneNode.names.length = 1 ∧ ¬ (oneNode.spaced = true ∧ oneNode.terminated = true)) :=
  ⟨lists_printing oneNode,
    readers_agree_iff (printing oneNode.text) oneNode (lists_printing oneNode) "a" "b" "kne" []⟩

/-- The nodes as `kind` prints them. -/
def twoNodes : Printed where
  names := ["kne-control-plane", "kne-worker"]
  nonempty := by decide
  plain := by simp [isSpace]
  spaced := false
  terminated := true

/-- Two lines are one node for `clusterKindNodes`, and two for `retagInKindNodes`. -/
theorem two_lines_read :
    (∃ t, clusterKindNodes (printing twoNodes.text) [] =
      .ok ["kne-control-plane\nkne-worker"] t) ∧
    tagged (after (retagInKindNodes (printing twoNodes.text) "a" "b" "kne") []) =
      ["kne-control-plane", "kne-worker"] := by
  obtain ⟨t, hread⟩ := clusterKindNodes_eq (lists_printing twoNodes) []
  refine ⟨⟨t, ?_⟩, ?_⟩
  · rw [hread, clusterNodes_lines rfl]
    rfl
  · rw [tagged_retag (lists_printing twoNodes), retagNodes_lines rfl]
    rfl

end Kne.KindNodes
