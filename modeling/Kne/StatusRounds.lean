import Kne.TopoModel

/-!
`Manager.checkNodeStatus` of `topo.go`, called without a timeout: the loop that asks the nodes for
their status until all of them run. In a round every node that has not been seen running is asked
by a goroutine of its own; the answers are read after the last of them, in the order in which they
came in. The answers of all rounds are kept in a log, so that what the loop returns can be compared
with what it was told.
-/

namespace Kne.StatusRounds

open Kne.TopoModel

/-- `node.Status`. -/
inductive Status
  | pending | running | failed | unknown
  deriving DecidableEq, Repr

def Status.text : Status → String
  | .pending => "PENDING"
  | .running => "RUNNING"
  | .failed => "FAILED"
  | .unknown => "UNKNOWN"

/-- What a call of `Status` returns. -/
structure Answer where
  phase : Status
  err : Option String := none
  deriving DecidableEq, Repr

/-- The answer ends the loop with an error. -/
def Answer.Bad (a : Answer) : Prop := a.err.isSome ∨ a.phase = .failed

instance (a : Answer) : Decidable a.Bad := inferInstanceAs (Decidable (_ ∨ _))

/-- The nodes of the manager, each with the text it is printed as. -/
abbrev Nodes := AList (fun _ : String => String)

/-- One round: what each node answers if it is asked, and the order in which the answers come. -/
structure Round where
  answer : String → Answer
  arrival : Order

/-- Where the loop stands. -/
structure St where
  processed : List String := []
  /-- The answers of the rounds so far, each in the order in which they were read. -/
  log : List (List (String × Answer)) := []
  /-- What the function has returned. -/
  returned : Option (Option String) := none
  deriving DecidableEq, Repr

/-- The answers of the nodes that are asked. -/
def results (nodes : Nodes) (processed : List String) (r : Round) : List (String × Answer) :=
  (r.arrival.keys (nodes.keys.filter (· ∉ processed))).map fun name => (name, r.answer name)

/-- The error returned for an answer. -/
def statusErr (nodes : Nodes) (res : String × Answer) : String :=
  "node " ++ (nodes.lookup res.1).getD "" ++ ": status " ++ res.2.phase.text ++ " reason " ++
    res.2.err.getD "<nil>"

/-- The loop over the answers of a round: `processed` and `foundAll` after it. -/
def receive (nodes : Nodes) :
    List String → Bool → List (String × Answer) → Except String (List String × Bool)
  | processed, foundAll, [] => .ok (processed, foundAll)
  | processed, foundAll, res :: rest =>
    if res.2.Bad then .error (statusErr nodes res)
    else if res.2.phase = .running then receive nodes (res.1 :: processed) foundAll rest
    else receive nodes processed false rest

/-- One round of the loop. After the function has returned there are no more. -/
def round (nodes : Nodes) (s : St) (r : Round) : St :=
  if s.returned.isSome then s
  else
    let answers := results nodes s.processed r
    match receive nodes s.processed true answers with
    | .error err => { s with log := s.log ++ [answers], returned := some (some err) }
    | .ok (processed, foundAll) =>
      ⟨processed, s.log ++ [answers], if foundAll then some none else none⟩

/-- `checkNodeStatus` after a history of rounds. -/
def checkNodeStatus (nodes : Nodes) (history : List Round) : St :=
  history.foldl (round nodes) {}

/-! ### The answers of one round -/

variable {nodes : Nodes} {processed processed' : List String} {foundAll foundAll' : Bool}
  {answers : List (String × Answer)} {s : St} {r : Round}

lemma receive_error_iff : (∃ err, receive nodes processed foundAll answers = .error err) ↔
    ∃ res ∈ answers, res.2.Bad := by
  induction answers generalizing processed foundAll with
  | nil => simp [receive]
  | cons res rest ih =>
    by_cases hbad : res.2.Bad
    · simp [receive, hbad]
    · by_cases hrun : res.2.phase = .running
      · simp [receive, hbad, hrun, ih]
      · simp [receive, hbad, hrun, ih]

lemma receive_ok (h : receive nodes processed foundAll answers = .ok (processed', foundAll')) :
    (∀ name, name ∈ processed' ↔
      name ∈ processed ∨ ∃ a, (name, a) ∈ answers ∧ a.phase = .running) ∧
    (foundAll' = true ↔ foundAll = true ∧ ∀ res ∈ answers, res.2.phase = .running) := by
  induction answers generalizing processed foundAll with
  | nil =>
    obtain ⟨rfl, rfl⟩ : processed = processed' ∧ foundAll = foundAll' := by simpa [receive] using h
    simp
  | cons res rest ih =>
    obtain ⟨name, a⟩ := res
    have hbad : ¬ a.Bad := fun hbad => by simp [receive, hbad] at h
    by_cases hrun : a.phase = .running
    · simp only [receive, hbad, hrun, if_true, if_false] at h
      obtain ⟨hproc, hfound⟩ := ih h
      refine ⟨fun m => ?_, by simp [hfound, hrun]⟩
      rw [hproc]
      grind
    · simp only [receive, hbad, hrun, if_false] at h
      obtain ⟨hproc, hfound⟩ := ih h
      refine ⟨fun m => ?_, by simp [hfound, hrun]⟩
      rw [hproc]
      grind

lemma mem_results_iff {name : String} {a : Answer} : (name, a) ∈ results nodes processed r ↔
    name ∈ nodes.keys ∧ name ∉ processed ∧ a = r.answer name := by
  simp only [results, List.mem_map, (r.arrival.perm _).mem_iff, List.mem_filter]
  grind

/-! ### What holds after every round -/

/-- The node answered in the round that it runs. -/
def Runs (answers : List (String × Answer)) (name : String) : Prop :=
  ∃ a, (name, a) ∈ answers ∧ a.phase = .running

/-- No answer of the rounds is an error or says that a node failed. -/
def Clean (log : List (List (String × Answer))) : Prop :=
  ∀ answers ∈ log, ∀ res ∈ answers, ¬ res.2.Bad

/-- A node that answered in one round that it runs is not asked in a later one. -/
def AskedOnce (log : List (List (String × Answer))) : Prop :=
  log.Pairwise fun earlier later => ∀ name, Runs earlier name → name ∉ later.map Prod.fst

/-- The rounds of the log are the first ones of the history. In each of them every node that had not
been seen running gave its answer of that round, and nobody else answered. -/
def Asked (nodes : Nodes) (history : List Round) (log : List (List (String × Answer))) : Prop :=
  ∀ i answers, log[i]? = some answers → ∃ r, history[i]? = some r ∧
    ∀ name a, (name, a) ∈ answers ↔
      name ∈ nodes.keys ∧ (∀ earlier ∈ log.take i, ¬ Runs earlier name) ∧ a = r.answer name

/-- The loop invariant. -/
structure Good (nodes : Nodes) (s : St) : Prop where
  failed : (∃ err, s.returned = some (some err)) ↔
    ∃ answers, s.log.getLast? = some answers ∧ ∃ res ∈ answers, res.2.Bad
  clean : (∀ err, s.returned ≠ some (some err)) → Clean s.log
  processed : (∀ err, s.returned ≠ some (some err)) →
    ∀ name, name ∈ s.processed ↔ ∃ answers ∈ s.log, Runs answers name
  done : s.returned = some none → ∀ name ∈ nodes.keys, name ∈ s.processed
  once : AskedOnce s.log

lemma once_snoc (hs : Good nodes s) (hret : s.returned = none) :
    AskedOnce (s.log ++ [results nodes s.processed r]) := by
  have hproc := hs.processed (by simp [hret])
  refine List.pairwise_append.mpr ⟨hs.once, List.pairwise_singleton _ _, ?_⟩
  intro answers hmem later hlater name hruns hasked
  obtain rfl : later = results nodes s.processed r := by simpa using hlater
  obtain ⟨⟨name', a⟩, hin, rfl⟩ := List.mem_map.mp hasked
  exact (mem_results_iff.mp hin).2.1 ((hproc _).mpr ⟨answers, hmem, hruns⟩)

lemma clean_snoc {log : List (List (String × Answer))} (hlog : Clean log)
    (h : ∀ res ∈ answers, ¬ res.2.Bad) : Clean (log ++ [answers]) := by
  intro answers' hmem
  rcases List.mem_append.mp hmem with hmem | hmem
  · exact hlog answers' hmem
  · obtain rfl : answers' = answers := by simpa using hmem
    exact h

lemma good_round (hs : Good nodes s) : Good nodes (round nodes s r) := by
  unfold round
  cases hret : s.returned with
  | some ret => simpa using hs
  | none =>
    have hrunning : ∀ err, s.returned ≠ some (some err) := by simp [hret]
    have honce := once_snoc (r := r) hs hret
    simp only [Option.isSome_none, Bool.false_eq_true, if_false]
    split
    · next err hrec =>
      -- the loop returns an error, which some answer of this round is
      have hbad := receive_error_iff.mp ⟨err, hrec⟩
      exact ⟨by simpa using hbad, by simp, by simp, by simp, honce⟩
    · next processed foundAll hrec =>
      have hgood : ¬ ∃ res ∈ results nodes s.processed r, res.2.Bad := by
        intro hbad
        obtain ⟨err, herr⟩ := receive_error_iff.mpr hbad
        rw [hrec] at herr
        cases herr
      obtain ⟨hproc, hfound⟩ := receive_ok hrec
      refine ⟨?_, fun _ => clean_snoc (hs.clean hrunning) (by simpa using hgood), ?_, ?_, honce⟩
      · simpa using hgood
      · intro _ name
        rw [hproc, hs.processed hrunning]
        simp [Runs, or_and_right, exists_or]
      · -- all that were asked run, and the others had been seen before
        intro hdone name hname
        have hall : ∀ res ∈ results nodes s.processed r, res.2.phase = .running := by
          simp only [ite_eq_left_iff, reduceCtorEq, imp_false, Bool.not_eq_true,
            Bool.not_eq_false] at hdone
          exact (hfound.mp hdone).2
        refine (hproc name).mpr (or_iff_not_imp_left.mpr fun hnew => ?_)
        have hin : (name, r.answer name) ∈ results nodes s.processed r :=
          mem_results_iff.mpr ⟨hname, hnew, rfl⟩
        exact ⟨_, hin, hall _ hin⟩

lemma good_checkNodeStatus (nodes : Nodes) (history : List Round) :
    Good nodes (checkNodeStatus nodes history) := by
  induction history using List.reverseRecOn with
  | nil => exact ⟨by simp [checkNodeStatus], by simp [checkNodeStatus, Clean],
      by simp [checkNodeStatus], by simp [checkNodeStatus], List.Pairwise.nil⟩
  | append_singleton history r ih =>
    rw [checkNodeStatus, List.foldl_append]
    exact good_round ih

lemma asked_snoc {history : List Round} (hs : Good nodes s) (hret : s.returned = none)
    (hlength : s.log.length = history.length) (ha : Asked nodes history s.log) :
    Asked nodes (history ++ [r]) (s.log ++ [results nodes s.processed r]) := by
  have hproc := hs.processed (by simp [hret])
  intro i answers hi
  rcases Nat.lt_trichotomy i s.log.length with hlt | rfl | hgt
  · rw [List.getElem?_append_left hlt] at hi
    obtain ⟨r', hr', hmem⟩ := ha i answers hi
    refine ⟨r', by rw [List.getElem?_append_left (hlength ▸ hlt), hr'], fun name a => ?_⟩
    rw [List.take_append_of_le_length hlt.le]
    exact hmem name a
  · obtain rfl : answers = results nodes s.processed r := by simpa using hi.symm
    refine ⟨r, by simp [hlength], fun name a => ?_⟩
    rw [List.take_left, mem_results_iff, hproc]
    simp only [not_exists, not_and]
  · have hlen : (s.log ++ [results nodes s.processed r]).length ≤ i := by simpa using hgt
    rw [List.getElem?_eq_none hlen] at hi
    cases hi

lemma Asked.append {history : List Round} {log : List (List (String × Answer))}
    (h : Asked nodes history log) (later : List Round) : Asked nodes (history ++ later) log := by
  intro i answers hi
  obtain ⟨r, hr, hmem⟩ := h i answers hi
  exact ⟨r, by rw [List.getElem?_append_left (List.getElem?_eq_some_iff.mp hr).1, hr], hmem⟩

lemma round_log (hret : s.returned = none) :
    (round nodes s r).log = s.log ++ [results nodes s.processed r] := by
  simp only [round, hret, Option.isSome_none, Bool.false_eq_true, if_false]
  split <;> rfl

lemma asked_checkNodeStatus (nodes : Nodes) (history : List Round) :
    Asked nodes history (checkNodeStatus nodes history).log ∧
      ((checkNodeStatus nodes history).returned = none →
        (checkNodeStatus nodes history).log.length = history.length) := by
  induction history using List.reverseRecOn with
  | nil => exact ⟨fun i answers h => by simp [checkNodeStatus] at h, fun _ => rfl⟩
  | append_singleton history r ih =>
    obtain ⟨hasked, hlength⟩ := ih
    have hround : checkNodeStatus nodes (history ++ [r]) =
        round nodes (checkNodeStatus nodes history) r := by
      simp [checkNodeStatus]
    rw [hround]
    cases hret : (checkNodeStatus nodes history).returned with
    | some ret =>
      have hsame : round nodes (checkNodeStatus nodes history) r = checkNodeStatus nodes history :=
        if_pos (by rw [hret]; rfl)
      rw [hsame]
      refine ⟨hasked.append [r], fun h => ?_⟩
      rw [hret] at h
      cases h
    | none =>
      rw [round_log hret]
      have hgood := good_checkNodeStatus nodes history
      refine ⟨asked_snoc hgood hret (hlength hret) hasked, fun _ => ?_⟩
      simp [hlength hret]

/-- **Waiting without a timeout.** After every history of rounds the log has the answers of the
history, of every node that had not been seen running and of no other, up to the round with which
the function returned. If it has returned nil, every node has answered in some round that it runs
and no answer was an error or a failure; it has returned an error exactly if some answer of the last
round was one; and a node that answered that it runs is never asked again. -/
theorem checkNodeStatus_sound (nodes : Nodes) (history : List Round) :
    Asked nodes history (checkNodeStatus nodes history).log ∧
    ((checkNodeStatus nodes history).returned = none →
      (checkNodeStatus nodes history).log.length = history.length) ∧
    ((checkNodeStatus nodes history).returned = some none →
      (∀ name ∈ nodes.keys, ∃ answers ∈ (checkNodeStatus nodes history).log, Runs answers name) ∧
      Clean (checkNodeStatus nodes history).log) ∧
    ((∃ err, (checkNodeStatus nodes history).returned = some (some err)) ↔
      ∃ answers, (checkNodeStatus nodes history).log.getLast? = some answers ∧
        ∃ res ∈ answers, res.2.Bad) ∧
    AskedOnce (checkNodeStatus nodes history).log := by
  have hgood := good_checkNodeStatus nodes history
  obtain ⟨hasked, hlength⟩ := asked_checkNodeStatus nodes history
  refine ⟨hasked, hlength, fun hnil => ?_, hgood.failed, hgood.once⟩
  have hrunning : ∀ err, (checkNodeStatus nodes history).returned ≠ some (some err) := by
    simp [hnil]
  refine ⟨fun name hname => ?_, hgood.clean hrunning⟩
  exact (hgood.processed hrunning name).mp (hgood.done hnil name hname)

/-- Two nodes, of which the second takes a round longer. -/
def twoNodes : Nodes := (AList.insert "r1" "r1" ∅).insert "r2" "r2"

def slowStart : List Round :=
  [⟨fun name => if name = "r1" then ⟨.running, none⟩ else ⟨.pending, none⟩, keptOrder⟩,
    ⟨fun _ => ⟨.running, none⟩, keptOrder⟩]

theorem slowStart_sound :
    (checkNodeStatus twoNodes slowStart).returned = some none ∧
    (checkNodeStatus twoNodes slowStart).log =
      [[("r2", ⟨.pending, none⟩), ("r1", ⟨.running, none⟩)], [("r2", ⟨.running, none⟩)]] ∧
    ∀ name ∈ twoNodes.keys, ∃ answers ∈ (checkNodeStatus twoNodes slowStart).log,
      Runs answers name := by
  have hnil : (checkNodeStatus twoNodes slowStart).returned = some none := by decide +kernel
  refine ⟨hnil, by decide +kernel, ?_⟩
  exact ((checkNodeStatus_sound twoNodes slowStart).2.2.1 hnil).1

end Kne.StatusRounds
