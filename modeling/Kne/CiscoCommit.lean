import Kne.ConfigPush

/-!
What `processConfig` of Cisco makes of a configuration. It drops the lines that say `end` and adds a
commit unless the last line is one. The last line of a text that ends with a newline is empty, so
the commit is added although there is one before it; and as the result ends with a newline itself,
doing it twice always adds a second commit.
-/

namespace Kne.CiscoCommit

open Kne.Texts Kne.ConfigPush

/-! ### Lines -/

def isEnd (line : String) : Bool := toLower (trimBlanks line) = "end"

def isCommit (line : String) : Bool := toLower (trimBlanks line) = "commit"

def isBlank (line : String) : Bool := trimBlanks line = ""

/-- The lines without those that say `end`. -/
def remaining (cfg : String) : List String := (lines cfg).filter fun line => !isEnd line

/-- The last line that is not blank. -/
def lastCommand (ls : List String) : Option String := (ls.filter fun line => !isBlank line).getLast?

/-- A text of these lines. -/
def unlines (ls : List String) : String := ls.foldl (fun cfg line => cfg ++ line ++ "\n") ""

lemma foldl_lines (cfg : String) (ls : List String) :
    ls.foldl (fun cfg line => cfg ++ line ++ "\n") cfg = cfg ++ unlines ls := by
  induction ls generalizing cfg with
  | nil => simp [unlines]
  | cons line ls ih =>
    rw [unlines, List.foldl_cons, List.foldl_cons, ih, ih]
    simp [String.append_assoc]

lemma unlines_cons (line : String) (ls : List String) :
    unlines (line :: ls) = line ++ "\n" ++ unlines ls := by
  rw [unlines, List.foldl_cons, foldl_lines]
  simp

lemma unlines_append (ls ls' : List String) : unlines (ls ++ ls') = unlines ls ++ unlines ls' := by
  rw [unlines, List.foldl_append, foldl_lines]
  rfl

lemma lines_unlines {ls : List String} (h : ∀ line ∈ ls, '\n' ∉ line.toList) :
    lines (unlines ls) = ls ++ [""] := by
  induction ls with
  | nil => rfl
  | cons line ls ih =>
    rw [List.forall_mem_cons] at h
    rw [unlines_cons, lines_append h.1, ih h.2, List.cons_append]

/-! ### The result -/

/-- The variable `lastLine` at the end of the loop. -/
def lastLine (cfg : String) : String := (remaining cfg).getLastD ""

/-- The line that is added. -/
def added (cfg : String) : List String := if isCommit (lastLine cfg) then [] else ["commit"]

lemma processConfig_eq (cfg : String) :
    processConfig cfg = unlines (remaining cfg ++ added cfg) := by
  have hfilter : ((lines cfg).filter fun line => toLower (trimBlanks line) ≠ "end") =
      remaining cfg := by
    simp [remaining, isEnd]
  have hlast : (remaining cfg).getLastD "" = lastLine cfg := rfl
  rw [processConfig, hfilter, hlast, added, unlines_append]
  by_cases h : toLower (trimBlanks (lastLine cfg)) = "commit" <;> simp [isCommit, h, unlines]

lemma lines_processConfig (cfg : String) :
    lines (processConfig cfg) = remaining cfg ++ added cfg ++ [""] := by
  rw [processConfig_eq]
  refine lines_unlines fun line hline => ?_
  rcases List.mem_append.mp hline with hline | hline
  · exact newline_not_mem (List.mem_of_mem_filter hline)
  · unfold added at hline
    split_ifs at hline
    · cases hline
    · rw [List.mem_singleton.mp hline]
      decide

lemma remaining_processConfig (cfg : String) :
    remaining (processConfig cfg) = remaining cfg ++ added cfg ++ [""] := by
  have hadded : (added cfg).filter (fun line => !isEnd line) = added cfg := by
    unfold added
    split_ifs <;> decide
  rw [remaining, lines_processConfig, List.filter_append, List.filter_append, hadded, remaining,
    List.filter_filter]
  simp only [Bool.and_self]
  congr 1

lemma added_processConfig (cfg : String) : added (processConfig cfg) = ["commit"] := by
  have hlast : lastLine (processConfig cfg) = "" := by
    rw [lastLine, remaining_processConfig]
    simp
  rw [added, hlast]
  decide

/-! ### What was meant -/

/-- The result has the remaining lines, and a commit after them just if the last command is none, up
to blank lines at the end. -/
def Exact (cfg : String) : Prop :=
  (lines (processConfig cfg)).rdropWhile isBlank =
    (remaining cfg ++
      if (lastCommand (remaining cfg)).any isCommit then [] else ["commit"]).rdropWhile isBlank

instance (cfg : String) : Decidable (Exact cfg) := inferInstanceAs (Decidable (_ = _))

/-- The lines of a text that are not blank. -/
def commands (cfg : String) : List String := (lines cfg).filter fun line => !isBlank line

lemma not_isBlank_of_isCommit {line : String} (h : isCommit line = true) :
    isBlank line = false := by
  unfold isCommit at h
  unfold isBlank
  rw [decide_eq_true_eq] at h
  rw [decide_eq_false_iff_not]
  intro hblank
  rw [hblank] at h
  exact absurd h (by decide)

lemma any_lastCommand {cfg : String} (h : isCommit (lastLine cfg) = true) :
    (lastCommand (remaining cfg)).any isCommit = true := by
  unfold lastLine at h
  rcases List.eq_nil_or_concat (remaining cfg) with hnil | ⟨init, last, hlast⟩
  · rw [hnil] at h
    exact absurd h (by decide)
  · rw [hlast] at h ⊢
    simp only [List.concat_eq_append, List.getLastD_concat] at h ⊢
    simp [lastCommand, List.filter_append, not_isBlank_of_isCommit h, h]

lemma exact_iff (cfg : String) : Exact cfg ↔
    ((lastCommand (remaining cfg)).any isCommit = true →
      isCommit (lastLine cfg) = true) := by
  have hblank : isBlank "" = true := by decide
  have hcommit : ¬ isBlank "commit" = true := by decide
  unfold Exact
  rw [lines_processConfig, List.rdropWhile_concat_pos _ _ _ hblank, added]
  by_cases hlast : isCommit (lastLine cfg) = true
  · simp [hlast, any_lastCommand hlast]
  · by_cases hcmd : (lastCommand (remaining cfg)).any isCommit = true
    · -- a line too many
      refine iff_of_false (fun heq => ?_) fun himp => hlast (himp hcmd)
      rw [if_neg hlast, if_pos hcmd, List.append_nil, List.rdropWhile_concat_neg _ _ _ hcommit]
        at heq
      have hle := (List.rdropWhile_prefix isBlank (remaining cfg)).length_le
      rw [← heq, List.length_append, List.length_singleton] at hle
      omega
    · simp [hlast, hcmd]

lemma commands_twice (cfg : String) :
    commands (processConfig (processConfig cfg)) = commands (processConfig cfg) ++ ["commit"] := by
  have hcommit : (["commit", ""].filter fun line => !isBlank line) = ["commit"] := by decide
  have hlines : lines (processConfig (processConfig cfg)) =
      lines (processConfig cfg) ++ ["commit", ""] := by
    rw [lines_processConfig (processConfig cfg), added_processConfig, remaining_processConfig,
      lines_processConfig, List.append_assoc _ ["commit"]]
    rfl
  rw [commands, hlines, List.filter_append, hcommit, commands]

/-- **The commit of a configuration.** The lines are right just if the last command is no commit or
the last line is one. What is right for once is wrong the second time: one more commit is added to
every text. -/
theorem processConfig_exact_iff (cfg : String) :
    (Exact cfg ↔ ((lastCommand (remaining cfg)).any isCommit = true →
      isCommit (lastLine cfg) = true)) ∧
      commands (processConfig (processConfig cfg)) ≠ commands (processConfig cfg) := by
  refine ⟨exact_iff cfg, fun heq => ?_⟩
  have hlen := congrArg List.length heq
  rw [commands_twice, List.length_append, List.length_singleton] at hlen
  omega

/-- **A commit too many.** -/
theorem commit_repeated :
    lines (processConfig "hostname r1\ncommit\n") = ["hostname r1", "commit", "", "commit", ""] ∧
      ¬ Exact "hostname r1\ncommit\n" ∧
      commands (processConfig (processConfig "hostname r1")) =
        ["hostname r1", "commit", "commit"] := by
  decide +kernel

end Kne.CiscoCommit
