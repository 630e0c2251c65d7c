import Kne.Texts

/-!
Paths of files as Go's `path/filepath` has them on Unix.
-/

namespace Kne.Paths

open Kne.Texts

/-- `filepath.IsAbs`. -/
def isAbs (path : String) : Bool := hasPrefix path "/"

/-- The parts of a path that mean something. -/
def components (path : String) : List String :=
  ((path.toList.splitOn '/').map String.ofList).filter fun c => c ≠ "" && c ≠ "."

/-- The parts kept so far, the last one first, and one more. -/
def keep (rooted : Bool) (kept : List String) (c : String) : List String :=
  if c = ".." then
    match kept with
    | [] => if rooted then [] else [".."]
    | last :: before => if last = ".." then ".." :: kept else before
  else c :: kept

/-- `filepath.Clean`. -/
def clean (path : String) : String :=
  let kept := ((components path).foldl (keep (isAbs path)) []).reverse
  if isAbs path then "/" ++ String.intercalate "/" kept
  else if kept = [] then "." else String.intercalate "/" kept

/-- `filepath.Join` of two paths. -/
def join (dir path : String) : String :=
  if dir ≠ "" then clean (dir ++ "/" ++ path) else if path ≠ "" then clean path else ""

/-- `filepath.Dir`: what is before the last slash, and the slash. -/
def dir (path : String) : String :=
  clean (String.ofList (path.toList.reverse.dropWhile (· ≠ '/')).reverse)

/-- `filepath.Abs` in a working directory. -/
def abs (cwd path : String) : String := if isAbs path then clean path else join cwd path

lemma isAbs_append {p : String} (h : isAbs p = true) (q : String) : isAbs (p ++ q) = true := by
  unfold isAbs hasPrefix at h ⊢
  rw [decide_eq_true_eq] at h ⊢
  rw [String.toList_append]
  exact h.trans (List.prefix_append _ _)

lemma ne_empty_of_isAbs {p : String} (h : isAbs p = true) : p ≠ "" := by
  rintro rfl
  exact absurd h (by decide)

lemma isAbs_clean {p : String} (h : isAbs p = true) : isAbs (clean p) = true := by
  unfold clean
  rw [if_pos h]
  exact isAbs_append (by decide) _

lemma isAbs_join {d : String} (h : isAbs d = true) (p : String) : isAbs (join d p) = true := by
  unfold join
  rw [if_pos (ne_empty_of_isAbs h)]
  exact isAbs_clean (isAbs_append (isAbs_append h _) _)

lemma isAbs_abs {cwd : String} (h : isAbs cwd = true) (p : String) : isAbs (abs cwd p) = true := by
  unfold abs
  split_ifs with hp
  · exact isAbs_clean hp
  · exact isAbs_join h p

lemma isAbs_dir {p : String} (h : isAbs p = true) : isAbs (dir p) = true := by
  refine isAbs_clean ?_
  obtain ⟨rest, hrest⟩ : ∃ rest, p.toList = '/' :: rest := by
    unfold isAbs hasPrefix at h
    obtain ⟨rest, hrest⟩ := of_decide_eq_true h
    exact ⟨rest, hrest.symm⟩
  have hdrop : ((rest.reverse ++ ['/']).dropWhile (· ≠ '/')) =
      rest.reverse.dropWhile (· ≠ '/') ++ ['/'] := by
    induction rest.reverse with
    | nil => decide
    | cons c cs ih => by_cases hc : c = '/' <;> simp_all [List.dropWhile]
  unfold isAbs hasPrefix
  rw [decide_eq_true_eq, hrest, List.reverse_cons, hdrop, List.reverse_append]
  simp

end Kne.Paths
