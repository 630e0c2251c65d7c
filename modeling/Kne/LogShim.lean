import Kne.Runs
import Kne.Segments

/-!
The shim that hands the output of a command to a logger, line by line (`logshim/logshim.go`). A line
that has not ended is kept until the rest of it comes, a timer goes off, or the shim is closed.

What is written may be cut anywhere. The bytes are of any type, of which some are newlines, so that
bytes can also be followed on their way through the shim.
-/

namespace Kne.LogShim

open Kne.Runs Kne.Segments

section Shim

variable {α : Type*} (nl : α → Bool)

/-! ### Writing and flushing -/

/-- The critical section of `Write`: what is kept from now on, and the lines. If nothing is kept and
nothing is written, there is no last byte to look at, and the program panics. -/
def takeLines (kept buf : List α) : Option (List α × List (List α)) :=
  let buf := kept ++ buf
  let lines := buf.splitOnP nl
  match buf.getLast? with
  | none => none
  | some b => if nl b then some ([], lines) else some (lines.getLastD [], lines.dropLast)

/-- The lines that are passed on: those that are not empty. -/
def passed (lines : List (List α)) : List (List α) := lines.filter fun line => !line.isEmpty

/-- A shim that one goroutine uses: what is kept, and what has been passed to the logger. -/
structure Shim (α : Type*) where
  kept : List α := []
  out : List (List α) := []

def Shim.write (s : Shim α) (buf : List α) : Option (Shim α) :=
  (takeLines nl s.kept buf).map fun (kept, lines) => ⟨kept, s.out ++ passed lines⟩

def Shim.flush (s : Shim α) : Shim α := ⟨[], s.out ++ passed [s.kept]⟩

/-- `Close`, which waits until the rest has been flushed. -/
def Shim.close (s : Shim α) : Shim α := s.flush

/-- What happens between `New` and `Close`; the timer may go off between any two calls. -/
inductive Op (α : Type*)
  | write (buf : List α)
  | flush

def step (s : Shim α) : Op α → Option (Shim α)
  | .write buf => s.write nl buf
  | .flush => some s.flush

def Op.bytes : Op α → List α
  | .write buf => buf
  | .flush => []

/-- All that is written. -/
def written (ops : List (Op α)) : List α := ops.flatMap Op.bytes

/-! ### Lines -/

variable {nl} {s t : Shim α} {buf w : List α}

lemma passed_append (ls ls' : List (List α)) : passed (ls ++ ls') = passed ls ++ passed ls' :=
  List.filter_append ls ls'

lemma mem_passed {ls : List (List α)} {line : List α} :
    line ∈ passed ls ↔ line ∈ ls ∧ line ≠ [] := by
  simp [passed]

@[simp] lemma flatten_passed (ls : List (List α)) : (passed ls).flatten = ls.flatten := by
  induction ls with
  | nil => rfl
  | cons line ls ih =>
    cases line with
    | nil => simpa [passed] using ih
    | cons b line => simpa [passed] using ih

variable (nl) in
lemma exists_takeLines {kept : List α} (h : kept ++ buf ≠ []) :
    ∃ lines, takeLines nl kept buf = some (rest nl (kept ++ buf), lines) ∧
      passed lines = passed (ended nl (kept ++ buf)) := by
  have hlast := List.getLast?_eq_some_getLast h
  unfold takeLines
  simp only [hlast]
  by_cases hnl : nl ((kept ++ buf).getLast h) = true
  · have hrest := rest_of_getLast? hlast hnl
    refine ⟨(kept ++ buf).splitOnP nl, by rw [if_pos hnl, hrest], ?_⟩
    rw [← ended_append_rest, passed_append, hrest]
    exact List.append_nil _
  · exact ⟨ended nl (kept ++ buf), by rw [if_neg hnl]; rfl, rfl⟩

/-- **The critical section.** The rest is kept, and all lines that have ended are passed on. -/
lemma takeLines_eq_some {kept kept' : List α} {lines : List (List α)}
    (h : takeLines nl kept buf = some (kept', lines)) :
    kept' = rest nl (kept ++ buf) ∧ passed lines = passed (ended nl (kept ++ buf)) := by
  have hne : kept ++ buf ≠ [] := by
    intro hnil
    simp [takeLines, hnil] at h
  obtain ⟨lines', htake, hlines⟩ := exists_takeLines nl hne
  rw [h, Option.some_inj, Prod.mk.injEq] at htake
  exact ⟨htake.1, htake.2 ▸ hlines⟩

variable (nl s) in
lemma write_eq (h : buf ≠ []) : s.write nl buf =
    some ⟨rest nl (s.kept ++ buf), s.out ++ passed (ended nl (s.kept ++ buf))⟩ := by
  obtain ⟨lines, htake, hlines⟩ := exists_takeLines nl (List.append_ne_nil_of_right_ne_nil s.kept h)
  rw [Shim.write, htake, ← hlines]
  rfl

/-! ### What has been written -/

variable (nl) in
/-- The shim after `w` has been written: nothing is lost, and there are no newlines in it. -/
structure Carries (s : Shim α) (w : List α) : Prop where
  bytes : s.out.flatten ++ s.kept = w.filter fun b => !nl b
  kept : ∀ b ∈ s.kept, nl b = false
  lines : ∀ line ∈ s.out, line ≠ [] ∧ ∀ b ∈ line, nl b = false

lemma Carries.write (hs : Carries nl s w) (h : s.write nl buf = some t) (hbuf : buf ≠ []) :
    Carries nl t (w ++ buf) := by
  rw [write_eq nl s hbuf, Option.some_inj] at h
  subst h
  have hsegs := ended_append_rest nl (s.kept ++ buf)
  refine ⟨?_, ?_, fun line hline => ?_⟩
  · have hkept : s.kept.filter (fun b => !nl b) = s.kept :=
      List.filter_eq_self.mpr fun b hb => by simp [hs.kept b hb]
    calc
      (s.out ++ passed (ended nl (s.kept ++ buf))).flatten ++ rest nl (s.kept ++ buf)
        = s.out.flatten ++ ((s.kept ++ buf).splitOnP nl).flatten := by
          rw [← hsegs]
          simp
      _ = (w ++ buf).filter fun b => !nl b := by
          rw [flatten_splitOnP, List.filter_append, List.filter_append, hkept, ← hs.bytes,
            List.append_assoc]
  · exact free_of_mem_splitOnP (by rw [← hsegs]; simp)
  · rcases List.mem_append.mp hline with hline | hline
    · exact hs.lines line hline
    · obtain ⟨hmem, hne⟩ := mem_passed.mp hline
      exact ⟨hne, free_of_mem_splitOnP (by rw [← hsegs]; simp [hmem])⟩

lemma Carries.flush (hs : Carries nl s w) : Carries nl s.flush w := by
  refine ⟨?_, by simp [Shim.flush], fun line hline => ?_⟩
  · simp [Shim.flush, hs.bytes]
  · rcases List.mem_append.mp hline with hline | hline
    · exact hs.lines line hline
    · obtain ⟨hmem, hne⟩ := mem_passed.mp hline
      rw [List.mem_singleton] at hmem
      exact ⟨hne, hmem ▸ hs.kept⟩

/-- **Any use of the shim** succeeds if no write is empty. -/
lemma exists_run {ops : List (Op α)} (hops : ∀ buf, .write buf ∈ ops → buf ≠ [])
    (hs : Carries nl s w) :
    ∃ t, run (step nl) s ops = some t ∧ Carries nl t (w ++ written ops) := by
  induction ops generalizing s w with
  | nil => exact ⟨s, rfl, by simpa [written] using hs⟩
  | cons op ops ih =>
    have hrest : ∀ buf, .write buf ∈ ops → buf ≠ [] := fun buf hbuf =>
      hops buf (List.mem_cons_of_mem op hbuf)
    cases op with
    | write buf =>
      have hbuf := hops buf List.mem_cons_self
      obtain ⟨t, ht, hc⟩ := ih hrest (hs.write (write_eq nl s hbuf) hbuf)
      refine ⟨t, ?_, by simpa [written, Op.bytes] using hc⟩
      rw [run_cons, step, write_eq nl s hbuf]
      exact ht
    | flush =>
      obtain ⟨t, ht, hc⟩ := ih hrest hs.flush
      exact ⟨t, ht, by simpa [written, Op.bytes] using hc⟩

/-- **Without a flush** the shim is where it would be if all had been written at once. -/
lemma run_writes {ops : List (Op α)} (hops : ∀ op ∈ ops, ∃ buf ≠ [], op = .write buf)
    (hs : s = ⟨rest nl w, passed (ended nl w)⟩) (h : run (step nl) s ops = some t) :
    t = ⟨rest nl (w ++ written ops), passed (ended nl (w ++ written ops))⟩ := by
  induction ops generalizing s w with
  | nil =>
    cases h
    simpa [written] using hs
  | cons op ops ih =>
    obtain ⟨⟨buf, hbuf, rfl⟩, hrest⟩ := List.forall_mem_cons.mp hops
    rw [run_cons, step, write_eq nl s hbuf, Option.bind_some] at h
    obtain ⟨hended, hkept⟩ := ended_append (p := nl) w buf
    have hnext := ih hrest (w := w ++ buf) ?_ h
    · simpa [written, Op.bytes] using hnext
    · rw [hs, hended, hkept, passed_append]

end Shim

/-! ### Bytes -/

def newline : UInt8 := '\n'.toUInt8

def isNewline (b : UInt8) : Bool := b == newline

/-- **Lines do not depend on the chunks.** Whatever is written in whatever pieces, and whenever the
timer goes off: after `Close` all bytes but the newlines have been passed on, in strings that are
not empty; and if the timer has not gone off, these are the lines of the text. -/
theorem lines_of_writes (ops : List (Op UInt8)) (hops : ∀ buf, .write buf ∈ ops → buf ≠ []) :
    ∃ s, run (step isNewline) {} ops = some s ∧
      s.close.out.flatten = (written ops).filter (fun b => b ≠ newline) ∧
      (∀ line ∈ s.close.out, line ≠ [] ∧ newline ∉ line) ∧
      (.flush ∉ ops → s.close.out = ((written ops).splitOn newline).filter fun l => l ≠ []) := by
  have hstart : Carries isNewline ({} : Shim UInt8) [] := ⟨rfl, by simp, by simp⟩
  obtain ⟨s, hs, hc⟩ := exists_run hops hstart
  have hclose := hc.flush
  refine ⟨s, hs, ?_, fun line hline => ?_, fun hflush => ?_⟩
  · have hbytes := hclose.bytes
    have hkept : s.flush.kept = [] := rfl
    rw [hkept, List.append_nil, List.nil_append] at hbytes
    rw [Shim.close, hbytes]
    refine List.filter_congr fun b _ => ?_
    by_cases hb : b = newline <;> simp [isNewline, hb]
  · obtain ⟨hne, hfree⟩ := hclose.lines line hline
    exact ⟨hne, fun hmem => absurd (hfree newline hmem) (by decide)⟩
  · have hwrites : ∀ op ∈ ops, ∃ buf ≠ [], op = .write buf := by
      intro op hop
      cases op with
      | write buf => exact ⟨buf, hops buf hop, rfl⟩
      | flush => exact absurd hop hflush
    have hrun := run_writes (w := []) hwrites rfl hs
    have hsegs := ended_append_rest isNewline (written ops)
    rw [hrun, Shim.close, Shim.flush, List.nil_append, ← passed_append, hsegs]
    exact List.filter_congr fun l _ => by cases l <;> simp

/-- A line in two pieces. -/
theorem line_in_two_chunks : ∃ s, run (step isNewline) {} [.write [97, 10, 98], .write [99, 10]] =
    some s ∧ s.close.out = [[97], [98, 99]] := by
  have hops : ∀ buf : List UInt8, .write buf ∈ [Op.write [97, 10, 98], .write [99, 10]] →
      buf ≠ [] := by simp
  obtain ⟨s, hs, -, -, hlines⟩ := lines_of_writes _ hops
  refine ⟨s, hs, ?_⟩
  rw [hlines (by simp)]
  decide

end Kne.LogShim
