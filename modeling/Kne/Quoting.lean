import Mathlib.Tactic

/-!
How a shell reads a command of plain words, words between double quotes and redirections (the POSIX
shell command language, Quoting). Between double quotes a backslash escapes `$`, a backquote, the
double quote, itself and a newline, and is an ordinary character before any other; a `$` or a
backquote that is not escaped starts an expansion, and a double quote that is not escaped ends the
quotes. What is beyond that (expansions, other operators, several commands) is not read.
-/

namespace Kne.Quoting

variable {α : Type*}

/-- What a shell takes a character for. -/
inductive Mark
  | quote | escape | expand | newline | blank | redirect | operator | literal
  deriving DecidableEq, Repr

/-- The characters that a backslash escapes between double quotes. -/
def Mark.escapable : Mark → Bool
  | .quote | .escape | .expand | .newline => true
  | _ => false

inductive Token (α : Type*)
  | word (value : List α)
  | redirect
  deriving DecidableEq, Repr

/-- Outside of quotes, between double quotes, and after a backslash there. -/
inductive Mode (α : Type*)
  | outside
  | quoted
  | escaped (backslash : α)
  deriving DecidableEq, Repr

/-- A command that has been read up to here: the tokens that are complete and the word that is
being read, if there is one. -/
structure Reader (α : Type*) where
  mode : Mode α := .outside
  tokens : List (Token α) := []
  word : Option (List α) := none
  deriving DecidableEq, Repr

namespace Reader

/-- The word goes on. -/
def push (r : Reader α) (cs : List α) : Reader α := { r with word := some (r.word.getD [] ++ cs) }

/-- The word is complete. -/
def finish (r : Reader α) : Reader α :=
  { r with tokens := r.tokens ++ (r.word.map Token.word).toList, word := none }

end Reader

/-- Why the reading of a command stops. -/
inductive Trouble
  | expansion
  | operator
  | unterminated
  deriving DecidableEq, Repr

-- An escaped newline is removed by a shell (`joins`), or it stands for itself.
variable (mark : α → Mark) (joins : Bool)

/-- One character. -/
def read (r : Reader α) (c : α) : Except Trouble (Reader α) :=
  match r.mode with
  | .outside =>
    match mark c with
    | .quote => .ok { r.push [] with mode := .quoted }
    | .blank => .ok r.finish
    | .redirect => .ok { r.finish with tokens := r.finish.tokens ++ [.redirect] }
    | .literal => .ok (r.push [c])
    | .expand => .error .expansion
    | .escape | .newline | .operator => .error .operator
  | .quoted =>
    match mark c with
    | .quote => .ok { r with mode := .outside }
    | .escape => .ok { r with mode := .escaped c }
    | .expand => .error .expansion
    | _ => .ok (r.push [c])
  | .escaped backslash =>
    let r := { r with mode := .quoted }
    if mark c = .newline ∧ joins then .ok r
    else if (mark c).escapable then .ok (r.push [c])
    else .ok (r.push [backslash, c])

def run (r : Reader α) (cs : List α) : Except Trouble (Reader α) := cs.foldlM (read mark joins) r

/-- The tokens of a command. -/
def tokens (cs : List α) : Except Trouble (List (Token α)) := do
  let r ← run mark joins {} cs
  match r.mode with
  | .outside => .ok r.finish.tokens
  | _ => .error .unterminated

variable {mark joins} {r r' : Reader α} {c : α} {cs ds : List α}

@[simp] lemma run_nil : run mark joins r [] = .ok r := rfl

lemma run_cons (h : read mark joins r c = .ok r') :
    run mark joins r (c :: cs) = run mark joins r' cs := by
  rw [run, List.foldlM_cons, h]
  rfl

lemma run_append (h : run mark joins r cs = .ok r') :
    run mark joins r (cs ++ ds) = run mark joins r' ds := by
  rw [run, List.foldlM_append, ← run, h]
  rfl

/-! ### Between the quotes -/

variable (mark joins) in
/-- The text is read without trouble, and nowhere in it the quotes end. -/
def Inside (r : Reader α) (cs : List α) : Prop :=
  ∀ p, p <+: cs → ∃ r', run mark joins r p = .ok r' ∧ r'.mode ≠ .outside

lemma inside_nil (hr : r.mode ≠ .outside) : Inside mark joins r [] := by
  intro p hp
  rw [List.prefix_nil.mp hp]
  exact ⟨r, rfl, hr⟩

lemma Inside.cons (hr : r.mode ≠ .outside) (h : read mark joins r c = .ok r')
    (hcs : Inside mark joins r' cs) : Inside mark joins r (c :: cs) := by
  intro p hp
  obtain rfl | ⟨q, rfl, hq⟩ := List.prefix_cons_iff.mp hp
  · exact ⟨r, rfl, hr⟩
  · rw [run_cons h]
    exact hcs q hq

/-- Between double quotes, in a word that goes on. -/
def between (ts : List (Token α)) (w : List α) : Reader α := ⟨.quoted, ts, some w⟩

/-- The characters that are not ordinary between double quotes. A newline is. -/
def Mark.active : Mark → Bool
  | .quote | .escape | .expand => true
  | _ => false

/-- An escaping puts a backslash before the characters that are active and leaves the others. -/
structure Escapes (mark : α → Mark) (escaped : α → List α) : Prop where
  active : ∀ c, (mark c).active = true → ∃ b, mark b = .escape ∧ escaped c = [b, c]
  plain : ∀ c, (mark c).active = false → escaped c = [c]

variable {ts : List (Token α)} {w : List α} {b : α}

lemma read_plain (hc : (mark c).active = false) :
    read mark joins (between ts w) c = .ok (between ts (w ++ [c])) := by
  cases hm : mark c <;> simp_all [read, between, Mark.active, Reader.push]

lemma read_backslash (hb : mark b = .escape) :
    read mark joins (between ts w) b = .ok { between ts w with mode := .escaped b } := by
  simp [read, between, hb]

lemma read_active (hc : (mark c).active = true) :
    read mark joins { between ts w with mode := .escaped b } c = .ok (between ts (w ++ [c])) := by
  cases hm : mark c <;> simp_all [read, between, Mark.active, Mark.escapable, Reader.push]

/-- **Escaping is exact.** Between double quotes, reading an escaped text adds the text to the word,
and nowhere in it an expansion starts or the quotes end. -/
lemma run_escaped {escaped : α → List α} (he : Escapes mark escaped) (cs : List α) :
    ∀ w, run mark joins (between ts w) (cs.flatMap escaped) = .ok (between ts (w ++ cs)) ∧
      Inside mark joins (between ts w) (cs.flatMap escaped) := by
  have hin : ∀ w : List α, (between ts w).mode ≠ .outside := fun w => by simp [between]
  induction cs with
  | nil => exact fun w => ⟨by simp, inside_nil (hin w)⟩
  | cons c cs ih =>
    intro w
    obtain ⟨hrun, hinside⟩ := ih (w ++ [c])
    rw [List.append_assoc, List.singleton_append] at hrun
    rw [List.flatMap_cons]
    cases hc : (mark c).active with
    | true =>
      obtain ⟨b, hb, hbc⟩ := he.active c hc
      rw [hbc, List.cons_append, List.cons_append, List.nil_append]
      rw [run_cons (read_backslash hb), run_cons (read_active hc)]
      exact ⟨hrun, .cons (hin w) (read_backslash hb) (.cons (by simp) (read_active hc) hinside)⟩
    | false =>
      rw [he.plain c hc, List.cons_append, List.nil_append, run_cons (read_plain hc)]
      exact ⟨hrun, .cons (hin w) (read_plain hc) hinside⟩

/-! ### Commands -/

lemma read_literal (hc : mark c = .literal) (w : Option (List α)) :
    read mark joins ⟨.outside, ts, w⟩ c = .ok ⟨.outside, ts, some (w.getD [] ++ [c])⟩ := by
  simp [read, hc, Reader.push]

lemma read_blank (hc : mark c = .blank) (w : Option (List α)) :
    read mark joins ⟨.outside, ts, w⟩ c =
      .ok ⟨.outside, ts ++ (w.map Token.word).toList, none⟩ := by
  simp [read, hc, Reader.finish]

lemma read_redirect (hc : mark c = .redirect) (w : Option (List α)) :
    read mark joins ⟨.outside, ts, w⟩ c =
      .ok ⟨.outside, ts ++ (w.map Token.word).toList ++ [.redirect], none⟩ := by
  simp [read, hc, Reader.finish]

lemma read_open (hc : mark c = .quote) :
    read mark joins ⟨.outside, ts, none⟩ c = .ok (between ts []) := by
  simp [read, hc, Reader.push, between]

lemma read_close (hc : mark c = .quote) :
    read mark joins (between ts w) c = .ok ⟨.outside, ts, some w⟩ := by
  simp [read, hc, between]

lemma run_literals (hcs : ∀ c ∈ cs, mark c = .literal) (hne : cs ≠ []) :
    run mark joins ⟨.outside, ts, none⟩ cs = .ok ⟨.outside, ts, some cs⟩ := by
  induction cs using List.reverseRecOn with
  | nil => exact absurd rfl hne
  | append_singleton cs c ih =>
    have hc : mark c = .literal := hcs c (by simp)
    rcases eq_or_ne cs [] with rfl | hcs'
    · rw [List.nil_append, run_cons (read_literal hc none)]
      rfl
    · rw [run_append (ih (fun d hd => hcs d (by simp [hd])) hcs'), run_cons (read_literal hc _)]
      rfl

variable {command file : List α} {quote blank redirect : α}

/-- **A command with a quoted argument.** A command and an escaped text between double quotes, with
the output to a file, is read as just these words. -/
lemma tokens_redirected {escaped : α → List α} (he : Escapes mark escaped)
    (hcommand : ∀ c ∈ command, mark c = .literal) (hcommand' : command ≠ [])
    (hfile : ∀ c ∈ file, mark c = .literal) (hfile' : file ≠ [])
    (hquote : mark quote = .quote) (hblank : mark blank = .blank)
    (hredirect : mark redirect = .redirect) (cs : List α) :
    tokens mark joins (command ++ [blank, quote] ++ cs.flatMap escaped ++
        [quote, blank, redirect, blank] ++ file) =
      .ok [.word command, .word cs, .redirect, .word file] := by
  have hbegin : run mark joins ⟨.outside, [], some command⟩ [blank, quote] =
      .ok (between [.word command] []) := by
    rw [run_cons (read_blank hblank _), run_cons (read_open hquote)]
    rfl
  have hend : run mark joins (between [.word command] cs) [quote, blank, redirect, blank] =
      .ok ⟨.outside, [.word command, .word cs, .redirect], none⟩ := by
    rw [run_cons (read_close hquote), run_cons (read_blank hblank _),
      run_cons (read_redirect hredirect _), run_cons (read_blank hblank _)]
    rfl
  have hrun : run mark joins {} (command ++ [blank, quote] ++ cs.flatMap escaped ++
        [quote, blank, redirect, blank] ++ file) =
      .ok ⟨.outside, [.word command, .word cs, .redirect], some file⟩ := by
    simp only [List.append_assoc]
    rw [run_append (run_literals hcommand hcommand'), run_append hbegin,
      run_append (run_escaped he cs []).1, List.nil_append, run_append hend,
      run_literals hfile hfile']
  rw [tokens, hrun]
  rfl

end Kne.Quoting
