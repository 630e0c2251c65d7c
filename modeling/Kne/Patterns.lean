import Mathlib.Tactic

/-!
Regular expressions as a backtracking matcher reads them: an alternative prefers its first branch, a
repetition prefers one more round, and the match that counts is the first one found from the
leftmost place at which there is one. An expression is given by the places at which it can end when
it starts at a given place, in the order of preference.

A place in a text is the character before it, which assertions look at, and the text after it.
-/

namespace Kne.Patterns

/-- Regular expressions over characters. -/
inductive Regex
  | empty
  | char (p : Char → Bool)
  /-- An assertion about the characters before and after a place. -/
  | look (p : Option Char → Option Char → Bool)
  | seq (r s : Regex)
  | alt (r s : Regex)
  | star (r : Regex)

/-- A place in a text. -/
structure Place where
  before : Option Char
  rest : List Char
  deriving DecidableEq, Repr

/-- At most `n` rounds of a repetition, each of which goes on in the text. -/
def starEnds (f : Place → List Place) : ℕ → Place → List Place
  | 0, p => [p]
  | n + 1, p =>
    ((f p).filter fun q => q.rest.length < p.rest.length).flatMap (starEnds f n) ++ [p]

namespace Regex

/-- The places at which the expression can end, the preferred ones first. -/
def ends : Regex → Place → List Place
  | empty, p => [p]
  | char ok, p =>
    match p.rest with
    | [] => []
    | c :: rest => if ok c then [⟨some c, rest⟩] else []
  | look ok, p => if ok p.before p.rest.head? then [p] else []
  | seq r s, p => (r.ends p).flatMap s.ends
  | alt r s, p => r.ends p ++ s.ends p
  | star r, p => starEnds r.ends p.rest.length p

/-- The leftmost match: the text before it and the place at which it ends. -/
def search (r : Regex) (before : Option Char) : List Char → Option (List Char × Place)
  | [] => (r.ends ⟨before, []⟩).head?.map fun q => ([], q)
  | c :: rest =>
    match r.ends ⟨before, c :: rest⟩ with
    | q :: _ => some ([], q)
    | [] => (r.search (some c) rest).map fun m => (c :: m.1, m.2)

/-- `MatchString`. -/
def matchString (r : Regex) (s : String) : Bool := (r.search none s.toList).isSome

/-- The texts between the matches, for an expression that does not match the empty text. The number
bounds that of the matches. -/
def splitFrom (r : Regex) : ℕ → Place → List (List Char)
  | 0, p => [p.rest]
  | n + 1, p =>
    match r.search p.before p.rest with
    | none => [p.rest]
    | some (skipped, q) => skipped :: r.splitFrom n q

/-- `Split` without a limit. -/
def split (r : Regex) (s : String) : List (List Char) :=
  r.splitFrom (s.length + 1) ⟨none, s.toList⟩

/-! ### Expressions -/

/-- A literal text. -/
def lit (s : String) : Regex := s.toList.foldr (fun c r => seq (char (· == c)) r) empty

/-- A text of small letters in either case. Two letters have a third case outside of ASCII. -/
def litFold (s : String) : Regex :=
  s.toList.foldr (fun c r => seq (char fun d => d == c || d == c.toUpper ||
    (c == 's' && d == 'ſ') || (c == 'k' && d == 'K')) r) empty

def plus (r : Regex) : Regex := seq r (star r)

def opt (r : Regex) : Regex := alt r empty

/-- `\d`. -/
def digit : Regex := char Char.isDigit

/-- `^`. -/
def textStart : Regex := look fun before _ => before.isNone

/-- `$`. -/
def textEnd : Regex := look fun _ after => after.isNone

/-- A character of a word. -/
def isWord (c : Char) : Bool := c.isAlphanum || c == '_'

/-- `\b`. -/
def wordBoundary : Regex := look fun before after => before.any isWord != after.any isWord

/-! ### Where a match is found -/

variable {r s : Regex} {p : Place} {before : Option Char} {t : List Char}

lemma ends_empty : empty.ends p = [p] := rfl

lemma ends_char_nil {ok : Char → Bool} : (char ok).ends ⟨before, []⟩ = [] := rfl

lemma ends_char_cons {ok : Char → Bool} {c : Char} :
    (char ok).ends ⟨before, c :: t⟩ = if ok c then [⟨some c, t⟩] else [] := rfl

lemma ends_look {ok : Option Char → Option Char → Bool} :
    (look ok).ends p = if ok p.before p.rest.head? then [p] else [] := rfl

lemma ends_seq : (seq r s).ends p = (r.ends p).flatMap s.ends := rfl

lemma ends_alt : (alt r s).ends p = r.ends p ++ s.ends p := rfl

lemma ends_star : (star r).ends p = starEnds r.ends p.rest.length p := rfl

lemma ends_ne_nil_of_seq (h : (seq r s).ends p ≠ []) : r.ends p ≠ [] := by
  intro hr
  simp [ends_seq, hr] at h

lemma ends_seq_char {ok : Char → Bool} {c : Char} (hc : ok c = true) :
    (seq (char ok) s).ends ⟨before, c :: t⟩ = s.ends ⟨some c, t⟩ := by
  simp [ends_seq, ends_char_cons, hc]

lemma starEnds_of_stuck {f : Place → List Place} (h : f p = []) (n : ℕ) : starEnds f n p = [p] := by
  cases n <;> simp [starEnds, h]

lemma ends_star_of_stuck (h : r.ends p = []) : (star r).ends p = [p] :=
  starEnds_of_stuck h _

lemma ends_star_once {q : Place} (hp : r.ends p = [q]) (hlt : q.rest.length < p.rest.length)
    (hq : r.ends q = []) : (star r).ends p = [q, p] := by
  obtain ⟨n, hn⟩ := Nat.exists_eq_add_one_of_ne_zero (Nat.ne_zero_of_lt hlt)
  rw [ends_star, hn, starEnds, hp]
  simp [hlt, starEnds_of_stuck hq]

lemma isSome_search_of_ends (himp : ∀ p, r.ends p ≠ [] → s.ends p ≠ [])
    (h : (r.search before t).isSome) : (s.search before t).isSome := by
  induction t generalizing before with
  | nil =>
    have hr : r.ends ⟨before, []⟩ ≠ [] := by
      intro hnil
      simp [search, hnil] at h
    obtain ⟨q, qs, hq⟩ := List.exists_cons_of_ne_nil (himp _ hr)
    simp [search, hq]
  | cons c t ih =>
    cases hs : s.ends ⟨before, c :: t⟩ with
    | cons q qs => simp [search, hs]
    | nil =>
      have hr : r.ends ⟨before, c :: t⟩ = [] := by
        by_contra hne
        exact himp _ hne hs
      simp only [search, hr, hs, Option.isSome_map] at h ⊢
      exact ih h

lemma exists_split_of_search {text : String} (h : r.matchString text = true) :
    ∃ x y xs, r.split text = x :: y :: xs := by
  obtain ⟨⟨skipped, q⟩, hm⟩ := Option.isSome_iff_exists.mp h
  have hsplit : r.split text = skipped :: r.splitFrom text.length q := by
    simp [split, splitFrom, hm]
  cases hq : r.splitFrom text.length q with
  | cons y xs => exact ⟨skipped, y, xs, by rw [hsplit, hq]⟩
  | nil =>
    unfold splitFrom at hq
    split at hq
    · cases hq
    · split at hq <;> cases hq

/-! ### What is read -/

lemma mem_ends_char {ok : Char → Bool} {q : Place} :
    q ∈ (char ok).ends p ↔ ∃ c, ok c = true ∧ p.rest = c :: q.rest ∧ q.before = some c := by
  obtain ⟨before, t⟩ := p
  obtain ⟨before', t'⟩ := q
  cases t with
  | nil => simp [ends_char_nil]
  | cons c t =>
    by_cases hc : ok c = true
    · simp only [ends_char_cons, if_pos hc, List.mem_singleton, Place.mk.injEq, List.cons.injEq]
      grind
    · simp only [ends_char_cons, if_neg hc, List.not_mem_nil, List.cons.injEq, false_iff]
      grind

lemma mem_ends_seq {q : Place} : q ∈ (seq r s).ends p ↔ ∃ x ∈ r.ends p, q ∈ s.ends x :=
  List.mem_flatMap

lemma mem_ends_opt {q : Place} : q ∈ (opt r).ends p ↔ q ∈ r.ends p ∨ q = p := by
  simp [opt, ends_alt, ends_empty]

lemma mem_ends_textStart {q : Place} : q ∈ textStart.ends p ↔ p.before = none ∧ q = p := by
  by_cases h : p.before = none <;> simp [textStart, ends_look, h]

lemma mem_ends_textEnd {q : Place} : q ∈ textEnd.ends p ↔ p.rest = [] ∧ q = p := by
  by_cases h : p.rest = [] <;> simp [textEnd, ends_look, h]

lemma getLast?_cons_or (c : Char) (cs : List Char) (before : Option Char) :
    (c :: cs).getLast?.or before = cs.getLast?.or (some c) := by
  rw [List.getLast?_cons]
  cases cs.getLast? <;> rfl

lemma getLast?_cons_eq_or (c : Char) (cs : List Char) :
    (c :: cs).getLast? = cs.getLast?.or (some c) := by
  rw [← getLast?_cons_or c cs none, Option.or_none]

lemma mem_starEnds_char {ok : Char → Bool} {q : Place} {n : ℕ} (hn : t.length ≤ n) :
    q ∈ starEnds (char ok).ends n ⟨before, t⟩ ↔
      ∃ cs, (∀ c ∈ cs, ok c = true) ∧ t = cs ++ q.rest ∧ q.before = cs.getLast?.or before := by
  obtain ⟨before', t'⟩ := q
  induction t generalizing n before with
  | nil =>
    rw [starEnds_of_stuck rfl]
    simp only [List.mem_singleton, Place.mk.injEq, List.nil_eq, List.append_eq_nil_iff]
    constructor
    · rintro ⟨rfl, rfl⟩
      exact ⟨[], by simp⟩
    · rintro ⟨cs, -, ⟨rfl, rfl⟩, rfl⟩
      exact ⟨rfl, rfl⟩
  | cons c t ih =>
    obtain ⟨n, rfl⟩ := Nat.exists_eq_add_one_of_ne_zero (Nat.ne_zero_of_lt hn)
    have hround : ∀ b, (⟨before', t'⟩ : Place) ∈ starEnds (char ok).ends n ⟨b, t⟩ ↔ _ :=
      fun b => ih (Nat.le_of_succ_le_succ hn)
    rw [starEnds, List.mem_append, List.mem_flatMap, List.mem_singleton]
    constructor
    · rintro (⟨x, hx, hq⟩ | h)
      · -- one character, and then as many as it likes
        obtain ⟨d, hd, hrest, hbefore⟩ := mem_ends_char.mp (List.mem_filter.mp hx).1
        obtain ⟨rfl, rfl⟩ := List.cons.inj hrest
        obtain ⟨cs, hcs, ht, hb⟩ := (hround x.before).mp hq
        rw [hbefore] at hb
        refine ⟨c :: cs, List.forall_mem_cons.mpr ⟨hd, hcs⟩, by rw [ht]; rfl, ?_⟩
        rw [hb, getLast?_cons_or]
      · cases h
        exact ⟨[], by simp, rfl, rfl⟩
    · rintro ⟨cs, hcs, ht, hb⟩
      cases cs with
      | nil =>
        right
        rw [Place.mk.injEq]
        exact ⟨hb, ht.symm⟩
      | cons d cs =>
        left
        obtain ⟨rfl, rfl⟩ := List.cons.inj ht
        obtain ⟨hc, hcs⟩ := List.forall_mem_cons.mp hcs
        refine ⟨⟨some c, _⟩, List.mem_filter.mpr ⟨?_, by simp⟩, (hround _).mpr ?_⟩
        · exact mem_ends_char.mpr ⟨c, hc, rfl, rfl⟩
        · exact ⟨cs, hcs, rfl, by rw [hb, getLast?_cons_or]⟩

lemma mem_ends_plus_char {ok : Char → Bool} {q : Place} : q ∈ (plus (char ok)).ends p ↔
    ∃ cs, cs ≠ [] ∧ (∀ c ∈ cs, ok c = true) ∧ p.rest = cs ++ q.rest ∧ q.before = cs.getLast? := by
  rw [plus, mem_ends_seq]
  constructor
  · rintro ⟨x, hx, hq⟩
    obtain ⟨c, hc, hrest, hbefore⟩ := mem_ends_char.mp hx
    obtain ⟨cs, hcs, ht, hb⟩ := (mem_starEnds_char le_rfl).mp hq
    refine ⟨c :: cs, List.cons_ne_nil c cs, List.forall_mem_cons.mpr ⟨hc, hcs⟩, ?_, ?_⟩
    · rw [hrest, ht]
      rfl
    · rw [hb, hbefore, getLast?_cons_eq_or]
  · rintro ⟨cs, hne, hcs, ht, hb⟩
    obtain ⟨c, cs, rfl⟩ := List.exists_cons_of_ne_nil hne
    obtain ⟨hc, hcs⟩ := List.forall_mem_cons.mp hcs
    refine ⟨⟨some c, cs ++ q.rest⟩, mem_ends_char.mpr ⟨c, hc, ht, rfl⟩, ?_⟩
    exact (mem_starEnds_char le_rfl).mpr ⟨cs, hcs, rfl, by rw [hb, getLast?_cons_eq_or]⟩

/-! ### Groups -/

/-- An expression with a group: what comes before the group, the group, and what comes after it. -/
structure Grouped where
  pre : Regex
  group : Regex
  post : Regex

namespace Grouped

variable {g : Grouped} {m : List Char}

/-- The texts of the group in the matches from a place, the preferred ones first. -/
def texts (g : Grouped) (p : Place) : List (List Char) :=
  (g.pre.ends p).flatMap fun x => (g.group.ends x).flatMap fun y =>
    (g.post.ends y).map fun _ => x.rest.take (x.rest.length - y.rest.length)

/-- The text of the group in the leftmost match. -/
def search (g : Grouped) (before : Option Char) : List Char → Option (List Char)
  | [] => (g.texts ⟨before, []⟩).head?
  | c :: rest =>
    match g.texts ⟨before, c :: rest⟩ with
    | m :: _ => some m
    | [] => g.search (some c) rest

/-- `FindStringSubmatch`, of which the text of the group is kept. -/
def findStringSubmatch (g : Grouped) (s : String) : Option (List Char) := g.search none s.toList

lemma mem_texts : m ∈ g.texts p ↔
    ∃ x ∈ g.pre.ends p, ∃ y ∈ g.group.ends x, ∃ _z ∈ g.post.ends y,
      x.rest.take (x.rest.length - y.rest.length) = m := by
  simp only [texts, List.mem_flatMap, List.mem_map]

lemma search_of_start (h : ∀ c t, g.texts ⟨some c, t⟩ = []) :
    g.search before t = (g.texts ⟨before, t⟩).head? := by
  induction t generalizing before with
  | nil => rfl
  | cons c t ih =>
    rw [search, ih, h]
    cases g.texts ⟨before, c :: t⟩ <;> rfl

end Grouped

end Regex

end Kne.Patterns
