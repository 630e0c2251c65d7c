import Kne.LogShim

/-!
The shim with both of its goroutines: the one that calls `Write` and `Close`, and the one in the
background, which flushes what is kept when the timer goes off. Each takes lines out of the buffer
while it holds the lock, and passes them to the logger after it has released it. So the lines need
not come to the logger in the order in which they were taken.

Each critical section and each call of the logger is a step. Bytes are told apart by their positions
in all that is written.
-/

namespace Kne.ShimOrder

open Kne.Runs Kne.Segments Kne.LogShim

section Machine

variable {α : Type*} (nl : α → Bool)

/-! ### The goroutines -/

/-- The timer stands, it runs, or it has gone off and the tick is in its channel. -/
inductive Timer
  | stopped | running | ticked
  deriving DecidableEq, Repr

/-- The goroutine in the background. It returns after the flush for which `Close` has woken it, the
`last` one. -/
inductive Flusher (α : Type*)
  | waiting
  | woken (last : Bool)
  | passing (line : List α) (last : Bool)
  | done

def Flusher.next (last : Bool) : Flusher α := if last then .done else .waiting

/-- What it has taken and not passed on. -/
def Flusher.line : Flusher α → List α
  | .passing line _ => line
  | _ => []

structure St (α : Type*) where
  /-- What has not been written yet. -/
  chunks : List (List α)
  /-- What the writer has taken and not passed on. -/
  lines : List (List α) := []
  /-- `Close` has been called. -/
  cancel : Bool := false
  kept : List α := []
  timer : Timer := .stopped
  flusher : Flusher α := .waiting
  out : List (List α) := []

inductive Act
  /-- The critical section of `Write`. -/
  | take
  /-- A call of the logger in `Write`. -/
  | emit
  | close
  | tick
  /-- A tick, or `Close`, is received. -/
  | wake | cancelled
  /-- The critical section of `flush`. -/
  | flush
  /-- The call of the logger in `flush`. -/
  | pass
  deriving DecidableEq, Repr

def step (s : St α) : Act → Option (St α)
  | .take =>
    match s.lines, s.chunks with
    | [], buf :: chunks =>
      match takeLines nl s.kept buf with
      | none => none
      | some (kept, lines) =>
        -- something is kept just if the last byte is no newline
        let timer := if kept.isEmpty then s.timer else .running
        some { s with chunks := chunks, lines := passed lines, kept := kept, timer := timer }
    | _, _ => none
  | .emit =>
    match s.lines with
    | [] => none
    | line :: lines => some { s with lines := lines, out := s.out ++ [line] }
  | .close =>
    if s.lines.isEmpty && s.chunks.isEmpty && !s.cancel then some { s with cancel := true }
    else none
  | .tick => if s.timer = .running then some { s with timer := .ticked } else none
  | .wake =>
    match s.flusher, s.timer with
    | .waiting, .ticked => some { s with flusher := .woken false, timer := .stopped }
    | _, _ => none
  | .cancelled =>
    match s.flusher, s.cancel with
    | .waiting, true => some { s with flusher := .woken true }
    | _, _ => none
  | .flush =>
    match s.flusher with
    | .woken last =>
      let flusher := if s.kept.isEmpty then .next last else .passing s.kept last
      some { s with timer := .stopped, kept := [], flusher := flusher }
    | _ => none
  | .pass =>
    match s.flusher with
    | .passing line last => some { s with flusher := .next last, out := s.out ++ [line] }
    | _ => none

/-- After `New`, with all that will be written. -/
def start (chunks : List (List α)) : St α := { chunks := chunks }

/-- Nobody has a line in hand. -/
def Quiet (s : St α) : Prop := s.lines = [] ∧ s.flusher.line = []

/-- What a step does with the bytes. -/
inductive Moves (s t : St α) : Act → Prop
  | take (buf : List α) (hnone : s.lines = []) (hchunks : s.chunks = buf :: t.chunks)
      (hlines : t.lines = passed (ended nl (s.kept ++ buf)))
      (hkept : t.kept = rest nl (s.kept ++ buf)) (hline : t.flusher.line = s.flusher.line)
      (hout : t.out = s.out) : Moves s t .take
  | emit (line : List α) (hlines : s.lines = line :: t.lines) (hout : t.out = s.out ++ [line])
      (hline : t.flusher.line = s.flusher.line) (hkept : t.kept = s.kept)
      (hchunks : t.chunks = s.chunks) : Moves s t .emit
  | flush (hnone : s.flusher.line = []) (hline : t.flusher.line = s.kept) (hkept : t.kept = [])
      (hlines : t.lines = s.lines) (hchunks : t.chunks = s.chunks) (hout : t.out = s.out) :
      Moves s t .flush
  | pass (hline : t.flusher.line = []) (hout : t.out = s.out ++ [s.flusher.line])
      (hlines : t.lines = s.lines) (hkept : t.kept = s.kept) (hchunks : t.chunks = s.chunks) :
      Moves s t .pass
  | other (a : Act) (ha : a ≠ .emit ∧ a ≠ .pass) (hlines : t.lines = s.lines)
      (hline : t.flusher.line = s.flusher.line) (hkept : t.kept = s.kept)
      (hchunks : t.chunks = s.chunks) (hout : t.out = s.out) : Moves s t a

variable {nl} {s t : St α} {a : Act}

@[simp] lemma line_next (last : Bool) : (Flusher.next last : Flusher α).line = [] := by
  cases last <;> rfl

lemma moves_of_step (h : step nl s a = some t) : Moves nl s t a := by
  cases a with
  | take =>
    simp only [step] at h
    split at h
    next buf chunks hlines hchunks =>
      split at h
      · cases h
      next kept lines htake =>
        obtain ⟨hkept, hpassed⟩ := takeLines_eq_some htake
        cases h
        exact .take buf hlines hchunks hpassed hkept rfl rfl
    · cases h
  | emit =>
    simp only [step] at h
    split at h
    · cases h
    next line lines hlines =>
      cases h
      exact .emit line hlines rfl rfl rfl rfl
  | close =>
    simp only [step] at h
    split_ifs at h
    cases h
    exact .other _ (by decide) rfl rfl rfl rfl rfl
  | tick =>
    simp only [step] at h
    split_ifs at h
    cases h
    exact .other _ (by decide) rfl rfl rfl rfl rfl
  | wake =>
    simp only [step] at h
    split at h
    next hflusher htimer =>
      cases h
      exact .other _ (by decide) rfl (by rw [hflusher]; rfl) rfl rfl rfl
    · cases h
  | cancelled =>
    simp only [step] at h
    split at h
    next hflusher hcancel =>
      cases h
      exact .other _ (by decide) rfl (by rw [hflusher]; rfl) rfl rfl rfl
    · cases h
  | flush =>
    simp only [step] at h
    split at h
    next last hflusher =>
      cases h
      refine .flush (by rw [hflusher]; rfl) ?_ rfl rfl rfl rfl
      cases s.kept with
      | nil => exact line_next last
      | cons b kept => rfl
    · cases h
  | pass =>
    simp only [step] at h
    split at h
    next line last hflusher =>
      cases h
      exact .pass (line_next last) (by rw [hflusher]; rfl) rfl rfl rfl
    · cases h

/-! ### Order -/

variable (pos : α → ℕ)

/-- The positions increase. -/
def Sorted (l : List α) : Prop := l.Pairwise fun b c => pos b < pos c

def Before (xs ys : List α) : Prop := ∀ b ∈ xs, ∀ c ∈ ys, pos b < pos c

/-- What the action passes on. -/
def emitted (s : St α) : Act → List α
  | .emit => s.lines.headD []
  | .pass => s.flusher.line
  | _ => []

/-- What the other goroutine has in hand meanwhile. -/
def held (s : St α) : Act → List α
  | .emit => s.flusher.line
  | .pass => s.lines.flatten
  | _ => []

/-- The action passes something on while the other goroutine has something earlier in hand. -/
def Overtakes (s : St α) (a : Act) : Prop :=
  ∃ b ∈ held s a, ∃ c ∈ emitted s a, pos b < pos c

instance (s : St α) (a : Act) : Decidable (Overtakes pos s a) :=
  inferInstanceAs (Decidable (∃ b ∈ held s a, ∃ c ∈ emitted s a, pos b < pos c))

variable {pos} {xs ys zs : List α}

lemma sorted_append : Sorted pos (xs ++ ys) ↔ Sorted pos xs ∧ Sorted pos ys ∧ Before pos xs ys :=
  List.pairwise_append

lemma before_append : Before pos xs (ys ++ zs) ↔ Before pos xs ys ∧ Before pos xs zs := by
  simp only [Before, List.mem_append, or_imp, forall_and]

lemma append_before : Before pos (xs ++ ys) zs ↔ Before pos xs zs ∧ Before pos ys zs := by
  simp only [Before, List.mem_append, or_imp, forall_and]

lemma nil_before : Before pos [] xs := by simp [Before]

variable (nl) in
lemma taken_sublist (l : List α) : ((passed (ended nl l)).flatten ++ rest nl l).Sublist l := by
  have hflat : (passed (ended nl l)).flatten ++ rest nl l = (l.splitOnP nl).flatten := by
    rw [flatten_passed, ← ended_append_rest nl l]
    simp
  rw [hflat, flatten_splitOnP]
  exact List.filter_sublist

variable (pos) in
/-- All is in order, and what is in hand comes after what has been passed on. -/
structure Ordered (s : St α) : Prop where
  writer : Sorted pos (s.out.flatten ++ (s.lines.flatten ++ (s.kept ++ s.chunks.flatten)))
  flusher : Sorted pos (s.out.flatten ++ (s.flusher.line ++ (s.kept ++ s.chunks.flatten)))
  either : Before pos s.flusher.line s.lines.flatten ∨ Before pos s.lines.flatten s.flusher.line

/-- **One step** that overtakes nothing. -/
lemma ordered_step (hs : Ordered pos s) (hok : ¬ Overtakes pos s a) (h : step nl s a = some t) :
    Ordered pos t := by
  obtain ⟨hwriter, hflusher, heither⟩ := hs
  cases moves_of_step h with
  | take buf hnone hchunks hlines hkept hline hout =>
    have hsub := taken_sublist nl (s.kept ++ buf)
    rw [hnone, hchunks] at hwriter
    rw [hchunks] at hflusher
    simp only [List.flatten_nil, List.nil_append, List.flatten_cons] at hwriter hflusher
    rw [← List.append_assoc s.kept] at hwriter hflusher
    refine ⟨?_, ?_, ?_⟩
    · rw [hout, hlines, hkept, ← List.append_assoc (passed _).flatten]
      exact hwriter.sublist ((List.Sublist.refl _).append (hsub.append (List.Sublist.refl _)))
    · have hrest := (List.sublist_append_right _ _).trans hsub
      rw [hout, hline, hkept]
      exact hflusher.sublist ((List.Sublist.refl _).append
        ((List.Sublist.refl _).append (hrest.append (List.Sublist.refl _))))
    · left
      rw [hline, hlines]
      have hbefore := (sorted_append.mp (sorted_append.mp hflusher).2.1).2.2
      intro b hb c hc
      exact hbefore b hb c
        (List.mem_append_left _ (hsub.subset (List.mem_append_left _ hc)))
  | emit line hlines hout hline hkept hchunks =>
    rw [hlines, List.flatten_cons] at hwriter heither
    have hfirst : Before pos line s.flusher.line := by
      rcases heither with hbefore | hafter
      · intro c hc b hb
        refine absurd ⟨b, hb, c, ?_, hbefore b hb c (List.mem_append_left _ hc)⟩ hok
        simpa [emitted, hlines] using hc
      · exact (append_before.mp hafter).1
    simp only [sorted_append, before_append, append_before] at hwriter hflusher heither
    refine ⟨?_, ?_, ?_⟩
    · simp only [hout, hkept, hchunks, List.flatten_append, List.flatten_singleton, sorted_append,
        before_append, append_before]
      tauto
    · simp only [hout, hkept, hchunks, hline, List.flatten_append, List.flatten_singleton,
        sorted_append, before_append, append_before]
      tauto
    · rw [hline]
      tauto
  | flush hnone hline hkept hlines hchunks hout =>
    simp only [sorted_append, before_append] at hwriter
    refine ⟨?_, ?_, ?_⟩
    · simp only [hout, hlines, hkept, hchunks, List.nil_append, sorted_append, before_append]
      tauto
    · simp only [hout, hline, hkept, hchunks, List.nil_append, sorted_append, before_append]
      tauto
    · right
      rw [hline, hlines]
      tauto
  | pass hline hout hlines hkept hchunks =>
    have hfirst : Before pos s.flusher.line s.lines.flatten := by
      rcases heither with hbefore | hafter
      · exact hbefore
      · intro c hc b hb
        exact absurd ⟨b, hb, c, hc, hafter b hb c hc⟩ hok
    simp only [sorted_append, before_append] at hwriter hflusher
    refine ⟨?_, ?_, ?_⟩
    · simp only [hout, hlines, hkept, hchunks, List.flatten_append, List.flatten_singleton,
        sorted_append, before_append, append_before]
      tauto
    · simp only [hout, hkept, hchunks, hline, List.flatten_append, List.flatten_singleton,
        List.nil_append, sorted_append, before_append, append_before]
      tauto
    · rw [hline]
      exact .inl nil_before
  | other a ha hlines hline hkept hchunks hout =>
    refine ⟨?_, ?_, ?_⟩
    · rwa [hout, hlines, hkept, hchunks]
    · rwa [hout, hline, hkept, hchunks]
    · rwa [hline, hlines]

variable (pos) in
/-- The output is out of order, or will be. -/
def Spoilt (s : St α) : Prop :=
  ¬ Sorted pos s.out.flatten ∨
    ∃ b ∈ s.out.flatten, ∃ c, (c ∈ s.lines.flatten ∨ c ∈ s.flusher.line) ∧ pos c < pos b

lemma spoilt_append {line : List α} (hout : t.out = s.out ++ [line])
    (h : ¬ Sorted pos s.out.flatten ∨ ∃ b ∈ s.out.flatten, ∃ c ∈ line, pos c < pos b) :
    ¬ Sorted pos t.out.flatten := by
  rw [hout, List.flatten_append, List.flatten_singleton, sorted_append]
  rintro ⟨hsorted, -, hbefore⟩
  rcases h with h | ⟨b, hb, c, hc, hlt⟩
  · exact h hsorted
  · exact absurd (hbefore b hb c hc) (Nat.lt_asymm hlt)

lemma mem_out_append {b : α} {line : List α} (hout : t.out = s.out ++ [line])
    (hb : b ∈ s.out.flatten) : b ∈ t.out.flatten := by
  rw [hout, List.flatten_append]
  exact List.mem_append_left _ hb

lemma spoilt_of_overtakes (hok : Overtakes pos s a) (h : step nl s a = some t) : Spoilt pos t := by
  obtain ⟨b, hb, c, hc, hlt⟩ := hok
  right
  cases moves_of_step h with
  | take | flush => cases hb
  | emit line hlines hout hline hkept hchunks =>
    refine ⟨c, ?_, b, .inr (hline ▸ hb), hlt⟩
    have hcline : c ∈ line := by simpa [emitted, hlines] using hc
    simp [hout, hcline]
  | pass hline hout hlines hkept hchunks =>
    refine ⟨c, ?_, b, .inl (hlines ▸ hb), hlt⟩
    have hcline : c ∈ s.flusher.line := hc
    simp [hout, hcline]
  | other a ha =>
    cases a <;> first | exact absurd rfl ha.1 | exact absurd rfl ha.2 | cases hb

lemma spoilt_step (hs : Spoilt pos s) (h : step nl s a = some t) : Spoilt pos t := by
  cases moves_of_step h with
  | take buf hnone hchunks hlines hkept hline hout =>
    rw [Spoilt, hout, hline]
    refine hs.imp_right ?_
    rintro ⟨b, hb, c, hc | hc, hlt⟩
    · simp [hnone] at hc
    · exact ⟨b, hb, c, .inr hc, hlt⟩
  | emit line hlines hout hline hkept hchunks =>
    rcases hs with hs | ⟨b, hb, c, hc | hc, hlt⟩
    · exact .inl (spoilt_append hout (.inl hs))
    · rw [hlines, List.flatten_cons, List.mem_append] at hc
      rcases hc with hc | hc
      · exact .inl (spoilt_append hout (.inr ⟨b, hb, c, hc, hlt⟩))
      · exact .inr ⟨b, mem_out_append hout hb, c, .inl hc, hlt⟩
    · exact .inr ⟨b, mem_out_append hout hb, c, .inr (hline ▸ hc), hlt⟩
  | flush hnone hline hkept hlines hchunks hout =>
    rw [Spoilt, hout, hlines]
    refine hs.imp_right ?_
    rintro ⟨b, hb, c, hc | hc, hlt⟩
    · exact ⟨b, hb, c, .inl hc, hlt⟩
    · simp [hnone] at hc
  | pass hline hout hlines hkept hchunks =>
    rcases hs with hs | ⟨b, hb, c, hc | hc, hlt⟩
    · exact .inl (spoilt_append hout (.inl hs))
    · exact .inr ⟨b, mem_out_append hout hb, c, .inl (hlines ▸ hc), hlt⟩
    · exact .inl (spoilt_append hout (.inr ⟨b, hb, c, hc, hlt⟩))
  | other a ha hlines hline hkept hchunks hout =>
    rwa [Spoilt, hout, hlines, hline]

/-! ### Whole runs -/

variable {chunks : List (List α)} {as : List Act}

lemma ordered_start (h : Sorted pos chunks.flatten) : Ordered pos (start chunks) :=
  ⟨h, h, .inl nil_before⟩

lemma sorted_of_along (hchunks : Sorted pos chunks.flatten)
    (halong : Along (step nl) (fun s a => ¬ Overtakes pos s a) (start chunks) as)
    (h : run (step nl) (start chunks) as = some s) : Sorted pos s.out.flatten := by
  have hordered := run_inv_along (fun _ _ _ hs hok hstep => ordered_step hs hok hstep)
    (ordered_start hchunks) halong h
  exact (sorted_append.mp hordered.writer).1

lemma not_sorted_of_overtaken
    (hnot : ¬ Along (step nl) (fun s a => ¬ Overtakes pos s a) (start chunks) as)
    (h : run (step nl) (start chunks) as = some s) (hquiet : Quiet s) :
    ¬ Sorted pos s.out.flatten := by
  have hspoilt : Spoilt pos s := run_of_not_along
    (fun _ _ _ hok hstep => spoilt_of_overtakes (not_not.mp hok) hstep)
    (fun _ _ _ hs hstep => spoilt_step hs hstep) hnot h
  rcases hspoilt with hspoilt | ⟨b, -, c, hc | hc, -⟩
  · exact hspoilt
  · simp [hquiet.1] at hc
  · simp [hquiet.2] at hc

/-! ### One goroutine alone -/

/-- Both goroutines are where the shim is that one of them uses alone. -/
structure Idle (s : St α) (shim : Shim α) (chunks : List (List α)) : Prop where
  chunks : s.chunks = chunks
  lines : s.lines = []
  kept : s.kept = shim.kept
  out : s.out = shim.out
  waiting : s.flusher = .waiting
  timer : s.kept ≠ [] → s.timer ≠ .stopped

lemma run_emit (s : St α) : run (step nl) s (List.replicate s.lines.length .emit) =
    some { s with lines := [], out := s.out ++ s.lines } := by
  obtain ⟨chunks, lines, cancel, kept, timer, flusher, out⟩ := s
  induction lines generalizing out with
  | nil => simp
  | cons line lines ih =>
    rw [List.length_cons, List.replicate_succ, run_cons]
    simp only [step, Option.bind_some, ih, List.append_assoc, List.singleton_append]

lemma idle_write {shim shim' : Shim α} {buf : List α} (hs : Idle s shim (buf :: chunks))
    (h : shim.write nl buf = some shim') :
    ∃ as t, run (step nl) s as = some t ∧ Idle t shim' chunks := by
  obtain ⟨⟨kept, lines⟩, htake, rfl⟩ := Option.map_eq_some_iff.mp h
  let u : St α := { s with
    chunks := chunks, lines := passed lines, kept := kept,
    timer := if kept.isEmpty then s.timer else .running }
  have hu : step nl s .take = some u := by
    simp only [step, hs.lines, hs.chunks, hs.kept, htake]
    rfl
  refine ⟨.take :: List.replicate u.lines.length .emit,
    { u with lines := [], out := u.out ++ u.lines }, ?_, rfl, rfl, rfl, ?_, hs.waiting, ?_⟩
  · rw [run_cons, hu]
    exact run_emit u
  · simp only [u, hs.out]
  · intro hne
    have hempty : kept.isEmpty = false := by
      cases hkept : kept with
      | nil => exact absurd hkept hne
      | cons b kept => rfl
    simp [u, hempty]

lemma idle_flush {shim : Shim α} (hs : Idle s shim chunks) :
    ∃ as t, run (step nl) s as = some t ∧ Idle t shim.flush chunks := by
  obtain ⟨schunks, lines, cancel, kept, timer, flusher, out⟩ := s
  obtain ⟨hchunks, hlines, hkept, hout, hwaiting, htimer⟩ := hs
  dsimp only at hchunks hlines hkept hout hwaiting htimer
  subst hchunks hlines hkept hout hwaiting
  cases hk : shim.kept with
  | nil =>
    refine ⟨[], _, rfl, rfl, rfl, ?_, ?_, rfl, fun hne => absurd rfl hne⟩
    · simp [Shim.flush, hk]
    · simp [Shim.flush, hk, passed]
  | cons b kept =>
    have hpass : passed [b :: kept] = [b :: kept] := rfl
    have hrun : run (step nl) ⟨schunks, [], cancel, b :: kept, .ticked, .waiting, shim.out⟩
        [.wake, .flush, .pass] =
        some { chunks := schunks, cancel := cancel, out := shim.out ++ [b :: kept] } := rfl
    have hidle : Idle { chunks := schunks, cancel := cancel, out := shim.out ++ [b :: kept] }
        shim.flush schunks := by
      refine ⟨rfl, rfl, rfl, ?_, rfl, fun hne => absurd rfl hne⟩
      simp [Shim.flush, hk, hpass]
    cases timer with
    | stopped => exact absurd rfl (htimer (by simp [hk]))
    | running => exact ⟨[.tick, .wake, .flush, .pass], _, hrun, hidle⟩
    | ticked => exact ⟨[.wake, .flush, .pass], _, hrun, hidle⟩

/-- What the writes of some calls are. -/
def chunksOf (ops : List (Op α)) : List (List α) :=
  ops.filterMap fun
    | .write buf => some buf
    | .flush => none

/-- **One goroutine alone** is one of the interleavings: the timer goes off where the flushes are,
and each call has ended before the next one begins. -/
theorem exists_schedule {ops : List (Op α)} {shim shim' : Shim α}
    (hs : Idle s shim (chunksOf ops)) (h : run (LogShim.step nl) shim ops = some shim') :
    ∃ as t, run (step nl) s as = some t ∧ Idle t shim' [] := by
  induction ops generalizing s shim with
  | nil =>
    cases h
    exact ⟨[], s, rfl, hs⟩
  | cons op ops ih =>
    rw [run_cons, Option.bind_eq_some_iff] at h
    obtain ⟨mid, hmid, hrest⟩ := h
    have hstep : ∃ as t, run (step nl) s as = some t ∧ Idle t mid (chunksOf ops) := by
      cases op with
      | write buf => exact idle_write hs hmid
      | flush =>
        cases hmid
        exact idle_flush hs
    obtain ⟨as, u, hu, hidle⟩ := hstep
    obtain ⟨bs, t, ht, hend⟩ := ih hidle hrest
    exact ⟨as ++ bs, t, run_trans _ hu ht, hend⟩

end Machine

/-! ### Bytes and their positions -/

/-- A byte and its position in all that is written. -/
abbrev Byte := UInt8 × ℕ

def Byte.isNewline (b : Byte) : Bool := LogShim.isNewline b.1

/-- The chunks with the positions of their bytes, from `n` on. -/
def numbered : ℕ → List (List UInt8) → List (List Byte)
  | _, [] => []
  | n, w :: ws => w.zipIdx n :: numbered (n + w.length) ws

lemma flatten_numbered (n : ℕ) (ws : List (List UInt8)) :
    (numbered n ws).flatten = ws.flatten.zipIdx n := by
  induction ws generalizing n with
  | nil => rfl
  | cons w ws ih => rw [numbered, List.flatten_cons, List.flatten_cons, ih, List.zipIdx_append]

lemma sorted_zipIdx (n : ℕ) (l : List UInt8) : Sorted Prod.snd (l.zipIdx n) := by
  rw [Sorted, ← List.pairwise_map (f := Prod.snd) (R := (· < ·)), List.zipIdx_map_snd]
  exact List.pairwise_lt_range'

/-- The strings were passed on in the order of their bytes. -/
def InOrder (s : St Byte) : Prop := Sorted Prod.snd s.out.flatten

/-- The strings as the logger gets them. -/
def texts (s : St Byte) : List (List UInt8) := s.out.map (List.map Prod.fst)

variable {s : St Byte} {as : List Act}

/-- **Order of the output.** In every interleaving of the writes with the flushes in the background:
as long as neither goroutine passes on a line while the other one has an earlier one in hand, the
output is in order; and if one does, it is not in order when all has been passed on. -/
theorem in_order_iff (ws : List (List UInt8))
    (h : run (step Byte.isNewline) (start (numbered 0 ws)) as = some s) :
    (Along (step Byte.isNewline) (fun s a => ¬ Overtakes Prod.snd s a) (start (numbered 0 ws)) as →
      InOrder s) ∧
    (Quiet s → (InOrder s ↔
      Along (step Byte.isNewline) (fun s a => ¬ Overtakes Prod.snd s a)
        (start (numbered 0 ws)) as)) := by
  have hsorted : Sorted Prod.snd (numbered 0 ws).flatten := by
    rw [flatten_numbered]
    exact sorted_zipIdx 0 _
  have hkept := fun halong => sorted_of_along hsorted halong h
  refine ⟨hkept, fun hquiet => ⟨fun hin => ?_, hkept⟩⟩
  by_contra hnot
  exact not_sorted_of_overtaken hnot h hquiet hin

/-- A line is passed on, and then its end is flushed. -/
theorem flushed_in_order : ∃ s, run (step Byte.isNewline) (start (numbered 0 [[97, 10, 98]]))
    [.take, .emit, .tick, .wake, .flush, .pass] = some s ∧ texts s = [[97], [98]] ∧ InOrder s := by
  let s : St Byte := { chunks := [], out := [[(97, 0)], [(98, 2)]] }
  have hrun : run (step Byte.isNewline) (start (numbered 0 [[97, 10, 98]]))
      [.take, .emit, .tick, .wake, .flush, .pass] = some s := rfl
  exact ⟨s, hrun, rfl, (in_order_iff _ hrun).1 (by decide)⟩

/-- **A line that is overtaken.** The timer goes off for `ab`; while it is being flushed, `cd` and a
newline are written, and `cd` is passed on first. -/
theorem line_overtaken : ∃ s, run (step Byte.isNewline)
    (start (numbered 0 [[97, 98], [99, 100, 10]]))
    [.take, .tick, .wake, .flush, .take, .emit, .pass] = some s ∧ Quiet s ∧
      texts s = [[99, 100], [97, 98]] ∧ ¬ InOrder s := by
  let s : St Byte := { chunks := [], out := [[(99, 2), (100, 3)], [(97, 0), (98, 1)]] }
  refine ⟨s, rfl, ⟨rfl, rfl⟩, rfl, ?_⟩
  unfold InOrder Sorted
  decide

end Kne.ShimOrder
