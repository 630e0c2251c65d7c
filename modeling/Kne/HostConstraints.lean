import Mathlib.Tactic

/-!
`Impl.ValidateConstraints` of `node.go`: the constraints that a node puts on the kernel of its host,
checked one by one, with the errors collected. An entry in which no constraint is set ends the check
at once and with it the errors collected so far are lost. The check also writes: an upper bound of
zero stands for none and is replaced by the greatest number.
-/

namespace Kne.HostConstraints

/-- A `BoundedInteger`. -/
structure BoundedInteger where
  maxValue : Int64
  minValue : Int64
  deriving DecidableEq, Repr

/-- A `KernelParam`. Its `ConstraintType` may be unset, and a bounded integer is the only kind. -/
structure KernelParam where
  name : String
  constraintType : Option BoundedInteger
  deriving DecidableEq, Repr

/-- A `HostConstraint`. Its `constraint` may be unset, and a kernel parameter is the only kind. -/
structure HostConstraint where
  constraint : Option KernelParam
  deriving DecidableEq, Repr

/-- What `kernelConstraintValue` reads off the host. -/
abbrev Host := String → Except String Int64

/-- The bounds after an unspecified upper bound was replaced. -/
def bounds (b : BoundedInteger) : BoundedInteger :=
  if b.maxValue = 0 then { b with maxValue := Int64.maxValue } else b

/-- `validateBoundedInteger`: its error and the bounds as it leaves them. -/
def validateBoundedInteger (nodeConstraint : BoundedInteger) (hostCons : Int64) :
    Option String × BoundedInteger :=
  let b := bounds nodeConstraint
  if b.minValue > b.maxValue then
    (some ("invalid bounds. Max value " ++ toString b.maxValue ++ " is less than min value " ++
      toString b.minValue), b)
  else if ¬ (b.minValue ≤ hostCons ∧ hostCons ≤ b.maxValue) then
    (some ("invalid bounded integer constraint. min: " ++ toString b.minValue ++ " max " ++
      toString b.maxValue ++ " constraint data " ++ toString hostCons), b)
  else (none, b)

/-- The case of a kernel constraint: the errors it adds and the constraint as it leaves it. -/
def validateKernel (host : Host) (p : KernelParam) : List String × KernelParam :=
  match host p.name with
  | .error err => ([err], p)
  | .ok kcValue =>
    match p.constraintType with
    | none => ([], p)
    | some b =>
      let (err, b') := validateBoundedInteger b kcValue
      ((err.map ("failed to validate kernel constraint error: " ++ ·)).toList,
        { p with constraintType := some b' })

/-- The loop of `ValidateConstraints`, with the errors collected before. -/
def validateLoop (host : Host) :
    List String → List HostConstraint → Option (List String) × List HostConstraint
  | errorList, [] => (if errorList = [] then none else some errorList, [])
  | errorList, hc :: hcs =>
    match hc.constraint with
    -- an entry with nothing set returns nil, whatever was collected
    | none => (none, hc :: hcs)
    | some p =>
      let (errs, p') := validateKernel host p
      let (err, hcs') := validateLoop host (errorList ++ errs) hcs
      (err, ⟨some p'⟩ :: hcs')

/-- `ValidateConstraints`: the errors it returns, if any, and the constraints as it leaves them. -/
def validateConstraints (host : Host) (hcs : List HostConstraint) :
    Option (List String) × List HostConstraint :=
  validateLoop host [] hcs

/-! ### What a constraint asks for -/

/-- No number satisfies the bounds, or the one given does not. An upper bound of zero is none. -/
def OutOfBounds (b : BoundedInteger) (v : Int64) : Prop :=
  (b.maxValue ≠ 0 ∧ b.minValue > b.maxValue) ∨ v < b.minValue ∨ (b.maxValue ≠ 0 ∧ b.maxValue < v)

instance (b : BoundedInteger) (v : Int64) : Decidable (OutOfBounds b v) :=
  inferInstanceAs (Decidable (_ ∨ _ ∨ _))

/-- A kernel constraint whose parameter cannot be read or does not lie within its bounds. -/
def Violated (host : Host) (p : KernelParam) : Prop :=
  match host p.name with
  | .error _ => True
  | .ok v => ∃ b ∈ p.constraintType, OutOfBounds b v

/-- The constraint is set and is violated. -/
def Unmet (host : Host) (hc : HostConstraint) : Prop := ∃ p ∈ hc.constraint, Violated host p

/-! ### The check of one constraint -/

variable {host : Host} {b : BoundedInteger} {v : Int64} {p : KernelParam}

lemma le_maxValue (v : Int64) : v ≤ Int64.maxValue := by
  rw [Int64.le_iff_toInt_le]
  exact Int64.toInt_le v

lemma outOfBounds_iff : OutOfBounds b v ↔
    (bounds b).maxValue < (bounds b).minValue ∨
      ¬ ((bounds b).minValue ≤ v ∧ v ≤ (bounds b).maxValue) := by
  have hmin : ¬ Int64.maxValue < b.minValue := Int64.not_lt.mpr (le_maxValue _)
  have hv : v ≤ Int64.maxValue := le_maxValue v
  unfold OutOfBounds bounds
  by_cases h0 : b.maxValue = 0
  · simp [h0, hmin, hv, Int64.not_le]
  · simp only [h0, if_false, not_and_or, Int64.not_le, not_false_iff, ne_eq, true_and, gt_iff_lt]

lemma validateBoundedInteger_isSome_iff :
    (validateBoundedInteger b v).1.isSome ↔ OutOfBounds b v := by
  rw [outOfBounds_iff]
  simp only [validateBoundedInteger]
  split_ifs with h1 h2
  · simp [h1]
  · simpa using ⟨Int64.not_lt.mp h1, h2⟩
  · simp [h2]

lemma validateBoundedInteger_snd : (validateBoundedInteger b v).2 = bounds b := by
  simp only [validateBoundedInteger]
  split_ifs <;> rfl

lemma bounds_bounds (b : BoundedInteger) : bounds (bounds b) = bounds b := by
  by_cases h0 : b.maxValue = 0
  · have hb : bounds b = { b with maxValue := Int64.maxValue } := if_pos h0
    rw [hb]
    rfl
  · have hb : bounds b = b := if_neg h0
    rw [hb, hb]

lemma validateBoundedInteger_bounds :
    validateBoundedInteger (bounds b) v = validateBoundedInteger b v := by
  simp only [validateBoundedInteger, bounds_bounds]

lemma validateKernel_ne_nil_iff : (validateKernel host p).1 ≠ [] ↔ Violated host p := by
  unfold validateKernel Violated
  cases host p.name with
  | error err => simp
  | ok v =>
    cases hc : p.constraintType with
    | none => simp
    | some b =>
      have hb := validateBoundedInteger_isSome_iff (b := b) (v := v)
      cases herr : (validateBoundedInteger b v).1 with
      | none => simpa [herr] using hb
      | some err => simpa [herr] using hb

lemma validateKernel_again :
    validateKernel host (validateKernel host p).2 = validateKernel host p := by
  cases hv : host p.name with
  | error err => simp [validateKernel, hv]
  | ok v =>
    cases hc : p.constraintType with
    | none => simp [validateKernel, hv, hc]
    | some b => simp [validateKernel, hv, hc, validateBoundedInteger_snd,
        validateBoundedInteger_bounds]

/-! ### The check of a list -/

variable {errs : List String} {hcs : List HostConstraint}

lemma validateLoop_isSome_iff : (validateLoop host errs hcs).1.isSome ↔
    (∀ hc ∈ hcs, hc.constraint ≠ none) ∧ (errs ≠ [] ∨ ∃ hc ∈ hcs, Unmet host hc) := by
  induction hcs generalizing errs with
  | nil =>
    unfold validateLoop
    split_ifs with h <;> simp [h]
  | cons hc hcs ih =>
    cases hset : hc.constraint with
    | none => simp [validateLoop, hset]
    | some p =>
      have hunmet : Unmet host hc ↔ Violated host p := by simp [Unmet, hset]
      simp only [validateLoop, hset, ih, ne_eq, List.append_eq_nil_iff, not_and_or,
        List.forall_mem_cons, List.exists_mem_cons_iff, hunmet, ← validateKernel_ne_nil_iff]
      simp [or_assoc]

lemma validateLoop_again : validateLoop host errs (validateLoop host errs hcs).2 =
    validateLoop host errs hcs := by
  induction hcs generalizing errs with
  | nil => rfl
  | cons hc hcs ih =>
    cases hset : hc.constraint with
    | none => simp [validateLoop, hset]
    | some p => simp [validateLoop, hset, validateKernel_again, ih]

/-- **The bounds that are written back do not change the verdict.** A second check of the same node
finds the same errors and leaves the constraints alone. -/
theorem validateConstraints_again : validateConstraints host (validateConstraints host hcs).2 =
    validateConstraints host hcs :=
  validateLoop_again

/-- The check says of a list in every order whether some constraint in it is unmet. -/
def Complete (host : Host) (hcs : List HostConstraint) : Prop :=
  ∀ hcs', hcs'.Perm hcs →
    ((validateConstraints host hcs').1.isSome ↔ ∃ hc ∈ hcs, Unmet host hc)

/-- **When the check is complete.** The errors of a list are reported in every order of the list, if
every entry has its constraint set; one entry without it hides them all. -/
theorem validateConstraints_complete_iff (host : Host) (hcs : List HostConstraint) :
    Complete host hcs ↔
      ((∃ hc ∈ hcs, hc.constraint = none) → ∀ hc ∈ hcs, ¬ Unmet host hc) := by
  have hverdict : ∀ hcs', hcs'.Perm hcs → ((validateConstraints host hcs').1.isSome ↔
      (∀ hc ∈ hcs, hc.constraint ≠ none) ∧ ∃ hc ∈ hcs, Unmet host hc) := by
    intro hcs' hperm
    rw [validateConstraints, validateLoop_isSome_iff]
    simp [hperm.mem_iff]
  constructor
  · rintro hcomplete ⟨hc, hmem, hunset⟩ hc' hmem' hunmet
    have hsome := (hcomplete hcs (.refl _)).mpr ⟨hc', hmem', hunmet⟩
    exact ((hverdict hcs (.refl _)).mp hsome).1 hc hmem hunset
  · intro hset hcs' hperm
    rw [hverdict hcs' hperm, and_iff_right_iff_imp]
    rintro ⟨hc', hmem', hunmet⟩ hc hmem hunset
    exact hset ⟨hc, hmem, hunset⟩ hc' hmem' hunmet

/-- One parameter that cannot be read, and after it an entry with nothing set. -/
def hidden : List HostConstraint :=
  [⟨some ⟨"kernel.pid_max", some { minValue := 0, maxValue := 1048575 }⟩⟩, ⟨none⟩]

theorem hidden_accepted :
    (∃ hc ∈ hidden, Unmet (fun _ => .error "permission denied") hc) ∧
    (validateConstraints (fun _ => .error "permission denied") hidden).1 = none ∧
    ¬ Complete (fun _ => .error "permission denied") hidden := by
  have hunmet : ∃ hc ∈ hidden, Unmet (fun _ => .error "permission denied") hc :=
    ⟨_, List.mem_cons_self, _, rfl, trivial⟩
  refine ⟨hunmet, rfl, fun hcomplete => ?_⟩
  exact absurd ((hcomplete hidden (.refl _)).mpr hunmet) (by decide)

end Kne.HostConstraints
