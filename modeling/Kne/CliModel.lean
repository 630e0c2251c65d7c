import Kne.Objects

/-!
A connection to the command line of a device, as the vendors' nodes drive it through scrapligo. A
program makes calls one after the other; a call without a response succeeds or fails, a call with
one fails or brings a response, and the response itself can be marked as failed. All calls are kept
in a log with what they brought.

A program is quiet if it succeeds only when every call it made was clean. Quiet programs compose, so
that a program which is not must contain a step that drops a failure.
-/

namespace Kne.CliModel

open Kne.Objects

/-- A `Response` of scrapligo. -/
structure Response where
  result : String := ""
  failed : Option String := none
  deriving DecidableEq, Repr

/-- A `MultiResponse` of scrapligo. -/
structure MultiResponse where
  responses : List Response := []
  failed : Option String := none
  deriving DecidableEq, Repr

/-- The calls on a connection. -/
inductive Call
  /-- `SpawnCLIConn`. -/
  | spawn
  /-- `SpawnCLIConnConf` of Cisco. -/
  | spawnConf
  | newCfg (platform : String)
  | prepare
  | loadConfig (config : String) (replace : Bool)
  | commitConfig
  | sendConfig (config : String)
  | sendConfigs (configs : List String)
  deriving DecidableEq, Repr

/-- What a device answers: the reply to the `n`-th call, for each kind that call can be of. -/
structure Device where
  err : ℕ → Option String
  reply : ℕ → Except String Response
  multi : ℕ → Except String MultiResponse

/-- A call with what it brought. -/
inductive Step
  | told (call : Call) (err : Option String)
  | asked (call : Call) (reply : Except String Response)
  | askedAll (call : Call) (reply : Except String MultiResponse)

/-- The call succeeded, and so did what it asked for. -/
def Step.Clean : Step → Prop
  | .told _ err => err = none
  | .asked _ reply => ∃ resp, reply = .ok resp ∧ resp.failed = none
  | .askedAll _ reply => ∃ resp, reply = .ok resp ∧ resp.failed = none

/-- Programs that drive a connection. -/
abbrev Cli := EStateM String (List Step)

/-- Return the error there is. -/
def failWith : Option String → Cli Unit
  | none => pure ()
  | some err => throw err

variable (d : Device)

/-- A call without a response. -/
def tell (c : Call) : Cli Unit := fun log =>
  match d.err log.length with
  | none => .ok () (log ++ [.told c none])
  | some err => .error err (log ++ [.told c (some err)])

/-- A call with one response. -/
def ask (c : Call) : Cli Response := fun log =>
  match d.reply log.length with
  | .ok resp => .ok resp (log ++ [.asked c (.ok resp)])
  | .error err => .error err (log ++ [.asked c (.error err)])

/-- A call with a response for each of its lines. -/
def askAll (c : Call) : Cli MultiResponse := fun log =>
  match d.multi log.length with
  | .ok resp => .ok resp (log ++ [.askedAll c (.ok resp)])
  | .error err => .error err (log ++ [.askedAll c (.error err)])

/-! ### What the calls bring -/

variable {d} {c : Call} {log log' : List Step}

lemma tell_eq_ok_iff {z : Unit} :
    tell d c log = .ok z log' ↔ d.err log.length = none ∧ log' = log ++ [.told c none] := by
  unfold tell
  cases d.err log.length with
  | none => simp [eq_comm]
  | some err => simp

lemma ask_eq_ok_iff {resp : Response} : ask d c log = .ok resp log' ↔
    d.reply log.length = .ok resp ∧ log' = log ++ [.asked c (.ok resp)] := by
  unfold ask
  cases d.reply log.length with
  | ok resp' =>
    simp only [EStateM.Result.ok.injEq, Except.ok.injEq]
    exact and_congr_right fun h => by rw [h, eq_comm]
  | error err => simp

lemma askAll_eq_ok_iff {resp : MultiResponse} : askAll d c log = .ok resp log' ↔
    d.multi log.length = .ok resp ∧ log' = log ++ [.askedAll c (.ok resp)] := by
  unfold askAll
  cases d.multi log.length with
  | ok resp' =>
    simp only [EStateM.Result.ok.injEq, Except.ok.injEq]
    exact and_congr_right fun h => by rw [h, eq_comm]
  | error err => simp

lemma failWith_eq_ok_iff {err : Option String} {z : Unit} :
    failWith err log = .ok z log' ↔ err = none ∧ log = log' := by
  cases err with
  | none => exact pure_eq_ok_iff.trans (by simp)
  | some err => exact ⟨fun h => (nomatch h), fun h => (nomatch h.1)⟩

/-! ### Quiet programs -/

section Quiet

variable {α β : Type}

/-- The program succeeds only if each call it made was clean. -/
def Quiet (x : Cli α) : Prop :=
  ∀ log a log', x log = .ok a log' → (∀ step ∈ log, step.Clean) → ∀ step ∈ log', step.Clean

lemma quiet_pure (a : α) : Quiet (pure a) := by
  intro log b log' h hlog
  obtain ⟨rfl, rfl⟩ := pure_eq_ok_iff.mp h
  exact hlog

lemma quiet_throw (err : String) : Quiet (throw err : Cli α) :=
  fun _ _ _ h => nomatch h

lemma quiet_failWith (err : Option String) : Quiet (failWith err) := by
  cases err with
  | none => exact quiet_pure ()
  | some err => exact quiet_throw err

lemma Quiet.bind {x : Cli α} {next : α → Cli β} (hx : Quiet x) (hnext : ∀ a, Quiet (next a)) :
    Quiet (x >>= next) := by
  intro log b log' h hlog
  obtain ⟨a, mid, ha, hb⟩ := bind_eq_ok_iff.mp h
  exact hnext a mid b log' hb (hx log a mid ha hlog)

lemma clean_snoc {step : Step} (hlog : ∀ step ∈ log, step.Clean) (h : step.Clean) :
    ∀ step' ∈ log ++ [step], step'.Clean := by
  simpa [or_imp, forall_and] using ⟨hlog, h⟩

lemma quiet_tell : Quiet (tell d c) := by
  intro log z log' h hlog
  obtain ⟨-, rfl⟩ := tell_eq_ok_iff.mp h
  exact clean_snoc hlog rfl

lemma quiet_ask {next : Response → Cli β} (hquiet : ∀ resp, Quiet (next resp))
    (hfailed : ∀ resp log b log', next resp log = .ok b log' → resp.failed = none) :
    Quiet (ask d c >>= next) := by
  intro log b log' h hlog
  obtain ⟨resp, mid, hask, hnext⟩ := bind_eq_ok_iff.mp h
  obtain ⟨-, rfl⟩ := ask_eq_ok_iff.mp hask
  refine hquiet resp _ b log' hnext (clean_snoc hlog ⟨resp, rfl, ?_⟩)
  exact hfailed resp _ b log' hnext

end Quiet

end Kne.CliModel
