import Kne.CliModel
import Kne.Texts

/-!
`ConfigPush` of Arista, Cisco, Juniper and Nokia: the configuration is read, a connection to the
device is opened, and the configuration is sent in one or several calls. The error of closing the
connection is dropped by all four and is not part of the push.

Two of the four can report success after a failure. Juniper takes what it has read for an empty
configuration before it looks at the error of reading it. Nokia returns the failure of its first
response where it found that of its second.
-/

namespace Kne.ConfigPush

open Kne.Objects Kne.CliModel Kne.Texts

/-- A reader of a configuration: what `io.ReadAll` gets out of it. -/
structure Reader where
  text : String
  err : Option String := none
  deriving DecidableEq, Repr

/-- `io.ReadAll`, where its error is returned at once. -/
def readAll (r : Reader) : Cli String := failWith r.err >>= fun _ => pure r.text

/-! ### The texts that are sent -/

/-- `processConfig` of Cisco: the lines but those that say `end`, and a last line that commits. -/
def processConfig (cfg : String) : String :=
  let lines := (lines cfg).filter fun line => toLower (trimBlanks line) ≠ "end"
  let processedCfg := lines.foldl (fun cfg line => cfg ++ line ++ "\n") ""
  if toLower (trimBlanks (lines.getLastD "")) ≠ "commit" then processedCfg ++ "commit\n"
  else processedCfg

/-- `escapeConfig` of Nokia. -/
def escapeConfig (cfg : String) : String :=
  String.ofList (cfg.toList.flatMap fun c => if c ∈ "\\\"`$".toList then ['\\', c] else [c])

def pushCfgFile : String := "/home/admin/kne-push-config"

/-! ### The four pushes -/

/-- The vendors, with whether the model of a Cisco node is XRd. -/
inductive Pusher
  | arista | cisco (xrd : Bool) | juniper | nokia
  deriving DecidableEq, Repr

variable (d : Device) (r : Reader)

def aristaConfigPush : Cli Unit := do
  let cfgs ← readAll r
  tell d .spawn
  let resp ← ask d (.sendConfig cfgs)
  failWith resp.failed

def ciscoConfigPush (xrd : Bool) : Cli Unit := do
  let cfg ← readAll r
  tell d (if xrd then .spawnConf else .spawn)
  let resp ← ask d (.sendConfig (processConfig cfg))
  failWith resp.failed
  if contains resp.result "% " || contains resp.result "error:" then
    throw ("config push failed: " ++ resp.result)

def juniperConfigPush : Cli Unit :=
  -- the text is looked at before the error
  if r.text = "" then pure ()
  else do
    let cfgs ← readAll r
    tell d .spawn
    tell d (.newCfg "juniper_junos")
    tell d .prepare
    let resp ← ask d (.loadConfig cfgs false)
    failWith resp.failed
    let resp ← ask d .commitConfig
    failWith resp.failed

/-- Save the configuration to a file on the device. -/
def echoCmd (cfg : String) : Call :=
  .sendConfig ("echo \"" ++ escapeConfig cfg ++ "\" > " ++ pushCfgFile)

/-- Load the configuration from the file. -/
def sourceCmds : Call :=
  .sendConfigs ["baseline update", "discard /", "source /home/admin/kne-push-config", "commit save"]

def nokiaConfigPush : Cli Unit := do
  let cfg ← readAll r
  tell d .spawn
  let resp ← ask d (echoCmd cfg)
  failWith resp.failed
  let mresp ← askAll d sourceCmds
  -- the failure returned is that of the first response
  if mresp.failed.isSome then failWith resp.failed else pure ()

/-- `ConfigPush`. -/
def configPush : Pusher → Cli Unit
  | .arista => aristaConfigPush d r
  | .cisco xrd => ciscoConfigPush d r xrd
  | .juniper => juniperConfigPush d r
  | .nokia => nokiaConfigPush d r

/-! ### What is behind a success -/

/-- Success is reported only if the configuration was read completely and every call was clean. -/
def Honest (v : Pusher) : Prop :=
  ∀ log, configPush d r v [] = .ok () log → r.err = none ∧ ∀ step ∈ log, step.Clean

/-- What the push of a vendor does not notice: that reading failed before the first character, and
that the second response failed after all went well before. -/
def Hides : Pusher → Prop
  | .juniper => r.text = "" ∧ r.err.isSome
  | .nokia => r.err = none ∧ d.err 0 = none ∧
      (∃ resp, d.reply 1 = .ok resp ∧ resp.failed = none) ∧
      ∃ mresp, d.multi 2 = .ok mresp ∧ mresp.failed.isSome
  | _ => False

variable {d r} {log log' : List Step}

lemma readAll_eq_ok_iff {cfg : String} :
    readAll r log = .ok cfg log' ↔ r.err = none ∧ r.text = cfg ∧ log = log' := by
  rw [readAll, bind_eq_ok_iff]
  simp only [failWith_eq_ok_iff, pure_eq_ok_iff]
  grind

lemma quiet_readAll : Quiet (readAll r) :=
  (quiet_failWith _).bind fun _ => quiet_pure _

lemma quiet_confirmed {β : Type} {c : Call} {next : Response → Cli β}
    (hnext : ∀ resp, Quiet (next resp)) :
    Quiet (ask d c >>= fun resp => failWith resp.failed >>= fun _ => next resp) := by
  refine quiet_ask (fun resp => (quiet_failWith _).bind fun _ => hnext resp) ?_
  intro resp log b log' h
  obtain ⟨_, mid, hfailed, -⟩ := bind_eq_ok_iff.mp h
  exact (failWith_eq_ok_iff.mp hfailed).1

lemma quiet_returned {c : Call} : Quiet (ask d c >>= fun resp => failWith resp.failed) :=
  quiet_ask (fun _ => quiet_failWith _) fun _ _ _ _ h => (failWith_eq_ok_iff.mp h).1

lemma quiet_arista : Quiet (aristaConfigPush d r) :=
  quiet_readAll.bind fun _ => quiet_tell.bind fun _ => quiet_returned

lemma quiet_cisco (xrd : Bool) : Quiet (ciscoConfigPush d r xrd) := by
  refine quiet_readAll.bind fun _ => quiet_tell.bind fun _ => quiet_confirmed fun resp => ?_
  split_ifs
  · exact quiet_throw _
  · exact quiet_pure _

lemma quiet_juniper : Quiet (juniperConfigPush d r) := by
  unfold juniperConfigPush
  split_ifs
  · exact quiet_pure ()
  · exact quiet_readAll.bind fun _ => quiet_tell.bind fun _ => quiet_tell.bind fun _ =>
      quiet_tell.bind fun _ => quiet_confirmed fun _ => quiet_returned

lemma honest_of_quiet {v : Pusher} (hq : Quiet (configPush d r v))
    (hread : ∀ log, configPush d r v [] = .ok () log → r.err = none) : Honest d r v :=
  fun log h => ⟨hread log h, hq [] () log h (by simp)⟩

lemma err_eq_none_of_read {β : Type} {next : String → Cli β} {b : β}
    (h : (readAll r >>= next) log = .ok b log') : r.err = none := by
  obtain ⟨_, mid, hread, -⟩ := bind_eq_ok_iff.mp h
  exact (readAll_eq_ok_iff.mp hread).1

lemma honest_juniper_iff : Honest d r .juniper ↔ ¬ Hides d r .juniper := by
  constructor
  · rintro hhonest ⟨htext, herr⟩
    have hok : configPush d r .juniper [] = .ok () [] := by
      simp only [configPush, juniperConfigPush, htext, if_true]
      rfl
    rw [(hhonest [] hok).1] at herr
    exact absurd herr (by simp)
  · intro hnot
    refine honest_of_quiet quiet_juniper fun log h => ?_
    simp only [configPush, juniperConfigPush] at h
    by_cases htext : r.text = ""
    · simpa [Hides, htext] using hnot
    · rw [if_neg htext] at h
      exact err_eq_none_of_read h

lemma nokia_eq_ok_iff : nokiaConfigPush d r [] = .ok () log ↔
    r.err = none ∧ d.err 0 = none ∧ ∃ resp mresp, d.reply 1 = .ok resp ∧ resp.failed = none ∧
      d.multi 2 = .ok mresp ∧
      log = [.told .spawn none, .asked (echoCmd r.text) (.ok resp),
        .askedAll sourceCmds (.ok mresp)] := by
  have hlast : ∀ {resp : Response} {mresp : MultiResponse} {log log' : List Step},
      resp.failed = none →
      ((if mresp.failed.isSome then failWith resp.failed else pure ()) log = .ok () log' ↔
        log = log') := by
    intro resp mresp log log' hfailed
    rw [hfailed]
    split_ifs
    · simp [failWith_eq_ok_iff]
    · simp [pure_eq_ok_iff]
  unfold nokiaConfigPush
  constructor
  · intro h
    obtain ⟨cfg, _, hread, h⟩ := bind_eq_ok_iff.mp h
    obtain ⟨hr, rfl, rfl⟩ := readAll_eq_ok_iff.mp hread
    obtain ⟨_, htell, h⟩ := seq_eq_ok_iff.mp h
    obtain ⟨hspawn, rfl⟩ := tell_eq_ok_iff.mp htell
    obtain ⟨resp, _, hask, h⟩ := bind_eq_ok_iff.mp h
    obtain ⟨hresp, rfl⟩ := ask_eq_ok_iff.mp hask
    obtain ⟨_, hfail, h⟩ := seq_eq_ok_iff.mp h
    obtain ⟨hfailed, rfl⟩ := failWith_eq_ok_iff.mp hfail
    obtain ⟨mresp, _, hall, h⟩ := bind_eq_ok_iff.mp h
    obtain ⟨hmresp, rfl⟩ := askAll_eq_ok_iff.mp hall
    exact ⟨hr, hspawn, resp, mresp, hresp, hfailed, hmresp, ((hlast hfailed).mp h).symm⟩
  · rintro ⟨hr, hspawn, resp, mresp, hresp, hfailed, hmresp, rfl⟩
    refine bind_eq_ok_iff.mpr ⟨_, _, readAll_eq_ok_iff.mpr ⟨hr, rfl, rfl⟩, ?_⟩
    refine seq_eq_ok_iff.mpr ⟨_, tell_eq_ok_iff.mpr ⟨hspawn, rfl⟩, ?_⟩
    refine bind_eq_ok_iff.mpr ⟨_, _, ask_eq_ok_iff.mpr ⟨hresp, rfl⟩, ?_⟩
    refine seq_eq_ok_iff.mpr ⟨_, failWith_eq_ok_iff.mpr ⟨hfailed, rfl⟩, ?_⟩
    refine bind_eq_ok_iff.mpr ⟨_, _, askAll_eq_ok_iff.mpr ⟨hmresp, rfl⟩, ?_⟩
    exact (hlast hfailed).mpr rfl

lemma honest_nokia_iff : Honest d r .nokia ↔ ¬ Hides d r .nokia := by
  constructor
  · rintro hhonest ⟨hr, hspawn, ⟨resp, hresp, hfailed⟩, mresp, hmresp, hmfailed⟩
    have hok := nokia_eq_ok_iff.mpr ⟨hr, hspawn, resp, mresp, hresp, hfailed, hmresp, rfl⟩
    obtain ⟨mresp', heq, hclean⟩ := (hhonest _ hok).2 (.askedAll sourceCmds (.ok mresp)) (by simp)
    obtain rfl : mresp = mresp' := by simpa using heq
    rw [hclean] at hmfailed
    exact absurd hmfailed (by simp)
  · intro hnot log h
    obtain ⟨hr, hspawn, resp, mresp, hresp, hfailed, hmresp, rfl⟩ := nokia_eq_ok_iff.mp h
    have hclean : mresp.failed = none := by
      by_contra hne
      exact hnot ⟨hr, hspawn, ⟨resp, hresp, hfailed⟩, mresp, hmresp,
        Option.isSome_iff_ne_none.mpr hne⟩
    refine ⟨hr, ?_⟩
    simp [Step.Clean, hfailed, hclean]

/-- **When a push that failed is not reported as a success.** Always, but for two cases: a reader
that fails before the first character, with Juniper, and a second response that is marked as failed,
with Nokia. -/
theorem configPush_honest_iff (v : Pusher) (d : Device) (r : Reader) :
    Honest d r v ↔ ¬ Hides d r v := by
  cases v with
  | arista =>
    exact iff_of_true (honest_of_quiet quiet_arista fun _ => err_eq_none_of_read) id
  | cisco xrd =>
    exact iff_of_true (honest_of_quiet (quiet_cisco xrd) fun _ => err_eq_none_of_read) id
  | juniper => exact honest_juniper_iff
  | nokia => exact honest_nokia_iff

/-- A device that accepts all but the lines that load the configuration. -/
def rejecting : Device where
  err _ := none
  reply _ := .ok {}
  multi _ := .ok ⟨[], some "operation error from input 'commit save'"⟩

theorem failures_reported_as_success :
    configPush rejecting ⟨"", some "read: connection reset"⟩ .juniper [] = .ok () [] ∧
    ¬ Honest rejecting ⟨"", some "read: connection reset"⟩ .juniper ∧
    succeeds (configPush rejecting ⟨"set / system", none⟩ .nokia) [] = true ∧
    ¬ Honest rejecting ⟨"set / system", none⟩ .nokia := by
  refine ⟨rfl, ?_, rfl, ?_⟩
  · rw [honest_juniper_iff, not_not]
    exact ⟨rfl, rfl⟩
  · rw [honest_nokia_iff, not_not]
    exact ⟨rfl, rfl, ⟨_, rfl, rfl⟩, _, rfl, rfl⟩

end Kne.ConfigPush
