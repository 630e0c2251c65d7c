import Kne.CliModel
import Kne.Patterns
import Kne.Texts

/-!
The two loops of Juniper that send lines to the device until it takes them, for the configuration of
gRPC and for a certificate. An attempt is what one call brings, an error or the responses to the
lines; the attempts of a run are those for which there is time.

The first loop looks at the responses one by one and leaves at the first that was marked as failed
or says that the commit is complete. An error of Junos in the text of a response is only logged: it
neither ends the attempt nor is it remembered. The second loop remembers it.
-/

namespace Kne.JunosRetry

open Kne.CliModel Kne.Patterns Kne.Patterns.Regex Kne.Texts

/-- `junosErrorRegex`. -/
def junosErrorRegex : Regex :=
  alt (seq wordBoundary (litFold "error:")) <|
  alt (seq wordBoundary (seq (litFold "commit error") wordBoundary))
    (seq wordBoundary (seq (litFold "syntax error") wordBoundary))

def isJunosError (result : String) : Bool := junosErrorRegex.matchString result

/-- What a call that sends several lines brings. -/
abbrev Attempt := Except String MultiResponse

/-! ### The loop for configurations -/

/-- The error with which the device says that it is not ready. -/
def notReady (err : String) : Bool :=
  contains err "errPrivilegeError" || contains err "errTimeoutError"

def commitComplete (resp : Response) : Bool := contains resp.result "commit complete"

/-- The loop over the responses of an attempt: what the function returns, if it does. -/
def scan : List Response → Option (Option String)
  | [] => none
  | resp :: rest =>
    if resp.failed.isSome then some resp.failed
    else if commitComplete resp then some none
    -- whether the text is an error of Junos makes no difference here
    else scan rest

/-- `waitConfigInfraReadyAndPushConfigs`: the error it returns. -/
def waitConfigInfraReadyAndPushConfigs : List Attempt → Option String
  | [] => some "failed sending configs"
  | .error err :: attempts =>
    if notReady err then waitConfigInfraReadyAndPushConfigs attempts
    else some ("failed pushing configs: " ++ err)
  | .ok multiresp :: attempts =>
    match scan multiresp.responses with
    | some err => err
    | none => waitConfigInfraReadyAndPushConfigs attempts

/-! ### The loop for certificates -/

/-- `validCertNameRegexp`. -/
def validCertNameRegexp : Regex :=
  seq textStart
    (seq (plus (char fun c => c.isAlphanum || c == '.' || c == '_' || c == '-')) textEnd)

/-- The check of the name of a certificate. -/
def certNameErr (certName : String) : Option String :=
  if validCertNameRegexp.matchString certName then none
  else some ("invalid cert name " ++ certName.quote ++ ": must match ^[A-Za-z0-9._-]+$")

/-- The loop over the responses of an attempt: what the function returns, or else `hasError`. -/
def scanCert : List Response → Option String ⊕ Bool
  | [] => .inr false
  | resp :: rest =>
    if resp.failed.isSome then .inl resp.failed
    else if isJunosError resp.result && !contains (toLower resp.result) "already exists" then
      .inr true
    else scanCert rest

/-- The two lines that make a certificate. -/
def certCommands (certName : String) : List String :=
  ["request security pki generate-key-pair certificate-id " ++ certName,
    "request security pki local-certificate generate-self-signed certificate-id " ++ certName ++
      " subject CN=abc domain-name google.com ip-address 1.2.3.4 email example@google.com"]

/-- The response to the first line that mentions the certificate. -/
def certGenResult (commands : List String) (responses : List Response) : String :=
  (((commands.zip responses).find? fun cr => contains cr.1 "generate-self-signed").map
    (·.2.result)).getD ""

def certGenSuccess (commands : List String) (responses : List Response) : Bool :=
  let result := toLower (certGenResult commands responses)
  contains result "successfully" || contains result "already exists"

/-- The loop of `waitCertInfraReadyAndPushCert`: the error it returns. -/
def pushCert (commands : List String) : List Attempt → Option String
  | [] => some "failed sending generate-self-signed commands"
  | .error err :: _ => some ("failed sending generate-self-signed commands: " ++ err)
  | .ok multiresp :: attempts =>
    if multiresp.responses.length < commands.length then pushCert commands attempts
    else
      match scanCert multiresp.responses with
      | .inl err => err
      | .inr hasError =>
        if !hasError && certGenSuccess commands multiresp.responses then none
        else pushCert commands attempts

/-- `waitCertInfraReadyAndPushCert`. -/
def waitCertInfraReadyAndPushCert (certName : String) (attempts : List Attempt) : Option String :=
  (certNameErr certName).or (pushCert (certCommands certName) attempts)

/-! ### What an accepted attempt is -/

/-- The line was rejected by the device. -/
def Rejected (resp : Response) : Prop := resp.failed.isSome ∨ isJunosError resp.result = true

/-- The response neither ends the loop with an error nor with success. -/
def Undecided (resp : Response) : Prop := resp.failed = none ∧ ¬ commitComplete resp

instance (resp : Response) : Decidable (Undecided resp) :=
  inferInstanceAs (Decidable (resp.failed = none ∧ ¬ commitComplete resp))

/-- An attempt of a device that is not ready, or in which no line failed and nothing was
committed. -/
def Waits : Attempt → Prop
  | .error err => notReady err = true
  | .ok multiresp => ∀ resp ∈ multiresp.responses, Undecided resp

instance : DecidablePred Waits
  | .error err => inferInstanceAs (Decidable (notReady err = true))
  | .ok multiresp => inferInstanceAs (Decidable (∀ resp ∈ multiresp.responses, Undecided resp))

/-- The last attempt that is made, the first that is not waited out. -/
def lastAttempt (attempts : List Attempt) : Option Attempt := attempts.find? fun a => ¬ Waits a

/-- Success is returned only for an attempt with a complete commit and no line rejected. -/
def Clean (attempts : List Attempt) : Prop :=
  waitConfigInfraReadyAndPushConfigs attempts = none →
    ∃ multiresp, lastAttempt attempts = some (.ok multiresp) ∧
      (∃ resp ∈ multiresp.responses, commitComplete resp) ∧
      ∀ resp ∈ multiresp.responses, ¬ Rejected resp

/-- A commit is complete although the text of a response up to then, not marked as failed, is an
error of Junos, or a later line was rejected. -/
def Overlooked (responses : List Response) : Prop :=
  ∃ before resp after, responses = before ++ resp :: after ∧
    (∀ r ∈ before, Undecided r) ∧ (resp.failed = none ∧ commitComplete resp) ∧
    ((∃ r ∈ before, isJunosError r.result) ∨ isJunosError resp.result ∨ ∃ r ∈ after, Rejected r)

variable {responses : List Response} {attempts : List Attempt} {multiresp : MultiResponse}

lemma scan_eq_none_iff : scan responses = none ↔ ∀ resp ∈ responses, Undecided resp := by
  induction responses with
  | nil => simp [scan]
  | cons resp rest ih =>
    rw [List.forall_mem_cons, ← ih]
    cases hfailed : resp.failed <;> cases hdone : commitComplete resp <;>
      simp [scan, Undecided, hfailed, hdone]

lemma scan_eq_nil_iff : scan responses = some none ↔
    ∃ before resp after, responses = before ++ resp :: after ∧
      (∀ r ∈ before, Undecided r) ∧ (resp.failed = none ∧ commitComplete resp) := by
  induction responses with
  | nil => simp [scan]
  | cons resp rest ih =>
    by_cases hund : Undecided resp
    · have hscan : scan (resp :: rest) = scan rest := by
        simp [scan, hund.1, hund.2]
      rw [hscan, ih]
      constructor
      · rintro ⟨before, resp', after, rfl, hbefore, hresp'⟩
        exact ⟨resp :: before, resp', after, rfl, List.forall_mem_cons.mpr ⟨hund, hbefore⟩, hresp'⟩
      · rintro ⟨before, resp', after, heq, hbefore, hresp'⟩
        rcases before with _ | ⟨r, before⟩
        · obtain ⟨rfl, -⟩ := List.cons.inj heq
          exact absurd hresp'.2 hund.2
        · obtain ⟨rfl, rfl⟩ := List.cons.inj heq
          exact ⟨before, resp', after, rfl, (List.forall_mem_cons.mp hbefore).2, hresp'⟩
    · -- a response that decides can only be the one that ends the scan
      have hscan : scan (resp :: rest) = some none ↔ resp.failed = none ∧ commitComplete resp := by
        unfold Undecided at hund
        cases hfailed : resp.failed <;> simp_all [scan]
      rw [hscan]
      constructor
      · exact fun h => ⟨[], resp, rest, rfl, by simp, h⟩
      · rintro ⟨before, resp', after, heq, hbefore, hresp'⟩
        rcases before with _ | ⟨r, before⟩
        · obtain ⟨rfl, -⟩ := List.cons.inj heq
          exact hresp'
        · obtain ⟨rfl, -⟩ := List.cons.inj heq
          exact absurd (hbefore _ List.mem_cons_self) hund

lemma wait_of_waits {a : Attempt} (h : Waits a) (attempts : List Attempt) :
    waitConfigInfraReadyAndPushConfigs (a :: attempts) =
      waitConfigInfraReadyAndPushConfigs attempts := by
  cases a with
  | error err => simp only [waitConfigInfraReadyAndPushConfigs, if_pos (show notReady err from h)]
  | ok multiresp => simp only [waitConfigInfraReadyAndPushConfigs, scan_eq_none_iff.mpr h]

lemma wait_eq_none_iff : waitConfigInfraReadyAndPushConfigs attempts = none ↔
    ∃ multiresp, lastAttempt attempts = some (.ok multiresp) ∧
      scan multiresp.responses = some none := by
  induction attempts with
  | nil => simp [waitConfigInfraReadyAndPushConfigs, lastAttempt]
  | cons a attempts ih =>
    by_cases hw : Waits a
    · have hlast : lastAttempt (a :: attempts) = lastAttempt attempts := by
        simp [lastAttempt, hw]
      rw [wait_of_waits hw, hlast, ih]
    · have hlast : lastAttempt (a :: attempts) = some a := by
        simp [lastAttempt, hw]
      rw [hlast]
      cases a with
      | error err =>
        have hready : notReady err = false := by simpa [Waits] using hw
        simp [waitConfigInfraReadyAndPushConfigs, hready]
      | ok multiresp =>
        obtain ⟨err, hscan⟩ := Option.ne_none_iff_exists'.mp (mt scan_eq_none_iff.mp hw)
        simp [waitConfigInfraReadyAndPushConfigs, hscan]

lemma lastAttempt_eq_ok_iff : lastAttempt attempts = some (.ok multiresp) ↔
    ¬ Waits (.ok multiresp) ∧ ∃ waited later, attempts = waited ++ .ok multiresp :: later ∧
      ∀ a ∈ waited, Waits a := by
  simp [lastAttempt, List.find?_eq_some_iff_append]

lemma not_waits_of_scan (h : scan multiresp.responses = some none) : ¬ Waits (.ok multiresp) := by
  intro hw
  rw [scan_eq_none_iff.mpr hw] at h
  cases h

lemma overlooked_iff (h : scan responses = some none) :
    Overlooked responses ↔ ∃ resp ∈ responses, Rejected resp := by
  constructor
  · rintro ⟨before, resp, after, rfl, -, -, hbad⟩
    rcases hbad with ⟨r, hr, herr⟩ | herr | ⟨r, hr, hrej⟩
    · exact ⟨r, by simp [hr], .inr herr⟩
    · exact ⟨resp, by simp, .inr herr⟩
    · exact ⟨r, by simp [hr], hrej⟩
  · rintro ⟨r, hr, hrej⟩
    obtain ⟨before, resp, after, rfl, hbefore, hresp⟩ := scan_eq_nil_iff.mp h
    refine ⟨before, resp, after, rfl, hbefore, hresp, ?_⟩
    rcases List.mem_append.mp hr with hr | hr
    · exact .inl ⟨r, hr, hrej.resolve_left (by simp [(hbefore r hr).1])⟩
    · rcases List.mem_cons.mp hr with rfl | hr
      · exact .inr (.inl (hrej.resolve_left (by simp [hresp.1])))
      · exact .inr (.inr ⟨r, hr, hrej⟩)

/-- **When only clean attempts are accepted.** Just if no attempt that comes after nothing but
waiting completes its commit beside a line that was rejected: one that shows an error of Junos up to
the complete commit without being marked as failed, or any that comes after it. -/
theorem accepted_clean_iff (attempts : List Attempt) : Clean attempts ↔
    ∀ waited multiresp later, attempts = waited ++ .ok multiresp :: later →
      (∀ a ∈ waited, Waits a) → ¬ Overlooked multiresp.responses := by
  constructor
  · intro hclean waited multiresp later heq hwaited hover
    have hscan : scan multiresp.responses = some none := by
      obtain ⟨before, resp, after, heq, hbefore, hresp, -⟩ := hover
      exact scan_eq_nil_iff.mpr ⟨before, resp, after, heq, hbefore, hresp⟩
    have hlast : lastAttempt attempts = some (.ok multiresp) :=
      lastAttempt_eq_ok_iff.mpr ⟨not_waits_of_scan hscan, waited, later, heq, hwaited⟩
    obtain ⟨multiresp', hlast', -, hnone⟩ := hclean (wait_eq_none_iff.mpr ⟨multiresp, hlast, hscan⟩)
    obtain rfl : multiresp = multiresp' := by simpa [hlast] using hlast'
    obtain ⟨resp, hmem, hrej⟩ := (overlooked_iff hscan).mp hover
    exact hnone resp hmem hrej
  · intro hnot hnil
    obtain ⟨multiresp, hlast, hscan⟩ := wait_eq_none_iff.mp hnil
    obtain ⟨-, waited, later, heq, hwaited⟩ := lastAttempt_eq_ok_iff.mp hlast
    obtain ⟨before, resp, after, hsplit, -, hresp⟩ := scan_eq_nil_iff.mp hscan
    refine ⟨multiresp, hlast, ⟨resp, by simp [hsplit], hresp.2⟩, fun r hr hrej => ?_⟩
    exact hnot waited multiresp later heq hwaited ((overlooked_iff hscan).mpr ⟨r, hr, hrej⟩)

/-- The responses when a line deletes what is not there and the commit of the others goes
through. -/
def halfTaken : MultiResponse :=
  ⟨[⟨"error: statement not found: bar", none⟩, ⟨"commit complete", none⟩], none⟩

theorem rejected_line_accepted :
    waitConfigInfraReadyAndPushConfigs [.ok halfTaken] = none ∧
    isJunosError "error: statement not found: bar" = true ∧ ¬ Clean [.ok halfTaken] := by
  have hnil : waitConfigInfraReadyAndPushConfigs [.ok halfTaken] = none := by decide +kernel
  have herr : isJunosError "error: statement not found: bar" = true := by decide +kernel
  have hlast : lastAttempt [.ok halfTaken] = some (.ok halfTaken) := by decide +kernel
  refine ⟨hnil, herr, fun hclean => ?_⟩
  obtain ⟨multiresp, hlast', -, hnone⟩ := hclean hnil
  obtain rfl : halfTaken = multiresp := by simpa [hlast] using hlast'
  exact hnone _ List.mem_cons_self (.inr herr)

end Kne.JunosRetry
