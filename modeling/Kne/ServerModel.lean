import Kne.Runs
import Mathlib.Data.List.AList

/-!
The bridge server (`bridge/bridge.go`): the registry of demuxes, one for each interface name,
`getOrCreateDemux`, the end of a demux and `Server.Close`.

Whoever takes `s.mu` keeps it over its whole critical section, so the lock is part of the state:
`getOrCreateDemux` opens the socket and the link with the lock held, and in between everything
moves that does not need the lock. The read loop of a demux ends by a deferred function of
several statements, of which only the last one, the callback `onClose`, takes `s.mu`.

A demux is a number; every socket that was opened belongs to one demux. The context of a demux
is cancelled by its read loop, by `Close`, or through the server's context, at any moment.
-/

namespace Kne.ServerModel

open Kne.Runs

/-- `ctx.Err()` of a context that is done. -/
inductive CtxErr
  | canceled | deadlineExceeded
  deriving DecidableEq, Repr

/-- The first cancellation of a context counts. -/
def cancelCtx (ctx : Option CtxErr) (e : CtxErr) : Option CtxErr := ctx <|> some e

@[simp] lemma cancelCtx_ne_none (ctx : Option CtxErr) (e : CtxErr) : cancelCtx ctx e ≠ none := by
  cases ctx <;> simp [cancelCtx]

/-- The next statement of the read loop of a demux. In `closeLink l` the link has been read
under `linkMu` and `l` says whether there was one. -/
inductive Loop
  | reading
  | cancel
  | closeHandler
  | closeListeners
  | takeLink
  | closeLink (l : Bool)
  | onClose
  | done
  deriving DecidableEq, Repr

/-- The link opened for a demux. -/
inductive Link
  | none | opened | closed
  deriving DecidableEq, Repr

structure Demux where
  ifaceName : String := ""
  ctx : Option CtxErr := none
  handlerClosed : Bool := false
  loop : Loop := .reading
  link : Link := .none
  linkClosed : Bool := false
  /-- The goroutine that ranges over the events of the link runs. -/
  observing : Bool := false
  deriving DecidableEq, Repr

inductive GetError
  | shuttingDown (err : CtxErr)
  | openSocket (ifaceName : String) (err : String)
  deriving DecidableEq, Repr

def CtxErr.text : CtxErr → String
  | .canceled => "context canceled"
  | .deadlineExceeded => "context deadline exceeded"

def GetError.text : GetError → String
  | .shuttingDown err =>
    "rpc error: code = Unavailable desc = bridge server is shutting down: " ++ err.text
  | .openSocket ifaceName err =>
    "failed to open socket for interface " ++ ifaceName ++ ": " ++ err

/-- What a call of `getOrCreateDemux` has before it when it takes `s.mu`: the demuxes made so far
are those below `next`. -/
structure Held where
  next : ℕ
  ctx : ℕ → Option CtxErr

/-- What a call of `getOrCreateDemux` returned, and what it had before it. -/
structure Ret where
  held : Held
  result : Except GetError ℕ

/-- Who holds `s.mu`: nobody, or a call of `getOrCreateDemux` that is opening the socket of an
interface, opening the link of a new demux, or closing a link that came too late. -/
inductive Mu
  | free
  | opening (ifaceName : String) (held : Held)
  | linking (d : ℕ) (held : Held)
  | dropping (d : ℕ) (held : Held)

/-- Where the call of `Close` stands, with the demuxes it has still to close. -/
inductive Closer
  | idle
  | cancelled
  | closing (todo : List ℕ)
  | closeHandler (d : ℕ) (todo : List ℕ)
  | waiting (d : ℕ) (todo : List ℕ)
  | returned
  deriving DecidableEq, Repr

/-- The demuxes `Close` has not waited for. -/
def Closer.todo : Closer → List ℕ
  | .closing todo => todo
  | .closeHandler d todo | .waiting d todo => d :: todo
  | _ => []

structure St where
  ctx : Option CtxErr := none
  mu : Mu := .free
  demuxers : AList (fun _ : String => ℕ) := ∅
  next : ℕ := 0
  demux : ℕ → Demux := fun _ => {}
  closer : Closer := .idle
  rets : List Ret := []

inductive Act
  | getOrCreateDemux (ifaceName : String)
  | socketErr (err : String)
  | socketOk
  | linkErr
  | linkOk
  | linkDropped
  | ctxDone (e : CtxErr)
  | cancel (d : ℕ) (e : CtxErr)
  | watch (d : ℕ)
  | readError (d : ℕ)
  | loop (d : ℕ)
  | eventsEnd (d : ℕ)
  | closeCancel
  | closeSnapshot
  | closeDemux (d : ℕ)
  | closeHandler
  | waited
  | closeReturn
  deriving DecidableEq, Repr

def St.held (s : St) : Held := ⟨s.next, fun e => (s.demux e).ctx⟩

def setDemux (s : St) (d : ℕ) (m : Demux) : St := { s with demux := Function.update s.demux d m }

/-- `getOrCreateDemux` returns, and unlocks. -/
def ret (s : St) (held : Held) (result : Except GetError ℕ) : St :=
  { s with mu := .free, rets := s.rets ++ [⟨held, result⟩] }

/-- `getOrCreateDemux` up to the opening of the socket. -/
def getOrCreateDemux (s : St) (ifaceName : String) : St :=
  let held := s.held
  match s.ctx with
  | some err => ret s held (.error (.shuttingDown err))
  | none =>
    match s.demuxers.lookup ifaceName with
    | some d =>
      if (s.demux d).ctx = none then ret s held (.ok d)
      else { s with demuxers := s.demuxers.erase ifaceName, mu := .opening ifaceName held }
    | none => { s with mu := .opening ifaceName held }

/-- `newInterfaceDemux` and its registration. -/
def register (s : St) (ifaceName : String) (held : Held) : St :=
  { s with
    demuxers := s.demuxers.insert ifaceName s.next
    demux := Function.update s.demux s.next { ifaceName := ifaceName, ctx := s.ctx }
    next := s.next + 1
    mu := .linking s.next held }

/-- `attachLink`: a link that comes after `closeLink` is not kept. -/
def attachLink (s : St) (d : ℕ) (held : Held) : St :=
  let m := s.demux d
  if m.linkClosed then { setDemux s d { m with link := .opened } with mu := .dropping d held }
  else ret (setDemux s d { m with link := .opened, observing := true }) held (.ok d)

/-- The callback `onClose` of the demux `d`. -/
def onClose (s : St) (d : ℕ) : St :=
  let m := s.demux d
  { setDemux s d { m with loop := .done } with
    demuxers :=
      if s.demuxers.lookup m.ifaceName = some d then s.demuxers.erase m.ifaceName
      else s.demuxers }

/-- The next statement of the deferred function, but for the callback. -/
def loopStep (m : Demux) : Option Demux :=
  match m.loop with
  | .cancel => some { m with loop := .closeHandler, ctx := cancelCtx m.ctx .canceled }
  | .closeHandler => some { m with loop := .closeListeners, handlerClosed := true }
  | .closeListeners => some { m with loop := .takeLink }
  | .takeLink => some { m with loop := .closeLink (m.link ≠ .none), linkClosed := true }
  | .closeLink l => some { m with loop := .onClose, link := if l then .closed else m.link }
  | _ => none

def step (s : St) (a : Act) : Option St :=
  match a with
  | .getOrCreateDemux ifaceName =>
    match s.mu with
    | .free => some (getOrCreateDemux s ifaceName)
    | _ => none
  | .socketErr err =>
    match s.mu with
    | .opening ifaceName held => some (ret s held (.error (.openSocket ifaceName err)))
    | _ => none
  | .socketOk =>
    match s.mu with
    | .opening ifaceName held => some (register s ifaceName held)
    | _ => none
  | .linkErr =>
    match s.mu with
    | .linking d held => some (ret s held (.ok d))
    | _ => none
  | .linkOk =>
    match s.mu with
    | .linking d held => some (attachLink s d held)
    | _ => none
  | .linkDropped =>
    match s.mu with
    | .dropping d held =>
      some (ret (setDemux s d { s.demux d with link := .closed }) held (.ok d))
    | _ => none
  | .ctxDone e => some { s with ctx := cancelCtx s.ctx e }
  | .cancel d e =>
    if d < s.next then some (setDemux s d { s.demux d with ctx := cancelCtx (s.demux d).ctx e })
    else none
  | .watch d =>
    if d < s.next ∧ (s.demux d).ctx ≠ none then
      some (setDemux s d { s.demux d with handlerClosed := true })
    else none
  | .readError d =>
    if d < s.next ∧ (s.demux d).loop = .reading then
      some (setDemux s d { s.demux d with loop := .cancel })
    else none
  | .loop d =>
    if d < s.next then
      match (s.demux d).loop, s.mu with
      | .onClose, .free => some (onClose s d)
      | _, _ => (loopStep (s.demux d)).map (setDemux s d)
    else none
  | .eventsEnd d =>
    if d < s.next ∧ (s.demux d).link = .closed then
      some (setDemux s d { s.demux d with observing := false })
    else none
  | .closeCancel =>
    match s.closer with
    | .idle => some { s with closer := .cancelled, ctx := cancelCtx s.ctx .canceled }
    | _ => none
  | .closeSnapshot =>
    match s.closer, s.mu with
    | .cancelled, .free =>
      some { s with closer := .closing (s.demuxers.entries.map Sigma.snd) }
    | _, _ => none
  | .closeDemux d =>
    match s.closer with
    | .closing todo =>
      if d ∈ todo then
        some { setDemux s d { s.demux d with ctx := cancelCtx (s.demux d).ctx .canceled } with
          closer := .closeHandler d (todo.erase d) }
      else none
    | _ => none
  | .closeHandler =>
    match s.closer with
    | .closeHandler d todo =>
      some { setDemux s d { s.demux d with handlerClosed := true } with closer := .waiting d todo }
    | _ => none
  | .waited =>
    match s.closer with
    | .waiting d todo =>
      if (s.demux d).loop = .done ∧ (s.demux d).observing = false then
        some { s with closer := .closing todo }
      else none
    | _ => none
  | .closeReturn =>
    match s.closer with
    | .closing [] => some { s with closer := .returned }
    | _ => none

/-! ### What a step can do -/

/-- What a demux can do by itself. -/
inductive Local (m : Demux) : Demux → Prop
  | cancel (e : CtxErr) : Local m { m with ctx := cancelCtx m.ctx e }
  | watch (h : m.ctx ≠ none) : Local m { m with handlerClosed := true }
  | readError (h : m.loop = .reading) : Local m { m with loop := .cancel }
  | loop (m' : Demux) (h : loopStep m = some m') : Local m m'
  | eventsEnd (h : m.link = .closed) : Local m { m with observing := false }

/-- The cases of a step, with what their guards say. -/
inductive Does (s : St) : Act → St → Prop
  | refused (ifaceName : String) (hmu : s.mu = .free) (err : CtxErr) (hctx : s.ctx = some err) :
      Does s (.getOrCreateDemux ifaceName)
        (ret s s.held (.error (.shuttingDown err)))
  | found (ifaceName : String) (hmu : s.mu = .free) (d : ℕ)
      (hd : s.demuxers.lookup ifaceName = some d) (hlive : (s.demux d).ctx = none) :
      Does s (.getOrCreateDemux ifaceName) (ret s s.held (.ok d))
  | evict (ifaceName : String) (hmu : s.mu = .free) (hctx : s.ctx = none) (d : ℕ)
      (hd : s.demuxers.lookup ifaceName = some d) (hdead : (s.demux d).ctx ≠ none) :
      Does s (.getOrCreateDemux ifaceName) { s with
        demuxers := s.demuxers.erase ifaceName
        mu := .opening ifaceName s.held }
  | missing (ifaceName : String) (hmu : s.mu = .free) (hctx : s.ctx = none)
      (hd : s.demuxers.lookup ifaceName = none) :
      Does s (.getOrCreateDemux ifaceName) { s with
        mu := .opening ifaceName s.held }
  | socketErr (err ifaceName : String) (held : Held)
      (hmu : s.mu = .opening ifaceName held) :
      Does s (.socketErr err) (ret s held (.error (.openSocket ifaceName err)))
  | socketOk (ifaceName : String) (held : Held)
      (hmu : s.mu = .opening ifaceName held) : Does s .socketOk (register s ifaceName held)
  | linkErr (d : ℕ) (held : Held) (hmu : s.mu = .linking d held) :
      Does s .linkErr (ret s held (.ok d))
  | linkLate (d : ℕ) (held : Held) (hmu : s.mu = .linking d held)
      (hl : (s.demux d).linkClosed = true) :
      Does s .linkOk { setDemux s d { s.demux d with link := .opened } with
        mu := .dropping d held }
  | linkOk (d : ℕ) (held : Held) (hmu : s.mu = .linking d held)
      (hl : (s.demux d).linkClosed = false) :
      Does s .linkOk
        (ret (setDemux s d { s.demux d with link := .opened, observing := true }) held (.ok d))
  | linkDropped (d : ℕ) (held : Held) (hmu : s.mu = .dropping d held) :
      Does s .linkDropped
        (ret (setDemux s d { s.demux d with link := .closed }) held (.ok d))
  | ctxDone (e : CtxErr) : Does s (.ctxDone e) { s with ctx := cancelCtx s.ctx e }
  | demux (a : Act) (d : ℕ) (hd : d < s.next) (m : Demux) (hm : Local (s.demux d) m) :
      Does s a (setDemux s d m)
  | onClose (d : ℕ) (hd : d < s.next) (hl : (s.demux d).loop = .onClose) (hmu : s.mu = .free) :
      Does s (.loop d) (onClose s d)
  | closeCancel (hc : s.closer = .idle) :
      Does s .closeCancel { s with closer := .cancelled, ctx := cancelCtx s.ctx .canceled }
  | closeSnapshot (hc : s.closer = .cancelled) (hmu : s.mu = .free) :
      Does s .closeSnapshot { s with closer := .closing (s.demuxers.entries.map Sigma.snd) }
  | closeDemux (d : ℕ) (todo : List ℕ) (hc : s.closer = .closing todo) (hd : d ∈ todo) :
      Does s (.closeDemux d)
        { setDemux s d { s.demux d with ctx := cancelCtx (s.demux d).ctx .canceled } with
          closer := .closeHandler d (todo.erase d) }
  | closeHandler (d : ℕ) (todo : List ℕ) (hc : s.closer = .closeHandler d todo) :
      Does s .closeHandler
        { setDemux s d { s.demux d with handlerClosed := true } with closer := .waiting d todo }
  | waited (d : ℕ) (todo : List ℕ) (hc : s.closer = .waiting d todo)
      (hd : (s.demux d).loop = .done) : Does s .waited { s with closer := .closing todo }
  | closeReturn (hc : s.closer = .closing []) : Does s .closeReturn { s with closer := .returned }

lemma getOrCreateDemux_does {s : St} (hmu : s.mu = .free) (ifaceName : String) :
    Does s (.getOrCreateDemux ifaceName) (getOrCreateDemux s ifaceName) := by
  rcases hctx : s.ctx with _ | err
  · rcases hd : s.demuxers.lookup ifaceName with _ | d
    · have h : getOrCreateDemux s ifaceName =
          { s with mu := .opening ifaceName s.held } := by
        simp [getOrCreateDemux, hctx, hd]
      rw [h]
      exact .missing ifaceName hmu hctx hd
    by_cases hlive : (s.demux d).ctx = none
    · have h : getOrCreateDemux s ifaceName = ret s s.held (.ok d) := by
        simp [getOrCreateDemux, hctx, hd, hlive]
      rw [h]
      exact .found ifaceName hmu d hd hlive
    · have h : getOrCreateDemux s ifaceName = { s with
          demuxers := s.demuxers.erase ifaceName
          mu := .opening ifaceName s.held } := by
        simp [getOrCreateDemux, hctx, hd, hlive]
      rw [h]
      exact .evict ifaceName hmu hctx d hd hlive
  · have h : getOrCreateDemux s ifaceName =
        ret s s.held (.error (.shuttingDown err)) := by
      simp [getOrCreateDemux, hctx]
    rw [h]
    exact .refused ifaceName hmu err hctx

lemma step_does {s t : St} {a : Act} (h : step s a = some t) : Does s a t := by
  cases a with
  | getOrCreateDemux ifaceName =>
    cases hmu : s.mu <;> simp only [step, hmu] at h <;> cases h
    exact getOrCreateDemux_does hmu ifaceName
  | socketErr err =>
    cases hmu : s.mu <;> simp only [step, hmu] at h <;> cases h
    exact .socketErr err _ _ hmu
  | socketOk =>
    cases hmu : s.mu <;> simp only [step, hmu] at h <;> cases h
    exact .socketOk _ _ hmu
  | linkErr =>
    cases hmu : s.mu <;> simp only [step, hmu] at h <;> cases h
    exact .linkErr _ _ hmu
  | linkOk =>
    cases hmu : s.mu <;> simp only [step, hmu] at h <;> cases h
    rename_i d held
    cases hl : (s.demux d).linkClosed with
    | true => simpa only [attachLink, hl, if_true] using Does.linkLate d held hmu hl
    | false => simpa [attachLink, hl] using Does.linkOk d held hmu hl
  | linkDropped =>
    cases hmu : s.mu <;> simp only [step, hmu] at h <;> cases h
    exact .linkDropped _ _ hmu
  | ctxDone e => cases h; exact .ctxDone e
  | cancel d e =>
    simp only [step] at h
    split_ifs at h with hd
    cases h
    exact .demux _ d hd _ (.cancel e)
  | watch d =>
    simp only [step] at h
    split_ifs at h with hd
    cases h
    exact .demux _ d hd.1 _ (.watch hd.2)
  | readError d =>
    simp only [step] at h
    split_ifs at h with hd
    cases h
    exact .demux _ d hd.1 _ (.readError hd.2)
  | loop d =>
    simp only [step] at h
    split_ifs at h with hd
    split at h
    · cases h
      exact .onClose d hd ‹_› ‹_›
    · obtain ⟨m, hm, rfl⟩ := Option.map_eq_some_iff.mp h
      exact .demux _ d hd m (.loop m hm)
  | eventsEnd d =>
    simp only [step] at h
    split_ifs at h with hd
    cases h
    exact .demux _ d hd.1 _ (.eventsEnd hd.2)
  | closeCancel =>
    cases hc : s.closer <;> simp only [step, hc] at h <;> cases h
    exact .closeCancel hc
  | closeSnapshot =>
    simp only [step] at h
    split at h <;> cases h
    exact .closeSnapshot ‹_› ‹_›
  | closeDemux d =>
    cases hc : s.closer <;> simp only [step, hc] at h <;> try cases h
    split_ifs at h with hd
    cases h
    exact .closeDemux d _ hc hd
  | closeHandler =>
    cases hc : s.closer <;> simp only [step, hc] at h <;> cases h
    exact .closeHandler _ _ hc
  | waited =>
    cases hc : s.closer <;> simp only [step, hc] at h <;> try cases h
    split_ifs at h with hd
    cases h
    exact .waited _ _ hc hd.1
  | closeReturn =>
    simp only [step] at h
    split at h <;> cases h
    exact .closeReturn ‹_›

end Kne.ServerModel
