import Kne.Runs

/-!
`Manager.Delete` and the goroutine it waits for, `waitNSDeleted` (`topo/topo.go`).

`Delete` starts the goroutine and only then asks for the deletion of the namespace; the goroutine
opens a watch of its own, and sends on the unbuffered channel `c` what became of it. The channel is
closed when `Delete` returns. The two run at their own pace, and so does the cluster: it removes the
namespace, and delivers the events of a watch that was opened.
-/

namespace Kne.NsModel

/-- The errors of `waitNSDeleted`. -/
inductive WaitErr
  | watch (err : String)
  | ended
  | closed
  deriving DecidableEq, Repr

def WaitErr.text : WaitErr → String
  | .watch err => err
  | .ended => "context canceled before namespace deleted"
  | .closed => "no more watch events"

/-- What `Delete` returns. -/
inductive Result
  | ok
  | missing
  | deleteFailed (err : String)
  | waitFailed (err : WaitErr)
  deriving DecidableEq, Repr

def Result.text (ns : String) : Result → Option String
  | .ok => none
  | .missing => some ("topology " ++ ns.quote ++ " does not exist in cluster")
  | .deleteFailed err => some ("failed to delete namespace " ++ ns.quote ++ ": " ++ err)
  | .waitFailed err =>
    some ("failed to wait for namespace " ++ ns.quote ++ " deletion: " ++ err.text)

inductive EventType
  | added | modified | deleted | bookmark | error
  deriving DecidableEq, Repr

/-- An event of the watch; the object is a namespace or something else. -/
structure Event where
  type : EventType
  namespaceName : Option String
  deriving DecidableEq, Repr

/-- The event `waitNSDeleted` waits for. -/
def Event.isDeletion (ns : String) (e : Event) : Bool :=
  e.namespaceName = some ns && e.type = .deleted

/-- Where `Delete` is: at the lookup of the namespace, at the deletion of the nodes and the meshnet
resources, at the start of the goroutine, at the request, at the receive, on its way out. -/
inductive Main
  | check | clean | spawn | request | receive
  | closing (r : Result)
  | returned (r : Result)
  deriving DecidableEq, Repr

/-- Where the goroutine is; at its send it has `nil` or an error. -/
inductive Waiter
  | idle | ready | watching
  | sending (v : Option WaitErr)
  | done
  deriving DecidableEq, Repr

/-- The field `existed` is not in the program: whether the namespace existed when `waitNSDeleted`
gave up because its context had ended. -/
structure St where
  skipDeleteWait : Bool
  present : Bool
  main : Main := .check
  waiter : Waiter := .idle
  /-- The channel `c` is closed. -/
  closed : Bool := false
  /-- The events of the watch that were not received yet. -/
  queue : List Event := []
  /-- The server has closed the watch. -/
  shut : Bool := false
  /-- The context of the goroutine has ended. -/
  ended : Bool := false
  /-- The goroutine has sent on the closed channel. -/
  crashed : Bool := false
  existed : Option Bool := none
  deriving DecidableEq, Repr

inductive Act
  /-- `Namespaces().Get`, which goes through or does not. -/
  | get (ok : Bool)
  | clean
  | spawn
  /-- `Namespaces().Delete`, and its error. -/
  | request (err : Option String)
  /-- `Namespaces().Watch`, and its error. -/
  | watch (err : Option String)
  /-- The cases of the `select`. -/
  | event
  | watchClosed
  | ctxDone
  /-- The send and the receive. -/
  | deliver
  /-- `Delete` closes the channel and returns. -/
  | close
  /-- The send on a closed channel. -/
  | crash
  /-- The cluster: another event, the removal of the namespace, the end of the watch. -/
  | emit (e : Event)
  | remove
  | shutWatch
  /-- The context is cancelled or times out. -/
  | expire
  deriving DecidableEq, Repr

def resultOf : Option WaitErr → Result
  | none => .ok
  | some err => .waitFailed err

/-- `Delete` returns: without the wait there is no channel to close. -/
def St.leave (s : St) (r : Result) : Main :=
  if s.skipDeleteWait then .returned r else .closing r

/-- Where `Delete` goes when its request was accepted. -/
def St.accepted (s : St) : Main := if s.skipDeleteWait then .returned .ok else .receive

/-- The events of the watch once the namespace is removed. -/
def St.removed (ns : String) (s : St) : List Event :=
  if s.waiter = .watching ∧ s.shut = false then s.queue ++ [⟨.deleted, some ns⟩] else s.queue

def act (ns : String) (s : St) : Act → Option St
  | .get ok =>
    match s.main with
    | .check =>
      if ok && s.present then some { s with main := .clean }
      else some { s with main := .returned .missing }
    | _ => none
  | .clean =>
    match s.main with
    | .clean => some { s with main := if s.skipDeleteWait then .request else .spawn }
    | _ => none
  | .spawn =>
    match s.main with
    | .spawn => some { s with main := .request, waiter := .ready }
    | _ => none
  | .request err =>
    match s.main, err with
    | .request, some err =>
      some { s with main := s.leave (.deleteFailed err) }
    | .request, none =>
      if s.present then some { s with main := s.accepted } else none
    | _, _ => none
  | .watch err =>
    match s.waiter, err with
    | .ready, some err => some { s with waiter := .sending (some (.watch err)) }
    | .ready, none => some { s with waiter := .watching }
    | _, _ => none
  | .event =>
    match s.waiter, s.queue with
    | .watching, e :: q =>
      some { s with queue := q, waiter := if e.isDeletion ns then .sending none else .watching }
    | _, _ => none
  | .watchClosed =>
    match s.waiter, s.queue, s.shut with
    | .watching, [], true => some { s with waiter := .sending (some .closed) }
    | _, _, _ => none
  | .ctxDone =>
    match s.waiter, s.ended with
    | .watching, true => some { s with waiter := .sending (some .ended), existed := some s.present }
    | _, _ => none
  | .deliver =>
    match s.main, s.waiter with
    | .receive, .sending v => some { s with main := .closing (resultOf v), waiter := .done }
    | _, _ => none
  | .close =>
    match s.main with
    | .closing r => some { s with closed := true, main := .returned r }
    | _ => none
  | .crash =>
    match s.closed, s.waiter with
    | true, .sending _ => some { s with crashed := true, waiter := .done }
    | _, _ => none
  | .emit e =>
    match s.waiter, s.shut with
    | .watching, false => some { s with queue := s.queue ++ [e] }
    | _, _ => none
  | .remove =>
    if s.present then some { s with present := false, queue := s.removed ns } else none
  | .shutWatch =>
    match s.waiter with
    | .watching => some { s with shut := true }
    | _ => none
  | .expire => some { s with ended := true }

/-- A send on a closed channel ends the program. -/
def step (ns : String) (s : St) (a : Act) : Option St := if s.crashed then none else act ns s a

/-- The start of `Delete`, whether or not the namespace exists. -/
def start (skipDeleteWait present : Bool) : St :=
  { skipDeleteWait := skipDeleteWait, present := present }

/-- What a step does. -/
inductive Does (ns : String) (s : St) : Act → St → Prop
  | missing (ok : Bool) (hm : s.main = .check) :
      Does ns s (.get ok) { s with main := .returned .missing }
  | get (hm : s.main = .check) (hp : s.present = true) :
      Does ns s (.get true) { s with main := .clean }
  | clean (hm : s.main = .clean) :
      Does ns s .clean { s with main := if s.skipDeleteWait then .request else .spawn }
  | spawn (hm : s.main = .spawn) : Does ns s .spawn { s with main := .request, waiter := .ready }
  | refused (err : String) (hm : s.main = .request) :
      Does ns s (.request (some err)) { s with main := s.leave (.deleteFailed err) }
  | request (hm : s.main = .request) (hp : s.present = true) :
      Does ns s (.request none) { s with main := s.accepted }
  | watchFails (err : String) (hw : s.waiter = .ready) :
      Does ns s (.watch (some err)) { s with waiter := .sending (some (.watch err)) }
  | watch (hw : s.waiter = .ready) : Does ns s (.watch none) { s with waiter := .watching }
  | event (e : Event) (q : List Event) (hw : s.waiter = .watching) (hq : s.queue = e :: q) :
      Does ns s .event { s with
        queue := q, waiter := if e.isDeletion ns then .sending none else .watching }
  | watchClosed (hw : s.waiter = .watching) (hs : s.shut = true) :
      Does ns s .watchClosed { s with waiter := .sending (some .closed) }
  | ctxDone (hw : s.waiter = .watching) (he : s.ended = true) :
      Does ns s .ctxDone { s with waiter := .sending (some .ended), existed := some s.present }
  | deliver (v : Option WaitErr) (hm : s.main = .receive) (hw : s.waiter = .sending v) :
      Does ns s .deliver { s with main := .closing (resultOf v), waiter := .done }
  | close (r : Result) (hm : s.main = .closing r) :
      Does ns s .close { s with closed := true, main := .returned r }
  | crash (v : Option WaitErr) (hc : s.closed = true) (hw : s.waiter = .sending v) :
      Does ns s .crash { s with crashed := true, waiter := .done }
  | emit (e : Event) (hw : s.waiter = .watching) (hs : s.shut = false) :
      Does ns s (.emit e) { s with queue := s.queue ++ [e] }
  | remove (hp : s.present = true) :
      Does ns s .remove { s with present := false, queue := s.removed ns }
  | shutWatch (hw : s.waiter = .watching) : Does ns s .shutWatch { s with shut := true }
  | expire : Does ns s .expire { s with ended := true }

lemma act_does {ns : String} {s t : St} {a : Act} (h : act ns s a = some t) : Does ns s a t := by
  cases a with
  | get ok =>
    simp only [act] at h
    split at h
    · next hm =>
      split_ifs at h with hok
      · cases h
        rw [Bool.and_eq_true] at hok
        rw [hok.1]
        exact .get hm hok.2
      · cases h
        exact .missing ok hm
    · cases h
  | clean =>
    simp only [act] at h
    split at h
    · next hm => cases h; exact .clean hm
    · cases h
  | spawn =>
    simp only [act] at h
    split at h
    · next hm => cases h; exact .spawn hm
    · cases h
  | request err =>
    simp only [act] at h
    split at h
    · next err' hm => cases h; exact .refused err' hm
    · next hm =>
      split_ifs at h with hp
      cases h
      exact .request hm hp
    · cases h
  | watch err =>
    simp only [act] at h
    split at h
    · next err' hw => cases h; exact .watchFails err' hw
    · next hw => cases h; exact .watch hw
    · cases h
  | event =>
    simp only [act] at h
    split at h
    · next e q hw hq => cases h; exact .event e q hw hq
    · cases h
  | watchClosed =>
    simp only [act] at h
    split at h
    · next hw hq hs => cases h; exact .watchClosed hw hs
    · cases h
  | ctxDone =>
    simp only [act] at h
    split at h
    · next hw he => cases h; exact .ctxDone hw he
    · cases h
  | deliver =>
    simp only [act] at h
    split at h
    · next v hm hw => cases h; exact .deliver v hm hw
    · cases h
  | close =>
    simp only [act] at h
    split at h
    · next r hm => cases h; exact .close r hm
    · cases h
  | crash =>
    simp only [act] at h
    split at h
    · next v hc hw => cases h; exact .crash v hc hw
    · cases h
  | emit e =>
    simp only [act] at h
    split at h
    · next hw hs => cases h; exact .emit e hw hs
    · cases h
  | remove =>
    simp only [act] at h
    split_ifs at h with hp
    · cases h; exact .remove hp
  | shutWatch =>
    simp only [act] at h
    split at h
    · next hw => cases h; exact .shutWatch hw
    · cases h
  | expire =>
    cases h
    exact .expire

lemma step_does {ns : String} {s t : St} {a : Act} (h : step ns s a = some t) :
    s.crashed = false ∧ Does ns s a t := by
  unfold step at h
  split_ifs at h with hc
  exact ⟨by simpa using hc, act_does h⟩

end Kne.NsModel
