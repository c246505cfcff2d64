import Mathlib.Data.Multiset.AddSub
import WaxxyLive.Registration
import WaxxyLive.Streaming
import WaxxyLive.Login

/-!
# The clients and the two remote stores

Any number of clients send calls to Auth and Firestore; a call stays
outstanding until the server answers it, in any order, and a failed call
changes nothing (every completion only prints the error). A session is the
`host` of a streaming screen: without a username, or as the login query filled
it from the document it found.
-/

namespace WaxxyLive.Clients

open Firestore CoreData Registration Streaming Login

/-- A call that has been sent and not been answered. -/
inductive Call where
  | createUser (role : Role) (email password : String)
  | setData (profile : Profile) (ref : DocumentReference)
  | merge (ref : DocumentReference) (playback : PlaybackData)
  | update (ref : DocumentReference)
  deriving DecidableEq

structure World where
  accounts : Accounts := ∅
  db : Database := ∅
  calls : Multiset Call := 0
  sessions : List (Option Host) := []

namespace World

def issue (w : World) (call : Call) : World := { w with calls := call ::ₘ w.calls }

/-- Take the answered call off the outstanding ones. -/
def answered (w : World) (call : Call) : Option World :=
  if call ∈ w.calls then some { w with calls := w.calls.erase call } else none

/-- The success branch of `createUser`'s completion, with the texts then on the screen. -/
def createUserCompletion (w : World) (p : Profile) : World :=
  match p.reference with
  | some ref => w.issue (.setData p ref)
  | none => w

/-- `createStream` after its reply: publish under the session's username, if it has one. A username
that is no document path traps, and nothing is sent. -/
def createStream (w : World) (host : Option Host) (playback : PlaybackData) : World :=
  match (createStreamTarget host).bind hostDocument with
  | some ref => w.issue (.merge ref playback)
  | none => w

/-- `handleStopButton`: retract under the session's username, if it has one. -/
def handleStopButton (w : World) (host : Option Host) : World :=
  match ((stopTarget host).bind id).bind hostDocument with
  | some ref => w.issue (.update ref)
  | none => w

end World

inductive Action where
  | finishTapped (role : Role) (email password : String)
  | createUserCompleted (password : String) (profile : Profile)
  | setDataCompleted (profile : Profile) (ref : DocumentReference)
  | mergeCompleted (ref : DocumentReference) (playback : PlaybackData)
  | updateCompleted (ref : DocumentReference)
  | failed (call : Call)
  | opened (host : Option Host)
  | loggedIn (p : Press)
  | streamCreated (session : Nat) (playback : PlaybackData)
  | stopPressed (session : Nat)

/-- One action; `none` where it cannot happen. -/
def step (w : World) : Action → Option World
  | .finishTapped role email password => some (w.issue (.createUser role email password))
  | .createUserCompleted password p => do
    let w ← w.answered (.createUser p.entry.role p.email password)
    let accounts ← w.accounts.createUser p.email password
    return { w with accounts }.createUserCompletion p
  | .setDataCompleted p ref => do
    let w ← w.answered (.setData p ref)
    return { w with db := w.db.setData ref p.docData }
  | .mergeCompleted ref playback => do
    let w ← w.answered (.merge ref playback)
    return { w with db := publish w.db ref playback }
  | .updateCompleted ref => do
    let w ← w.answered (.update ref)
    let db ← retract w.db ref
    return { w with db }
  | .failed call => w.answered call
  | .opened host =>
    if host.bind Host.username = none then some { w with sessions := host :: w.sessions }
    else none
  | .loggedIn p =>
    if p.isHost ∧ w.accounts.accepts p.emailText p.passwordText then
      (query w.db p).head?.map fun d =>
        { w with sessions := some (fillHost d.2 {}) :: w.sessions }
    else none
  | .streamCreated session playback =>
    w.sessions[session]?.map fun host => w.createStream host playback
  | .stopPressed session => w.sessions[session]?.map w.handleStopButton

/-! ## What each action does -/

section Inversion

variable {w w' : World} {role : Role} {email password : String} {p : Profile}
  {ref : DocumentReference} {playback : PlaybackData} {call : Call} {host : Option Host}
  {press : Press} {session : Nat}

@[simp] theorem issue_accounts : (w.issue call).accounts = w.accounts := rfl

theorem answered_eq_some : w.answered call = some w' ↔
    call ∈ w.calls ∧ w' = { w with calls := w.calls.erase call } := by
  simp [World.answered, @eq_comm _ w']

theorem step_finishTapped : step w (.finishTapped role email password) = some w' ↔
    w' = w.issue (.createUser role email password) := by
  simp [step, @eq_comm _ w']

theorem step_createUserCompleted : step w (.createUserCompleted password p) = some w' ↔
    .createUser p.entry.role p.email password ∈ w.calls ∧ p.email ∉ w.accounts ∧
      w' = World.createUserCompletion
        { w with accounts := w.accounts.insert p.email password
                 calls := w.calls.erase (.createUser p.entry.role p.email password) } p := by
  simp [step, Option.bind_eq_some_iff, answered_eq_some, Accounts.createUser, @eq_comm _ w']

theorem step_setDataCompleted : step w (.setDataCompleted p ref) = some w' ↔
    .setData p ref ∈ w.calls ∧
      w' = { w with db := w.db.setData ref p.docData
                    calls := w.calls.erase (.setData p ref) } := by
  simp [step, Option.bind_eq_some_iff, answered_eq_some, @eq_comm _ w']

theorem step_mergeCompleted : step w (.mergeCompleted ref playback) = some w' ↔
    .merge ref playback ∈ w.calls ∧
      w' = { w with db := publish w.db ref playback
                    calls := w.calls.erase (.merge ref playback) } := by
  simp [step, Option.bind_eq_some_iff, answered_eq_some, @eq_comm _ w']

/-- A missing document cannot be updated. -/
theorem step_updateCompleted : step w (.updateCompleted ref) = some w' ↔
    .update ref ∈ w.calls ∧ ∃ data, w.db.get ref = some data ∧
      w' = { w with db := w.db.setData ref (data.erase "stream")
                    calls := w.calls.erase (.update ref) } := by
  simp [step, Option.bind_eq_some_iff, answered_eq_some, retract, Database.updateDataDelete,
    @eq_comm _ w']

theorem step_failed : step w (.failed call) = some w' ↔
    call ∈ w.calls ∧ w' = { w with calls := w.calls.erase call } :=
  answered_eq_some

theorem step_opened : step w (.opened host) = some w' ↔
    host.bind Host.username = none ∧ w' = { w with sessions := host :: w.sessions } := by
  simp [step, @eq_comm _ w']

theorem step_loggedIn : step w (.loggedIn press) = some w' ↔
    (press.isHost ∧ w.accounts.accepts press.emailText press.passwordText) ∧
      ∃ doc, (query w.db press).head? = some doc ∧
        w' = { w with sessions := some (fillHost doc.2 {}) :: w.sessions } := by
  simp [step, @eq_comm _ w']

theorem step_streamCreated : step w (.streamCreated session playback) = some w' ↔
    ∃ host, w.sessions[session]? = some host ∧ w' = w.createStream host playback := by
  simp [step, @eq_comm _ w']

theorem step_stopPressed : step w (.stopPressed session) = some w' ↔
    ∃ host, w.sessions[session]? = some host ∧ w' = w.handleStopButton host := by
  simp [step, @eq_comm _ w']

end Inversion

end WaxxyLive.Clients
