import Mathlib.Data.Finset.Basic
import Infractl.Lib.Unwinding

/-!
# The lifetime of the server process

On a signal, `main` shuts down the `http.Server` that `HTTPServer` returned,
then the providers, and then leaves.  `Shutdown` of an `http.Server` closes its
listeners and waits until none of its connections serves a request.

`ListenAndServe` does not use that server.  It builds another one over the same
router, and this is the one that listens and has the connections.  So `main`
finds nothing to close and nothing to wait for.  `Process` keeps both servers,
and the steps of the clients and handlers are those of a process that is never
shut down, up to the moment it ends.
-/

namespace Infractl.Api.Lifetime

open Infractl.Lib
open Infractl.Lib.Run
open Infractl.Lib.Unwinding

/-! ## One server -/

/-- `ServerConfig`. -/
structure ServerConfig where
  addr : String := ""
  tlsCert : String := ""
  tlsKey : String := ""

/--
An `http.Server`: its settings, whether its listener is open, the connections
that wait for a request and those that serve one.
-/
structure HTTPServer where
  addr : String
  tls : Bool
  inShutdown : Bool := false
  listening : Bool := false
  idle : Finset Nat := ∅
  active : Finset Nat := ∅
deriving DecidableEq

namespace HTTPServer

/-- The server that `HTTPServer` returns and that `ListenAndServe` builds. -/
def new (config : ServerConfig) : HTTPServer where
  addr := if config.addr = "" then ":8080" else config.addr
  tls := decide (config.tlsCert ≠ "" ∧ config.tlsKey ≠ "")

/-- `ListenAndServe`, which a server in shutdown refuses. -/
def listen (server : HTTPServer) : Option HTTPServer :=
  if server.inShutdown || server.listening then none
  else some { server with listening := true }

/-- A client connects. -/
def accept (server : HTTPServer) (conn : Nat) : Option HTTPServer :=
  if server.listening ∧ conn ∉ server.idle ∧ conn ∉ server.active then
    some { server with idle := insert conn server.idle }
  else none

/-- A request arrives on a connection, and its handler starts. -/
def request (server : HTTPServer) (conn : Nat) : Option HTTPServer :=
  if conn ∈ server.idle then
    some { server with
      idle := server.idle.erase conn
      active := insert conn server.active }
  else none

/-- The handler is done; a server in shutdown closes the connection. -/
def reply (server : HTTPServer) (conn : Nat) : Option HTTPServer :=
  if conn ∈ server.active then
    some { server with
      active := server.active.erase conn
      idle := if server.inShutdown then server.idle else insert conn server.idle }
  else none

/-- A client closes a connection on which it waits for nothing. -/
def hangUp (server : HTTPServer) (conn : Nat) : Option HTTPServer :=
  if conn ∈ server.idle then
    some { server with idle := server.idle.erase conn }
  else none

/-- The beginning of `Shutdown`. -/
def startShutdown (server : HTTPServer) : HTTPServer :=
  { server with inShutdown := true, listening := false }

/-- `closeIdleConns`, and whether no connection is left. -/
def closeIdle (server : HTTPServer) : HTTPServer × Bool :=
  ({ server with idle := ∅ }, decide (server.active = ∅))

/-- A server that never had a connection. -/
def Unused (server : HTTPServer) : Prop :=
  server.listening = false ∧ server.idle = ∅ ∧ server.active = ∅

end HTTPServer

/-! ## The process -/

/-- Where `main` is, from waiting for a signal to the end of the process. -/
inductive Phase where
  | waiting
  | signalled
  | shuttingDown
  | stopped
  | providersDown
  | exited
deriving DecidableEq

/-- The process that runs `main`. -/
structure Process where
  phase : Phase
  /-- The server that `main` holds. -/
  returned : HTTPServer
  /-- The server that `ListenAndServe` has built. -/
  serving : HTTPServer
deriving DecidableEq

/-- What the process and its clients can do. -/
inductive Label where
  | listen
  | accept (conn : Nat)
  | request (conn : Nat)
  | reply (conn : Nat)
  | hangUp (conn : Nat)
  | serveFails
  | signal
  | shutdown
  | poll
  | deadline
  | shutdownAll
  | closeBus
deriving DecidableEq

/-- The steps of clients and handlers. -/
def Label.serves : Label → Bool
  | .listen => true
  | .accept _ => true
  | .request _ => true
  | .reply _ => true
  | .hangUp _ => true
  | _ => false

/-- What clients and handlers do to the server that they reach. -/
def HTTPServer.serve (server : HTTPServer) : Label → Option HTTPServer
  | .listen => server.listen
  | .accept conn => server.accept conn
  | .request conn => server.request conn
  | .reply conn => server.reply conn
  | .hangUp conn => server.hangUp conn
  | _ => none

namespace Process

/-- `main` has called `Start`. -/
def start (config : ServerConfig) : Process where
  phase := .waiting
  returned := .new config
  serving := .new config

/-- `main` goes from one phase to another. -/
def advance (process : Process) (before after : Phase) : Option Process :=
  if process.phase = before then some { process with phase := after } else none

/--
The steps of `main`, and the fatal error of `ListenAndServe`: the listener cannot
be opened, or it fails later.  An error of `Shutdown`, here its deadline of
thirty seconds, is only logged.
-/
def leave (process : Process) : Label → Option Process
  | .serveFails => some { process with phase := .exited }
  | .signal => process.advance .waiting .signalled
  | .shutdown =>
      { process with
        returned := process.returned.startShutdown }.advance .signalled .shuttingDown
  | .poll =>
      let (returned, drained) := process.returned.closeIdle
      { process with returned := returned }.advance .shuttingDown
        (if drained then .stopped else .shuttingDown)
  | .deadline => process.advance .shuttingDown .stopped
  | .shutdownAll => process.advance .stopped .providersDown
  | .closeBus => process.advance .providersDown .exited
  | _ => none

/-- One step; a process that has ended takes none. -/
def step (process : Process) (label : Label) : Option Process :=
  if process.phase = .exited then none
  else if label.serves then
    (process.serving.serve label).map (fun serving =>
      { process with serving := serving })
  else process.leave label

/-! ## The server that main holds -/

@[simp]
theorem advance_eq_some_iff {process next : Process} {before after : Phase} :
    process.advance before after = some next ↔
      process.phase = before ∧ next = { process with phase := after } := by
  unfold advance
  split
  · next isBefore => simp [isBefore, eq_comm]
  · next notBefore => simp [notBefore]

/-- The steps of `main` leave the connections alone, and its server unused. -/
theorem leave_spec {process next : Process} {label : Label}
    (stepped : process.leave label = some next)
    (unused : process.returned.Unused) :
    next.serving = process.serving ∧ next.returned.Unused := by
  cases label with
  | serveFails =>
      cases stepped
      exact ⟨rfl, unused⟩
  | signal =>
      rcases advance_eq_some_iff.mp stepped with ⟨_, rfl⟩
      exact ⟨rfl, unused⟩
  | shutdown =>
      rcases advance_eq_some_iff.mp stepped with ⟨_, rfl⟩
      exact ⟨rfl, rfl, unused.2⟩
  | poll =>
      rcases advance_eq_some_iff.mp stepped with ⟨_, rfl⟩
      exact ⟨rfl, unused.1, rfl, unused.2.2⟩
  | deadline =>
      rcases advance_eq_some_iff.mp stepped with ⟨_, rfl⟩
      exact ⟨rfl, unused⟩
  | shutdownAll =>
      rcases advance_eq_some_iff.mp stepped with ⟨_, rfl⟩
      exact ⟨rfl, unused⟩
  | closeBus =>
      rcases advance_eq_some_iff.mp stepped with ⟨_, rfl⟩
      exact ⟨rfl, unused⟩
  | _ => cases stepped

/-! ## Shutting down without effect -/

/-- A process beside one that has not been told to leave. -/
structure Unnoticed (process undisturbed : Process) : Prop where
  serving : process.serving = undisturbed.serving
  unused : process.returned.Unused
  waiting : undisturbed.phase = .waiting

theorem unwinds : Unwinds step Label.serves Unnoticed where
  unseen := by
    intro whole next alone label leaves related stepped
    simp only [step, leaves, Bool.false_eq_true, if_false] at stepped
    split at stepped
    · cases stepped
    · rcases leave_spec stepped related.unused with ⟨serving, unused⟩
      exact ⟨serving.trans related.serving, unused, related.waiting⟩
  followed := by
    intro whole next alone label serves related stepped
    simp only [step, serves, if_true] at stepped
    split at stepped
    · cases stepped
    · rcases Option.map_eq_some_iff.mp stepped with ⟨serving, served, rfl⟩
      rw [related.serving] at served
      refine ⟨{ alone with serving := serving }, ?_, rfl, related.unused,
        related.waiting⟩
      simp [step, related.waiting, serves, served]

/-- What `main` still has to do from a phase on. -/
def remaining : Phase → List Label
  | .waiting => [.signal, .shutdown, .poll, .shutdownAll, .closeBus]
  | .signalled => [.shutdown, .poll, .shutdownAll, .closeBus]
  | .shuttingDown => [.poll, .shutdownAll, .closeBus]
  | .stopped => [.shutdownAll, .closeBus]
  | .providersDown => [.closeBus]
  | .exited => []

/-- `main` gets through to the end, whatever requests are being served. -/
theorem leaves_at_once (process : Process) (unused : process.returned.Unused) :
    ∃ last, run step process (remaining process.phase) = some last ∧
      last.phase = .exited ∧ last.serving = process.serving := by
  rcases process with ⟨phase, returned, serving⟩
  have drained : returned.active = ∅ := unused.2.2
  cases phase <;>
    simp [remaining, run, step, Label.serves, leave, advance,
      HTTPServer.startShutdown, HTTPServer.closeIdle, drained]

/--
Whenever the process is told to leave, its listener and its connections are at
every later point those of a process that was not told.  From there `main` can
always go on to the end without waiting, and the requests that are being served
then are still being served when the providers are down and the process ends.
-/
theorem shutdown_reaches_no_request (config : ServerConfig)
    {labels : List Label} {process : Process}
    (reached : run step (start config) labels = some process) :
    (∃ undisturbed,
      run step (start config) (labels.filter Label.serves) = some undisturbed ∧
        undisturbed.phase = .waiting ∧ undisturbed.serving = process.serving) ∧
      ∃ last, run step process (remaining process.phase) = some last ∧
        last.phase = .exited ∧ last.serving = process.serving := by
  have initially : Unnoticed (start config) (start config) :=
    ⟨rfl, ⟨rfl, rfl, rfl⟩, rfl⟩
  rcases unwinds.run initially reached with ⟨undisturbed, alone, related⟩
  exact ⟨⟨undisturbed, alone, related.waiting, related.serving.symm⟩,
    leaves_at_once process related.unused⟩

/-- A request is under way when the signal comes, and a client comes later. -/
def busyShutdown : List Label :=
  [.listen, .accept 1, .request 1, .signal, .shutdown, .poll, .shutdownAll,
    .accept 2]

/-- The providers are down, the request is still served and the client let in. -/
theorem request_outlives_providers :
    ∃ process last, run step (start {}) busyShutdown = some process ∧
      process.phase = .providersDown ∧ process.serving.idle = {2} ∧
      run step process [.closeBus] = some last ∧ last.serving.active = {1} := by
  let process : Process :=
    { phase := .providersDown
      returned := { HTTPServer.new {} with inShutdown := true }
      serving := { HTTPServer.new {} with listening := true, idle := {2}, active := {1} } }
  have reached : run step (start {}) busyShutdown = some process := by
    decide
  rcases (shutdown_reaches_no_request {} reached).2 with ⟨last, finished, _, same⟩
  exact ⟨process, last, reached, rfl, rfl, finished,
    congrArg HTTPServer.active same⟩

end Process

end Infractl.Api.Lifetime
