import Infractl.Events.PgBus

/-!
# The listener of `PgBus`

The first `Subscribe` starts a goroutine that connects to the database and
listens on the channel of the events.  It connects again five seconds after a
connection fails, and returns once `Close` has cancelled its context.  The
database hands a notification to the sessions that listen when it is sent, and
keeps it there until it is read; one that no session is there for is lost, and
so is what a session still holds when its connection fails.

`Subscribe` decides under the lock whether to start the goroutine, and starts
it after the lock is released.  The model has these as two steps, and a list of
goroutines, so that there is only one of them is a theorem.  It then walks
alone along the subscribers, which is why the steps below wait for a walk to
end.

`handled` and `missed` are bookkeeping that no transition reads.
-/

namespace Infractl.Events

open Infractl.Auth (UUIDText)
open Infractl.Lib
open Infractl.Lib.Run
open Infractl.Store (UUID Time)
open scoped List

/-- Where the goroutine of `listenLoop` stands. -/
inductive Phase where
  /-- About to look at the context. -/
  | checking
  /-- In `pgx.Connect`, or in the `LISTEN`. -/
  | connecting
  /-- Waiting for a notification, with those that have arrived. -/
  | connected (queue : List (List Char))
  /-- Waiting five seconds after an error. -/
  | waiting
  | returned
deriving DecidableEq

/-- A goroutine of `listenLoop`, and whether its context has been cancelled. -/
structure Listener where
  phase : Phase := .checking
  cancelled : Bool := false
deriving DecidableEq

/-- What a goroutine does by itself. -/
inductive Turn where
  | check
  | connect
  | refuse
  | lose
  | resume
  | stop

namespace Listener

/-- The notifications that have arrived and were not read yet. -/
def queue (listener : Listener) : List (List Char) :=
  match listener.phase with
  | .connected queue => queue
  | _ => []

/-- The goroutine is in its session. -/
def isConnected (listener : Listener) : Bool :=
  match listener.phase with
  | .connected _ => true
  | _ => false

/-- The goroutine's next turn; a connection is not made under a cancelled context. -/
def turn (listener : Listener) : Turn → Option Listener
  | .check =>
      match listener.phase with
      | .checking =>
          some { listener with
            phase := if listener.cancelled then .returned else .connecting }
      | _ => none
  | .connect =>
      match listener.phase with
      | .connecting =>
          if listener.cancelled then none
          else some { listener with phase := .connected [] }
      | _ => none
  | .refuse =>
      match listener.phase with
      | .connecting => some { listener with phase := .waiting }
      | _ => none
  | .lose =>
      match listener.phase with
      | .connected _ => some { listener with phase := .waiting }
      | _ => none
  | .resume =>
      match listener.phase with
      | .waiting => some { listener with phase := .checking }
      | _ => none
  | .stop =>
      match listener.phase with
      | .waiting =>
          if listener.cancelled then some { listener with phase := .returned } else none
      | _ => none

/-- What a turn can do. -/
inductive Turns : Listener → Listener → Prop where
  | stops : Turns ⟨.checking, true⟩ ⟨.returned, true⟩
  | goes : Turns ⟨.checking, false⟩ ⟨.connecting, false⟩
  | connects : Turns ⟨.connecting, false⟩ ⟨.connected [], false⟩
  | fails (cancelled : Bool) : Turns ⟨.connecting, cancelled⟩ ⟨.waiting, cancelled⟩
  | loses (queue : List (List Char)) (cancelled : Bool) :
      Turns ⟨.connected queue, cancelled⟩ ⟨.waiting, cancelled⟩
  | resumes (cancelled : Bool) : Turns ⟨.waiting, cancelled⟩ ⟨.checking, cancelled⟩
  | returns : Turns ⟨.waiting, true⟩ ⟨.returned, true⟩

theorem turns_of_turn {listener next : Listener} {taken : Turn}
    (turned : listener.turn taken = some next) :
    Turns listener next := by
  rcases listener with ⟨phase, cancelled⟩
  cases taken with
  | check =>
      cases phase with
      | checking =>
          cases turned
          cases cancelled with
          | true => exact .stops
          | false => exact .goes
      | _ => cases turned
  | connect =>
      cases phase with
      | connecting =>
          cases cancelled with
          | true => cases turned
          | false =>
              cases turned
              exact .connects
      | _ => cases turned
  | refuse =>
      cases phase with
      | connecting =>
          cases turned
          exact .fails cancelled
      | _ => cases turned
  | lose =>
      cases phase with
      | connected queue =>
          cases turned
          exact .loses queue cancelled
      | _ => cases turned
  | resume =>
      cases phase with
      | waiting =>
          cases turned
          exact .resumes cancelled
      | _ => cases turned
  | stop =>
      cases phase with
      | waiting =>
          cases cancelled with
          | true =>
              cases turned
              exact .returns
          | false => cases turned
      | _ => cases turned

/-- After its turn a goroutine has nothing pending. -/
theorem Turns.queue {listener next : Listener} (turns : Turns listener next) :
    next.queue = [] := by
  cases turns <;> rfl

/-- A notification arrives at a session that listens. -/
def arrive (sent : List Char) (listener : Listener) : Listener :=
  match listener.phase with
  | .connected queue => { listener with phase := .connected (queue ++ [sent]) }
  | _ => listener

/-- The goroutine has returned, or is cancelled and has no connection. -/
def Finished (listener : Listener) : Prop :=
  listener.isConnected = false ∧
    (listener.phase = .returned ∨ listener.cancelled = true)

theorem Turns.finished {listener next : Listener} (turns : Turns listener next)
    (finished : listener.Finished) :
    next.Finished := by
  rcases finished with ⟨disconnected, returned | cancelled⟩
  · cases turns <;> cases returned
  · cases turns with
    | stops => exact ⟨rfl, Or.inl rfl⟩
    | goes => cases cancelled
    | connects => cases cancelled
    | fails => exact ⟨rfl, Or.inr cancelled⟩
    | loses => cases disconnected
    | resumes => exact ⟨rfl, Or.inr cancelled⟩
    | returns => exact ⟨rfl, Or.inl rfl⟩

/-- A session that does not listen receives nothing. -/
theorem arrive_of_disconnected (sent : List Char) {listener : Listener}
    (disconnected : listener.isConnected = false) :
    listener.arrive sent = listener := by
  rcases listener with ⟨phase, cancelled⟩
  cases phase with
  | connected queue => cases disconnected
  | _ => rfl

@[simp]
theorem isConnected_arrive (sent : List Char) (listener : Listener) :
    (listener.arrive sent).isConnected = listener.isConnected := by
  rcases listener with ⟨phase, cancelled⟩
  cases phase <;> rfl

theorem queue_arrive (sent : List Char) (listener : Listener) :
    (listener.arrive sent).queue =
      listener.queue ++ if listener.isConnected then [sent] else [] := by
  rcases listener with ⟨phase, cancelled⟩
  cases phase with
  | connected queue => rfl
  | _ => rfl

end Listener

/-- The bus with its goroutines, and the notifications sent by the database. -/
structure LiveBus where
  bus : PgBus := {}
  listening : Bool := false
  starting : Nat := 0
  cancel : Option Nat := none
  listeners : List Listener := []
  sent : List (List Char) := []
  handled : List (List Char × Time) := []
  missed : List (List Char) := []

/-- What subscribers, the walk and receivers do, apart from subscribing. -/
def PgBus.Label.ofClients : PgBus.Label → Bool
  | .subscribe _ _ => false
  | .notify _ _ => false
  | _ => true

namespace LiveBus

/-- What the clients, the database and the listener do. -/
inductive Label where
  | subscribe (context : Nat) (kinds : List String)
  | start
  | close
  | turn (index : Nat) (turn : Turn)
  | notify (sent : List Char)
  | handle (index : Nat) (now : Time)
  | client (label : PgBus.Label)

section Operations

variable (text : UUIDText) (leftover : String → UUID) (live : LiveBus)

/-- `Subscribe` up to the release of the lock. -/
def subscribe (context : Nat) (kinds : List String) : Option LiveBus :=
  (PgBus.step text leftover live.bus (.subscribe context kinds)).map fun bus =>
    { live with
      bus := bus
      listening := true
      starting := live.starting + if live.listening then 0 else 1 }

/-- The rest of a `Subscribe` that found no listener. -/
def start : Option LiveBus :=
  match live.starting with
  | 0 => none
  | rest + 1 =>
      some
        { live with
          starting := rest
          cancel := some live.listeners.length
          listeners := live.listeners ++ [{}] }

/-- `Close`. -/
def close : LiveBus :=
  match live.cancel with
  | none => live
  | some index =>
      { live with
        listeners := live.listeners.modify index fun listener =>
          { listener with cancelled := true } }

/-- A goroutine's own turn, between two walks. -/
def takeTurn (index : Nat) (turn : Turn) : Option LiveBus :=
  if live.bus.hub.walk.isSome then none
  else
    match live.listeners[index]? with
    | none => none
    | some listener =>
        (listener.turn turn).map fun next =>
          { live with
            listeners := live.listeners.set index next
            missed := live.missed ++ listener.queue }

/-- The database sends a notification. -/
def notify (sent : List Char) : LiveBus :=
  { live with
    listeners := live.listeners.map (Listener.arrive sent)
    sent := live.sent ++ [sent]
    missed := live.missed ++
      if live.listeners.any Listener.isConnected then [] else [sent] }

/-- A goroutine reads a notification and begins to walk it along the subscribers. -/
def handle (index : Nat) (now : Time) : Option LiveBus :=
  if live.bus.hub.walk.isSome then none
  else
    match live.listeners[index]? with
    | none => none
    | some listener =>
        match listener.phase with
        | .connected (sent :: queue) =>
            (PgBus.step text leftover live.bus (.notify sent now)).map fun bus =>
              { live with
                bus := bus
                listeners :=
                  live.listeners.set index { listener with phase := .connected queue }
                handled := live.handled ++ [(sent, now)] }
        | _ => none

/-- One step of any of them. -/
def step : Label → Option LiveBus
  | .subscribe context kinds => live.subscribe text leftover context kinds
  | .start => live.start
  | .close => some live.close
  | .turn index turn => live.takeTurn index turn
  | .notify sent => some (live.notify sent)
  | .handle index now => live.handle text leftover index now
  | .client label =>
      if label.ofClients then
        (PgBus.step text leftover live.bus label).map fun bus => { live with bus := bus }
      else none

end Operations

/-- The notifications that have arrived at the sessions. -/
def pending (live : LiveBus) : List (List Char) :=
  live.listeners.flatMap Listener.queue

/-! ## What a step can do -/

section Invariants

variable {text : UUIDText} {leftover : String → UUID} {live next : LiveBus}

theorem start_cases (started : live.start = some next) :
    ∃ rest, live.starting = rest + 1 ∧
      next = { live with
        starting := rest
        cancel := some live.listeners.length
        listeners := live.listeners ++ [{}] } := by
  unfold LiveBus.start at started
  split at started
  · cases started
  · next rest starting =>
      cases started
      exact ⟨rest, starting, rfl⟩

theorem takeTurn_cases {index : Nat} {turn : Turn}
    (taken : live.takeTurn index turn = some next) :
    live.bus.hub.walk = none ∧
      ∃ listener after, live.listeners[index]? = some listener ∧
        listener.turn turn = some after ∧
        next = { live with
          listeners := live.listeners.set index after
          missed := live.missed ++ listener.queue } := by
  unfold LiveBus.takeTurn at taken
  split at taken
  · cases taken
  · next unlocked =>
      split at taken
      · cases taken
      · next listener found =>
          rcases Option.map_eq_some_iff.mp taken with ⟨after, turned, rfl⟩
          exact ⟨by simpa using unlocked, listener, after, found, turned, rfl⟩

theorem handle_cases {index : Nat} {now : Time}
    (handled : live.handle text leftover index now = some next) :
    ∃ listener sent queue bus, live.listeners[index]? = some listener ∧
      listener.phase = .connected (sent :: queue) ∧
      PgBus.step text leftover live.bus (.notify sent now) = some bus ∧
      next = { live with
        bus := bus
        listeners := live.listeners.set index { listener with phase := .connected queue }
        handled := live.handled ++ [(sent, now)] } := by
  unfold LiveBus.handle at handled
  split at handled
  · cases handled
  · split at handled
    · cases handled
    · next listener found =>
        split at handled
        · next sent queue phase =>
            rcases Option.map_eq_some_iff.mp handled with ⟨bus, moved, rfl⟩
            exact ⟨listener, sent, queue, bus, found, phase, moved, rfl⟩
        · cases handled

theorem client_cases {label : PgBus.Label}
    (stepped : live.step text leftover (.client label) = some next) :
    (∀ sent now, label ≠ .notify sent now) ∧
      ∃ bus, PgBus.step text leftover live.bus label = some bus ∧
        next = { live with bus := bus } := by
  rcases Option.ite_none_right_eq_some.mp stepped with ⟨ofClients, mapped⟩
  rcases Option.map_eq_some_iff.mp mapped with ⟨bus, moved, rfl⟩
  refine ⟨?_, bus, moved, rfl⟩
  rintro sent now rfl
  cases ofClients

/-! ## Invariants -/

variable (text leftover) in
/--
There is one goroutine, or one to be started, once someone has subscribed.  What
was announced is what was handled; what was handled and what is pending is in
the order of the notifications; and each notification has one fate.
-/
structure Sound (live : LiveBus) : Prop where
  bus : live.bus.Sound
  single : live.starting + live.listeners.length = if live.listening then 1 else 0
  announced : live.bus.hub.announced =
    live.handled.filterMap fun entry =>
      readNotification text leftover entry.2 entry.1
  ordered : live.handled.map Prod.fst ++ live.pending <+ live.sent
  fates : live.handled.map Prod.fst ++ live.pending ++ live.missed ~ live.sent

theorem sound_new : Sound text leftover {} where
  bus := PgBus.sound_new
  single := rfl
  announced := rfl
  ordered := List.Sublist.refl _
  fates := List.Perm.refl _

/-- A goroutine is the only one. -/
theorem Sound.only (sound : Sound text leftover live) {index : Nat}
    {listener : Listener} (found : live.listeners[index]? = some listener) :
    live.listeners = [listener] ∧ index = 0 := by
  have single := sound.single
  have bound : live.listeners.length ≤ 1 := by
    split at single <;> omega
  rcases List.getElem?_eq_some_iff.mp found with ⟨below, here⟩
  have first : index = 0 := by omega
  subst first
  refine ⟨?_, rfl⟩
  have one : live.listeners.length = 1 := by omega
  rcases List.length_eq_one_iff.mp one with ⟨only, same⟩
  rw [same] at found ⊢
  cases found
  rfl

/-- Steps of the bus other than a notification are no announcement to the hub. -/
theorem hub_of_quiet {bus after : PgBus} {label : PgBus.Label}
    (stepped : PgBus.step text leftover bus label = some after)
    (quiet : ∀ sent now, label ≠ .notify sent now) :
    after.hub = bus.hub ∨
      ∃ hubLabel, (∀ event, hubLabel ≠ .announce event) ∧
        bus.hub.step wants channelCapacity hubLabel = some after.hub := by
  have ofHub {hubLabel : FanOut.Label Event (List String)} {result : PgBus}
      (moved : bus.stepHub hubLabel = some result)
      (silent : ∀ event, hubLabel ≠ .announce event) :
      ∃ hubLabel, (∀ event, hubLabel ≠ .announce event) ∧
        bus.hub.step wants channelCapacity hubLabel = some result.hub := by
    rcases Option.map_eq_some_iff.mp moved with ⟨hub, steppedHub, rfl⟩
    exact ⟨hubLabel, silent, steppedHub⟩
  cases label with
  | subscribe context kinds =>
      rcases Option.map_eq_some_iff.mp stepped with ⟨middle, moved, rfl⟩
      have subscribed := ofHub moved (by simp)
      exact Or.inr subscribed
  | cancel context =>
      cases stepped
      exact Or.inl rfl
  | removeSub index =>
      simp only [PgBus.step] at stepped
      split at stepped
      · exact Or.inr (ofHub stepped (by simp))
      · cases stepped
  | notify sent now => exact absurd rfl (quiet sent now)
  | send => exact Or.inr (ofHub stepped (by simp))
  | unlock => exact Or.inr (ofHub stepped (by simp))
  | receive index => exact Or.inr (ofHub stepped (by simp))

theorem announced_of_quiet {bus after : PgBus} {label : PgBus.Label}
    (stepped : PgBus.step text leftover bus label = some after)
    (quiet : ∀ sent now, label ≠ .notify sent now) :
    after.hub.announced = bus.hub.announced := by
  rcases hub_of_quiet stepped quiet with same | ⟨_, silent, steppedHub⟩
  · rw [same]
  · exact FanOut.Hub.announced_of_step steppedHub silent

theorem idle_of_quiet {bus after : PgBus} {label : PgBus.Label}
    (stepped : PgBus.step text leftover bus label = some after)
    (quiet : ∀ sent now, label ≠ .notify sent now) (idle : bus.hub.walk = none) :
    after.hub.walk = none := by
  rcases hub_of_quiet stepped quiet with same | ⟨_, silent, steppedHub⟩
  · rw [same]
    exact idle
  · exact FanOut.Hub.idle_of_step steppedHub silent idle

/-- A notification announces the event made of it, if it is well formed. -/
theorem announced_of_notify {bus after : PgBus} {sent : List Char} {now : Time}
    (stepped : PgBus.step text leftover bus (.notify sent now) = some after) :
    after.hub.announced =
      bus.hub.announced ++ (readNotification text leftover now sent).toList := by
  cases read : readNotification text leftover now sent with
  | none =>
      simp only [PgBus.step, read] at stepped
      cases stepped
      simp
  | some event => exact PgBus.announced_notify read stepped

/-- A step of the bus that is not about notifications. -/
theorem Sound.of_bus (sound : Sound text leftover live) {label : PgBus.Label}
    {bus : PgBus} {listening : Bool} {starting : Nat}
    (stepped : PgBus.step text leftover live.bus label = some bus)
    (quiet : ∀ sent now, label ≠ .notify sent now)
    (single : starting + live.listeners.length = if listening then 1 else 0) :
    Sound text leftover
      { live with bus := bus, listening := listening, starting := starting } where
  bus := PgBus.sound_step text leftover live.bus label bus sound.bus stepped
  single := single
  announced := (announced_of_quiet stepped quiet).trans sound.announced
  ordered := sound.ordered
  fates := sound.fates

theorem Sound.subscribe (sound : Sound text leftover live) {context : Nat}
    {kinds : List String}
    (subscribed : live.subscribe text leftover context kinds = some next) :
    Sound text leftover next := by
  rcases Option.map_eq_some_iff.mp subscribed with ⟨bus, stepped, rfl⟩
  refine sound.of_bus stepped (by simp) ?_
  have single := sound.single
  cases isListening : live.listening with
  | true =>
      rw [isListening] at single
      exact single
  | false =>
      rw [isListening] at single
      simp only [Bool.false_eq_true, if_false] at single ⊢
      simp only [if_true]
      omega

theorem Sound.start (sound : Sound text leftover live)
    (started : live.start = some next) :
    Sound text leftover next := by
  rcases start_cases started with ⟨rest, starting, rfl⟩
  have single := sound.single
  have noPending :
      (live.listeners ++ [({} : Listener)]).flatMap Listener.queue = live.pending := by
    rw [List.flatMap_append]
    exact List.append_nil _
  refine
    { bus := sound.bus
      single := ?_
      announced := sound.announced
      ordered := ?_
      fates := ?_ }
  · rw [starting] at single
    simp only [List.length_append, List.length_singleton, ← single]
    omega
  · simp only [pending, noPending]
    exact sound.ordered
  · simp only [pending, noPending]
    exact sound.fates

theorem flatMap_queue_modify (listeners : List Listener) (index : Nat) :
    (listeners.modify index fun listener =>
      { listener with cancelled := true }).flatMap Listener.queue =
      listeners.flatMap Listener.queue := by
  induction listeners generalizing index with
  | nil => simp
  | cons first rest ih =>
      cases index with
      | zero => rfl
      | succ index =>
          rw [List.modify_succ_cons, List.flatMap_cons, List.flatMap_cons, ih index]

theorem Sound.close (sound : Sound text leftover live) :
    Sound text leftover live.close := by
  unfold LiveBus.close
  split
  · exact sound
  · next index _ =>
      refine
        { bus := sound.bus
          single := ?_
          announced := sound.announced
          ordered := ?_
          fates := ?_ }
      · rw [List.length_modify]
        exact sound.single
      · simp only [pending, flatMap_queue_modify]
        exact sound.ordered
      · simp only [pending, flatMap_queue_modify]
        exact sound.fates

theorem Sound.takeTurn (sound : Sound text leftover live) {index : Nat} {turn : Turn}
    (taken : live.takeTurn index turn = some next) :
    Sound text leftover next := by
  rcases takeTurn_cases taken with ⟨_, listener, after, found, turned, rfl⟩
  have emptied := (Listener.turns_of_turn turned).queue
  rcases sound.only found with ⟨only, rfl⟩
  have held : live.pending = listener.queue := by simp [pending, only]
  have left : (live.listeners.set 0 after).flatMap Listener.queue = [] := by
    simp [only, emptied]
  have ordered := sound.ordered
  have fates := sound.fates
  rw [held] at ordered fates
  refine
    { bus := sound.bus
      single := ?_
      announced := sound.announced
      ordered := ?_
      fates := ?_ }
  · rw [List.length_set]
    exact sound.single
  · simp only [pending, left, List.append_nil]
    exact (List.sublist_append_left _ _).trans ordered
  · simp only [pending, left, List.append_nil]
    refine List.Perm.trans ?_ fates
    rw [List.append_assoc]
    exact List.perm_append_comm.append_left _

/-- With one goroutine at most, a notification arrives once at most. -/
theorem Sound.pending_notify (sound : Sound text leftover live) (sent : List Char) :
    (live.notify sent).pending =
      live.pending ++ if live.listeners.any Listener.isConnected then [sent] else [] := by
  cases listeners : live.listeners with
  | nil => simp [pending, LiveBus.notify, listeners]
  | cons listener rest =>
      have first : live.listeners[0]? = some listener := by rw [listeners]; rfl
      have only := (sound.only first).1
      rw [listeners] at only
      cases only
      simp [pending, LiveBus.notify, listeners, Listener.queue_arrive]

theorem Sound.notify (sound : Sound text leftover live) (sent : List Char) :
    Sound text leftover (live.notify sent) := by
  have pending := sound.pending_notify sent
  refine
    { bus := sound.bus
      single := ?_
      announced := sound.announced
      ordered := ?_
      fates := ?_ }
  · simp only [LiveBus.notify, List.length_map]
    exact sound.single
  · rw [pending]
    simp only [LiveBus.notify]
    split
    · rw [← List.append_assoc]
      exact sound.ordered.append (List.Sublist.refl _)
    · rw [List.append_nil]
      exact sound.ordered.trans (List.sublist_append_left _ _)
  · rw [pending]
    simp only [LiveBus.notify]
    split
    · -- it is pending: move it behind what was missed
      rw [List.append_nil, ← List.append_assoc, List.append_assoc _ [sent]]
      refine (List.perm_append_comm.append_left _).trans ?_
      rw [← List.append_assoc]
      exact sound.fates.append_right [sent]
    · rw [List.append_nil, ← List.append_assoc]
      exact sound.fates.append_right [sent]

theorem Sound.handle (sound : Sound text leftover live) {index : Nat} {now : Time}
    (handled : live.handle text leftover index now = some next) :
    Sound text leftover next := by
  rcases handle_cases handled with
    ⟨listener, sent, queue, bus, found, phase, stepped, rfl⟩
  rcases sound.only found with ⟨only, rfl⟩
  have held : live.pending = sent :: queue := by
    simp [pending, only, Listener.queue, phase]
  have left : (live.listeners.set 0
      { listener with phase := .connected queue }).flatMap Listener.queue = queue := by
    simp [only, Listener.queue]
  have ordered := sound.ordered
  have fates := sound.fates
  rw [held] at ordered fates
  refine
    { bus := PgBus.sound_step text leftover _ _ _ sound.bus stepped
      single := ?_
      announced := ?_
      ordered := ?_
      fates := ?_ }
  · rw [List.length_set]
    exact sound.single
  · rw [announced_of_notify stepped, sound.announced, List.filterMap_append]
    cases read : readNotification text leftover now sent with
    | none => simp [read]
    | some event => simp [read]
  · simpa [pending, left] using ordered
  · simpa [pending, left] using fates

theorem sound_step (live : LiveBus) (label : Label) (next : LiveBus)
    (sound : Sound text leftover live)
    (stepped : live.step text leftover label = some next) :
    Sound text leftover next := by
  cases label with
  | subscribe context kinds => exact sound.subscribe stepped
  | start => exact sound.start stepped
  | close =>
      cases stepped
      exact sound.close
  | turn index turn => exact sound.takeTurn stepped
  | notify sent =>
      cases stepped
      exact sound.notify sent
  | handle index now => exact sound.handle stepped
  | client label =>
      rcases client_cases stepped with ⟨quiet, bus, moved, rfl⟩
      exact sound.of_bus moved quiet sound.single

theorem sound_run {labels : List Label}
    (reached : run (step text leftover) {} labels = some live) :
    Sound text leftover live :=
  run_invariant (step text leftover) sound_step sound_new reached

/-! ## Who holds the lock -/

/-- A walk along the subscribers is that of a goroutine with a connection. -/
def WalkerConnected (live : LiveBus) : Prop :=
  live.bus.hub.walk = none ∨
    ∃ listener ∈ live.listeners, listener.isConnected = true

theorem WalkerConnected.mono (connected : live.WalkerConnected)
    (idle : live.bus.hub.walk = none → next.bus.hub.walk = none)
    (listeners : ∀ listener ∈ live.listeners, listener.isConnected = true →
      ∃ other ∈ next.listeners, other.isConnected = true) :
    next.WalkerConnected := by
  rcases connected with none | ⟨listener, member, isConnected⟩
  · exact Or.inl (idle none)
  · exact Or.inr (listeners listener member isConnected)

theorem walkerConnected_step (live : LiveBus) (label : Label) (next : LiveBus)
    (connected : live.WalkerConnected)
    (stepped : live.step text leftover label = some next) :
    next.WalkerConnected := by
  cases label with
  | subscribe context kinds =>
      rcases Option.map_eq_some_iff.mp stepped with ⟨bus, moved, rfl⟩
      exact connected.mono (idle_of_quiet moved (by simp))
        fun listener member isConnected => ⟨listener, member, isConnected⟩
  | start =>
      rcases start_cases stepped with ⟨_, _, rfl⟩
      exact connected.mono id fun listener member isConnected =>
        ⟨listener, List.mem_append_left _ member, isConnected⟩
  | close =>
      cases stepped
      unfold LiveBus.close
      split
      · exact connected
      · next index _ =>
          refine connected.mono id fun listener member isConnected => ?_
          rcases List.mem_iff_getElem?.mp member with ⟨other, found⟩
          have cancelled := List.getElem?_modify
            (fun listener : Listener => { listener with cancelled := true }) index
            live.listeners other
          rw [found, Option.map_eq_map, Option.map_some] at cancelled
          refine ⟨_, List.mem_of_getElem? cancelled, ?_⟩
          split <;> exact isConnected
  | turn index turn =>
      rcases takeTurn_cases stepped with ⟨unlocked, _, _, _, _, rfl⟩
      exact Or.inl unlocked
  | notify sent =>
      cases stepped
      refine connected.mono id fun listener member isConnected => ?_
      refine ⟨_, List.mem_map_of_mem member, ?_⟩
      rw [Listener.isConnected_arrive]
      exact isConnected
  | handle index now =>
      rcases handle_cases stepped with ⟨_, _, _, _, found, _, _, rfl⟩
      -- the goroutine that walks has read from its connection
      refine Or.inr ⟨_, List.mem_set ?_ _, rfl⟩
      exact (List.getElem?_eq_some_iff.mp found).1
  | client label =>
      rcases client_cases stepped with ⟨quiet, bus, moved, rfl⟩
      exact connected.mono (idle_of_quiet moved quiet)
        fun listener member isConnected => ⟨listener, member, isConnected⟩

theorem walkerConnected_run {labels : List Label}
    (reached : run (step text leftover) {} labels = some live) :
    live.WalkerConnected :=
  run_invariant (step text leftover) walkerConnected_step (Or.inl rfl) reached

/-- Between two walks a client can subscribe. -/
theorem subscribe_enabled (idle : live.bus.hub.walk = none) (context : Nat)
    (kinds : List String) :
    ∃ after, live.step text leftover (.subscribe context kinds) = some after := by
  simp [LiveBus.step, LiveBus.subscribe, PgBus.step, PgBus.stepHub, FanOut.Hub.step,
    idle]

/-! ## A bus that has been closed -/

/-- No goroutine is or will be connected again. -/
structure Silent (live : LiveBus) : Prop where
  listening : live.listening = true
  started : live.starting = 0
  finished : ∀ listener ∈ live.listeners, listener.Finished

/-- The goroutine being the only one, the bus is silent once it is finished. -/
theorem Sound.silent (sound : Sound text leftover live) {listener : Listener}
    (member : listener ∈ live.listeners) (finished : listener.Finished) :
    live.Silent := by
  rcases List.mem_iff_getElem?.mp member with ⟨index, found⟩
  have only := (sound.only found).1
  have single := sound.single
  rw [only, List.length_singleton] at single
  split at single
  · next listening =>
      refine ⟨listening, by omega, ?_⟩
      rw [only]
      intro other otherMember
      cases List.mem_singleton.mp otherMember
      exact finished
  · omega

/-- Nothing is announced by a silent bus, and it stays silent. -/
theorem Silent.step (silent : live.Silent) {label : Label}
    (stepped : live.step text leftover label = some next) :
    next.Silent ∧ next.bus.hub.announced = live.bus.hub.announced := by
  cases label with
  | subscribe context kinds =>
      rcases Option.map_eq_some_iff.mp stepped with ⟨bus, moved, rfl⟩
      refine ⟨⟨rfl, ?_, silent.finished⟩, announced_of_quiet moved (by simp)⟩
      simp [silent.listening, silent.started]
  | start =>
      simp [LiveBus.step, LiveBus.start, silent.started] at stepped
  | close =>
      cases stepped
      unfold LiveBus.close
      split
      · exact ⟨silent, rfl⟩
      · next index _ =>
          refine ⟨⟨silent.listening, silent.started, ?_⟩, rfl⟩
          intro listener member
          rcases List.mem_iff_getElem?.mp member with ⟨other, found⟩
          rw [List.getElem?_modify] at found
          rcases Option.map_eq_some_iff.mp found with ⟨before, foundBefore, rfl⟩
          have finished := silent.finished before (List.mem_of_getElem? foundBefore)
          split
          · exact ⟨finished.1, Or.inr rfl⟩
          · exact finished
  | turn index turn =>
      rcases takeTurn_cases stepped with ⟨_, listener, after, found, turned, rfl⟩
      refine ⟨⟨silent.listening, silent.started, ?_⟩, rfl⟩
      intro other member
      rcases List.mem_or_eq_of_mem_set member with unchanged | rfl
      · exact silent.finished other unchanged
      · exact (Listener.turns_of_turn turned).finished
          (silent.finished listener (List.mem_of_getElem? found))
  | notify sent =>
      cases stepped
      refine ⟨⟨silent.listening, silent.started, ?_⟩, rfl⟩
      intro listener member
      rcases List.mem_map.mp member with ⟨before, memberBefore, rfl⟩
      have finished := silent.finished before memberBefore
      rw [Listener.arrive_of_disconnected sent finished.1]
      exact finished
  | handle index now =>
      rcases handle_cases stepped with ⟨listener, _, _, _, found, phase, _, _⟩
      have finished := silent.finished listener (List.mem_of_getElem? found)
      have disconnected := finished.1
      simp [Listener.isConnected, phase] at disconnected
  | client label =>
      rcases client_cases stepped with ⟨quiet, bus, moved, rfl⟩
      exact ⟨⟨silent.listening, silent.started, silent.finished⟩,
        announced_of_quiet moved quiet⟩

/-- The hub moves by at most one step of its own. -/
theorem hub_of_step {label : Label}
    (stepped : live.step text leftover label = some next) :
    next.bus.hub = live.bus.hub ∨
      ∃ hubLabel, live.bus.hub.step wants channelCapacity hubLabel =
        some next.bus.hub := by
  have ofBus {bus : PgBus} {busLabel : PgBus.Label}
      (moved : PgBus.step text leftover live.bus busLabel = some bus) :
      bus.hub = live.bus.hub ∨
        ∃ hubLabel, live.bus.hub.step wants channelCapacity hubLabel =
          some bus.hub := by
    cases PgBus.moves_of_step moved with
    | idle same _ _ => exact Or.inl same
    | hub steppedHub _ _ _ _ => exact Or.inr ⟨_, steppedHub⟩
  cases label with
  | subscribe context kinds =>
      rcases Option.map_eq_some_iff.mp stepped with ⟨bus, moved, rfl⟩
      exact ofBus moved
  | start =>
      rcases start_cases stepped with ⟨_, _, rfl⟩
      exact Or.inl rfl
  | close =>
      cases stepped
      unfold LiveBus.close
      split
      · exact Or.inl rfl
      · exact Or.inl rfl
  | turn index turn =>
      rcases takeTurn_cases stepped with ⟨_, _, _, _, _, rfl⟩
      exact Or.inl rfl
  | notify sent =>
      cases stepped
      exact Or.inl rfl
  | handle index now =>
      rcases handle_cases stepped with ⟨_, _, _, bus, _, _, moved, rfl⟩
      exact ofBus moved
  | client label =>
      rcases client_cases stepped with ⟨_, bus, moved, rfl⟩
      exact ofBus moved

/-- No goroutine of a silent bus walks along the subscribers. -/
theorem Silent.idle (silent : live.Silent) (connected : live.WalkerConnected) :
    live.bus.hub.walk = none := by
  rcases connected with idle | ⟨listener, member, isConnected⟩
  · exact idle
  · cases (silent.finished listener member).1.symm.trans isConnected

/-- Since the bus fell silent nothing was announced, and who subscribed came after. -/
structure SilentSince (count : Nat) (announced : List Event) (live : LiveBus) :
    Prop where
  silent : live.Silent
  unchanged : live.bus.hub.announced = announced
  late : ∀ (index : Nat) (channel : Channel), count ≤ index →
    live.bus.hub.channels[index]? = some channel →
    channel.opened = announced.length

theorem SilentSince.step {count : Nat} {announced : List Event}
    (since : live.SilentSince count announced) {label : Label}
    (stepped : live.step text leftover label = some next) :
    next.SilentSince count announced := by
  rcases since.silent.step stepped with ⟨silent, same⟩
  refine ⟨silent, same.trans since.unchanged, ?_⟩
  intro index channel above found
  rcases hub_of_step stepped with sameHub | ⟨hubLabel, steppedHub⟩
  · rw [sameHub] at found
    exact since.late index channel above found
  · rcases FanOut.Hub.continues_of_step steppedHub found with
      ⟨before, earlier, continues⟩ | ⟨opened, _, _⟩
    · rw [continues.opened]
      exact since.late index before above earlier
    · rw [opened, since.unchanged]

end Invariants

end LiveBus

/-! ## What subscribers can rely on -/

/--
At every moment of every run there is at most one listening goroutine.  Every
notification the database sent was handled, is pending or was missed, and only
one of these.  Those handled are in the order in which they were sent, and the
events announced to the subscribers are the ones made of them.
-/
theorem notifications_handled_once_in_order (text : UUIDText)
    (leftover : String → UUID) (labels : List LiveBus.Label) {live : LiveBus}
    (reached : run (LiveBus.step text leftover) {} labels = some live) :
    live.listeners.length ≤ 1 ∧
      live.handled.map Prod.fst ++ live.pending ++ live.missed ~ live.sent ∧
      live.handled.map Prod.fst <+ live.sent ∧
      live.bus.hub.announced = live.handled.filterMap (fun entry =>
        readNotification text leftover entry.2 entry.1) ∧
      ∀ (index : Nat) (channel : Channel),
        live.bus.hub.channels[index]? = some channel →
        Delivers live.bus.hub index channel := by
  have sound := LiveBus.sound_run reached
  have single := sound.single
  refine ⟨?_, sound.fates, ?_, sound.announced, ?_⟩
  · split at single
    · omega
    · omega
  · exact (List.sublist_append_left _ _).trans sound.ordered
  · intro index channel found
    exact sound.bus.hub.delivers found

/-- One notification comes before the goroutine listens, one after. -/
theorem early_notification_missed :
    ∃ live, run (LiveBus.step Auth.canonicalText fun _ => 0) {}
        [.subscribe 0 [], .start, .notify machineSent, .turn 0 .check,
          .turn 0 .connect, .notify machineSent, .handle 0 9, .client .send,
          .client .unlock, .client (.receive 0)] = some live ∧
      live.missed = [machineSent] ∧
      live.bus.hub.channels.map (fun channel =>
          channel.received.map (fun pair => pair.2.name)) = [["a"]] ∧
      live.listeners.length ≤ 1 := by
  refine ⟨_, rfl, rfl, rfl, ?_⟩
  exact (notifications_handled_once_in_order Auth.canonicalText (fun _ => 0)
    [.subscribe 0 [], .start, .notify machineSent, .turn 0 .check,
      .turn 0 .connect, .notify machineSent, .handle 0 9, .client .send,
      .client .unlock, .client (.receive 0)] rfl).1

/--
Once `Close` has cancelled the goroutine and it has no connection, the bus
announces nothing more, whatever happens.  Subscribing succeeds at every moment
from then on, but who subscribes receives nothing.
-/
theorem closed_bus_stays_silent (text : UUIDText) (leftover : String → UUID)
    (labels later : List LiveBus.Label) {live final : LiveBus} {listener : Listener}
    (reached : run (LiveBus.step text leftover) {} labels = some live)
    (member : listener ∈ live.listeners)
    (finished : listener.Finished)
    (continued : run (LiveBus.step text leftover) live later = some final) :
    final.bus.hub.announced = live.bus.hub.announced ∧
      (∀ context kinds, ∃ subscribed,
        final.step text leftover (.subscribe context kinds) = some subscribed) ∧
      ∀ (index : Nat) (channel : Channel),
        live.bus.hub.channels.length ≤ index →
        final.bus.hub.channels[index]? = some channel →
        channel.received = [] := by
  have sound := LiveBus.sound_run reached
  have first : live.SilentSince live.bus.hub.channels.length live.bus.hub.announced := by
    refine ⟨sound.silent member finished, rfl, ?_⟩
    intro index channel above found
    have below := (List.getElem?_eq_some_iff.mp found).1
    omega
  have extend : ∀ (state : LiveBus) (label : LiveBus.Label) (next : LiveBus),
      state.SilentSince live.bus.hub.channels.length live.bus.hub.announced →
      state.step text leftover label = some next →
      next.SilentSince live.bus.hub.channels.length live.bus.hub.announced :=
    fun _ _ _ since stepped => since.step stepped
  have since := run_invariant (LiveBus.step text leftover) extend first continued
  have whole : run (LiveBus.step text leftover) {} (labels ++ later) = some final :=
    (run_append_eq_some_iff _).mpr ⟨live, reached, continued⟩
  have idle := since.silent.idle (LiveBus.walkerConnected_run whole)
  refine ⟨since.unchanged, LiveBus.subscribe_enabled idle, ?_⟩
  intro index channel above found
  have delivers := (LiveBus.sound_run whole).bus.hub.delivers found
  have subsequence := delivers.subsequence
  rw [since.late index channel above found, since.unchanged, List.drop_length,
    List.filter_nil, List.sublist_nil, List.map_eq_nil_iff] at subsequence
  exact subsequence

/-- A bus closed at once, and a subscriber that comes too late. -/
theorem late_subscriber_hears_nothing :
    ∃ live final, run (LiveBus.step Auth.canonicalText fun _ => 0) {}
        [.subscribe 0 [], .start, .close, .turn 0 .check] = some live ∧
      run (LiveBus.step Auth.canonicalText fun _ => 0) live
        [.subscribe 1 [], .notify machineSent] = some final ∧
      ∃ channel, final.bus.hub.channels[1]? = some channel ∧
        channel.received = [] := by
  refine ⟨_, _, rfl, rfl, _, rfl, ?_⟩
  exact (closed_bus_stays_silent Auth.canonicalText (fun _ => 0)
    [.subscribe 0 [], .start, .close, .turn 0 .check]
    [.subscribe 1 [], .notify machineSent] rfl (List.mem_singleton.mpr rfl)
    ⟨rfl, Or.inl rfl⟩ rfl).2.2 1 _ (Nat.le_refl 1) rfl

end Infractl.Events
