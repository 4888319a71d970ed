import Infractl.Events.Notification

/-!
# The event bus of PostgreSQL

The listener of `PgBus` makes an event of each notification and walks it along
the subscribers under the read lock.  A subscriber whose context has been
cancelled is skipped, and later removed by a goroutine that waits for the
context; removing it closes its channel.

The bus is the hub of `Lib.FanOut` together with the contexts.  What it
guarantees to subscribers follows from the hub; the event itself is compared
with the row that was stored for it.
-/

namespace Infractl.Events

open Infractl.Auth (UUIDText)
open Infractl.Lib
open Infractl.Lib.Run
open Infractl.Store (UUID Time)

/-- The hub, the context of each channel, and the contexts that are done. -/
structure PgBus where
  hub : Hub := {}
  contexts : List Nat := []
  done : List Nat := []
deriving DecidableEq

namespace PgBus

/-- What happens on `PgBus`. -/
inductive Label where
  | subscribe (context : Nat) (kinds : List String)
  | cancel (context : Nat)
  | removeSub (channel : Nat)
  | notify (sent : List Char) (now : Time)
  | send
  | unlock
  | receive (channel : Nat)

/-- The context of a channel has been cancelled. -/
def cancelled (bus : PgBus) (index : Nat) : Bool :=
  bus.contexts[index]?.any (fun context => decide (context ∈ bus.done))

/-- The subscriber that is looked at next has a cancelled context. -/
def skips (bus : PgBus) : Bool :=
  match bus.hub.walk with
  | some (_, index :: _) => bus.cancelled index
  | _ => false

def stepHub (bus : PgBus) (label : FanOut.Label Event (List String)) : Option PgBus :=
  (bus.hub.step wants channelCapacity label).map fun hub => { bus with hub := hub }

/-- One step of `PgBus`. -/
def step (text : UUIDText) (leftover : String → UUID) (bus : PgBus) :
    Label → Option PgBus
  | .subscribe context kinds =>
      (bus.stepHub (.subscribe kinds)).map fun next =>
        { next with contexts := bus.contexts ++ [context] }
  | .cancel context => some { bus with done := context :: bus.done }
  | .removeSub index =>
      if bus.cancelled index then bus.stepHub (.remove index) else none
  | .notify sent now =>
      match readNotification text leftover now sent with
      | some event => bus.stepHub (.announce event)
      -- a malformed payload is logged and dropped
      | none => some bus
  | .send => bus.stepHub (.visit bus.skips)
  | .unlock => bus.stepHub .finish
  | .receive index => bus.stepHub (.receive index)

/-! ## Invariants -/

/-- What was skipped or closed has a cancelled context. -/
structure Sound (bus : PgBus) : Prop where
  hub : FanOut.Hub.Sound wants channelCapacity bus.hub
  skipped :
    ∀ (index : Nat) (channel : Channel), bus.hub.channels[index]? = some channel →
      ∀ offer ∈ channel.offers, offer.skipped = true → bus.cancelled index = true
  closed :
    ∀ (index : Nat) (channel : Channel), bus.hub.channels[index]? = some channel →
      channel.closed ≠ none → bus.cancelled index = true

theorem sound_new : Sound {} where
  hub := FanOut.Hub.sound_empty
  skipped := by simp
  closed := by simp

theorem cancelled_mono {bus next : PgBus} {index : Nat}
    (contexts : ∀ context, bus.contexts[index]? = some context →
      next.contexts[index]? = some context)
    (done : ∀ context ∈ bus.done, context ∈ next.done)
    (before : bus.cancelled index = true) : next.cancelled index = true := by
  simp only [cancelled, Option.any_eq_true, decide_eq_true_eq] at before ⊢
  rcases before with ⟨context, found, isDone⟩
  exact ⟨context, contexts context found, done context isDone⟩

/-- What a step of the bus does. -/
inductive Moves (bus next : PgBus) : Prop where
  /-- The hub stays as it is, and no context stops being done. -/
  | idle
      (hub : next.hub = bus.hub)
      (contexts : next.contexts = bus.contexts)
      (done : ∀ context ∈ bus.done, context ∈ next.done)
  /-- A step of the hub that closes and skips cancelled subscribers only. -/
  | hub {label : FanOut.Label Event (List String)}
      (stepped : bus.hub.step wants channelCapacity label = some next.hub)
      (removes : ∀ index, label = .remove index → bus.cancelled index = true)
      (visits : ∀ event index rest, label = .visit true →
        bus.hub.walk = some (event, index :: rest) → bus.cancelled index = true)
      (contexts : bus.contexts <+: next.contexts)
      (done : next.done = bus.done)

/-- A step of the hub under the same contexts. -/
theorem moves_of_stepHub {bus next : PgBus}
    {label : FanOut.Label Event (List String)}
    (stepped : bus.stepHub label = some next)
    (removes : ∀ index, label = .remove index → bus.cancelled index = true)
    (visits : ∀ event index rest, label = .visit true →
      bus.hub.walk = some (event, index :: rest) → bus.cancelled index = true) :
    Moves bus next := by
  rcases Option.map_eq_some_iff.mp stepped with ⟨hub, moved, rfl⟩
  exact .hub moved removes visits List.prefix_rfl rfl

theorem moves_of_step {text : UUIDText} {leftover : String → UUID}
    {bus next : PgBus} {label : Label}
    (stepped : step text leftover bus label = some next) : Moves bus next := by
  cases label with
  | subscribe context kinds =>
      rcases Option.map_eq_some_iff.mp stepped with ⟨middle, subscribed, rfl⟩
      rcases Option.map_eq_some_iff.mp subscribed with ⟨hub, moved, rfl⟩
      exact .hub moved (fun _ same => by cases same)
        (fun _ _ _ same => by cases same) (List.prefix_append _ _) rfl
  | cancel context =>
      cases stepped
      exact .idle rfl rfl (fun _ member => List.mem_cons_of_mem _ member)
  | removeSub index =>
      simp only [step] at stepped
      split at stepped
      · next isCancelled =>
          refine moves_of_stepHub stepped ?_ (fun _ _ _ same => by cases same)
          rintro other ⟨⟩
          exact isCancelled
      · cases stepped
  | notify sent now =>
      simp only [step] at stepped
      split at stepped
      · exact moves_of_stepHub stepped (fun _ same => by cases same)
          (fun _ _ _ same => by cases same)
      · cases stepped
        exact .idle rfl rfl (fun _ member => member)
  | send =>
      refine moves_of_stepHub stepped (fun _ same => by cases same) ?_
      intro event index rest visited walked
      have skips := FanOut.Label.visit.inj visited
      simpa only [PgBus.skips, walked] using skips
  | unlock =>
      exact moves_of_stepHub stepped (fun _ same => by cases same)
        (fun _ _ _ same => by cases same)
  | receive index =>
      exact moves_of_stepHub stepped (fun _ same => by cases same)
        (fun _ _ _ same => by cases same)

/-- A cancelled context stays cancelled. -/
theorem Moves.cancelled {bus next : PgBus} (moves : Moves bus next) {index : Nat}
    (before : bus.cancelled index = true) : next.cancelled index = true := by
  cases moves with
  | idle _ contexts done =>
      refine cancelled_mono ?_ done before
      intro context found
      rw [contexts]
      exact found
  | hub _ _ _ contexts done =>
      refine cancelled_mono ?_ ?_ before
      · intro context found
        rcases List.getElem?_eq_some_iff.mp found with ⟨inside, rfl⟩
        exact List.prefix_iff_getElem?.mp contexts index inside
      · intro context member
        rw [done]
        exact member

theorem Moves.sound {bus next : PgBus} (moves : Moves bus next)
    (sound : Sound bus) : Sound next := by
  have stays {index : Nat} (before : bus.cancelled index = true) :
      next.cancelled index = true := moves.cancelled before
  cases moves with
  | idle sameHub _ _ =>
      refine ⟨sameHub ▸ sound.hub, ?_, ?_⟩
      · intro index channel found offer member skipped
        rw [sameHub] at found
        exact stays (sound.skipped index channel found offer member skipped)
      · intro index channel found closed
        rw [sameHub] at found
        exact stays (sound.closed index channel found closed)
  | hub stepped removes visits _ _ =>
      refine ⟨FanOut.Hub.sound_step _ _ _ sound.hub stepped, ?_, ?_⟩
      · intro index channel found offer member skipped
        rcases FanOut.Hub.continues_of_step stepped found with
          ⟨before, earlier, continues⟩ | ⟨_, _, unoffered⟩
        · rcases continues.offers offer member with
            already | ⟨event, rest, visited, walked⟩
          · exact stays (sound.skipped index before earlier offer already skipped)
          · rw [skipped] at visited
            exact stays (visits event index rest visited walked)
        · rw [unoffered] at member
          cases member
      · intro index channel found closed
        rcases FanOut.Hub.continues_of_step stepped found with
          ⟨before, earlier, continues⟩ | ⟨_, opened, _⟩
        · rcases continues.closed with same | removed
          · exact stays (sound.closed index before earlier (same ▸ closed))
          · exact stays (removes index removed)
        · exact absurd opened closed

theorem sound_step (text : UUIDText) (leftover : String → UUID) (bus : PgBus)
    (label : Label) (next : PgBus) (sound : Sound bus)
    (stepped : step text leftover bus label = some next) : Sound next :=
  (moves_of_step stepped).sound sound

theorem sound_run {text : UUIDText} {leftover : String → UUID}
    {labels : List Label} {bus : PgBus}
    (reached : run (step text leftover) {} labels = some bus) : Sound bus :=
  run_invariant (step text leftover) (sound_step text leftover) sound_new reached

end PgBus

/-! ## Delivery on both buses -/

/--
On both buses, at every moment of every run, what a subscriber has received is
an ordered selection, without repetition, of the events announced since it
subscribed whose kind it asked for.  In memory an event is missing only if the
channel was full.  On `PgBus` the subscriber may also have been skipped or
removed, and then its context has been cancelled.  No send is attempted on a
closed channel.
-/
theorem fan_out_delivers (text : UUIDText) (leftover : String → UUID) :
    (∀ labels bus, run InMemoryBus.step {} labels = some bus →
      bus.panicked = false ∧
        ∀ (index : Nat) (channel : Channel), bus.channels[index]? = some channel →
          Delivers bus index channel ∧ channel.closed = none ∧
            ∀ offer ∈ channel.offers, offer.skipped = false) ∧
      ∀ labels bus, run (PgBus.step text leftover) {} labels = some bus →
        bus.hub.panicked = false ∧
          ∀ (index : Nat) (channel : Channel),
            bus.hub.channels[index]? = some channel →
              Delivers bus.hub index channel ∧
                (∀ offer ∈ channel.offers, offer.skipped = true →
                  bus.cancelled index = true) ∧
                (channel.closed ≠ none → bus.cancelled index = true) := by
  constructor
  · intro labels bus reached
    rcases InMemoryBus.sound_run reached with ⟨sound, plain⟩
    exact ⟨sound.calm, fun index channel found =>
      ⟨sound.delivers found, plain index channel found⟩⟩
  · intro labels bus reached
    have sound := PgBus.sound_run reached
    exact ⟨sound.hub.calm, fun index channel found =>
      ⟨sound.hub.delivers found, sound.skipped index channel found,
        sound.closed index channel found⟩⟩

/-- An event about a machine. -/
def machineEvent (payload : List UInt8) : Event where
  id := "e"
  orgID := 7
  kind := "Machine"
  name := "a"
  action := "created"
  timestamp := 1000
  payload := payload

/-- The text of the notification for an event about a machine. -/
def machineSent : List Char :=
  ((machineEvent []).notification Auth.canonicalText).marshal

/--
Two subscribers on one bus, one of which asked for another kind and cancels
its context before the event is announced.
-/
theorem fan_out_two_subscribers :
    (∃ bus, run InMemoryBus.step {}
        [.subscribe ["Machine"], .subscribe ["Rack"],
          .publish (machineEvent []) "f" 5, .send, .receive 0, .send, .unlock] =
          some bus ∧
        bus.channels.map (fun channel => channel.received.map Prod.snd) =
          [[machineEvent []], []] ∧
        bus.panicked = false) ∧
      ∃ bus, run (PgBus.step Auth.canonicalText fun _ => 0) {}
          [.subscribe 0 [], .subscribe 1 [], .cancel 1, .notify machineSent 9,
            .send, .send, .unlock, .removeSub 1, .receive 0] = some bus ∧
        bus.hub.channels.map (fun channel =>
            channel.received.map (fun pair => (pair.2.name, pair.2.timestamp))) =
          [[("a", 9)], []] ∧
        bus.hub.panicked = false := by
  constructor
  · refine ⟨_, rfl, rfl, ?_⟩
    exact ((fan_out_delivers Auth.canonicalText fun _ => 0).1
      [.subscribe ["Machine"], .subscribe ["Rack"],
        .publish (machineEvent []) "f" 5, .send, .receive 0, .send, .unlock] _ rfl).1
  · refine ⟨_, rfl, rfl, ?_⟩
    exact ((fan_out_delivers Auth.canonicalText fun _ => 0).2
      [.subscribe 0 [], .subscribe 1 [], .cancel 1, .notify machineSent 9,
        .send, .send, .unlock, .removeSub 1, .receive 0] _ rfl).1

/-! ## The event that is delivered -/

theorem PgBus.announced_prefix_of_step {text : UUIDText} {leftover : String → UUID}
    {bus next : PgBus} {label : PgBus.Label}
    (stepped : PgBus.step text leftover bus label = some next) :
    bus.hub.announced <+: next.hub.announced := by
  cases PgBus.moves_of_step stepped with
  | idle sameHub _ _ =>
      rw [sameHub]
  | hub moved _ _ _ _ => exact FanOut.Hub.announced_prefix_of_step moved

theorem PgBus.announced_prefix {text : UUIDText} {leftover : String → UUID}
    {bus finish : PgBus} {labels : List PgBus.Label}
    (followed : run (PgBus.step text leftover) bus labels = some finish) :
    bus.hub.announced <+: finish.hub.announced := by
  have extended :
      ∀ (state : PgBus) (label : PgBus.Label) (next : PgBus),
        bus.hub.announced <+: state.hub.announced →
        PgBus.step text leftover state label = some next →
        bus.hub.announced <+: next.hub.announced :=
    fun _ _ _ before stepped => before.trans (announced_prefix_of_step stepped)
  exact run_invariant (PgBus.step text leftover) extended List.prefix_rfl followed

/-- A well-formed notification announces the event made of it. -/
theorem PgBus.announced_notify {text : UUIDText} {leftover : String → UUID}
    {bus next : PgBus} {sent : List Char} {now : Time} {event : Event}
    (read : readNotification text leftover now sent = some event)
    (stepped : PgBus.step text leftover bus (.notify sent now) = some next) :
    next.hub.announced = bus.hub.announced ++ [event] := by
  simp only [step, read] at stepped
  rcases Option.map_eq_some_iff.mp stepped with ⟨hub, moved, rfl⟩
  cases FanOut.Hub.moves_of_step moved with
  | announce => rfl

/--
What a subscriber receives for the notification of a stored event has the
identifier, tenant, kind, name and action of the row.  It is the event of the
row exactly when the row has no payload and its time is the listener's.
-/
theorem delivered_eq_persisted_iff (text : UUIDText) (leftover : String → UUID)
    (table inserted : EventTable) (event : Event) (freshID : String)
    (published received : Time) (record : EventRecord) (sent : List Char)
    (done :
      publish text table event freshID published = some (inserted, record, sent))
    (earlier later : List PgBus.Label) (bus notified finish : PgBus)
    (reached : run (PgBus.step text leftover) {} earlier = some bus)
    (announced :
      PgBus.step text leftover bus (.notify sent received) = some notified)
    (followed : run (PgBus.step text leftover) notified later = some finish)
    (index : Nat) (channel : Channel) (delivered : Event)
    (found : finish.hub.channels[index]? = some channel)
    (member : (bus.hub.announced.length, delivered) ∈ channel.received) :
    inserted.find record.id = some record ∧
      (delivered.id = record.id ∧ delivered.orgID = record.orgID ∧
        delivered.kind = record.kind ∧ delivered.name = record.name ∧
        delivered.action = record.action) ∧
      (delivered = record.event ↔
        record.payload = [] ∧ record.createdAt = received) := by
  rcases readNotification_of_publish leftover done received with ⟨stored, read⟩
  have soundNotified :=
    PgBus.sound_step text leftover bus _ notified (PgBus.sound_run reached) announced
  have sound : PgBus.Sound finish :=
    run_invariant (PgBus.step text leftover) (PgBus.sound_step text leftover)
      soundNotified followed
  have original := (sound.hub.delivers found).original _ member
  have numbered :
      finish.hub.announced[bus.hub.announced.length]? =
        some { record.event with timestamp := received, payload := [] } := by
    rcases PgBus.announced_prefix followed with ⟨rest, joined⟩
    rw [← joined, PgBus.announced_notify read announced, List.append_assoc,
      List.getElem?_append_right (Nat.le_refl _), Nat.sub_self]
    rfl
  cases original.symm.trans numbered
  refine ⟨stored, ⟨rfl, rfl, rfl, rfl, rfl⟩, ?_⟩
  constructor
  · intro same
    have times := congrArg Event.timestamp same
    have payloads := congrArg Event.payload same
    exact ⟨payloads.symm, times.symm⟩
  · rintro ⟨noPayload, sameTime⟩
    rw [EventRecord.event, noPayload, sameTime]

/-- A subscriber takes the event that is announced for a machine. -/
def machineLater : List PgBus.Label :=
  [.send, .unlock, .receive 0]

/-- The bus with one subscriber of all kinds. -/
def oneSubscriber : PgBus where
  hub := { subscribers := [0], channels := [⟨[], 0, none, [], [], []⟩] }
  contexts := [0]

theorem delivered_without_payload :
    ∃ inserted record sent notified finish channel delivered,
      publish Auth.canonicalText ⟨[], .nil⟩ (machineEvent []) "f" 5 =
          some (inserted, record, sent) ∧
        PgBus.step Auth.canonicalText (fun _ => 0) oneSubscriber
            (.notify sent 1000) = some notified ∧
        run (PgBus.step Auth.canonicalText fun _ => 0) notified machineLater =
          some finish ∧
        finish.hub.channels[0]? = some channel ∧
        (0, delivered) ∈ channel.received ∧ delivered = record.event := by
  refine ⟨_, _, _, _, _, _, _, rfl, rfl, rfl, rfl, List.mem_singleton_self _, ?_⟩
  refine (delivered_eq_persisted_iff Auth.canonicalText (fun _ => 0) ⟨[], .nil⟩ _
    (machineEvent []) "f" 5 1000 _ _ rfl [.subscribe 0 []] machineLater
    oneSubscriber _ _ rfl rfl rfl 0 _ _ rfl (List.mem_singleton_self _)).2.2.mpr ?_
  exact ⟨rfl, rfl⟩

/-- The payload of a stored event does not reach its subscribers. -/
theorem delivered_loses_payload :
    ∃ inserted record sent notified finish channel delivered,
      publish Auth.canonicalText ⟨[], .nil⟩ (machineEvent [1]) "f" 5 =
          some (inserted, record, sent) ∧
        inserted.find "e" = some record ∧
        PgBus.step Auth.canonicalText (fun _ => 0) oneSubscriber
            (.notify sent 9) = some notified ∧
        run (PgBus.step Auth.canonicalText fun _ => 0) notified machineLater =
          some finish ∧
        finish.hub.channels[0]? = some channel ∧
        channel.received = [(0, delivered)] ∧
        record.payload = [1] ∧ delivered.payload = [] ∧
        record.createdAt = 1000 ∧ delivered.timestamp = 9 ∧
        delivered ≠ record.event := by
  refine ⟨_, _, _, _, _, _, _, rfl, rfl, rfl, rfl, rfl, rfl, rfl, rfl, rfl, rfl, ?_⟩
  intro same
  cases congrArg Event.payload same

end Infractl.Events
