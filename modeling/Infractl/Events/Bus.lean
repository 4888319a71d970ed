import Infractl.Lib.FanOut
import Infractl.Store.Model

/-!
# The in-memory event bus

An event bus hands events to subscribers over channels that hold a hundred
events each, and drops an event for a subscriber whose channel is full.  Both
buses of the source walk along their subscribers under a read lock, and change
the list of subscribers under the write lock; this is the hub of `Lib.FanOut`.

`InMemoryBus` is the hub itself: its subscribers are never removed and never
skipped.  One `publish` is under way at a time; its walk may be interleaved
with receivers.
-/

namespace Infractl.Events

open Infractl.Lib
open Infractl.Lib.Run
open Infractl.Store (UUID Time)

/-- A resource lifecycle event; a payload that is nil has no bytes. -/
structure Event where
  id : String := ""
  orgID : UUID := 0
  kind : String := ""
  name : String := ""
  action : String := ""
  timestamp : Time := 0
  payload : List UInt8 := []
deriving DecidableEq

/-- The event with the fields a publisher may leave out. -/
def Event.complete (event : Event) (freshID : String) (now : Time) : Event :=
  { event with
    id := if event.id = "" then freshID else event.id
    timestamp := if event.timestamp = 0 then now else event.timestamp }

/-- A subscriber of no kinds gets every event. -/
def wants (kinds : List String) (event : Event) : Bool :=
  kinds.isEmpty || kinds.contains event.kind

/-- The capacity of a subscriber's channel. -/
def channelCapacity : Nat := 100

/-- The hub of the bus. -/
abbrev Hub := FanOut.Hub Event (List String)

/-- The channel of a subscriber. -/
abbrev Channel := FanOut.Channel Event (List String)

/-- What a channel is promised at the end of a run. -/
abbrev Delivers (hub : Hub) (index : Nat) (channel : Channel) : Prop :=
  FanOut.Hub.Delivers wants channelCapacity hub index channel

namespace InMemoryBus

/-- What happens on `InMemoryBus`. -/
inductive Label where
  | subscribe (kinds : List String)
  | publish (event : Event) (freshID : String) (now : Time)
  | send
  | unlock
  | receive (channel : Nat)

/-- The steps of the hub. -/
def Label.toHub : Label → FanOut.Label Event (List String)
  | .subscribe kinds => .subscribe kinds
  | .publish event freshID now => .announce (event.complete freshID now)
  | .send => .visit false
  | .unlock => .finish
  | .receive channel => .receive channel

/-- One step of `InMemoryBus`. -/
def step (bus : Hub) (label : Label) : Option Hub :=
  bus.step wants channelCapacity label.toHub

/-- No channel has been closed, and no subscriber skipped. -/
def Plain (bus : Hub) : Prop :=
  ∀ (index : Nat) (channel : Channel), bus.channels[index]? = some channel →
    channel.closed = none ∧ ∀ offer ∈ channel.offers, offer.skipped = false

theorem plain_step (bus : Hub) (label : Label) (next : Hub) (plain : Plain bus)
    (stepped : step bus label = some next) : Plain next := by
  intro index channel found
  rcases FanOut.Hub.continues_of_step stepped found with
    ⟨before, earlier, continues⟩ | ⟨_, opened, unoffered⟩
  · rcases plain index before earlier with ⟨stillOpen, unskipped⟩
    constructor
    · rcases continues.closed with same | removed
      · exact same.trans stillOpen
      · cases label <;> cases removed
    · intro offer member
      rcases continues.offers offer member with already | ⟨_, _, visited, _⟩
      · exact unskipped offer already
      · cases label with
        | send =>
            cases skipped : offer.skipped with
            | false => rfl
            | true =>
                rw [skipped] at visited
                cases visited
        | _ => cases visited
  · rw [unoffered]
    exact ⟨opened, by simp⟩

theorem sound_run {labels : List Label} {bus : Hub}
    (reached : run step {} labels = some bus) :
    FanOut.Hub.Sound wants channelCapacity bus ∧ Plain bus := by
  have kept :
      ∀ (hub : Hub) (label : Label) (next : Hub),
        FanOut.Hub.Sound wants channelCapacity hub ∧ Plain hub →
        step hub label = some next →
        FanOut.Hub.Sound wants channelCapacity next ∧ Plain next := by
    rintro hub label next ⟨sound, plain⟩ stepped
    exact ⟨FanOut.Hub.sound_step hub label.toHub next sound stepped,
      plain_step hub label next plain stepped⟩
  exact run_invariant step kept ⟨FanOut.Hub.sound_empty, by simp [Plain]⟩ reached

end InMemoryBus

end Infractl.Events
