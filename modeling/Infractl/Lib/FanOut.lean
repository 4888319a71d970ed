import Mathlib.Data.List.Nodup
import Mathlib.Data.List.Sublists
import Infractl.Lib.Run

/-!
# Fan-out to bounded channels

A hub announces events one at a time.  For each it walks along its list of
subscribers and offers the event to those that want it, without ever waiting:
an offer to a full channel is dropped, and the caller may skip a subscriber.
Subscribers are added and removed between two walks, and removing one closes
its channel.  Receivers take events from the channels at any time.

Announcements are numbered, and every channel keeps what happened to it: the
number of events announced before it was opened, those announced before it was
closed, the offers made to it with the number of events it then held, and the
events received from it.  This is bookkeeping that no transition reads.

`Hub.Delivers` is what every run guarantees to a channel.
-/

namespace Infractl.Lib.FanOut

open Infractl.Lib.Run
open scoped List

/-- An offer of an event, as it was decided. -/
structure Offer where
  number : Nat
  pending : Nat
  skipped : Bool
  sent : Bool
deriving DecidableEq

/-- A channel with its buffer, and its history. -/
structure Channel (Event Topic : Type) where
  topic : Topic
  opened : Nat
  closed : Option Nat := none
  buffer : List (Nat × Event) := []
  received : List (Nat × Event) := []
  offers : List Offer := []
deriving DecidableEq

/--
The subscribers, by the index of their channel, and all channels ever opened.
While an event is walked along the subscribers, `walk` holds those still to be
visited.
-/
structure Hub (Event Topic : Type) where
  subscribers : List Nat := []
  channels : List (Channel Event Topic) := []
  announced : List Event := []
  walk : Option (Event × List Nat) := none
  panicked : Bool := false
deriving DecidableEq

/-- What the hub and the receivers do. -/
inductive Label (Event Topic : Type) where
  | subscribe (topic : Topic)
  | remove (channel : Nat)
  | announce (event : Event)
  | visit (skip : Bool)
  | finish
  | receive (channel : Nat)

variable {Event Topic : Type}
variable (wants : Topic → Event → Bool) (capacity : Nat)

/-- A send that does not wait, unless the subscriber is skipped. -/
def Channel.offer (number : Nat) (event : Event) (skip : Bool)
    (channel : Channel Event Topic) : Channel Event Topic :=
  if wants channel.topic event then
    if !skip && decide (channel.buffer.length < capacity) then
      { channel with
        buffer := channel.buffer ++ [(number, event)]
        offers := channel.offers ++ [⟨number, channel.buffer.length, skip, true⟩] }
    else
      { channel with
        offers := channel.offers ++ [⟨number, channel.buffer.length, skip, false⟩] }
  else channel

/-- A send is attempted, whether or not there is room. -/
def Channel.attempted (event : Event) (skip : Bool)
    (channel : Channel Event Topic) : Bool :=
  !skip && wants channel.topic event

def Channel.close (number : Nat) (channel : Channel Event Topic) :
    Channel Event Topic :=
  { channel with closed := some number }

/-- Take the oldest event. -/
def Channel.receive (channel : Channel Event Topic) :
    Option (Channel Event Topic) :=
  match channel.buffer with
  | [] => none
  | event :: rest =>
      some { channel with buffer := rest, received := channel.received ++ [event] }

namespace Hub

/--
One step.  Subscribing, removing and announcing need the lock that a walk
holds.  A send on a closed channel and a second close are panics.
-/
def step (hub : Hub Event Topic) : Label Event Topic → Option (Hub Event Topic)
  | .subscribe topic =>
      if hub.walk.isSome then none
      else
        some
          { hub with
            subscribers := hub.subscribers ++ [hub.channels.length]
            channels := hub.channels ++ [⟨topic, hub.announced.length, none, [], [], []⟩] }
  | .remove index =>
      if hub.walk.isSome then none
      else if index ∈ hub.subscribers then
        some
          { hub with
            subscribers := hub.subscribers.erase index
            channels := hub.channels.modify index (.close hub.announced.length)
            panicked :=
              hub.panicked || hub.channels[index]?.any (·.closed.isSome) }
      else some hub
  | .announce event =>
      if hub.walk.isSome then none
      else
        some
          { hub with
            announced := hub.announced ++ [event]
            walk := some (event, hub.subscribers) }
  | .visit skip =>
      match hub.walk with
      | some (event, index :: rest) =>
          some
            { hub with
              channels :=
                hub.channels.modify index
                  (.offer wants capacity (hub.announced.length - 1) event skip)
              walk := some (event, rest)
              panicked :=
                hub.panicked ||
                  hub.channels[index]?.any (fun channel =>
                    channel.closed.isSome && channel.attempted wants event skip) }
      | _ => none
  | .finish =>
      match hub.walk with
      | some (_, []) => some { hub with walk := none }
      | _ => none
  | .receive index =>
      (hub.channels[index]?.bind Channel.receive).map fun channel =>
        { hub with channels := hub.channels.set index channel }

/-- What a step can do. -/
inductive Moves (hub : Hub Event Topic) :
    Label Event Topic → Hub Event Topic → Prop where
  | subscribe (topic : Topic) (idle : hub.walk = none) :
      Moves hub (.subscribe topic)
        { hub with
          subscribers := hub.subscribers ++ [hub.channels.length]
          channels := hub.channels ++ [⟨topic, hub.announced.length, none, [], [], []⟩] }
  | remove {index : Nat} (idle : hub.walk = none)
      (member : index ∈ hub.subscribers) :
      Moves hub (.remove index)
        { hub with
          subscribers := hub.subscribers.erase index
          channels := hub.channels.modify index (.close hub.announced.length)
          panicked :=
            hub.panicked || hub.channels[index]?.any (·.closed.isSome) }
  | absent (index : Nat) : Moves hub (.remove index) hub
  | announce (event : Event) (idle : hub.walk = none) :
      Moves hub (.announce event)
        { hub with
          announced := hub.announced ++ [event]
          walk := some (event, hub.subscribers) }
  | visit {event : Event} {index : Nat} {rest : List Nat} (skip : Bool)
      (walked : hub.walk = some (event, index :: rest)) :
      Moves hub (.visit skip)
        { hub with
          channels :=
            hub.channels.modify index
              (.offer wants capacity (hub.announced.length - 1) event skip)
          walk := some (event, rest)
          panicked :=
            hub.panicked ||
              hub.channels[index]?.any (fun channel =>
                channel.closed.isSome && channel.attempted wants event skip) }
  | finish {event : Event} (walked : hub.walk = some (event, [])) :
      Moves hub .finish { hub with walk := none }
  | receive {index : Nat} {before channel : Channel Event Topic}
      (found : hub.channels[index]? = some before)
      (taken : before.receive = some channel) :
      Moves hub (.receive index)
        { hub with channels := hub.channels.set index channel }

theorem moves_of_step {wants : Topic → Event → Bool} {capacity : Nat}
    {hub next : Hub Event Topic} {label : Label Event Topic}
    (stepped : hub.step wants capacity label = some next) :
    Moves wants capacity hub label next := by
  have idle (unlocked : ¬ hub.walk.isSome = true) : hub.walk = none := by
    simpa using unlocked
  cases label with
  | subscribe topic =>
      simp only [step] at stepped
      split at stepped
      · cases stepped
      · next unlocked =>
          cases stepped
          exact .subscribe topic (idle unlocked)
  | remove index =>
      simp only [step] at stepped
      split at stepped
      · cases stepped
      · next unlocked =>
          split at stepped
          · next member =>
              cases stepped
              exact .remove (idle unlocked) member
          · cases stepped
            exact .absent index
  | announce event =>
      simp only [step] at stepped
      split at stepped
      · cases stepped
      · next unlocked =>
          cases stepped
          exact .announce event (idle unlocked)
  | visit skip =>
      simp only [step] at stepped
      split at stepped
      · next walked =>
          cases stepped
          exact .visit skip walked
      · cases stepped
  | finish =>
      simp only [step] at stepped
      split at stepped
      · next walked =>
          cases stepped
          exact .finish walked
      · cases stepped
  | receive index =>
      rcases Option.map_eq_some_iff.mp stepped with ⟨channel, received, rfl⟩
      rcases Option.bind_eq_some_iff.mp received with ⟨before, found, taken⟩
      exact .receive found taken

/-- The number of announcements that are settled for a channel. -/
def settled (hub : Hub Event Topic) (index : Nat) : Nat :=
  match hub.walk with
  | some (_, rest) =>
      if index ∈ rest then hub.announced.length - 1 else hub.announced.length
  | none => hub.announced.length

end Hub

/-! ## What holds of a channel -/

/-- A channel after the first announcements have been settled for it. -/
structure Channel.Sound (announced : List Event) (settled : Nat)
    (channel : Channel Event Topic) : Prop where
  opened : channel.opened ≤ settled
  room : channel.buffer.length ≤ capacity
  sent :
    (channel.received ++ channel.buffer).map Prod.fst =
      (channel.offers.filter Offer.sent).map Offer.number
  faithful :
    ∀ pair ∈ channel.received ++ channel.buffer,
      announced[pair.1]? = some pair.2 ∧ wants channel.topic pair.2 = true
  ordered : (channel.offers.map Offer.number).Pairwise (· < ·)
  numbers :
    ∀ offer ∈ channel.offers,
      channel.opened ≤ offer.number ∧ offer.number < settled
  missed :
    ∀ offer ∈ channel.offers, offer.sent = false →
      offer.pending = capacity ∨ offer.skipped = true
  complete :
    ∀ number event, channel.opened ≤ number → number < settled →
      announced[number]? = some event → wants channel.topic event = true →
      (∃ offer ∈ channel.offers, offer.number = number) ∨
        ∃ count, channel.closed = some count ∧ count ≤ number

namespace Channel

variable {wants capacity}
variable {announced : List Event} {settled : Nat} {channel : Channel Event Topic}

theorem sound_new (topic : Topic) :
    Sound wants capacity announced announced.length
      (⟨topic, announced.length, none, [], [], []⟩ : Channel Event Topic) where
  opened := Nat.le_refl _
  room := Nat.zero_le _
  sent := rfl
  faithful := by simp
  ordered := .nil
  numbers := by simp
  missed := by simp
  complete := by
    intro number event above below
    exact absurd below (Nat.not_lt_of_le above)

/-- An announcement that is not settled for the channel changes nothing. -/
theorem Sound.announce (sound : Sound wants capacity announced settled channel)
    (bound : settled ≤ announced.length) (event : Event) :
    Sound wants capacity (announced ++ [event]) settled channel := by
  have earlier {number : Nat} (below : number < announced.length) :
      (announced ++ [event])[number]? = announced[number]? :=
    List.getElem?_append_left below
  refine { sound with faithful := ?_, complete := ?_ }
  · intro pair member
    rcases sound.faithful pair member with ⟨found, wanted⟩
    rw [earlier (List.getElem?_eq_some_iff.mp found).1]
    exact ⟨found, wanted⟩
  · intro number other above below found
    rw [earlier (Nat.lt_of_lt_of_le below bound)] at found
    exact sound.complete number other above below found

theorem Sound.numbers_succ (sound : Sound wants capacity announced settled channel) :
    ∀ offer ∈ channel.offers,
      channel.opened ≤ offer.number ∧ offer.number < settled + 1 := by
  intro offer member
  have numbers := sound.numbers offer member
  exact ⟨numbers.1, Nat.lt_succ_of_lt numbers.2⟩

/-- A closed channel misses an announcement. -/
theorem Sound.miss {count : Nat}
    (sound : Sound wants capacity announced settled channel)
    (closed : channel.closed = some count) (before : count ≤ settled) :
    Sound wants capacity announced (settled + 1) channel := by
  refine
    { sound with
      opened := Nat.le_succ_of_le sound.opened
      numbers := sound.numbers_succ
      complete := ?_ }
  intro number event above below found wanted
  rcases Nat.lt_succ_iff_lt_or_eq.mp below with earlier | rfl
  · exact sound.complete number event above earlier found wanted
  · exact Or.inr ⟨count, closed, before⟩

theorem Sound.close (sound : Sound wants capacity announced settled channel)
    (opened : channel.closed = none) (count : Nat) :
    Sound wants capacity announced settled (channel.close count) := by
  refine { sound with complete := ?_ }
  intro number event above below found wanted
  rcases sound.complete number event above below found wanted with
    offered | ⟨earlier, closed, _⟩
  · exact Or.inl offered
  · cases opened.symm.trans closed

theorem receive_eq_some_iff {next : Channel Event Topic} :
    channel.receive = some next ↔
      ∃ event rest, channel.buffer = event :: rest ∧
        next = { channel with
          buffer := rest
          received := channel.received ++ [event] } := by
  unfold Channel.receive
  split
  · next empty => simp [empty]
  · next event rest filled =>
      simp only [filled, List.cons.injEq, Option.some.injEq]
      constructor
      · rintro rfl
        exact ⟨event, rest, ⟨rfl, rfl⟩, rfl⟩
      · rintro ⟨_, _, ⟨rfl, rfl⟩, rfl⟩
        rfl

theorem Sound.receive (sound : Sound wants capacity announced settled channel)
    {next : Channel Event Topic} (received : channel.receive = some next) :
    Sound wants capacity announced settled next := by
  rcases receive_eq_some_iff.mp received with ⟨event, rest, buffered, rfl⟩
  have moved :
      channel.received ++ [event] ++ rest = channel.received ++ channel.buffer := by
    rw [buffered]
    simp
  refine { sound with room := ?_, sent := ?_, faithful := ?_ }
  · have room := sound.room
    rw [buffered, List.length_cons] at room
    exact Nat.le_of_succ_le room
  · rw [moved]
    exact sound.sent
  · rw [moved]
    exact sound.faithful

/-- What an offer adds to the history, whichever way it turns out. -/
theorem Sound.record (sound : Sound wants capacity announced settled channel)
    {offer : Offer} (number : offer.number = settled)
    (missed : offer.sent = false → offer.pending = capacity ∨ offer.skipped = true)
    {buffer : List (Nat × Event)} (room : buffer.length ≤ capacity)
    (sent :
      (channel.received ++ buffer).map Prod.fst =
        ((channel.offers ++ [offer]).filter Offer.sent).map Offer.number)
    (faithful :
      ∀ pair ∈ channel.received ++ buffer,
        announced[pair.1]? = some pair.2 ∧ wants channel.topic pair.2 = true) :
    Sound wants capacity announced (settled + 1)
      { channel with buffer := buffer, offers := channel.offers ++ [offer] } where
  opened := Nat.le_succ_of_le sound.opened
  room := room
  sent := sent
  faithful := faithful
  ordered := by
    rw [List.map_append, List.pairwise_append]
    refine ⟨sound.ordered, List.pairwise_singleton _ _, ?_⟩
    simp only [List.map_cons, List.map_nil, List.mem_singleton, List.mem_map]
    rintro earlier ⟨other, member, rfl⟩ last rfl
    rw [number]
    exact (sound.numbers other member).2
  numbers := by
    intro other member
    rcases List.mem_append.mp member with earlier | last
    · exact sound.numbers_succ other earlier
    · cases List.mem_singleton.mp last
      rw [number]
      exact ⟨sound.opened, Nat.lt_succ_self _⟩
  missed := by
    intro other member
    rcases List.mem_append.mp member with earlier | last
    · exact sound.missed other earlier
    · cases List.mem_singleton.mp last
      exact missed
  complete := by
    intro other event above below found wanted
    rcases Nat.lt_succ_iff_lt_or_eq.mp below with earlier | rfl
    · rcases sound.complete other event above earlier found wanted with
        ⟨before, member, same⟩ | closed
      · exact Or.inl ⟨before, List.mem_append_left _ member, same⟩
      · exact Or.inr closed
    · exact Or.inl ⟨offer, by simp, number⟩

theorem Sound.offer (sound : Sound wants capacity announced settled channel)
    {event : Event} (last : announced[settled]? = some event) (skip : Bool) :
    Sound wants capacity announced (settled + 1)
      (channel.offer wants capacity settled event skip) := by
  unfold Channel.offer
  by_cases wanted : wants channel.topic event = true
  · rw [if_pos wanted]
    split
    · next accepted =>
        simp only [Bool.and_eq_true, Bool.not_eq_true', decide_eq_true_eq] at accepted
        refine sound.record rfl (fun unsent => by cases unsent) ?_ ?_ ?_
        · rw [List.length_append]
          exact accepted.2
        · simp [List.filter_append, ← sound.sent]
        · intro pair member
          rw [← List.append_assoc] at member
          rcases List.mem_append.mp member with earlier | added
          · exact sound.faithful pair earlier
          · cases List.mem_singleton.mp added
            exact ⟨last, wanted⟩
    · next refused =>
        refine sound.record rfl (fun _ => ?_) sound.room ?_ sound.faithful
        · cases skip with
          | true => exact Or.inr rfl
          | false =>
              have full : ¬ channel.buffer.length < capacity := by
                simpa using refused
              exact Or.inl (Nat.le_antisymm sound.room (Nat.le_of_not_lt full))
        · simp [List.filter_append, ← sound.sent]
  · rw [if_neg wanted]
    refine
      { sound with
        opened := Nat.le_succ_of_le sound.opened
        numbers := sound.numbers_succ
        complete := ?_ }
    intro number other above below found isWanted
    rcases Nat.lt_succ_iff_lt_or_eq.mp below with earlier | rfl
    · exact sound.complete number other above earlier found isWanted
    · cases last.symm.trans found
      exact absurd isWanted wanted

variable {number : Nat} {event : Event} {skip : Bool}

/-- An offer changes the buffer, and adds to the offers, only. -/
theorem offer_eq :
    ∃ buffer added,
      channel.offer wants capacity number event skip =
          { channel with buffer := buffer, offers := channel.offers ++ added } ∧
        ∀ offer ∈ added, offer.skipped = skip := by
  unfold Channel.offer
  split
  · split
    · exact ⟨_, [_], rfl, by simp⟩
    · exact ⟨_, [_], rfl, by simp⟩
  · exact ⟨channel.buffer, [], by simp, by simp⟩

@[simp]
theorem closed_offer :
    (channel.offer wants capacity number event skip).closed = channel.closed := by
  rcases offer_eq with ⟨_, _, same, _⟩
  rw [same]

@[simp]
theorem received_offer :
    (channel.offer wants capacity number event skip).received =
      channel.received := by
  rcases offer_eq with ⟨_, _, same, _⟩
  rw [same]

end Channel

/-! ## What holds of the hub -/

namespace Hub

/-- The channels a hub holds open are its subscribers', and all are sound. -/
structure Sound (hub : Hub Event Topic) : Prop where
  calm : hub.panicked = false
  distinct : hub.subscribers.Nodup
  subscribed :
    ∀ index ∈ hub.subscribers, ∃ channel,
      hub.channels[index]? = some channel ∧ channel.closed = none
  walking :
    ∀ event rest, hub.walk = some (event, rest) →
      rest <:+ hub.subscribers ∧ hub.announced.getLast? = some event
  closed :
    ∀ index channel, hub.channels[index]? = some channel →
      index ∈ hub.subscribers ∨
        ∃ count, channel.closed = some count ∧ count ≤ hub.announced.length
  channels :
    ∀ index channel, hub.channels[index]? = some channel →
      Channel.Sound wants capacity hub.announced (hub.settled index) channel

variable {wants capacity}
variable {hub next : Hub Event Topic}

theorem settled_of_idle (idle : hub.walk = none) (index : Nat) :
    hub.settled index = hub.announced.length := by
  rw [settled, idle]

theorem sound_empty : Sound wants capacity ({} : Hub Event Topic) where
  calm := rfl
  distinct := .nil
  subscribed := by simp
  walking := by simp
  closed := by simp
  channels := by simp

/-- The channels once a new one has been opened. -/
theorem getElem?_concat {channels : List (Channel Event Topic)}
    {added channel : Channel Event Topic} {index : Nat}
    (found : (channels ++ [added])[index]? = some channel) :
    channels[index]? = some channel ∨
      index = channels.length ∧ channel = added := by
  rcases Nat.lt_or_ge index channels.length with below | above
  · rw [List.getElem?_append_left below] at found
    exact Or.inl found
  · rw [List.getElem?_append_right above] at found
    rcases List.getElem?_eq_some_iff.mp found with ⟨bound, same⟩
    simp only [List.length_singleton] at bound
    refine Or.inr ⟨by omega, ?_⟩
    simpa using same.symm

/-- The channels once one of them has been changed. -/
theorem getElem?_of_modify {channels : List (Channel Event Topic)}
    {change : Channel Event Topic → Channel Event Topic}
    {channel : Channel Event Topic} {index other : Nat}
    (found : (channels.modify index change)[other]? = some channel) :
    ∃ before, channels[other]? = some before ∧
      channel = if index = other then change before else before := by
  rw [List.getElem?_modify] at found
  rcases Option.map_eq_some_iff.mp found with ⟨before, earlier, rfl⟩
  exact ⟨before, earlier, rfl⟩

theorem getElem?_of_set {channels : List (Channel Event Topic)}
    {channel after : Channel Event Topic} {index other : Nat}
    (found : (channels.set index channel)[other]? = some after) :
    channels[other]? = some after ∨ other = index ∧ after = channel := by
  rw [List.getElem?_set] at found
  split at found
  · next same =>
      split at found
      · cases found
        exact Or.inr ⟨same.symm, rfl⟩
      · cases found
  · exact Or.inl found

theorem Sound.subscribe (sound : Sound wants capacity hub) {topic : Topic}
    (moves : Moves wants capacity hub (.subscribe topic) next) :
    Sound wants capacity next := by
  cases moves with
  | subscribe topic idle =>
      have fresh : hub.channels.length ∉ hub.subscribers := by
        intro member
        rcases sound.subscribed _ member with ⟨channel, found, _⟩
        simp at found
      refine ⟨sound.calm, ?_, ?_, ?_, ?_, ?_⟩
      · refine List.nodup_append.mpr ⟨sound.distinct, List.nodup_singleton _, ?_⟩
        rintro earlier member added addedMember rfl
        exact fresh (List.mem_singleton.mp addedMember ▸ member)
      · intro index member
        rcases List.mem_append.mp member with earlier | added
        · rcases sound.subscribed index earlier with ⟨channel, found, opened⟩
          refine ⟨channel, ?_, opened⟩
          rw [List.getElem?_append_left (List.getElem?_eq_some_iff.mp found).1]
          exact found
        · cases List.mem_singleton.mp added
          exact ⟨_, List.getElem?_concat_length, rfl⟩
      · intro event rest walked
        cases idle.symm.trans walked
      · intro index channel found
        rcases getElem?_concat found with earlier | ⟨rfl, _⟩
        · rcases sound.closed index channel earlier with member | closed
          · exact Or.inl (List.mem_append_left _ member)
          · exact Or.inr closed
        · exact Or.inl (by simp)
      · intro index channel found
        simp only [settled, idle]
        rcases getElem?_concat found with earlier | ⟨_, rfl⟩
        · have before := sound.channels index channel earlier
          rw [settled_of_idle idle] at before
          exact before
        · exact Channel.sound_new topic

theorem Sound.remove (sound : Sound wants capacity hub) {index : Nat}
    (moves : Moves wants capacity hub (.remove index) next) :
    Sound wants capacity next := by
  cases moves with
  | absent => exact sound
  | remove idle member =>
      rcases sound.subscribed index member with ⟨channel, found, opened⟩
      refine ⟨?_, sound.distinct.erase index, ?_, ?_, ?_, ?_⟩
      · simp [sound.calm, found, opened]
      · intro other otherMember
        rcases sound.distinct.mem_erase_iff.mp otherMember with
          ⟨different, stays⟩
        rcases sound.subscribed other stays with ⟨kept, foundKept, openKept⟩
        refine ⟨kept, ?_, openKept⟩
        rw [List.getElem?_modify, foundKept]
        simp [Ne.symm different]
      · intro event rest walked
        cases idle.symm.trans walked
      · intro other changed changedFound
        rcases getElem?_of_modify changedFound with ⟨before, earlier, rfl⟩
        by_cases same : index = other
        · rw [if_pos same]
          exact Or.inr ⟨_, rfl, Nat.le_refl _⟩
        · rw [if_neg same]
          rcases sound.closed other before earlier with stays | closed
          · exact Or.inl
              (sound.distinct.mem_erase_iff.mpr ⟨Ne.symm same, stays⟩)
          · exact Or.inr closed
      · intro other changed changedFound
        rcases getElem?_of_modify changedFound with ⟨before, earlier, rfl⟩
        have soundBefore := sound.channels other before earlier
        by_cases same : index = other
        · subst same
          cases found.symm.trans earlier
          rw [if_pos rfl]
          exact soundBefore.close opened _
        · rw [if_neg same]
          exact soundBefore

theorem Sound.announce (sound : Sound wants capacity hub) {event : Event}
    (moves : Moves wants capacity hub (.announce event) next) :
    Sound wants capacity next := by
  cases moves with
  | announce event idle =>
      refine ⟨sound.calm, sound.distinct, sound.subscribed, ?_, ?_, ?_⟩
      · rintro other rest ⟨⟩
        exact ⟨List.suffix_rfl, List.getLast?_concat⟩
      · intro index channel found
        rcases sound.closed index channel found with member | ⟨count, closed, before⟩
        · exact Or.inl member
        · refine Or.inr ⟨count, closed, ?_⟩
          rw [List.length_append]
          exact Nat.le_add_right_of_le before
      · intro index channel found
        have before := sound.channels index channel found
        rw [settled_of_idle idle] at before
        have announced := before.announce (Nat.le_refl _) event
        simp only [settled, List.length_append, List.length_singleton,
          Nat.add_sub_cancel]
        by_cases member : index ∈ hub.subscribers
        · rw [if_pos member]
          exact announced
        · rw [if_neg member]
          rcases sound.closed index channel found with stays | ⟨count, closed, early⟩
          · exact absurd stays member
          · exact announced.miss closed early

theorem Sound.visit (sound : Sound wants capacity hub) {skip : Bool}
    (moves : Moves wants capacity hub (.visit skip) next) :
    Sound wants capacity next := by
  cases moves with
  | @visit event index rest skip walked =>
      rcases sound.walking event (index :: rest) walked with ⟨suffix, last⟩
      have member : index ∈ hub.subscribers := suffix.subset (by simp)
      have notLater : index ∉ rest :=
        (List.nodup_cons.mp (sound.distinct.sublist suffix.sublist)).1
      rcases sound.subscribed index member with ⟨channel, found, opened⟩
      have length : hub.announced.length - 1 + 1 = hub.announced.length := by
        cases announced : hub.announced with
        | nil => rw [announced] at last; cases last
        | cons first others => simp
      refine ⟨?_, sound.distinct, ?_, ?_, ?_, ?_⟩
      · simp [sound.calm, found, opened]
      · intro other otherMember
        rcases sound.subscribed other otherMember with ⟨kept, foundKept, openKept⟩
        rw [List.getElem?_modify, foundKept]
        refine ⟨_, rfl, ?_⟩
        by_cases same : index = other
        · simp only [if_pos same, Channel.closed_offer]
          exact openKept
        · simp only [if_neg same]
          exact openKept
      · rintro other more ⟨⟩
        exact ⟨(List.suffix_cons index rest).trans suffix, last⟩
      · intro other changed changedFound
        rcases getElem?_of_modify changedFound with ⟨before, earlier, rfl⟩
        rcases sound.closed other before earlier with stays | closed
        · exact Or.inl stays
        · refine Or.inr ?_
          split
          · rw [Channel.closed_offer]
            exact closed
          · exact closed
      · intro other changed changedFound
        rcases getElem?_of_modify changedFound with ⟨before, earlier, rfl⟩
        have soundBefore := sound.channels other before earlier
        simp only [settled, walked] at soundBefore ⊢
        by_cases same : index = other
        · subst same
          rw [if_pos (by simp)] at soundBefore
          rw [if_pos rfl, if_neg notLater, ← length]
          refine soundBefore.offer ?_ skip
          rw [← List.getLast?_eq_getElem?]
          exact last
        · have stays : other ∈ index :: rest ↔ other ∈ rest := by
            simp [Ne.symm same]
          rw [if_neg same]
          simpa only [stays] using soundBefore

theorem Sound.finish (sound : Sound wants capacity hub)
    (moves : Moves wants capacity hub .finish next) :
    Sound wants capacity next := by
  cases moves with
  | finish walked =>
      refine { sound with walking := ?_, channels := ?_ }
      · intro other rest impossible
        cases impossible
      · intro index channel found
        have earlier := sound.channels index channel found
        rw [settled, walked] at earlier
        simpa [settled] using earlier

theorem Sound.receive (sound : Sound wants capacity hub) {index : Nat}
    (moves : Moves wants capacity hub (.receive index) next) :
    Sound wants capacity next := by
  cases moves with
  | @receive _ before channel found taken =>
      have bound := (List.getElem?_eq_some_iff.mp found).1
      have sameClosed : channel.closed = before.closed := by
        rcases Channel.receive_eq_some_iff.mp taken with ⟨_, _, _, rfl⟩
        rfl
      refine { sound with subscribed := ?_, closed := ?_, channels := ?_ }
      · intro other member
        rcases sound.subscribed other member with ⟨kept, foundKept, openKept⟩
        by_cases same : index = other
        · subst same
          cases found.symm.trans foundKept
          refine ⟨channel, ?_, sameClosed.trans openKept⟩
          rw [List.getElem?_set, if_pos rfl, if_pos bound]
        · refine ⟨kept, ?_, openKept⟩
          rw [List.getElem?_set, if_neg same]
          exact foundKept
      · intro other after afterFound
        rcases getElem?_of_set afterFound with earlier | ⟨rfl, rfl⟩
        · exact sound.closed other after earlier
        · rw [sameClosed]
          exact sound.closed other before found
      · intro other after afterFound
        rcases getElem?_of_set afterFound with earlier | ⟨rfl, rfl⟩
        · exact sound.channels other after earlier
        · exact (sound.channels other before found).receive taken

theorem sound_step (hub : Hub Event Topic) (label : Label Event Topic)
    (next : Hub Event Topic) (sound : Sound wants capacity hub)
    (stepped : hub.step wants capacity label = some next) :
    Sound wants capacity next := by
  have moves := moves_of_step stepped
  cases label with
  | subscribe topic => exact sound.subscribe moves
  | remove index => exact sound.remove moves
  | announce event => exact sound.announce moves
  | visit skip => exact sound.visit moves
  | finish => exact sound.finish moves
  | receive index => exact sound.receive moves

/-! ## What is delivered -/

/-- A walk is under way and has not come to the channel yet. -/
def Awaits (hub : Hub Event Topic) (index : Nat) : Prop :=
  ∃ event rest, hub.walk = some (event, rest) ∧ index ∈ rest

variable (wants capacity) in
/--
What is received from a channel: in the order of the announcements, each at
most once, and only events that were announced after the channel was opened
and that it wants.  An event that is missing has still to be offered, or found
the channel full or skipped, or was announced after the channel was closed.
-/
structure Delivers (hub : Hub Event Topic) (index : Nat)
    (channel : Channel Event Topic) : Prop where
  subsequence :
    channel.received.map Prod.snd <+
      (hub.announced.drop channel.opened).filter (wants channel.topic)
  inOrder : (channel.received.map Prod.fst).Pairwise (· < ·)
  original : ∀ pair ∈ channel.received, hub.announced[pair.1]? = some pair.2
  missing :
    ∀ number event, channel.opened ≤ number →
      hub.announced[number]? = some event → wants channel.topic event = true →
      (number, event) ∉ channel.received ++ channel.buffer →
      (hub.Awaits index ∧ number + 1 = hub.announced.length) ∨
        (∃ offer ∈ channel.offers, offer.number = number ∧ offer.sent = false ∧
          (offer.pending = capacity ∨ offer.skipped = true)) ∨
        ∃ count, channel.closed = some count ∧ count ≤ number

/-- Entries of a list at increasing positions are a sublist of it. -/
theorem sublist_of_positions {entries : List Event} {pairs : List (Nat × Event)}
    (start : Nat) (increasing : (pairs.map Prod.fst).Pairwise (· < ·))
    (found :
      ∀ pair ∈ pairs, start ≤ pair.1 ∧ entries[pair.1 - start]? = some pair.2) :
    pairs.map Prod.snd <+ entries := by
  induction entries generalizing pairs start with
  | nil =>
      cases pairs with
      | nil => exact .slnil
      | cons pair rest => exact absurd (found pair (by simp)).2 (by simp)
  | cons entry others ih =>
      have later {rest : List (Nat × Event)}
          (above : ∀ pair ∈ rest, start < pair.1)
          (known : ∀ pair ∈ rest, (entry :: others)[pair.1 - start]? = some pair.2) :
          ∀ pair ∈ rest,
            start + 1 ≤ pair.1 ∧ others[pair.1 - (start + 1)]? = some pair.2 := by
        intro pair member
        have position : pair.1 - start = pair.1 - (start + 1) + 1 := by
          have := above pair member
          omega
        have entryFound := known pair member
        rw [position, List.getElem?_cons_succ] at entryFound
        exact ⟨above pair member, entryFound⟩
      cases pairs with
      | nil => exact List.nil_sublist _
      | cons pair rest =>
          rcases pair with ⟨number, event⟩
          simp only [List.map_cons, List.pairwise_cons, List.forall_mem_map] at increasing
          simp only [List.forall_mem_cons] at found
          rcases Nat.eq_or_lt_of_le found.1.1 with rfl | beyond
          · have same : entry = event := by simpa using found.1.2
            rw [List.map_cons, same]
            refine (ih _ increasing.2 (later increasing.1 ?_)).cons_cons event
            exact fun pair member => (found.2 pair member).2
          · refine (ih _ ?_ (later ?_ ?_)).cons entry
            · simpa using increasing
            · simp only [List.forall_mem_cons]
              exact ⟨beyond, fun pair member =>
                Nat.lt_trans beyond (increasing.1 pair member)⟩
            · simp only [List.forall_mem_cons]
              exact ⟨found.1.2, fun pair member => (found.2 pair member).2⟩

section Received

variable {announced : List Event} {settled : Nat} {channel : Channel Event Topic}

theorem received_numbers
    (good : Channel.Sound wants capacity announced settled channel) :
    channel.received.map Prod.fst <+ channel.offers.map Offer.number := by
  have prefixed :
      channel.received.map Prod.fst <+
        (channel.received ++ channel.buffer).map Prod.fst :=
    (List.sublist_append_left _ _).map _
  rw [good.sent] at prefixed
  exact prefixed.trans (List.filter_sublist.map _)

theorem received_subsequence
    (good : Channel.Sound wants capacity announced settled channel) :
    channel.received.map Prod.snd <+
      (announced.drop channel.opened).filter (wants channel.topic) := by
  have faithful :
      ∀ pair ∈ channel.received,
        announced[pair.1]? = some pair.2 ∧ wants channel.topic pair.2 = true :=
    fun pair member => good.faithful pair (List.mem_append_left _ member)
  have numbers := received_numbers good
  have sublist :
      channel.received.map Prod.snd <+ announced.drop channel.opened := by
    refine sublist_of_positions channel.opened (good.ordered.sublist numbers) ?_
    intro pair member
    have numbered := numbers.subset (List.mem_map_of_mem member)
    rcases List.mem_map.mp numbered with ⟨offer, offered, same⟩
    have above := (good.numbers offer offered).1
    rw [same] at above
    refine ⟨above, ?_⟩
    rw [List.getElem?_drop, Nat.add_sub_cancel' above]
    exact (faithful pair member).1
  have filtered := sublist.filter (wants channel.topic)
  rwa [List.filter_eq_self.mpr] at filtered
  intro event member
  rcases List.mem_map.mp member with ⟨pair, inReceived, rfl⟩
  exact (faithful pair inReceived).2

/-- An offer whose event is neither received nor buffered was not sent. -/
theorem unsent_of_absent
    (good : Channel.Sound wants capacity announced settled channel)
    {offer : Offer} {event : Event} (offered : offer ∈ channel.offers)
    (original : announced[offer.number]? = some event)
    (absent : (offer.number, event) ∉ channel.received ++ channel.buffer) :
    offer.sent = false := by
  by_contra sent
  have delivered :
      offer.number ∈ (channel.received ++ channel.buffer).map Prod.fst := by
    rw [good.sent]
    exact List.mem_map_of_mem
      (List.mem_filter.mpr ⟨offered, by simpa using sent⟩)
  rcases List.mem_map.mp delivered with ⟨pair, member, same⟩
  rw [← same] at original absent
  cases (good.faithful pair member).1.symm.trans original
  exact absent member

end Received

/-- What is announced but not settled is the announcement of the walk. -/
theorem awaits_of_unsettled {index number : Nat} {event : Event}
    (announced : hub.announced[number]? = some event)
    (unsettled : ¬ number < hub.settled index) :
    hub.Awaits index ∧ number + 1 = hub.announced.length := by
  have below := (List.getElem?_eq_some_iff.mp announced).1
  unfold settled at unsettled
  split at unsettled
  · next walked rest atWalk =>
      split at unsettled
      · next member => exact ⟨⟨walked, rest, atWalk, member⟩, by omega⟩
      · exact absurd below unsettled
  · exact absurd below unsettled

variable {label : Label Event Topic} {channel : Channel Event Topic} {index : Nat}

theorem Sound.delivers (sound : Sound wants capacity hub)
    (found : hub.channels[index]? = some channel) :
    Delivers wants capacity hub index channel := by
  have good := sound.channels index channel found
  refine ⟨received_subsequence good, good.ordered.sublist (received_numbers good),
    ?_, ?_⟩
  · intro pair member
    exact (good.faithful pair (List.mem_append_left _ member)).1
  · intro number event above announced wanted absent
    by_cases settledNow : number < hub.settled index
    · rcases good.complete number event above settledNow announced wanted with
        ⟨offer, offered, rfl⟩ | closed
      · have unsent := unsent_of_absent good offered announced absent
        exact Or.inr (Or.inl
          ⟨offer, offered, rfl, unsent, good.missed offer offered unsent⟩)
      · exact Or.inr (Or.inr closed)
    · exact Or.inl (awaits_of_unsettled announced settledNow)

/-! ## What a step adds to a history -/

/--
A channel before and after a step: only a removal closes it, and a new offer
is made by a visit to it, with the flag of that visit.
-/
structure Continues (hub : Hub Event Topic) (label : Label Event Topic)
    (index : Nat) (before after : Channel Event Topic) : Prop where
  opened : after.opened = before.opened
  closed : after.closed = before.closed ∨ label = .remove index
  offers :
    ∀ offer ∈ after.offers, offer ∈ before.offers ∨
      ∃ event rest, label = .visit offer.skipped ∧
        hub.walk = some (event, index :: rest)

theorem continues_refl (hub : Hub Event Topic) (label : Label Event Topic)
    (index : Nat) (channel : Channel Event Topic) :
    hub.Continues label index channel channel :=
  ⟨rfl, Or.inl rfl, fun _ member => Or.inl member⟩

/-- Every channel after a step was there before, or has just been opened. -/
theorem continues_of_step
    (stepped : hub.step wants capacity label = some next)
    (found : next.channels[index]? = some channel) :
    (∃ before, hub.channels[index]? = some before ∧
        hub.Continues label index before channel) ∨
      channel.opened = hub.announced.length ∧ channel.closed = none ∧
        channel.offers = [] := by
  have unchanged (earlier : hub.channels[index]? = some channel) :
      ∃ before, hub.channels[index]? = some before ∧
        hub.Continues label index before channel :=
    ⟨channel, earlier, continues_refl hub label index channel⟩
  cases moves_of_step stepped with
  | subscribe topic idle =>
      rcases getElem?_concat found with earlier | ⟨_, rfl⟩
      · exact Or.inl (unchanged earlier)
      · exact Or.inr ⟨rfl, rfl, rfl⟩
  | remove idle subscribed =>
      rcases getElem?_of_modify found with ⟨before, earlier, rfl⟩
      refine Or.inl ⟨before, earlier, ?_⟩
      split
      · next same =>
          exact ⟨rfl, Or.inr (congrArg _ same), fun _ member => Or.inl member⟩
      · exact continues_refl hub _ index before
  | absent => exact Or.inl (unchanged found)
  | announce event idle => exact Or.inl (unchanged found)
  | @visit event visited rest skip walked =>
      rcases getElem?_of_modify found with ⟨before, earlier, rfl⟩
      refine Or.inl ⟨before, earlier, ?_⟩
      split
      · next same =>
          subst same
          rcases Channel.offer_eq with ⟨buffer, added, offered, flagged⟩
          rw [offered]
          refine ⟨rfl, Or.inl rfl, ?_⟩
          intro offer member
          rcases List.mem_append.mp member with already | new
          · exact Or.inl already
          · exact Or.inr ⟨event, rest, flagged offer new ▸ rfl, walked⟩
      · exact continues_refl hub _ index before
  | finish walked => exact Or.inl (unchanged found)
  | @receive _ before _ earlier taken =>
      rcases getElem?_of_set found with same | ⟨rfl, rfl⟩
      · exact Or.inl (unchanged same)
      · rcases Channel.receive_eq_some_iff.mp taken with ⟨_, _, _, rfl⟩
        exact Or.inl ⟨before, earlier, rfl, Or.inl rfl, fun _ member => Or.inl member⟩

/-- A channel stays, and what has been received from it. -/
theorem received_of_step
    (stepped : hub.step wants capacity label = some next)
    (found : hub.channels[index]? = some channel) :
    ∃ after, next.channels[index]? = some after ∧
      channel.received <+: after.received := by
  cases moves_of_step stepped with
  | subscribe topic idle =>
      have inside := (List.getElem?_eq_some_iff.mp found).1
      exact ⟨channel, (List.getElem?_append_left inside).trans found,
        List.prefix_rfl⟩
  | @remove removed idle subscribed =>
      simp only [List.getElem?_modify, found]
      refine ⟨_, rfl, ?_⟩
      split
      · exact List.prefix_rfl
      · exact List.prefix_rfl
  | absent => exact ⟨channel, found, List.prefix_rfl⟩
  | announce event idle => exact ⟨channel, found, List.prefix_rfl⟩
  | @visit event visited rest skip walked =>
      simp only [List.getElem?_modify, found]
      refine ⟨_, rfl, ?_⟩
      split
      · simp
      · exact List.prefix_rfl
  | finish walked => exact ⟨channel, found, List.prefix_rfl⟩
  | @receive taken before after earlier received =>
      by_cases same : taken = index
      · subst same
        cases found.symm.trans earlier
        have inside := (List.getElem?_eq_some_iff.mp found).1
        rcases Channel.receive_eq_some_iff.mp received with ⟨event, rest, _, rfl⟩
        exact ⟨_, List.getElem?_set_self inside, List.prefix_append _ _⟩
      · exact ⟨channel, (List.getElem?_set_ne same).trans found, List.prefix_rfl⟩

/-- Only an announcement announces. -/
theorem announced_of_step
    (stepped : hub.step wants capacity label = some next)
    (quiet : ∀ event, label ≠ .announce event) :
    next.announced = hub.announced := by
  cases moves_of_step stepped with
  | announce event idle => exact absurd rfl (quiet event)
  | _ => rfl

/-- Only an announcement begins a walk. -/
theorem idle_of_step
    (stepped : hub.step wants capacity label = some next)
    (quiet : ∀ event, label ≠ .announce event) (idle : hub.walk = none) :
    next.walk = none := by
  cases moves_of_step stepped with
  | announce event _ => exact absurd rfl (quiet event)
  | visit skip walked => cases idle.symm.trans walked
  | finish walked => rfl
  | _ => exact idle

/-- What has been announced stays so. -/
theorem announced_prefix_of_step
    (stepped : hub.step wants capacity label = some next) :
    hub.announced <+: next.announced := by
  cases moves_of_step stepped with
  | announce event idle => exact List.prefix_append _ _
  | _ => exact List.prefix_rfl

end Hub

end Infractl.Lib.FanOut
