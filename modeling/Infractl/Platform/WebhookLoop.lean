import Infractl.Events.PgBus
import Infractl.Platform.Webhook
import Infractl.Store.GenericStore

/-!
# The delivery loop of the webhooks

The provider subscribes to the bus when it is initialised.  Its loop takes one
event after the other from the channel, reads the webhooks of the event's
tenant and starts a delivery for each that is active and asked for the event.
Meanwhile clients create, change and delete webhooks, the bus announces further
events, and the deliveries end in any order.

The events the loop has asked about are a selection of those the bus has
announced, each at most once, and the deliveries are exactly those that the
questions selected.  So an event reaches only webhooks of its own tenant, and
each of them at most once.
-/

namespace Infractl.Platform

open Infractl.Auth (UUIDText)
open Infractl.Lib
open Infractl.Lib.Run
open Infractl.Store
open Infractl.Events (Event PgBus)
open scoped List

/-- The subscription of the loop, the event it holds, and its deliveries. -/
structure WebhookLoop where
  bus : PgBus := {}
  channel : Option Nat := none
  taken : Option Event := none
  table : Webhooks
  deliveries : List Delivery := []
  /-- The events asked about, each with the table that answered. -/
  asked : List (Event × Webhooks) := []
  finished : List Delivery := []

namespace WebhookLoop

/-- What the bus and the provider do. -/
inductive Label where
  | subscribe (context : Nat)
  | bus (label : PgBus.Label)
  | receive
  | deliverEvent
  | queryFails
  | finish (position : Nat) (ending : Ending)
  | call (now : Time) (call : GenericStore.Call WebhookSpec WebhookStatus)

section Steps

variable (text : UUIDText) (leftover : String → UUID) (rfc3339 : Time → String)
variable (kind : Kind WebhookSpec WebhookStatus)

/-- `for evt := range ch`, when the loop is not busy with an event. -/
def receive (loop : WebhookLoop) : Option WebhookLoop :=
  match loop.channel, loop.taken with
  | some index, none =>
      match (loop.bus.hub.channels[index]?).bind (fun channel => channel.buffer.head?),
          loop.bus.step text leftover (.receive index) with
      | some (_, event), some bus =>
          some { loop with bus := bus, taken := some event }
      | _, _ => none
  | _, _ => none

/-- One step of either. -/
def step (loop : WebhookLoop) : Label → Option WebhookLoop
  | .subscribe context =>
      if loop.channel.isSome then none
      else
        (loop.bus.step text leftover (.subscribe context [])).map fun bus =>
          { loop with
            bus := bus
            channel := some loop.bus.hub.channels.length }
  | .bus label => (loop.bus.step text leftover label).map ({ loop with bus := · })
  | .receive => loop.receive text leftover
  | .deliverEvent =>
      loop.taken.map fun event =>
        { loop with
          taken := none
          deliveries := loop.deliveries ++ deliverEvent loop.table event
          asked := loop.asked ++ [(event, loop.table)] }
  | .queryFails => loop.taken.map fun _ => { loop with taken := none }
  | .finish position ending =>
      loop.deliveries[position]?.map fun delivery =>
        { loop with
          table := deliver rfc3339 loop.table delivery.webhook ending
          deliveries := loop.deliveries.eraseIdx position
          finished := loop.finished ++ [delivery] }
  | .call now call =>
      some { loop with table := GenericStore.execute kind loop.table now call }

end Steps

/-! ## What the loop has received -/

variable {text : UUIDText} {leftover : String → UUID} {rfc3339 : Time → String}
variable {kind : Kind WebhookSpec WebhookStatus}

/-- The events that the loop has asked about, and the one it holds. -/
def events (loop : WebhookLoop) : List Event :=
  loop.asked.map Prod.fst ++ loop.taken.toList

/-- The deliveries that the questions selected. -/
def selected (loop : WebhookLoop) : List Delivery :=
  loop.asked.flatMap (fun question => deliverEvent question.2 question.1)

/-- What the loop does is accounted for by what the bus has handed to it. -/
structure Accounted (loop : WebhookLoop) : Prop where
  bus : loop.bus.Sound
  unsubscribed : loop.channel = none → loop.events = []
  received : ∀ index, loop.channel = some index →
    ∃ channel, loop.bus.hub.channels[index]? = some channel ∧
      loop.events <+ channel.received.map Prod.snd
  exact : (loop.finished ++ loop.deliveries).Perm loop.selected

/-- A channel keeps what has been received from it. -/
theorem received_of_step {bus next : PgBus} {label : PgBus.Label}
    (stepped : bus.step text leftover label = some next) {index : Nat}
    {channel : Events.Channel} (found : bus.hub.channels[index]? = some channel) :
    ∃ after, next.hub.channels[index]? = some after ∧
      channel.received <+: after.received := by
  cases PgBus.moves_of_step stepped with
  | idle sameHub _ _ =>
      rw [sameHub]
      exact ⟨channel, found, List.prefix_rfl⟩
  | hub moved _ _ _ _ => exact FanOut.Hub.received_of_step moved found

namespace Accounted

variable {loop : WebhookLoop} (accounted : loop.Accounted)

include accounted

theorem ofBus {label : PgBus.Label} {bus : PgBus}
    (stepped : loop.bus.step text leftover label = some bus) :
    Accounted { loop with bus := bus } where
  bus := PgBus.sound_step text leftover loop.bus label bus accounted.bus stepped
  unsubscribed := accounted.unsubscribed
  received := by
    intro index subscribed
    rcases accounted.received index subscribed with ⟨channel, found, sublist⟩
    rcases received_of_step stepped found with ⟨after, foundAfter, extended⟩
    exact ⟨after, foundAfter, sublist.trans (extended.sublist.map Prod.snd)⟩
  exact := accounted.exact

theorem subscribe {context : Nat} {bus : PgBus} (silent : loop.channel = none)
    (stepped : loop.bus.step text leftover (.subscribe context []) = some bus) :
    Accounted { loop with
      bus := bus
      channel := some loop.bus.hub.channels.length } where
  bus := (accounted.ofBus stepped).bus
  unsubscribed := by
    intro impossible
    cases impossible
  received := by
    rintro index ⟨⟩
    have nothing : loop.events = [] := accounted.unsubscribed silent
    rcases Option.map_eq_some_iff.mp stepped with ⟨middle, opened, rfl⟩
    rcases Option.map_eq_some_iff.mp opened with ⟨hub, moved, rfl⟩
    cases FanOut.Hub.moves_of_step moved with
    | subscribe topic idle =>
        refine ⟨_, List.getElem?_concat_length, ?_⟩
        exact nothing ▸ List.nil_sublist _
  exact := accounted.exact

theorem receive {next : WebhookLoop}
    (stepped : loop.receive text leftover = some next) :
    next.Accounted := by
  simp only [WebhookLoop.receive] at stepped
  split at stepped
  case h_2 => cases stepped
  case h_1 index subscribed free =>
    split at stepped
    case h_2 => cases stepped
    case h_1 number event bus buffered received =>
      cases stepped
      have after := accounted.ofBus received
      refine ⟨after.bus, ?_, ?_, after.exact⟩
      · intro unsubscribed
        cases subscribed.symm.trans unsubscribed
      · intro other subscribedOther
        cases subscribed.symm.trans subscribedOther
        rcases accounted.received index subscribed with ⟨channel, found, sublist⟩
        rcases Option.map_eq_some_iff.mp received with ⟨hub, moved, rfl⟩
        cases FanOut.Hub.moves_of_step moved with
        | receive earlier receives =>
            cases found.symm.trans earlier
            rcases FanOut.Channel.receive_eq_some_iff.mp receives with
              ⟨pair, rest, filled, rfl⟩
            rw [found, Option.bind_some, filled] at buffered
            cases buffered
            have inside := (List.getElem?_eq_some_iff.mp found).1
            refine ⟨_, List.getElem?_set_self inside, ?_⟩
            simp only [events, free, Option.toList_none, List.append_nil] at sublist
            simp only [events, Option.toList_some, List.map_append]
            exact sublist.append (List.Sublist.refl _)

theorem deliverEvent {event : Event} (held : loop.taken = some event) :
    Accounted { loop with
      taken := none
      deliveries := loop.deliveries ++ Platform.deliverEvent loop.table event
      asked := loop.asked ++ [(event, loop.table)] } := by
  have sameEvents : events { loop with
      taken := none
      deliveries := loop.deliveries ++ Platform.deliverEvent loop.table event
      asked := loop.asked ++ [(event, loop.table)] } = loop.events := by
    simp [events, held]
  refine ⟨accounted.bus, ?_, ?_, ?_⟩
  · rw [sameEvents]
    exact accounted.unsubscribed
  · rw [sameEvents]
    exact accounted.received
  · simp only [selected, List.flatMap_append, List.flatMap_singleton]
    rw [← List.append_assoc]
    exact accounted.exact.append_right _

theorem queryFails : Accounted { loop with taken := none } := by
  have fewer : events { loop with taken := none } <+ loop.events := by
    simp only [events, Option.toList_none, List.append_nil]
    exact List.sublist_append_left _ _
  refine ⟨accounted.bus, ?_, ?_, accounted.exact⟩
  · intro unsubscribed
    rw [accounted.unsubscribed unsubscribed] at fewer
    exact List.sublist_nil.mp fewer
  · intro index subscribed
    rcases accounted.received index subscribed with ⟨channel, found, sublist⟩
    exact ⟨channel, found, fewer.trans sublist⟩

theorem finish {position : Nat} {delivery : Delivery}
    (found : loop.deliveries[position]? = some delivery) (table : Webhooks) :
    Accounted { loop with
      table := table
      deliveries := loop.deliveries.eraseIdx position
      finished := loop.finished ++ [delivery] } := by
  refine ⟨accounted.bus, accounted.unsubscribed, accounted.received, ?_⟩
  rcases List.getElem?_eq_some_iff.mp found with ⟨inside, rfl⟩
  simp only [List.append_assoc, List.singleton_append]
  exact ((List.getElem_cons_eraseIdx_perm inside).append_left _).trans
    accounted.exact

theorem step {label : Label} {next : WebhookLoop}
    (stepped : loop.step text leftover rfc3339 kind label = some next) :
    next.Accounted := by
  cases label with
  | subscribe context =>
      simp only [WebhookLoop.step] at stepped
      split at stepped
      · cases stepped
      · next silent =>
          rcases Option.map_eq_some_iff.mp stepped with ⟨bus, subscribed, rfl⟩
          exact accounted.subscribe (by simpa using silent) subscribed
  | bus label =>
      rcases Option.map_eq_some_iff.mp stepped with ⟨bus, moved, rfl⟩
      exact accounted.ofBus moved
  | receive => exact accounted.receive stepped
  | deliverEvent =>
      rcases Option.map_eq_some_iff.mp stepped with ⟨event, held, rfl⟩
      exact accounted.deliverEvent held
  | queryFails =>
      rcases Option.map_eq_some_iff.mp stepped with ⟨event, _, rfl⟩
      exact accounted.queryFails
  | finish position ending =>
      rcases Option.map_eq_some_iff.mp stepped with ⟨delivery, found, rfl⟩
      exact accounted.finish found _
  | call now call =>
      cases stepped
      exact ⟨accounted.bus, accounted.unsubscribed, accounted.received,
        accounted.exact⟩

end Accounted

theorem accounted_run {table : Webhooks} {labels : List Label} {loop : WebhookLoop}
    (reached : run (step text leftover rfc3339 kind) { table := table } labels =
      some loop) :
    loop.Accounted := by
  have initial : Accounted { table := table } :=
    ⟨PgBus.sound_new, fun _ => rfl, (fun _ impossible => by cases impossible),
      List.Perm.refl _⟩
  exact run_invariant (step text leftover rfc3339 kind)
    (fun _ _ _ accounted stepped => accounted.step stepped) initial reached

/-- The loop asks about announced events only, and once about each. -/
theorem Accounted.asked_sublist {loop : WebhookLoop} (accounted : loop.Accounted) :
    loop.asked.map Prod.fst <+ loop.bus.hub.announced := by
  have asked : loop.asked.map Prod.fst <+ loop.events := List.sublist_append_left _ _
  cases subscribed : loop.channel with
  | none =>
      rw [accounted.unsubscribed subscribed] at asked
      exact asked.trans (List.nil_sublist _)
  | some index =>
      rcases accounted.received index subscribed with ⟨channel, found, sublist⟩
      have delivers := accounted.bus.hub.delivers found
      exact asked.trans (sublist.trans (delivers.subsequence.trans
        (List.filter_sublist.trans (List.drop_sublist _ _))))

/-! ## Whom an event reaches -/

/-- A webhook that is to get an event: one of its tenant that asked for it. -/
structure Addressed (event : Event) (table : Webhooks) (webhook : Webhook) :
    Prop where
  stored : webhook ∈ table.rows
  live : webhook.live = true
  tenant : webhook.resource.orgID = event.orgID
  active : webhook.spec.active = true
  asked : matchesFilter webhook.spec event = true

@[simp]
theorem mem_deliverEvent_iff (table : Webhooks) (event : Event)
    (delivery : Delivery) :
    delivery ∈ deliverEvent table event ↔
      delivery.event = event ∧ Addressed event table delivery.webhook := by
  simp only [deliverEvent, List.mem_map, List.mem_filter, Bool.and_eq_true,
    decide_eq_true_eq]
  constructor
  · rintro ⟨row, ⟨⟨stored, live, tenant⟩, active, asked⟩, rfl⟩
    exact ⟨rfl, stored, live, tenant, active, asked⟩
  · rintro ⟨rfl, addressed⟩
    exact ⟨delivery.webhook, ⟨⟨addressed.stored, addressed.live, addressed.tenant⟩,
      addressed.active, addressed.asked⟩, rfl⟩

/-- The delivery of an event to a webhook. -/
def delivers (key : Key) (event : Event) (delivery : Delivery) : Bool :=
  decide (delivery.webhook.key = key ∧ delivery.event = event)

/-- One question selects a webhook at most once, for the event asked about. -/
theorem countP_deliverEvent_le (table : Webhooks) (event wanted : Event)
    (key : Key) :
    (deliverEvent table event).countP (delivers key wanted) ≤
      if event = wanted then 1 else 0 := by
  by_cases same : event = wanted
  · rw [if_pos same, deliverEvent, List.countP_map]
    have fewer : (table.rows.filter (fun row =>
          row.live && row.resource.orgID = event.orgID)).filter (fun row =>
          row.spec.active && matchesFilter row.spec event) <+ table.rows :=
      List.filter_sublist.trans List.filter_sublist
    calc
      _ ≤ table.rows.countP (delivers key wanted ∘ (⟨·, event⟩)) := fewer.countP_le
      _ = (table.rows.map Object.key).count key := by
          rw [List.count, List.countP_map]
          apply List.countP_congr
          intro row _
          simp [delivers, same]
      _ ≤ 1 := List.nodup_iff_count_le_one.mp table.distinct key
  · rw [if_neg same, Nat.le_zero, List.countP_eq_zero]
    intro delivery member chosen
    exact same ((((mem_deliverEvent_iff table event delivery).mp member).1).symm.trans
      (of_decide_eq_true chosen).2)

theorem countP_selected_le (asked : List (Event × Webhooks)) (event : Event)
    (key : Key) :
    (asked.flatMap (fun question => deliverEvent question.2 question.1)).countP
        (delivers key event) ≤
      (asked.map Prod.fst).count event := by
  induction asked with
  | nil => exact Nat.le_refl 0
  | cons question rest ih =>
      rw [List.flatMap_cons, List.countP_append, List.map_cons, List.count_cons,
        Nat.add_comm]
      have once := countP_deliverEvent_le question.2 question.1 event key
      simp only [beq_iff_eq]
      exact Nat.add_le_add ih once

/--
In every interleaving of announcements, changes to webhooks and deliveries, the
deliveries made and under way are exactly those that the questions of the loop
selected.  Each is to a webhook of the event's own tenant that was live, active
and asked for the event when the tenant's webhooks were read, and no webhook is
sent an event more often than the bus has announced it.
-/
theorem webhooks_get_own_events_once (text : UUIDText) (leftover : String → UUID)
    (rfc3339 : Time → String) (kind : Kind WebhookSpec WebhookStatus)
    {table : Webhooks} {labels : List Label} {loop : WebhookLoop}
    (reached : run (step text leftover rfc3339 kind) { table := table } labels =
      some loop) :
    (loop.finished ++ loop.deliveries).Perm loop.selected ∧
      (∀ delivery ∈ loop.finished ++ loop.deliveries,
        ∃ answered, (delivery.event, answered) ∈ loop.asked ∧
          Addressed delivery.event answered delivery.webhook) ∧
      ∀ key event,
        (loop.finished ++ loop.deliveries).countP (delivers key event) ≤
          loop.bus.hub.announced.count event := by
  have accounted := accounted_run reached
  refine ⟨accounted.exact, ?_, ?_⟩
  · intro delivery member
    rcases List.mem_flatMap.mp (accounted.exact.subset member) with
      ⟨⟨event, answered⟩, asked, selected⟩
    rcases (mem_deliverEvent_iff answered event delivery).mp selected with
      ⟨rfl, addressed⟩
    exact ⟨answered, asked, addressed⟩
  · intro key event
    calc
      _ = loop.selected.countP (delivers key event) := accounted.exact.countP_eq _
      _ ≤ (loop.asked.map Prod.fst).count event := countP_selected_le loop.asked event key
      _ ≤ loop.bus.hub.announced.count event := accounted.asked_sublist.count_le event

/-! ## Two tenants with a webhook each -/

def subscribedWebhook (org : UUID) : Webhook :=
  ⟨{ orgID := org, name := "audit", resourceVersion := 1 },
    { url := "audit", active := true }, {}⟩

/-- The same webhook for two tenants. -/
def twoTenants : Webhooks :=
  ⟨[subscribedWebhook 7, subscribedWebhook 2], by decide⟩

/-- An event about a machine of the first tenant is announced and delivered. -/
def oneDelivery : List Label :=
  [.subscribe 0, .bus (.notify Events.machineSent 9), .bus .send, .bus .unlock,
    .receive, .deliverEvent, .finish 0 .unsent]

/-- The event is delivered once, and not to the other tenant. -/
theorem event_stays_in_tenant :
    ∃ loop,
      run (step Auth.canonicalText (fun _ => 0) (fun _ => "") ⟨none⟩)
          { table := twoTenants } oneDelivery = some loop ∧
        loop.finished.map (fun delivery => delivery.webhook.resource.orgID) = [7] ∧
        (loop.finished ++ loop.deliveries).Perm loop.selected := by
  have seen : (run (step Auth.canonicalText (fun _ => 0) (fun _ => "") ⟨none⟩)
      { table := twoTenants } oneDelivery).map (fun loop =>
        loop.finished.map (fun delivery => delivery.webhook.resource.orgID)) =
      some [7] := by
    decide +kernel
  rcases Option.map_eq_some_iff.mp seen with ⟨loop, reached, tenants⟩
  exact ⟨loop, reached, tenants,
    (webhooks_get_own_events_once Auth.canonicalText (fun _ => 0) (fun _ => "")
      ⟨none⟩ reached).1⟩

end WebhookLoop

end Infractl.Platform
