import Infractl.Events.Bus
import Infractl.Lib.Tally
import Infractl.Store.Statements

/-!
# Webhook deliveries and their failure counts

`deliverEvent` reads the webhooks of an event's tenant and starts a goroutine
for each of them that is active and asked for the event.  The goroutine posts
the event and writes the outcome to the status of the webhook, with a failure
count computed from the row that `deliverEvent` read.

A `Provider` is the table of webhooks and the deliveries under way, each with
its copy of the row.  How long the HTTP call takes is up to the labels: a
delivery ends with its write, with a write that fails in the database, or, when
its request cannot be built, without one.  The log of finished deliveries is
bookkeeping.

Failure counts are a tally: each is read at the start of a delivery and its
successor is written at the end.
-/

namespace Infractl.Platform

open Infractl.Lib
open Infractl.Lib.Run
open Infractl.Store
open Infractl.Events (Event)

/-- `WebhookSpec`. -/
structure WebhookSpec where
  url : String := ""
  secret : String := ""
  events : List String := []
  kinds : List String := []
  active : Bool := false
deriving DecidableEq

/-- `WebhookStatus`. -/
structure WebhookStatus where
  phase : String := ""
  lastDeliveryAt : String := ""
  lastStatusCode : Int64 := 0
  failureCount : Int64 := 0
deriving DecidableEq

abbrev Webhook := Object WebhookSpec WebhookStatus

abbrev Webhooks := Table WebhookSpec WebhookStatus

/-! ## The provider -/

/-- A list of wanted values, where none means any and `*` is a wildcard. -/
def wantsValue (wanted : List String) (value : String) : Bool :=
  wanted.isEmpty || wanted.any (fun entry => entry = value || entry = "*")

/-- `matchesFilter`. -/
def matchesFilter (spec : WebhookSpec) (event : Event) : Bool :=
  wantsValue spec.events event.action && wantsValue spec.kinds event.kind

/-- What `client.Do` returned: the status code of a response, and an error. -/
structure Answer where
  response : Option Int64
  error : Option String

def Answer.statusCode (answer : Answer) : Int64 :=
  answer.response.getD 0

/-- The request was not answered, or was answered with an error status. -/
def Answer.failed (answer : Answer) : Bool :=
  answer.error.isSome || decide (400 ≤ answer.statusCode)

/-- The count after a delivery. -/
def failureCount (current : Int64) (answer : Answer) : Int64 :=
  if answer.failed then current + 1 else 0

/-- A goroutine that delivers an event: the row it was started with. -/
structure Delivery where
  webhook : Webhook
  event : Event

/-- The table and the deliveries under way. -/
structure Provider where
  table : Webhooks
  deliveries : List Delivery
  finished : List Key

/--
How a delivery ends: with the write of its outcome, with a write that fails in
the database and is forgotten, or before its request is built.
-/
inductive Ending where
  | written (answer : Answer) (now : Time)
  | lost (answer : Answer)
  | unsent

/-- The delivery failed. -/
def Ending.failed : Ending → Bool
  | .written answer _ => answer.failed
  | .lost answer => answer.failed
  | .unsent => true

/-- An event arrives, or the delivery at a position ends. -/
inductive Delivering where
  | deliverEvent (event : Event)
  | finish (position : Nat) (ending : Ending)

/-- The deliveries an event starts: `SELECT * WHERE org_id = ?`, and the loop. -/
def deliverEvent (table : Webhooks) (event : Event) : List Delivery :=
  let webhooks :=
    table.rows.filter (fun row => row.live && row.resource.orgID = event.orgID)
  (webhooks.filter
    (fun row => row.spec.active && matchesFilter row.spec event)).map (⟨·, event⟩)

/-- The status a delivery writes once its request is answered. -/
def deliveredStatus (rfc3339 : Time → String) (now : Time) (webhook : Webhook)
    (answer : Answer) : WebhookStatus where
  phase := "Active"
  lastDeliveryAt := rfc3339 now
  lastStatusCode := answer.statusCode
  failureCount := failureCount webhook.status.failureCount answer

/-- The table after a delivery; nobody looks at the result of its write. -/
def deliver (rfc3339 : Time → String) (table : Webhooks) (webhook : Webhook) :
    Ending → Webhooks
  | .written answer now =>
      (writeStatus now table webhook.key
        (deliveredStatus rfc3339 now webhook answer)).getD table
  | .lost _ => table
  | .unsent => table

namespace Provider

/-- One step of the provider. -/
def step (rfc3339 : Time → String) (provider : Provider) :
    Delivering → Option Provider
  | .deliverEvent event =>
      some { provider with
        deliveries := provider.deliveries ++ deliverEvent provider.table event }
  | .finish position ending =>
      provider.deliveries[position]?.map fun delivery =>
        { table := deliver rfc3339 provider.table delivery.webhook ending
          deliveries := provider.deliveries.eraseIdx position
          finished := provider.finished ++ [delivery.webhook.key] }

/-- The failure count stored for a webhook. -/
def storedCount (provider : Provider) (key : Key) : Option Int64 :=
  (selectLive provider.table key).map (fun row => row.status.failureCount)

/-- A step that ends no delivery to a webhook with a success. -/
def Fails (key : Key) (before : Provider) (label : Delivering) (_ : Provider) :
    Prop :=
  ∀ position ending delivery,
    label = .finish position ending →
    before.deliveries[position]? = some delivery →
    delivery.webhook.key = key →
    ending.failed = true

/--
A step that ends a delivery to a webhook only with a write, and only if it was
started with the failure count that is stored.
-/
def Counted (key : Key) (before : Provider) (label : Delivering)
    (_ : Provider) : Prop :=
  ∀ position ending delivery,
    label = .finish position ending →
    before.deliveries[position]? = some delivery →
    delivery.webhook.key = key →
    (∃ answer now, ending = .written answer now) ∧
      before.storedCount key = some delivery.webhook.status.failureCount

/-! ## What a step does to one webhook -/

section Steps

variable {rfc3339 : Time → String} {before after : Provider} {key : Key}

/-- A delivery that starts holds the count that is stored. -/
theorem count_of_deliverEvent {event : Event} {delivery : Delivery}
    (started : delivery ∈ deliverEvent before.table event) :
    before.storedCount delivery.webhook.key =
      some delivery.webhook.status.failureCount := by
  simp only [deliverEvent, List.mem_map, List.mem_filter, Bool.and_eq_true]
    at started
  rcases started with ⟨row, ⟨⟨member, live, _⟩, _⟩, rfl⟩
  have selected : selectLive before.table row.key = some row :=
    (selectLive_eq_some_iff _ _ _).mpr ⟨KeyedTable.find_key member, live⟩
  simp only [storedCount, selected, Option.map_some]

/-- A delivery writes to its own webhook only. -/
theorem selectLive_deliver_other {table : Webhooks} {webhook : Webhook}
    {ending : Ending} (different : webhook.key ≠ key) :
    selectLive (deliver rfc3339 table webhook ending) key =
      selectLive table key := by
  cases ending with
  | lost answer => rfl
  | unsent => rfl
  | written answer now =>
      cases wrote : writeStatus now table webhook.key
          (deliveredStatus rfc3339 now webhook answer) with
      | none => simp only [deliver, wrote, Option.getD_none]
      | some written =>
          rcases updateLive_spec wrote with ⟨_, _, _, _, replaces⟩
          simp only [deliver, wrote, Option.getD_some, selectLive,
            replaces.find_other (Ne.symm different)]

/-- The row after a write that finds its webhook. -/
theorem selectLive_deliver_written {table : Webhooks} {webhook row : Webhook}
    {answer : Answer} {now : Time}
    (selected : selectLive table webhook.key = some row) :
    selectLive (deliver rfc3339 table webhook (.written answer now))
        webhook.key =
      some (row.setStatus now (deliveredStatus rfc3339 now webhook answer)) := by
  rcases (selectLive_eq_some_iff _ _ _).mp selected with ⟨found, live⟩
  cases wrote : writeStatus now table webhook.key
      (deliveredStatus rfc3339 now webhook answer) with
  | none => cases updateLive_eq_none_iff.mp wrote row found live
  | some written =>
      rcases updateLive_spec wrote with ⟨matched, foundMatched, _, _, replaces⟩
      cases found.symm.trans foundMatched
      simp only [deliver, wrote, Option.getD_some]
      exact (selectLive_eq_some_iff _ _ _).mpr ⟨replaces.find_self, live⟩

/-- The failure counts that deliveries to a webhook were started with. -/
def heldCounts (provider : Provider) (key : Key) : Set Int64 :=
  { count | ∃ delivery ∈ provider.deliveries,
    delivery.webhook.key = key ∧ delivery.webhook.status.failureCount = count }

/-- A step seen from one webhook that is stored. -/
inductive Moves (key : Key) (before : Provider) :
    Delivering → Provider → Prop where
  | start {event : Event} {after : Provider}
      (stored : after.storedCount key = before.storedCount key)
      (held : ∀ count ∈ after.heldCounts key,
        count ∈ before.heldCounts key ∨ before.storedCount key = some count)
      (finished : after.finished.count key = before.finished.count key) :
      Moves key before (.deliverEvent event) after
  | other {position : Nat} {ending : Ending} {delivery : Delivery}
      {after : Provider}
      (found : before.deliveries[position]? = some delivery)
      (different : delivery.webhook.key ≠ key)
      (stored : after.storedCount key = before.storedCount key)
      (held : after.heldCounts key ⊆ before.heldCounts key)
      (finished : after.finished.count key = before.finished.count key) :
      Moves key before (.finish position ending) after
  | write {position : Nat} {answer : Answer} {now : Time} {delivery : Delivery}
      {after : Provider}
      (found : before.deliveries[position]? = some delivery)
      (addressed : delivery.webhook.key = key)
      (stored : after.storedCount key =
        some (failureCount delivery.webhook.status.failureCount answer))
      (held : after.heldCounts key ⊆ before.heldCounts key)
      (finished : after.finished.count key = before.finished.count key + 1) :
      Moves key before (.finish position (.written answer now)) after
  | miss {position : Nat} {ending : Ending} {delivery : Delivery}
      {after : Provider}
      (found : before.deliveries[position]? = some delivery)
      (addressed : delivery.webhook.key = key)
      (unwritten : ∀ answer now, ending ≠ .written answer now)
      (stored : after.storedCount key = before.storedCount key)
      (held : after.heldCounts key ⊆ before.heldCounts key)
      (finished : after.finished.count key = before.finished.count key + 1) :
      Moves key before (.finish position ending) after

theorem moves_of_step {label : Delivering} {count : Int64}
    (stores : before.storedCount key = some count)
    (stepped : before.step rfc3339 label = some after) :
    Moves key before label after := by
  cases label with
  | deliverEvent event =>
      cases stepped
      refine .start rfl ?_ rfl
      rintro held ⟨delivery, member, addressed, same⟩
      rcases List.mem_append.mp member with earlier | started
      · exact Or.inl ⟨delivery, earlier, addressed, same⟩
      · rw [← same, ← addressed]
        exact Or.inr (count_of_deliverEvent started)
  | finish position ending =>
      rcases Option.map_eq_some_iff.mp stepped with ⟨delivery, found, rfl⟩
      have held : ∀ table finished,
          (⟨table, before.deliveries.eraseIdx position, finished⟩ :
            Provider).heldCounts key ⊆ before.heldCounts key := by
        rintro table finished kept ⟨other, member, addressed, same⟩
        exact ⟨other, List.mem_of_mem_eraseIdx member, addressed, same⟩
      by_cases addressed : delivery.webhook.key = key
      · have finished :
            (before.finished ++ [delivery.webhook.key]).count key =
              before.finished.count key + 1 := by
          rw [addressed, List.count_append, List.count_singleton_self]
        rcases Option.map_eq_some_iff.mp stores with ⟨row, selected, _⟩
        cases ending with
        | written answer now =>
            refine .write found addressed ?_ (held _ _) finished
            rw [← addressed] at selected ⊢
            simp only [storedCount, selectLive_deliver_written selected]
            rfl
        | lost answer =>
            exact .miss found addressed (by simp) rfl (held _ _) finished
        | unsent =>
            exact .miss found addressed (by simp) rfl (held _ _) finished
      · refine .other found addressed ?_ (held _ _) ?_
        · simp only [storedCount, selectLive_deliver_other addressed]
        · rw [List.count_append, List.count_singleton, if_neg]
          · rfl
          · simpa using addressed

/-! ## The tally of failures -/

/-- The failure count of a webhook as a tally of its deliveries. -/
def tally (provider : Provider) (key : Key) : Tally.View Int64 where
  stored := (provider.storedCount key).getD 0
  held := provider.heldCounts key
  finished := provider.finished.count key

theorem Moves.stores {label : Delivering} {count : Int64}
    (moves : Moves key before label after)
    (stores : before.storedCount key = some count) :
    ∃ next, after.storedCount key = some next := by
  cases moves with
  | start stored => exact ⟨count, stored.trans stores⟩
  | other _ _ stored => exact ⟨count, stored.trans stores⟩
  | write _ _ stored => exact ⟨_, stored⟩
  | miss _ _ _ stored => exact ⟨count, stored.trans stores⟩

theorem Moves.turn {label : Delivering} {count : Int64}
    (moves : Moves key before label after)
    (stores : before.storedCount key = some count)
    (fails : Fails key before label after) :
    Tally.Turn (· + 1) (before.tally key) (after.tally key) := by
  have current : (before.tally key).stored = count := by
    simp only [tally, stores, Option.getD_some]
  cases moves with
  | start stored held finished =>
      refine .read (congrArg (Option.getD · 0) stored) ?_ finished
      intro other holds
      refine (held other holds).imp_right ?_
      intro isStored
      rw [current]
      exact Option.some.inj (isStored.symm.trans stores)
  | other _ _ stored held finished =>
      exact .read (congrArg (Option.getD · 0) stored)
        (fun other holds => Or.inl (held holds)) finished
  | @write position answer now delivery _ found addressed stored held finished =>
      have failed : answer.failed = true :=
        fails position (.written answer now) delivery rfl found addressed
      refine .write ⟨delivery, List.mem_of_getElem? found, addressed, rfl⟩ ?_
        held finished
      simp only [tally, stored, Option.getD_some, failureCount, failed, if_true]
  | miss _ _ _ stored held finished =>
      exact .drop (congrArg (Option.getD · 0) stored) held finished

/-- For one webhook, counting a failure is advancing the tally. -/
theorem Moves.advances_iff {label : Delivering} {count : Int64}
    (moves : Moves key before label after)
    (stores : before.storedCount key = some count)
    (fails : Fails key before label after) :
    Tally.Advances (· + 1) (before.tally key) (after.tally key) ↔
      Counted key before label after := by
  cases moves with
  | start stored held finished =>
      refine iff_of_true (fun more => ?_) ?_
      · simp only [tally, finished] at more
        omega
      · intro position ending delivery same
        cases same
  | @other position ending delivery _ found different stored held finished =>
      refine iff_of_true (fun more => ?_) ?_
      · simp only [tally, finished] at more
        omega
      · rintro _ _ other ⟨⟩ foundOther addressed
        cases found.symm.trans foundOther
        exact absurd addressed different
  | @write position answer now delivery _ found addressed stored held finished =>
      have failed : answer.failed = true :=
        fails position (.written answer now) delivery rfl found addressed
      simp only [Tally.Advances, tally, finished, stored, stores, failureCount,
        failed, if_true, Option.getD_some, forall_const]
      constructor
      · rintro same _ _ other ⟨⟩ foundOther _
        cases found.symm.trans foundOther
        refine ⟨⟨answer, now, rfl⟩, stores.trans (congrArg some ?_)⟩
        -- Successors of 64-bit counts are equal only for equal counts.
        exact (Int64.add_left_inj 1).mp same.symm
      · intro counted
        have current := (counted position _ delivery rfl found addressed).2
        rw [Option.some.inj (stores.symm.trans current)]
  | @miss position ending delivery _ found addressed unwritten stored held
      finished =>
      refine iff_of_false ?_ ?_
      · intro advances
        have same := advances finished
        simp only [tally, stored, stores, Option.getD_some] at same
        exact version_ne_succ count same
      · intro counted
        rcases (counted position ending delivery rfl found addressed).1 with
          ⟨answer, now, written⟩
        exact unwritten answer now written

end Steps

/-! ## Runs -/

theorem iterate_succ (count : Int64) (steps : Nat) :
    (· + 1)^[steps] count = count + Int64.ofNat steps := by
  induction steps with
  | zero => exact (Int64.add_zero count).symm
  | succ steps ih => rw [Function.iterate_succ_apply', ih, version_add_succ]

/-- Fewer than `2 ^ 64` steps do not come back to a count. -/
theorem add_ofNat_ne {count : Int64} {index steps : Nat}
    (earlier : index < steps) (few : steps < 2 ^ 64) :
    count + Int64.ofNat index ≠ count + Int64.ofNat steps := by
  intro same
  have split : steps = index + (steps - index) := by omega
  rw [split, Int64.ofNat_add, ← Int64.add_assoc] at same
  have back := eq_zero_of_version_eq (by omega) same.symm
  omega

section Run

variable {rfc3339 : Time → String} {start finish : Provider} {key : Key}
variable {labels : List Delivering}

/-- The webhook is stored, and has been since the start. -/
def Stores (key : Key) (provider : Provider) : Prop :=
  ∃ count, provider.storedCount key = some count

theorem stores_step (before : Provider) (label : Delivering) (after : Provider)
    (stores : before.Stores key)
    (stepped : before.step rfc3339 label = some after) :
    after.Stores key := by
  rcases stores with ⟨count, stored⟩
  exact (moves_of_step stored stepped).stores stored

/-- Along failing deliveries, steps of a stored webhook may be replaced. -/
theorem allSteps_of_failing
    {strong weak : Provider → Delivering → Provider → Prop}
    (implies :
      ∀ before label after count, before.storedCount key = some count →
        Moves key before label after → Fails key before label after →
        strong before label after → weak before label after)
    (stores : start.Stores key)
    (failing : AllSteps (step rfc3339) (Fails key) start labels)
    (steps : AllSteps (step rfc3339) strong start labels) :
    AllSteps (step rfc3339) weak start labels := by
  refine AllSteps.mono (Stores key)
    (fun before label after holds stepped _ =>
      stores_step before label after holds stepped) ?_ stores
    (failing.and steps)
  rintro before label after ⟨count, stored⟩ stepped ⟨fails, holds⟩
  exact implies before label after count stored (moves_of_step stored stepped)
    fails holds

theorem turns_of_failing (stores : start.Stores key)
    (failing : AllSteps (step rfc3339) (Fails key) start labels) :
    AllSteps (step rfc3339)
      (fun before _ after =>
        Tally.Turn (· + 1) (before.tally key) (after.tally key))
      start labels := by
  refine allSteps_of_failing ?_ stores failing (allSteps_true start labels)
  intro before label after count stored moves fails _
  exact moves.turn stored fails

theorem advances_iff_counted (stores : start.Stores key)
    (failing : AllSteps (step rfc3339) (Fails key) start labels) :
    AllSteps (step rfc3339)
        (fun before _ after =>
          Tally.Advances (· + 1) (before.tally key) (after.tally key))
        start labels ↔
      AllSteps (step rfc3339) (Counted key) start labels := by
  constructor
  · refine allSteps_of_failing ?_ stores failing
    intro before label after count stored moves fails
    exact (moves.advances_iff stored fails).mp
  · refine allSteps_of_failing ?_ stores failing
    intro before label after count stored moves fails
    exact (moves.advances_iff stored fails).mpr

end Run

/--
While all deliveries to a webhook fail, its failure count grows by their number
if each of them was counted; and, for fewer than `2 ^ 64` deliveries, only then.
-/
theorem failure_count_exact_iff
    (rfc3339 : Time → String) (start finish : Provider)
    (labels : List Delivering) (key : Key) (count : Int64)
    (idle : start.deliveries = []) (unfinished : start.finished = [])
    (stored : start.storedCount key = some count)
    (failing : AllSteps (step rfc3339) (Fails key) start labels)
    (reached : run (step rfc3339) start labels = some finish) :
    (AllSteps (step rfc3339) (Counted key) start labels →
        finish.storedCount key =
          some (count + Int64.ofNat (finish.finished.count key))) ∧
      (finish.finished.count key < 2 ^ 64 →
        finish.storedCount key =
          some (count + Int64.ofNat (finish.finished.count key)) →
        AllSteps (step rfc3339) (Counted key) start labels) := by
  have stores : start.Stores key := ⟨count, stored⟩
  have held : (start.tally key).held = ∅ := by
    rw [Set.eq_empty_iff_forall_notMem]
    rintro other ⟨delivery, member, _⟩
    rw [idle] at member
    exact List.not_mem_nil member
  have none_finished : (start.tally key).finished = 0 := by
    simp only [tally, unfinished, List.count_nil]
  have exact_iff := Tally.stored_iff_advances (fun provider => provider.tally key)
    (turns_of_failing stores failing) held none_finished reached
  rw [advances_iff_counted stores failing] at exact_iff
  rcases run_invariant (step rfc3339) stores_step stores reached with
    ⟨final, storedFinal⟩
  simp only [tally, stored, storedFinal, Option.getD_some, iterate_succ]
    at exact_iff
  rw [storedFinal, Option.some.injEq]
  refine ⟨exact_iff.1, fun few => exact_iff.2 ?_⟩
  intro index earlier
  exact add_ofNat_ne earlier few

/-- One webhook that takes every event of its tenant and has not failed. -/
def oneWebhook : Provider where
  table :=
    ⟨[⟨{ orgID := 1, name := "hook" },
        { url := "https://example.com/hook", active := true },
        { phase := "Active" }⟩], by decide⟩
  deliveries := []
  finished := []

/-- A delivery answered with status 503. -/
def unavailable (now : Time) : Delivering :=
  .finish 0 (.written ⟨some 503, none⟩ now)

/-- The second delivery starts after the first has ended. -/
def oneByOne : List Delivering :=
  [.deliverEvent { orgID := 1 }, unavailable 1,
    .deliverEvent { orgID := 1 }, unavailable 2]

theorem fails_unavailable {key : Key} {before after : Provider} {now : Time} :
    Fails key before (unavailable now) after := by
  rintro _ _ _ ⟨⟩ _ _
  rfl

theorem fails_deliverEvent {key : Key} {before after : Provider}
    {event : Event} :
    Fails key before (.deliverEvent event) after := by
  rintro _ _ _ ⟨⟩

theorem failures_one_by_one_counted :
    ∃ finish,
      run (step (fun _ => "")) oneWebhook oneByOne = some finish ∧
        finish.finished.count ⟨1, "hook"⟩ = 2 ∧
        AllSteps (step (fun _ => "")) (Counted ⟨1, "hook"⟩) oneWebhook oneByOne ∧
        finish.storedCount ⟨1, "hook"⟩ = some (0 + Int64.ofNat 2) := by
  have failing : AllSteps (step (fun _ => "")) (Fails ⟨1, "hook"⟩) oneWebhook
      oneByOne :=
    .cons rfl fails_deliverEvent (.cons rfl fails_unavailable
      (.cons rfl fails_deliverEvent (.cons rfl fails_unavailable trivial)))
  refine ⟨_, rfl, rfl, ?_, rfl⟩
  exact (failure_count_exact_iff (fun _ => "") oneWebhook _ oneByOne
    ⟨1, "hook"⟩ 0 rfl rfl rfl failing rfl).2 (by decide) rfl

/-- The second delivery starts before the first has ended. -/
def overlapping : List Delivering :=
  [.deliverEvent { orgID := 1 }, .deliverEvent { orgID := 1 },
    unavailable 1, unavailable 2]

/-- Two deliveries fail, and one failure is counted. -/
theorem overlapping_failures_counted_once :
    AllSteps (step (fun _ => "")) (Fails ⟨1, "hook"⟩) oneWebhook overlapping ∧
      oneWebhook.storedCount ⟨1, "hook"⟩ = some 0 ∧
      ∃ finish,
        run (step (fun _ => "")) oneWebhook overlapping = some finish ∧
          finish.deliveries = [] ∧
          finish.finished.count ⟨1, "hook"⟩ = 2 ∧
          finish.storedCount ⟨1, "hook"⟩ = some 1 := by
  refine ⟨?_, rfl, _, rfl, rfl, rfl, rfl⟩
  exact .cons rfl fails_deliverEvent (.cons rfl fails_deliverEvent
    (.cons rfl fails_unavailable (.cons rfl fails_unavailable trivial)))

end Provider

end Infractl.Platform
