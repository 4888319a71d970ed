import Infractl.Store.Interleaving

/-!
# Calls that run alone

A call whose statements are not interleaved with anything does to the table
what the call of `GenericStore` does, and returns the same error.  This ties
the processes to the calls: sequential results are results about the runs of
processes in which each runs to its end before the next one starts.
-/

namespace Infractl.Store.Process

open Infractl.Lib

variable {Spec Status : Type}
variable (kind : Kind Spec Status) (now : Time)

/-- A call runs alone until it returns. -/
inductive Finishes : Table Spec Status → Process Spec Status →
    Table Spec Status → Option StoreError → Prop where
  | returned (table : Table Spec Status) (error : Option StoreError) :
      Finishes table (.returned error) table error
  | step {table middle after : Table Spec Status}
      {process next : Process Spec Status}
      {effect : Option (Effect Spec Status)} {error : Option StoreError}
      (done : process.exec kind now table = some (middle, next, effect))
      (rest : Finishes middle next after error) :
      Finishes table process after error

variable {kind now}

/-- A statement after which the call returns. -/
theorem Finishes.last
    {table after : Table Spec Status} {process : Process Spec Status}
    {effect : Option (Effect Spec Status)} {error : Option StoreError}
    (done : process.exec kind now table = some (after, .returned error, effect)) :
    Finishes kind now table process after error :=
  .step done (.returned after error)

/-! ## The parent check -/

theorem finishes_walkTo
    {table after : Table Spec Status} {org : UUID}
    {next : Continuation Spec Status} {error result : Option StoreError}
    {fuel : Nat} {visited : List String} {current : String}
    (walked : walkAncestors table org fuel visited current = some result)
    (continues : result = none →
      Finishes kind now table (next.enter kind) after error)
    (fails : ∀ failure, result = some failure →
      after = table ∧ error = some failure) :
    Finishes kind now table (walkTo kind org visited current next) after error := by
  induction fuel generalizing visited current with
  | zero => cases walked
  | succ fuel ih =>
      rw [walkAncestors] at walked
      unfold walkTo
      split
      · next isEmpty =>
          rw [if_pos isEmpty] at walked
          exact continues (Option.some.inj walked).symm
      · next nonempty =>
          rw [if_neg nonempty] at walked
          split
          · next seen =>
              rw [if_pos seen] at walked
              rcases fails _ (Option.some.inj walked).symm with ⟨rfl, rfl⟩
              exact .returned _ _
          · next fresh =>
              rw [if_neg fresh] at walked
              cases selected : selectParent table org current with
              | none =>
                  rw [selected] at walked
                  have read :
                      (readParent org (current :: visited) current next).exec
                          kind now table =
                        some (table, next.enter kind, none) := by
                    simp only [exec, selected]
                  exact .step read (continues (Option.some.inj walked).symm)
              | some parent =>
                  rw [selected] at walked
                  have read :
                      (readParent org (current :: visited) current next).exec
                          kind now table =
                        some (table,
                          walkTo kind org (current :: visited) parent next,
                          none) := by
                    simp only [exec, selected]
                  exact .step read (ih walked)

/-- The process of a parent check goes where the check of the call goes. -/
theorem finishes_validate
    {table after : Table Spec Status} {object : Object Spec Status}
    {next : Continuation Spec Status} {error : Option StoreError}
    (continues : GenericStore.validateParent table object = none →
      Finishes kind now table (next.enter kind) after error)
    (fails : ∀ failure,
      GenericStore.validateParent table object = some failure →
        after = table ∧ error = some failure) :
    Finishes kind now table (validate kind object next) after error := by
  unfold GenericStore.validateParent at continues fails
  unfold validate
  cases columnEq : object.resource.parent with
  | none =>
      simp only [columnEq] at continues
      exact continues trivial
  | some parent =>
      simp only [columnEq] at continues fails ⊢
      split
      · next isEmpty =>
          rw [if_pos isEmpty] at continues
          exact continues rfl
      · next nonempty =>
          rw [if_neg nonempty] at continues fails
          unfold Store.validateParent at continues fails
          split
          · next same =>
              rw [if_pos same] at fails
              rcases fails _ rfl with ⟨rfl, rfl⟩
              exact .returned _ _
          · next different =>
              rw [if_neg different] at continues fails
              cases live : liveExists table ⟨object.resource.orgID, parent⟩ with
              | false =>
                  rw [live] at fails
                  rcases fails _ rfl with ⟨rfl, rfl⟩
                  exact .last (by simp only [exec, live]; rfl)
              | true =>
                  rw [live] at continues fails
                  refine .step (by simp only [exec, live]; rfl) ?_
                  exact finishes_walkTo (Option.some_get _).symm continues fails

/-! ## The calls -/

theorem create_finishes
    (table : Table Spec Status) (object : Object Spec Status) :
    Finishes kind now table (startCreate kind object)
      (GenericStore.create now table object).table
      (GenericStore.create now table object).error := by
  apply finishes_validate
  · intro accepted
    change Finishes kind now table (.insert object) _ _
    cases inserted : insertRow now table object with
    | none =>
        have executed :
            (insert object).exec kind now table =
              some (table, .returned (some .alreadyExists), none) := by
          simp only [exec, inserted]
        simpa only [GenericStore.create, accepted, inserted] using
          Finishes.last executed
    | some result =>
        have executed :
            (insert object).exec kind now table =
              some (result, .returned none, none) := by
          simp only [exec, inserted]
        simpa only [GenericStore.create, accepted, inserted] using
          Finishes.last executed
  · intro failure refused
    simp only [GenericStore.create, refused, and_self]

theorem writeGuarded_finishes
    (table : Table Spec Status) (object tracked : Object Spec Status)
    (accepted : GenericStore.validateParent table object = none)
    (tracking :
      GenericStore.trackGeneration kind table object = .ok tracked) :
    Finishes kind now table
      (.writeGuarded tracked object.resource.resourceVersion)
      (GenericStore.update kind now table object).table
      (GenericStore.update kind now table object).error := by
  cases guarded :
      updateGuarded now table
        (GenericStore.stamp now object.resource.resourceVersion tracked)
        object.resource.resourceVersion with
  | none =>
      have executed :
          (writeGuarded tracked object.resource.resourceVersion).exec kind now
              table =
            some (table, .returned (some .conflict),
              some (.refused tracked.key)) := by
        simp only [exec, guarded]
      simpa only [GenericStore.update, accepted, tracking, guarded] using
        Finishes.last executed
  | some result =>
      have executed :
          (writeGuarded tracked object.resource.resourceVersion).exec kind now
              table =
            some (result, .returned none,
              replaced .accepted table result tracked.key tracked.key) := by
        simp only [exec, guarded]
      simpa only [GenericStore.update, accepted, tracking, guarded] using
        Finishes.last executed

theorem update_finishes
    (table : Table Spec Status) (object : Object Spec Status) :
    Finishes kind now table (startUpdate kind object)
      (GenericStore.update kind now table object).table
      (GenericStore.update kind now table object).error := by
  apply finishes_validate
  · intro accepted
    cases tracked : kind.specBytes with
    | none =>
        have tracking :
            GenericStore.trackGeneration kind table object = .ok object := by
          simp only [GenericStore.trackGeneration, tracked]
        simpa only [Continuation.enter, tracked] using
          writeGuarded_finishes table object object accepted tracking
    | some specBytes =>
        simp only [Continuation.enter, tracked]
        cases selected : selectLive table object.key with
        | none =>
            have executed :
                (readExisting object).exec kind now table =
                  some (table, .returned (some .notFound), none) := by
              simp only [exec, selected]
            simpa only [GenericStore.update, accepted,
              GenericStore.trackGeneration, tracked, selected] using
              Finishes.last executed
        | some existing =>
            have executed :
                (readExisting object).exec kind now table =
                  some (table,
                    .writeGuarded
                      (GenericStore.bumpGeneration specBytes existing object)
                      object.resource.resourceVersion, none) := by
              simp only [exec, selected, tracked]
            refine .step executed ?_
            apply writeGuarded_finishes table object _ accepted
            simp only [GenericStore.trackGeneration, tracked, selected]
  · intro failure refused
    simp only [GenericStore.update, refused, and_self]

theorem partialUpdate_finishes
    (table : Table Spec Status) (key : Key) (version : Int64)
    (fields : FieldMap Spec Status) :
    Finishes kind now table (.writeFields key version fields)
      (GenericStore.partialUpdate now table key version fields).1
      (GenericStore.partialUpdate now table key version fields).2 := by
  rcases written : updateFields now table key version fields with
    _ | _ | result
  · have executed :
        (writeFields key version fields).exec kind now table =
          some (table,
            .returned (some (.database "partial updating resource")), none) := by
      simp only [exec, written]
    simpa only [GenericStore.partialUpdate, written] using
      Finishes.last executed
  · have executed :
        (writeFields key version fields).exec kind now table =
          some (table, .countExisting key, some (.refused key)) := by
      simp only [exec, written]
    refine .step executed ?_
    cases live : liveExists table key with
    | false =>
        have counted :
            (countExisting key).exec kind now table =
              some (table, .returned (some .notFound), none) := by
          simp [exec, live]
        simpa [GenericStore.partialUpdate, written, live] using
          Finishes.last counted
    | true =>
        have counted :
            (countExisting key).exec kind now table =
              some (table, .returned (some .conflict), none) := by
          simp [exec, live]
        simpa [GenericStore.partialUpdate, written, live] using
          Finishes.last counted
  · have executed :
        (writeFields key version fields).exec kind now table =
          some (result, .returned none,
            replaced .accepted table result key (fields.renamed key)) := by
      simp only [exec, written]
    simpa only [GenericStore.partialUpdate, written] using
      Finishes.last executed

theorem delete_finishes
    (table : Table Spec Status) (key : Key) :
    Finishes kind now table (.readForDelete key)
      (GenericStore.delete now table key).1
      (GenericStore.delete now table key).2 := by
  unfold GenericStore.delete
  cases selected : selectLive table key with
  | none =>
      have executed :
          (readForDelete key).exec kind now table =
            some (table, .returned (some .notFound), none) := by
        simp only [exec, selected]
      exact .last executed
  | some existing =>
      have executed :
          (readForDelete key).exec kind now table =
            some (table, .countChildren key existing, none) := by
        simp only [exec, selected]
      refine .step executed ?_
      dsimp only
      split
      · next children =>
          have counted :
              (countChildren key existing).exec kind now table =
                some (table, .returned (some .hasChildren), none) := by
            simp only [exec, if_pos children]
          exact .last counted
      · next childless =>
          split
          · next finalized =>
              have counted :
                  (countChildren key existing).exec kind now table =
                    some (table, .writeDeletionTimestamp key, none) := by
                simp only [exec, if_neg childless, if_pos finalized]
              refine .step counted ?_
              cases marked : markDeletion now table key with
              | none => exact .last (by simp only [exec, finishWrite, marked]; rfl)
              | some result =>
                  exact .last (by simp only [exec, finishWrite, marked]; rfl)
          · next unfinalized =>
              have counted :
                  (countChildren key existing).exec kind now table =
                    some (table, .writeDeletedAt key, none) := by
                simp only [exec, if_neg childless, if_neg unfinalized]
              refine .step counted ?_
              cases deleted : softDelete now table key with
              | none => exact .last (by simp only [exec, finishWrite, deleted]; rfl)
              | some result =>
                  exact .last (by simp only [exec, finishWrite, deleted]; rfl)

end Infractl.Store.Process
