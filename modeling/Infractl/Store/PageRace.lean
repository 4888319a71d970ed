import Infractl.Lib.Run
import Infractl.Store.PageWalk

/-!
# Walking the pages while others write

A client follows the continue tokens of a list while other clients create and
delete rows between its requests.  A token is an offset, so what it stands for
moves with the rows before it: a row that is deleted there makes the next page
skip one, and a row that is created there makes it repeat one.

`walk_stable` says that nothing else goes wrong.  As long as the writes leave
the rows up to the last one returned alone, a row that is listed all the time
is returned exactly once.
-/

namespace Infractl.Store

open Infractl.Lib
open Infractl.Lib.Run

variable {Spec Status : Type}

/-- Rows of distinct names are sorted by insertion as well. -/
theorem Collation.insertionSort_eq_sort (collation : Collation)
    {rows : List (Object Spec Status)}
    (names : (rows.map Object.name).Nodup) :
    (rows.insertionSort fun left right =>
        collation.notAfter left.name right.name = true) =
      collation.sort rows := by
  have total : Std.Total fun left right : Object Spec Status =>
      collation.notAfter left.name right.name = true :=
    ⟨fun left right => Bool.or_eq_true_iff.mp
      (collation.total left.name right.name)⟩
  have trans : IsTrans (Object Spec Status) fun left right =>
      collation.notAfter left.name right.name = true :=
    ⟨fun first second third =>
      collation.trans first.name second.name third.name⟩
  have inserted := List.perm_insertionSort
    (fun left right : Object Spec Status =>
      collation.notAfter left.name right.name = true) rows
  refine List.Perm.eq_of_pairwise ?_ (List.pairwise_insertionSort _ rows)
    (collation.sort_pairwise rows)
    (inserted.trans (collation.sort_perm rows).symm)
  intro first second firstMember secondMember before after
  exact List.inj_on_of_nodup_map names (inserted.mem_iff.mp firstMember)
    ((collation.sort_perm rows).mem_iff.mp secondMember)
    (collation.antisymm _ _ before after)

/-! ## Writes of other clients -/

/-- The statements with which `Create` and `Delete` write. -/
inductive RowWrite (Spec Status : Type) where
  | insert (now : Time) (object : Object Spec Status)
  | softDelete (now : Time) (key : Key)
  | markDeletion (now : Time) (key : Key)

namespace RowWrite

/-- The key of the row that a statement writes. -/
def key : RowWrite Spec Status → Key
  | .insert _ object => object.key
  | .softDelete _ key => key
  | .markDeletion _ key => key

/-- The table after a statement; one that is refused changes nothing. -/
def apply (table : Table Spec Status) : RowWrite Spec Status → Table Spec Status
  | .insert now object => (insertRow now table object).getD table
  | .softDelete now key => (Store.softDelete now table key).getD table
  | .markDeletion now key => (Store.markDeletion now table key).getD table

theorem find_apply_other (table : Table Spec Status)
    (write : RowWrite Spec Status) {wanted : Key}
    (different : wanted ≠ write.key) :
    (write.apply table).find wanted = table.find wanted := by
  have updated {key : Key} {guard : Object Spec Status → Bool}
      {assign : Object Spec Status → Object Spec Status}
      {keepsKey : ∀ row, (assign row).key = row.key}
      (different : wanted ≠ key) :
      ((updateLive table key guard assign keepsKey).getD table).find wanted =
        table.find wanted := by
    cases done : updateLive table key guard assign keepsKey with
    | none => rfl
    | some result =>
        rcases updateLive_spec done with ⟨row, _, _, _, replaces⟩
        exact replaces.find_other different
  cases write with
  | insert now object =>
      rw [apply]
      cases inserted : insertRow now table object with
      | none => rfl
      | some result => exact (replaces_of_insertRow inserted).find_other different
  | softDelete now key => exact updated different
  | markDeletion now key => exact updated different

end RowWrite

/-! ## The rows listed -/

section Listed

variable (database : Database Spec Status) (table : Table Spec Status)
variable (org : UUID) (condition : Condition)

/-- A tenant has a live row of a name, and the condition selects it. -/
def isListed (name : String) : Bool :=
  (selectLive table ⟨org, name⟩).any (database.selects condition)

/-- The names of the listed rows, in order. -/
def listedNames : List String :=
  (orderedRows database table org condition).map Object.name

@[simp]
theorem mem_listedNames_iff (name : String) :
    name ∈ listedNames database table org condition ↔
      isListed database table org condition name = true := by
  rw [listedNames, isListed, Option.any_eq_true, List.mem_map]
  constructor
  · rintro ⟨row, member, rfl⟩
    rcases mem_matching_iff.mp (orderedRows_perm.mem_iff.mp member) with
      ⟨stored, live, ofOrg, selected⟩
    refine ⟨row, ?_, selected⟩
    have key : row.key = ⟨org, row.name⟩ := by
      rw [← ofOrg]
      rfl
    rw [← key]
    exact (selectLive_eq_some_iff _ _ _).mpr ⟨KeyedTable.find_key stored, live⟩
  · rintro ⟨row, selectedLive, selected⟩
    rcases (selectLive_eq_some_iff _ _ _).mp selectedLive with ⟨found, live⟩
    have key : row.key = ⟨org, name⟩ := KeyedTable.key_of_find found
    refine ⟨row, orderedRows_perm.mem_iff.mpr (mem_matching_iff.mpr ?_), ?_⟩
    · exact ⟨KeyedTable.find_mem found, live, congrArg Key.org key, selected⟩
    · exact congrArg Key.name key

theorem listedNames_nodup : (listedNames database table org condition).Nodup :=
  (orderedRows_perm.map Object.name).nodup_iff.mpr matching_names_nodup

theorem listedNames_pairwise :
    (listedNames database table org condition).Pairwise
      (fun left right => database.collation.notAfter left right = true) := by
  rw [listedNames, List.pairwise_map]
  exact database.collation.sort_pairwise _

/-- A statement changes at most whether the name it writes is listed. -/
theorem isListed_apply_other (write : RowWrite Spec Status) {name : String}
    (different : (⟨org, name⟩ : Key) ≠ write.key) :
    isListed database (write.apply table) org condition name =
      isListed database table org condition name := by
  rw [isListed, isListed, selectLive, selectLive,
    RowWrite.find_apply_other table write different]

end Listed

/-! ## The walk -/

/--
The table, the token to go on with until the walk has ended, and the rows
returned so far.
-/
structure PageWalk (Spec Status : Type) where
  table : Table Spec Status
  token : Option String
  seen : List (Object Spec Status)

/-- A page request of the client, or a statement of another client. -/
inductive PageWalk.Label (Spec Status : Type) where
  | request
  | write (write : RowWrite Spec Status)

namespace PageWalk

/-- The client is about to ask for the first page. -/
def start (table : Table Spec Status) : PageWalk Spec Status :=
  ⟨table, some "", []⟩

section Machine

variable (database : Database Spec Status) (org : UUID) (filter : String)
variable (limit : Int64) (condition : Condition)

/-- One step of the client or of another one. -/
def step (walk : PageWalk Spec Status) :
    Label Spec Status → Option (PageWalk Spec Status)
  | .request =>
      walk.token.bind fun token =>
        (fetchPage database walk.table org filter limit token).map fun fetched =>
          { walk with
            token := fetched.2
            seen := walk.seen ++ fetched.1.items }
  | .write write => some { walk with table := write.apply walk.table }

/--
While the walk goes on, a statement leaves the rows up to the last one returned
alone: it writes a row of another tenant, a row after all rows returned, or one
that is not listed before or after.
-/
def Spares (walk : PageWalk Spec Status) :
    Label Spec Status → PageWalk Spec Status → Prop
  | .request, _ => True
  | .write write, _ =>
      walk.token = none ∨ write.key.org ≠ org ∨
        (∀ row ∈ walk.seen,
          database.collation.notAfter write.key.name row.name = false) ∨
        (isListed database walk.table org condition write.key.name = false ∧
          isListed database (write.apply walk.table) org condition
            write.key.name = false)

/-- The rows returned are where the list begins, and the token is behind them. -/
structure Located (walk : PageWalk Spec Status) (token : String) : Prop where
  offset : startOffset token = .ok (Int64.ofNat walk.seen.length)
  initial : walk.seen.map Object.name <+:
    listedNames database walk.table org condition

variable {database org filter limit condition}

/-- Before the first request nothing was returned. -/
theorem start_located (table : Table Spec Status) :
    Located database org condition (start table) "" :=
  ⟨if_pos rfl, List.nil_prefix⟩

/-- The rows returned are listed, with all listed rows before them. -/
theorem Located.mem_seen {walk : PageWalk Spec Status} {token : String}
    (located : Located database org condition walk token) {name last : String}
    (listed : name ∈ listedNames database walk.table org condition)
    (returned : last ∈ walk.seen.map Object.name)
    (before : database.collation.notAfter name last = true) :
    name ∈ walk.seen.map Object.name := by
  rcases located.initial with ⟨rest, split⟩
  have sorted := listedNames_pairwise database walk.table org condition
  rw [← split] at listed sorted
  rcases List.mem_append.mp listed with seen | later
  · exact seen
  · have after := (List.pairwise_append.mp sorted).2.2 last returned name later
    rw [database.collation.antisymm name last before after]
    exact returned

/-- What a sparing statement on a name of the tenant can be. -/
theorem Spares.cases {walk after : PageWalk Spec Status}
    {write : RowWrite Spec Status} {name : String}
    (spares : Spares database org condition walk (.write write) after)
    (going : walk.token ≠ none)
    (written : (⟨org, name⟩ : Key) = write.key) :
    (∀ last ∈ walk.seen.map Object.name,
        database.collation.notAfter name last = false) ∨
      (isListed database walk.table org condition name = false ∧
        isListed database (write.apply walk.table) org condition name =
          false) := by
  rw [Spares, ← written] at spares
  rcases spares with ended | foreign | behind | unlisted
  · exact absurd ended going
  · exact absurd rfl foreign
  · left
    intro last member
    rcases List.mem_map.mp member with ⟨row, seen, rfl⟩
    exact behind row seen
  · exact Or.inr unlisted

/-- A statement that spares the rows returned leaves them where they are. -/
theorem Located.write {walk : PageWalk Spec Status} {token : String}
    (located : Located database org condition walk token)
    (going : walk.token ≠ none)
    {write : RowWrite Spec Status} {after : PageWalk Spec Status}
    (spares : Spares database org condition walk (.write write) after) :
    Located database org condition
      { walk with table := write.apply walk.table } token where
  offset := located.offset
  initial := by
    have other {name : String} (different : (⟨org, name⟩ : Key) ≠ write.key) :=
      isListed_apply_other database walk.table org condition write different
    have sorted := listedNames_pairwise database walk.table org condition
    have nodup := listedNames_nodup database walk.table org condition
    apply Paging.initial_of_lower database.collation.antisymm
    · exact sorted.sublist located.initial.sublist
    · exact nodup.sublist located.initial.sublist
    · exact listedNames_pairwise ..
    · exact listedNames_nodup ..
    · intro name returned
      have listed := (mem_listedNames_iff ..).mp
        (located.initial.subset returned)
      rw [mem_listedNames_iff]
      by_cases written : (⟨org, name⟩ : Key) = write.key
      · rcases spares.cases going written with behind | unlisted
        · have reflexive := database.collation.total name name
          rw [behind name returned] at reflexive
          cases reflexive
        · rw [unlisted.1] at listed
          cases listed
      · rw [other written]
        exact listed
    · intro name listed last returned before
      rw [mem_listedNames_iff] at listed
      by_cases written : (⟨org, name⟩ : Key) = write.key
      · rcases spares.cases going written with behind | unlisted
        · rw [behind last returned] at before
          cases before
        · rw [unlisted.2] at listed
          cases listed
      · rw [other written] at listed
        exact located.mem_seen ((mem_listedNames_iff ..).mpr listed) returned
          before

/--
A request returns the rows that follow.  Either more are to come, and the walk
goes on behind the rows returned, or every listed row has been returned.
-/
theorem Located.request {walk next : PageWalk Spec Status} {token : String}
    (located : Located database org condition walk token)
    (accepted : Accepts database filter condition)
    (fits : walk.table.rows.length < 2 ^ 63)
    (isToken : walk.token = some token)
    (stepped : step database org filter limit walk .request = some next) :
    (∀ following, next.token = some following →
        Located database org condition next following) ∧
      (next.token = none →
        next.seen.map Object.name =
          listedNames database walk.table org condition) := by
  have inside : walk.seen.length ≤
      (orderedRows database walk.table org condition).length := by
    simpa [listedNames] using located.initial.length_le
  rcases fetchPage_serves accepted fits limit token walk.seen.length
      ⟨located.offset, inside⟩ with
    ⟨page, after, fetched, slice, isLast, isMore⟩
  rw [step, isToken, Option.bind_some, fetched, Option.map_some] at stepped
  cases stepped
  have names : (walk.seen ++ page.items).map Object.name =
      (listedNames database walk.table org condition).take
        (walk.seen.length + (pageSize limit).toNatClampNeg) := by
    have returned := List.prefix_iff_eq_take.mp located.initial
    rw [List.length_map] at returned
    rw [List.map_append, returned, slice, List.take_add, List.map_take,
      List.map_drop]
    rfl
  constructor
  · intro following continues
    rcases isMore following continues with ⟨more, started, _⟩
    refine ⟨?_, ?_⟩
    · rw [started, List.length_append, slice, List.length_take, List.length_drop,
        Nat.min_eq_left (by omega)]
    · rw [names]
      exact List.take_prefix ..
  · intro ended
    rw [names, List.take_of_length_le]
    rw [listedNames, List.length_map]
    exact isLast ended

variable (database org condition) in
/--
While the walk goes on, its rows begin the list; when it has ended, a given
name was returned once.
-/
structure Sound (name : String) (walk : PageWalk Spec Status) : Prop where
  located : ∀ token, walk.token = some token →
    Located database org condition walk token
  returned : walk.token = none → (walk.seen.map Object.name).count name = 1

theorem Sound.step {walk next : PageWalk Spec Status} {name : String}
    {label : Label Spec Status}
    (sound : Sound database org condition name walk)
    (accepted : Accepts database filter condition)
    (stepped : step database org filter limit walk label = some next)
    (fits : walk.table.rows.length < 2 ^ 63)
    (spares : Spares database org condition walk label next)
    (listed : walk.token ≠ none →
      isListed database walk.table org condition name = true) :
    Sound database org condition name next := by
  cases token : walk.token with
  | none =>
      cases label with
      | request =>
          rw [PageWalk.step, token] at stepped
          cases stepped
      | write write =>
          cases stepped
          refine ⟨?_, fun _ => sound.returned token⟩
          intro other isToken
          cases token.symm.trans isToken
  | some current =>
      have located := sound.located current token
      have going : walk.token ≠ none := by
        rw [token]
        exact Option.some_ne_none current
      cases label with
      | request =>
          rcases located.request accepted fits token stepped with
            ⟨continues, ends⟩
          refine ⟨continues, ?_⟩
          intro ended
          rw [ends ended]
          exact List.count_eq_one_of_mem (listedNames_nodup ..)
            ((mem_listedNames_iff ..).mpr (listed going))
      | write write =>
          cases stepped
          constructor
          · intro other isToken
            cases token.symm.trans isToken
            exact located.write going spares
          · intro ended
            cases token.symm.trans ended

end Machine

end PageWalk

/--
In every run in which other clients leave the rows up to the last one returned
alone, a finished walk has returned each row that was listed all the time
exactly once.
-/
theorem walk_stable
    (database : Database Spec Status) (org : UUID) (filter : String)
    (limit : Int64) (condition : Condition)
    (accepted : Accepts database filter condition)
    (table : Table Spec Status) (labels : List (PageWalk.Label Spec Status))
    (final : PageWalk Spec Status)
    (ran : run (PageWalk.step database org filter limit) (PageWalk.start table)
      labels = some final)
    (finished : final.token = none)
    (fits : AllSteps (PageWalk.step database org filter limit)
      (fun walk _ _ => walk.table.rows.length < 2 ^ 63) (PageWalk.start table)
      labels)
    (spares : AllSteps (PageWalk.step database org filter limit)
      (PageWalk.Spares database org condition) (PageWalk.start table) labels)
    (name : String)
    (stays : AllSteps (PageWalk.step database org filter limit)
      (fun walk _ _ => walk.token ≠ none →
        isListed database walk.table org condition name = true)
      (PageWalk.start table) labels) :
    (final.seen.map Object.name).count name = 1 := by
  have initial : PageWalk.Sound database org condition name
      (PageWalk.start table) := by
    constructor
    · intro token isToken
      cases isToken
      exact PageWalk.start_located table
    · intro ended
      cases ended
  have sound := ((fits.and spares).and stays).run_invariant
    (PageWalk.Sound database org condition name)
    (fun walk label next sound stepped good =>
      sound.step accepted stepped good.1.1 good.1.2 good.2)
    initial ran
  exact sound.returned finished

/-! ## Walks through three machines -/

/-- A database that sorts by insertion and knows the name column. -/
def insertingDatabase : Database Unit Unit where
  rejects _ := none
  holds term row := term.value = row.name.toList
  answer _ limit offset _ rows :=
    .ok (((rows.insertionSort fun left right =>
      codePointOrder.notAfter left.name right.name = true).drop offset).take limit)
  collation := codePointOrder
  answer_defaultOrder limit offset table rows names := by
    rw [codePointOrder.insertionSort_eq_sort names]

/-- Three machines of one tenant. -/
def threeMachines : Table Unit Unit :=
  ⟨[machineRow 1 "a" 1, machineRow 1 "b" 1, machineRow 1 "d" 1], by decide⟩

/-- A row is created and another deleted behind the rows returned so far. -/
def writesBehind : List (PageWalk.Label Unit Unit) :=
  [.request, .write (.insert 5 (machineRow 1 "c" 1)), .request,
    .write (.softDelete 6 ⟨1, "d"⟩), .request]

theorem second_machine_returned_once :
    ∃ final,
      run (PageWalk.step insertingDatabase 1 "" 1)
          (PageWalk.start threeMachines) writesBehind =
          some final ∧
        final.token = none ∧ (final.seen.map Object.name).count "b" = 1 := by
  refine ⟨_, rfl, rfl, ?_⟩
  apply walk_stable insertingDatabase 1 "" 1 [] ⟨rfl, rfl⟩ threeMachines
    writesBehind _ rfl rfl
  · refine .cons rfl (by decide) ?_
    refine .cons rfl (by decide) ?_
    refine .cons rfl (by decide) ?_
    refine .cons rfl (by decide) ?_
    refine .cons rfl (by decide) ?_
    trivial
  · refine .cons rfl trivial ?_
    refine .cons rfl (Or.inr (Or.inr (Or.inl (by decide)))) ?_
    refine .cons rfl trivial ?_
    refine .cons rfl (Or.inr (Or.inr (Or.inl (by decide)))) ?_
    refine .cons rfl trivial ?_
    trivial
  · refine .cons rfl (fun _ => rfl) ?_
    refine .cons rfl (fun _ => rfl) ?_
    refine .cons rfl (fun _ => rfl) ?_
    refine .cons rfl (fun _ => rfl) ?_
    refine .cons rfl (fun _ => rfl) ?_
    trivial

/--
The first machine has been returned.  When it is then deleted the walk skips
the second, and when another is created before it the walk returns it again.
-/
theorem writes_before_the_offset_shift_the_walk :
    (∃ final,
      run (PageWalk.step insertingDatabase 1 "" 1)
          (PageWalk.start threeMachines)
          [.request, .write (.softDelete 5 ⟨1, "a"⟩), .request] =
          some final ∧
        final.token = none ∧
        isListed insertingDatabase threeMachines 1 [] "b" = true ∧
        isListed insertingDatabase final.table 1 [] "b" = true ∧
        final.seen.map Object.name = ["a", "d"]) ∧
    (∃ final,
      run (PageWalk.step insertingDatabase 1 "" 1)
          (PageWalk.start threeMachines)
          [.request, .write (.insert 5 (machineRow 1 "A" 1)), .request, .request,
            .request] =
          some final ∧
        final.token = none ∧
        isListed insertingDatabase threeMachines 1 [] "a" = true ∧
        isListed insertingDatabase final.table 1 [] "a" = true ∧
        final.seen.map Object.name = ["a", "a", "b", "d"]) := by
  refine ⟨⟨_, rfl, rfl, rfl, rfl, rfl⟩, ⟨_, rfl, rfl, rfl, rfl, rfl⟩⟩

end Infractl.Store
