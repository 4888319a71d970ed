import Mathlib.Data.List.Basic

/-!
# Reading a list page by page

A client that follows continue tokens fetches one page after another until a
page comes without a successor.  `walk` is that client, with a bound on the
number of fetches so that it can be evaluated.

`Serves` is the contract of an offset-paged list: each token stands for an
offset, and fetching it gives the slice of the whole list at that offset.
`Serves.walk` says that under this contract every walk ends, and what the
pages it collected hold.

`initial_of_lower` says what keeps an initial part of a list in order in its
place when the list changes, and `getElem?_countP` where an item of such a list
stands.
-/

namespace Infractl.Lib.Paging

universe u v w

variable {Token : Type u} {Page : Type v} {Item : Type w}

/--
The pages from a token on, `none` when a fetch fails or the last page is not
among the first `fuel`.
-/
def walk (fetch : Token → Option (Page × Option Token)) :
    Nat → Token → Option (List Page)
  | 0, _ => none
  | fuel + 1, token =>
      match fetch token with
      | none => none
      | some (page, none) => some [page]
      | some (page, some next) =>
          (walk fetch fuel next).map (fun rest => page :: rest)

variable {fetch : Token → Option (Page × Option Token)}

theorem walk_last {token : Token} {page : Page}
    (fetched : fetch token = some (page, none)) (fuel : Nat) :
    walk fetch (fuel + 1) token = some [page] := by
  simp only [walk, fetched]

theorem walk_more {token next : Token} {page : Page} {fuel : Nat}
    {rest : List Page}
    (fetched : fetch token = some (page, some next))
    (walked : walk fetch fuel next = some rest) :
    walk fetch (fuel + 1) token = some (page :: rest) := by
  simp only [walk, fetched, walked, Option.map_some]

theorem walk_ne_nil {token : Token} {fuel : Nat} {pages : List Page}
    (walked : walk fetch fuel token = some pages) :
    pages ≠ [] := by
  rintro rfl
  cases fuel with
  | zero => cases walked
  | succ fuel =>
      simp only [walk] at walked
      split at walked
      · cases walked
      · cases walked
      · simp at walked

/-- A walk that is always sent on does not end. -/
theorem walk_eq_none_of_more
    (more : ∀ token, ∃ page next, fetch token = some (page, some next))
    (fuel : Nat) (token : Token) :
    walk fetch fuel token = none := by
  induction fuel generalizing token with
  | zero => rfl
  | succ fuel ih =>
      rcases more token with ⟨page, next, fetched⟩
      simp only [walk, fetched, ih next, Option.map_none]

/-- What holds of every page fetched holds of every page of a walk. -/
theorem forall_mem_walk {good : Page → Prop}
    (fetches :
      ∀ token page next, fetch token = some (page, next) → good page)
    {fuel : Nat} {token : Token} {pages : List Page}
    (walked : walk fetch fuel token = some pages) :
    ∀ page ∈ pages, good page := by
  induction fuel generalizing token pages with
  | zero => cases walked
  | succ fuel ih =>
      simp only [walk] at walked
      split at walked
      · cases walked
      case h_2 page fetched =>
          cases walked
          simpa using fetches token page none fetched
      case h_3 page next fetched =>
          rcases Option.map_eq_some_iff.mp walked with ⟨rest, walkedRest, rfl⟩
          intro found member
          rcases List.mem_cons.mp member with rfl | member
          · exact fetches token found (some next) fetched
          · exact ih walkedRest found member

variable {items : Page → List Item} {whole : List Item} {size : Nat}
variable {At : Token → Nat → Prop}

variable (fetch items whole size At) in
/--
Fetching a token that stands for an offset gives the slice of `size` items at
that offset, and a token for the offset after it exactly when items remain.
-/
def Serves : Prop :=
  ∀ token offset, At token offset →
    ∃ page next, fetch token = some (page, next) ∧
      items page = (whole.drop offset).take size ∧
      (next = none → whole.length ≤ offset + size) ∧
      ∀ following, next = some following →
        offset + size < whole.length ∧ At following (offset + size)

/--
A walk from an offset ends.  Its pages hold the list from that offset on, and
all of them but the last are full.
-/
theorem Serves.walk (serves : Serves fetch items whole size At)
    (positive : 0 < size) {token : Token} {offset : Nat}
    (located : At token offset) :
    ∃ fuel pages, walk fetch fuel token = some pages ∧
      pages.flatMap items = whole.drop offset ∧
      ∀ page ∈ pages.dropLast, (items page).length = size := by
  induction remaining : whole.length - offset using Nat.strongRecOn
      generalizing token offset with
  | _ remaining ih =>
      subst remaining
      rcases serves token offset located with
        ⟨page, next, fetched, slice, isLast, isMore⟩
      cases next with
      | none =>
          have short : (whole.drop offset).length ≤ size := by
            have bound := isLast rfl
            rw [List.length_drop]
            omega
          refine ⟨1, [page], walk_last fetched 0, ?_, ?_⟩
          · rw [List.flatMap_singleton, slice, List.take_of_length_le short]
          · simp
      | some following =>
          rcases isMore following rfl with ⟨inside, locatedNext⟩
          rcases ih _ (by omega) locatedNext rfl with
            ⟨fuel, rest, walked, joined, full⟩
          refine ⟨fuel + 1, page :: rest, walk_more fetched walked, ?_, ?_⟩
          · rw [List.flatMap_cons, slice, joined, ← List.drop_drop,
              List.take_append_drop]
          · rw [List.dropLast_cons_of_ne_nil (walk_ne_nil walked)]
            intro found member
            rcases List.mem_cons.mp member with rfl | member
            · rw [slice, List.length_take, List.length_drop]
              omega
            · exact full found member

/--
A list in order begins with the items seen if it holds them and every item not
after one of them is among them.
-/
theorem initial_of_lower {notAfter : Item → Item → Prop}
    (antisymm : ∀ left right, notAfter left right → notAfter right left →
      left = right)
    {seen whole : List Item}
    (seenSorted : seen.Pairwise notAfter) (seenNodup : seen.Nodup)
    (sorted : whole.Pairwise notAfter) (nodup : whole.Nodup)
    (held : ∀ item ∈ seen, item ∈ whole)
    (lower : ∀ item ∈ whole, ∀ last ∈ seen, notAfter item last → item ∈ seen) :
    seen <+: whole := by
  induction seen generalizing whole with
  | nil => exact List.nil_prefix
  | cons first rest ih =>
      rw [List.pairwise_cons] at seenSorted
      rw [List.nodup_cons] at seenNodup
      cases whole with
      | nil => cases held first (List.mem_cons_self ..)
      | cons head tail =>
          rw [List.pairwise_cons] at sorted
          rw [List.nodup_cons] at nodup
          have same : head = first := by
            rcases List.mem_cons.mp (held first (List.mem_cons_self ..)) with
              same | later
            · exact same.symm
            · have before := sorted.1 first later
              rcases List.mem_cons.mp
                  (lower head (List.mem_cons_self ..) first
                    (List.mem_cons_self ..) before) with same | inRest
              · exact same
              · exact antisymm _ _ before (seenSorted.1 head inRest)
          subst same
          rw [List.cons_prefix_cons]
          refine ⟨rfl, ih seenSorted.2 seenNodup.2 sorted.2 nodup.2 ?_ ?_⟩
          -- An item of the one rest is not the common first item.
          · intro item member
            exact List.mem_of_ne_of_mem (ne_of_mem_of_not_mem member seenNodup.1)
              (held item (List.mem_cons_of_mem _ member))
          · intro item member last lastMember before
            exact List.mem_of_ne_of_mem (ne_of_mem_of_not_mem member nodup.1)
              (lower item (List.mem_cons_of_mem _ member) last
                (List.mem_cons_of_mem _ lastMember) before)

/-- In a list in strict order an item stands behind the items before it. -/
theorem getElem?_countP {isBefore : Item → Item → Bool}
    (asymm : ∀ left right, isBefore left right = true → isBefore right left = false)
    {whole : List Item} {item : Item}
    (sorted : whole.Pairwise fun left right => isBefore left right = true)
    (member : item ∈ whole) :
    whole[whole.countP fun other => isBefore other item]? = some item := by
  have irrefl (other : Item) : isBefore other other = false := by
    cases reflexive : isBefore other other with
    | false => rfl
    | true => exact reflexive.symm.trans (asymm other other reflexive)
  induction whole with
  | nil => cases member
  | cons head tail ih =>
      rw [List.pairwise_cons] at sorted
      by_cases here : item = head
      · subst here
        have none : (item :: tail).countP (fun other => isBefore other item) = 0 := by
          rw [List.countP_eq_zero]
          intro other otherMember
          rcases List.mem_cons.mp otherMember with rfl | later
          · simp [irrefl other]
          · simp [asymm item other (sorted.1 other later)]
        rw [none]
        rfl
      · have later := List.mem_of_ne_of_mem here member
        have counted : (head :: tail).countP (fun other => isBefore other item) =
            tail.countP (fun other => isBefore other item) + 1 :=
          List.countP_cons_of_pos (sorted.1 item later)
        rw [counted]
        exact ih sorted.2 later

end Infractl.Lib.Paging
