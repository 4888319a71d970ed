import Infractl.Lib.Acyclic

/-!
# Depth-first search with three marks

A partial graph gives each known node the list of its targets.  A search marks
nodes unvisited, in progress or done and collects the done nodes in the order
in which they finish.  It stops at a node it meets while in progress, and at a
target that is not a known node.

The recursion is bounded by fuel.  Fuel beyond the number of unvisited nodes is
always enough, and more fuel never changes an answer.  A search that succeeds
leaves a dependency order; a search that stops has found a cycle or an unknown
target.
-/

namespace Infractl.Lib.DepthFirst

open Relation

universe u

variable {α : Type u}

/-- How far the search is with a node. -/
inductive Mark where
  | unvisited
  | inProgress
  | done
deriving DecidableEq

/-- The marks, and the nodes done so far in the order they finished. -/
structure Search (α : Type u) where
  marks : α → Mark
  order : List α

/-- Why a search stops. -/
inductive Failure (α : Type u) where
  | circular (node : α)
  | missing (node : α)
  | dangling (node target : α)
deriving DecidableEq

/-- Nothing has been visited. -/
def Search.start : Search α :=
  ⟨fun _ => .unvisited, []⟩

/-- The outcome of a search; the outer `none` means that the fuel ran out. -/
abbrev Outcome (α : Type u) :=
  Option (Except (Failure α) (Search α))

/-- Visit nodes one after the other, stopping at the first failure. -/
def visitEach (visit : α → Search α → Outcome α) :
    List α → Search α → Outcome α
  | [], search => some (.ok search)
  | node :: rest, search =>
      match visit node search with
      | some (.ok next) => visitEach visit rest next
      | stopped => stopped

/-! ## Going through a list of nodes -/

/-- What a successful visit leaves alone: nodes in progress and nodes done. -/
structure Extends (search next : Search α) : Prop where
  inProgress : ∀ node,
    next.marks node = .inProgress ↔ search.marks node = .inProgress
  done : ∀ node, search.marks node = .done → next.marks node = .done

namespace Extends

theorem refl (search : Search α) : Extends search search :=
  ⟨fun _ => Iff.rfl, fun _ finished => finished⟩

theorem trans {first second third : Search α}
    (left : Extends first second) (right : Extends second third) :
    Extends first third :=
  ⟨fun node => (right.inProgress node).trans (left.inProgress node),
    fun node finished => right.done node (left.done node finished)⟩

theorem unvisited {search next : Search α} (extension : Extends search next)
    {node : α} (unseen : next.marks node = .unvisited) :
    search.marks node = .unvisited := by
  cases marked : search.marks node with
  | unvisited => rfl
  | inProgress =>
      cases ((extension.inProgress node).mpr marked).symm.trans unseen
  | done => cases (extension.done node marked).symm.trans unseen

end Extends

section VisitEach

variable {visit : α → Search α → Outcome α} {list : List α}
variable {search next : Search α}

theorem visitEach_extends
    (each : ∀ node before after, visit node before = some (.ok after) →
      Extends before after ∧ after.marks node = .done)
    (finished : visitEach visit list search = some (.ok next)) :
    Extends search next ∧ ∀ node ∈ list, next.marks node = .done := by
  induction list generalizing search with
  | nil =>
      cases finished
      exact ⟨.refl _, fun node member => by cases member⟩
  | cons node rest ih =>
      rw [visitEach] at finished
      split at finished
      · next middle visited =>
          rcases each node search middle visited with ⟨first, nodeDone⟩
          rcases ih finished with ⟨second, restDone⟩
          refine ⟨first.trans second, ?_⟩
          intro other member
          rcases List.mem_cons.mp member with rfl | later
          · exact second.done other nodeDone
          · exact restDone other later
      · next stopped => exact absurd finished (stopped next)

theorem visitEach_invariant
    {invariant : Search α → Prop}
    (each : ∀ node before after, visit node before = some (.ok after) →
      invariant before → invariant after)
    (finished : visitEach visit list search = some (.ok next))
    (initial : invariant search) :
    invariant next := by
  induction list generalizing search with
  | nil =>
      cases finished
      exact initial
  | cons node rest ih =>
      rw [visitEach] at finished
      split at finished
      · next middle visited =>
          exact ih finished (each node search middle visited initial)
      · next stopped => exact absurd finished (stopped next)

/-- A failure comes from one of the nodes, visited after some others. -/
theorem visitEach_error
    (each : ∀ node before after, visit node before = some (.ok after) →
      Extends before after)
    {failure : Failure α}
    (failed : visitEach visit list search = some (.error failure)) :
    ∃ node ∈ list, ∃ before, Extends search before ∧
      visit node before = some (.error failure) := by
  induction list generalizing search with
  | nil => cases failed
  | cons node rest ih =>
      rw [visitEach] at failed
      split at failed
      · next middle visited =>
          rcases ih failed with ⟨other, member, before, further, stopped⟩
          exact ⟨other, List.mem_cons_of_mem node member, before,
            (each node search middle visited).trans further, stopped⟩
      · exact ⟨node, List.mem_cons_self .., search, .refl search, failed⟩

theorem visitEach_isSome
    (each : ∀ node before after, visit node before = some (.ok after) →
      Extends before after)
    (answers : ∀ node ∈ list, ∀ before, Extends search before →
      (visit node before).isSome = true) :
    (visitEach visit list search).isSome = true := by
  induction list generalizing search with
  | nil => rfl
  | cons node rest ih =>
      rw [visitEach]
      split
      · next middle visited =>
          apply ih
          intro other member before further
          exact answers other (List.mem_cons_of_mem node member) before
            ((each node search middle visited).trans further)
      · exact answers node (List.mem_cons_self ..) search (.refl search)

theorem visitEach_mono
    {more : α → Search α → Outcome α}
    (agrees : ∀ node before result, visit node before = some result →
      more node before = some result)
    {result : Except (Failure α) (Search α)}
    (answered : visitEach visit list search = some result) :
    visitEach more list search = some result := by
  induction list generalizing search with
  | nil => exact answered
  | cons node rest ih =>
      rw [visitEach] at answered ⊢
      split at answered
      · next middle visited =>
          rw [agrees node search _ visited]
          exact ih answered
      · next stopped =>
          rw [agrees node search _ answered]
          cases result with
          | error failure => rfl
          | ok finished => exact absurd answered (stopped finished)

end VisitEach

/-! ## Dependency orders and remaining nodes -/

/-- An edge from a known node to each of its targets. -/
def Edge (targets : α → Option (List α)) (node target : α) : Prop :=
  ∃ list, targets node = some list ∧ target ∈ list

/-- The finished nodes are known, distinct, and each after its targets. -/
structure Valid (targets : α → Option (List α)) (search : Search α) :
    Prop where
  done : ∀ node, search.marks node = .done ↔ node ∈ search.order
  distinct : search.order.Nodup
  ordered : TargetsFirst (Edge targets) search.order
  known : ∀ node ∈ search.order, (targets node).isSome = true

theorem valid_start (targets : α → Option (List α)) :
    Valid targets Search.start where
  done := by
    intro node
    simp [Search.start]
  distinct := List.nodup_nil
  ordered := Each.nil
  known := by
    intro node member
    cases member

/-- The number of nodes of a list that a search has not visited. -/
def Search.remaining (search : Search α) (nodes : List α) : Nat :=
  nodes.countP (fun node => decide (search.marks node = .unvisited))

variable {targets : α → Option (List α)} {search next : Search α} {node : α}
variable {fuel : Nat}

theorem Extends.remaining_le (extension : Extends search next) (nodes : List α) :
    next.remaining nodes ≤ search.remaining nodes := by
  apply List.countP_mono_left
  intro node _ unseen
  exact decide_eq_true (extension.unvisited (of_decide_eq_true unseen))

/-! ## The search -/

/-- Visit a target of a node, which must be known. -/
def visitTarget (targets : α → Option (List α))
    (visit : α → Search α → Outcome α) (node target : α) (search : Search α) :
    Outcome α :=
  if (targets target).isSome then
    visit target search
  else
    some (.error (.dangling node target))

theorem visitTarget_ok
    {visit : α → Search α → Outcome α} {node target : α}
    (finished :
      visitTarget targets visit node target search = some (.ok next)) :
    visit target search = some (.ok next) := by
  unfold visitTarget at finished
  split at finished
  · exact finished
  · cases finished

variable [DecidableEq α]

def Search.enter (search : Search α) (node : α) : Search α :=
  { search with
    marks := fun other => if other = node then .inProgress else search.marks other }

def Search.finish (search : Search α) (node : α) : Search α where
  marks := fun other => if other = node then .done else search.marks other
  order := search.order ++ [node]

/-- Visit a node: mark it, visit its targets, and finish it. -/
def visit (targets : α → Option (List α)) :
    Nat → α → Search α → Outcome α
  | 0, _, _ => none
  | fuel + 1, node, search =>
      match search.marks node with
      | .done => some (.ok search)
      | .inProgress => some (.error (.circular node))
      | .unvisited =>
          match targets node with
          | none => some (.error (.missing node))
          | some list =>
              match visitEach (visitTarget targets (visit targets fuel) node)
                  list (search.enter node) with
              | some (.ok next) => some (.ok (next.finish node))
              | stopped => stopped

/-- A successful visit either finds the node done or finishes it. -/
theorem visit_ok_cases
    (finished : visit targets (fuel + 1) node search = some (.ok next)) :
    (search.marks node = .done ∧ next = search) ∨
      ∃ list middle, search.marks node = .unvisited ∧
        targets node = some list ∧
        visitEach (visitTarget targets (visit targets fuel) node) list
          (search.enter node) = some (.ok middle) ∧
        next = middle.finish node := by
  rw [visit] at finished
  split at finished
  · next marked =>
      cases finished
      exact Or.inl ⟨marked, rfl⟩
  · cases finished
  · next marked =>
      split at finished
      · cases finished
      · next list known =>
          split at finished
          · next middle visited =>
              cases finished
              exact Or.inr ⟨list, middle, marked, known, visited, rfl⟩
          · next stopped => exact absurd finished (stopped next)

@[simp]
theorem Search.marks_enter (search : Search α) (node other : α) :
    (search.enter node).marks other =
      if other = node then .inProgress else search.marks other :=
  rfl

@[simp]
theorem Search.marks_finish (search : Search α) (node other : α) :
    (search.finish node).marks other =
      if other = node then .done else search.marks other :=
  rfl

theorem visit_extends
    (finished : visit targets fuel node search = some (.ok next)) :
    Extends search next ∧ next.marks node = .done := by
  induction fuel generalizing node search next with
  | zero => cases finished
  | succ fuel ih =>
      rcases visit_ok_cases finished with
        ⟨marked, rfl⟩ | ⟨list, middle, marked, known, visited, rfl⟩
      · exact ⟨.refl next, marked⟩
      · have inner := (visitEach_extends
          (fun _ _ _ visitedTarget => ih (visitTarget_ok visitedTarget))
          visited).1
        refine ⟨⟨?_, ?_⟩, ?_⟩
        · intro other
          rw [Search.marks_finish]
          split
          · next same =>
              subst same
              simp [marked]
          · next different =>
              rw [inner.inProgress, Search.marks_enter, if_neg different]
        · intro other finishedBefore
          rw [Search.marks_finish]
          split
          · rfl
          · next different =>
              apply inner.done
              rw [Search.marks_enter, if_neg different]
              exact finishedBefore
        · rw [Search.marks_finish, if_pos rfl]

/-! ## Success leaves a dependency order -/

theorem Valid.enter {search : Search α} (valid : Valid targets search)
    (fresh : search.marks node = .unvisited) :
    Valid targets (search.enter node) where
  done := by
    intro other
    rw [Search.marks_enter]
    split
    · next same =>
        subst same
        have absent : other ∉ search.order := by
          rw [← valid.done, fresh]
          simp
        simpa [Search.enter] using absent
    · exact valid.done other
  distinct := valid.distinct
  ordered := valid.ordered
  known := valid.known

theorem Valid.finish {search : Search α} {list : List α}
    (valid : Valid targets search) (entered : search.marks node = .inProgress)
    (isKnown : targets node = some list)
    (visited : ∀ target ∈ list, search.marks target = .done) :
    Valid targets (search.finish node) where
  done := by
    intro other
    rw [Search.marks_finish]
    split
    · next same => simp [Search.finish, same]
    · next different =>
        rw [valid.done]
        simp [Search.finish, different]
  distinct := by
    have absent : node ∉ search.order := by
      rw [← valid.done, entered]
      simp
    change (search.order ++ [node]).Nodup
    rw [List.nodup_append]
    refine ⟨valid.distinct, List.nodup_singleton node, ?_⟩
    intro other member last lastMember same
    rw [same, List.mem_singleton.mp lastMember] at member
    exact absent member
  ordered := by
    apply TargetsFirst.concat valid.ordered
    rintro target ⟨other, known, member⟩
    cases isKnown.symm.trans known
    exact (valid.done target).mp (visited target member)
  known := by
    intro other member
    rcases List.mem_append.mp member with old | new
    · exact valid.known other old
    · rw [List.mem_singleton.mp new, isKnown]
      rfl

theorem visit_valid
    (finished : visit targets fuel node search = some (.ok next))
    (valid : Valid targets search) :
    Valid targets next := by
  induction fuel generalizing node search next with
  | zero => cases finished
  | succ fuel ih =>
      rcases visit_ok_cases finished with
        ⟨marked, rfl⟩ | ⟨list, middle, marked, known, visited, rfl⟩
      · exact valid
      · have inner := visitEach_extends
          (fun _ _ _ visitedTarget =>
            visit_extends (visitTarget_ok visitedTarget)) visited
        have middleValid := visitEach_invariant
          (fun _ _ _ visitedTarget => ih (visitTarget_ok visitedTarget))
          visited (valid.enter marked)
        refine middleValid.finish ?_ known inner.2
        rw [inner.1.inProgress, Search.marks_enter, if_pos rfl]

/-- A visit finishes nodes after those that were finished before it. -/
theorem visit_order
    {front : List α} (finished : visit targets fuel node search = some (.ok next))
    (starts : ∃ later, search.order = front ++ later) :
    ∃ later, next.order = front ++ later := by
  induction fuel generalizing node search next with
  | zero => cases finished
  | succ fuel ih =>
      rcases visit_ok_cases finished with
        ⟨_, rfl⟩ | ⟨list, middle, _, _, visited, rfl⟩
      · exact starts
      · have inner : ∃ later, middle.order = front ++ later :=
          visitEach_invariant
            (fun _ _ _ visitedTarget => ih (visitTarget_ok visitedTarget))
            visited starts
        rcases inner with ⟨later, equal⟩
        refine ⟨later ++ [node], ?_⟩
        rw [← List.append_assoc, ← equal]
        rfl

/-- A search that begins at a node without targets finishes that node first. -/
theorem visitEach_starts_with_leaf
    {leaf : α} {rest : List α} {search : Search α} (isLeaf : targets leaf = some [])
    (finished :
      visitEach (visit targets (fuel + 1)) (leaf :: rest) Search.start =
        some (.ok search)) :
    ∃ later, search.order = leaf :: later := by
  have first : visit targets (fuel + 1) leaf Search.start =
      some (.ok ((Search.start.enter leaf).finish leaf)) := by
    simp [visit, Search.start, isLeaf, visitEach]
  have keeps : ∀ node before after,
      visit targets (fuel + 1) node before = some (.ok after) →
      (∃ later, before.order = [leaf] ++ later) →
      ∃ later, after.order = [leaf] ++ later :=
    fun _ _ _ visited => visit_order visited
  rw [visitEach, first] at finished
  exact visitEach_invariant keeps finished ⟨[], rfl⟩

/-! ## Failure shows a cycle or an unknown target -/

/-- Every target of a known node is known. -/
def Closed (targets : α → Option (List α)) : Prop :=
  ∀ node target, Edge targets node target → (targets target).isSome = true

/--
The nodes in progress all lead to the node being visited, so that meeting one
of them again closes a cycle.
-/
theorem visit_error
    {search : Search α} {failure : Failure α}
    (failed : visit targets fuel node search = some (.error failure))
    (isKnown : (targets node).isSome = true)
    (leads : ∀ other, search.marks other = .inProgress →
      TransGen (Edge targets) other node) :
    ¬ (Closed targets ∧ Acyclic (Edge targets)) := by
  rintro ⟨closed, acyclic⟩
  induction fuel generalizing node search with
  | zero => cases failed
  | succ fuel ih =>
      rw [visit] at failed
      split at failed
      · cases failed
      · next marked => exact acyclic node (leads node marked)
      · next marked =>
          split at failed
          · next unknown =>
              rw [unknown] at isKnown
              cases isKnown
          · next list known =>
              split at failed
              · cases failed
              · rcases visitEach_error
                  (fun _ _ _ visitedTarget =>
                    (visit_extends (visitTarget_ok visitedTarget)).1) failed with
                  ⟨target, member, before, extension, stopped⟩
                have edge : Edge targets node target := ⟨list, known, member⟩
                have targetKnown := closed node target edge
                rw [visitTarget, if_pos targetKnown] at stopped
                apply ih stopped targetKnown
                intro other marking
                rw [extension.inProgress, Search.marks_enter] at marking
                split at marking
                · next same =>
                    subst same
                    exact .single edge
                · exact (leads other marking).tail edge

/-! ## Fuel -/

/-- More fuel gives the same answer. -/
theorem visit_mono
    {fuel more : Nat} {search : Search α} {result : Except (Failure α) (Search α)}
    (enough : fuel ≤ more) (answered : visit targets fuel node search = some result) :
    visit targets more node search = some result := by
  induction fuel generalizing more node search result with
  | zero => cases answered
  | succ fuel ih =>
      cases more with
      | zero => omega
      | succ more =>
          have agrees :
              ∀ target before answer,
                visitTarget targets (visit targets fuel) node target before =
                    some answer →
                  visitTarget targets (visit targets more) node target before =
                    some answer := by
            intro target before answer visited
            unfold visitTarget at visited ⊢
            split at visited
            · next known =>
                rw [if_pos known]
                exact ih (by omega) visited
            · next unknown =>
                rw [if_neg unknown]
                exact visited
          rw [visit] at answered ⊢
          split at answered
          · exact answered
          · exact answered
          · split at answered
            · exact answered
            · split at answered
              · next middle visited =>
                  simp only [visitEach_mono agrees visited]
                  exact answered
              · next stopped =>
                  simp only [visitEach_mono agrees answered]
                  cases result with
                  | error failure => rfl
                  | ok finished => exact absurd answered (stopped finished)

theorem Search.remaining_enter_lt {search : Search α} {nodes : List α}
    (member : node ∈ nodes) (fresh : search.marks node = .unvisited) :
    (search.enter node).remaining nodes < search.remaining nodes := by
  have fewer :
      ∀ list : List α,
        (search.enter node).remaining list ≤ search.remaining list := by
    intro list
    apply List.countP_mono_left
    intro other _ unseen
    rw [Search.marks_enter] at unseen
    split at unseen
    · cases unseen
    · exact unseen
  rcases List.append_of_mem member with ⟨front, back, rfl⟩
  have entered :
      (search.enter node).remaining (node :: back) =
        (search.enter node).remaining back :=
    List.countP_cons_of_neg (by simp)
  have unseen :
      search.remaining (node :: back) = search.remaining back + 1 :=
    List.countP_cons_of_pos (by simp [fresh])
  have frontFewer := fewer front
  have backFewer := fewer back
  simp only [Search.remaining, List.countP_append] at *
  omega

/-- Fuel beyond the number of unvisited nodes is enough. -/
theorem visit_isSome
    {nodes : List α} (covers : ∀ node, (targets node).isSome = true → node ∈ nodes)
    {search : Search α} (enough : search.remaining nodes < fuel) :
    (visit targets fuel node search).isSome = true := by
  induction fuel generalizing node search with
  | zero => omega
  | succ fuel ih =>
      rw [visit]
      split
      · rfl
      · rfl
      · next marked =>
          split
          · rfl
          · next list known =>
              have fewer := Search.remaining_enter_lt
                (covers node (by rw [known]; rfl)) marked
              have answered : (visitEach
                  (visitTarget targets (visit targets fuel) node) list
                  (search.enter node)).isSome = true := by
                apply visitEach_isSome
                · intro target before after visited
                  exact (visit_extends (visitTarget_ok visited)).1
                · intro target _ before extension
                  unfold visitTarget
                  split
                  · have bounded := extension.remaining_le nodes
                    exact ih (by omega)
                  · rfl
              split
              · rfl
              · exact answered

end Infractl.Lib.DepthFirst
