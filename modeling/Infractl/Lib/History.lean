import Mathlib.Data.List.Nodup

/-!
# Histories

A history is a list that grows at its end.  `Each good history` says that every
entry stands in the relation `good` to the entries before it; it is built one
entry at a time.  `Open opens closes history` says that some entry opens and
none after it closes.
-/

namespace Infractl.Lib

universe u

variable {α : Type u}

/-- An entry of an extended history is the last one, or was there before. -/
theorem eq_last_or_earlier {history before after : List α} {entry last : α}
    (equal : history ++ [last] = before ++ entry :: after) :
    (after = [] ∧ before = history ∧ entry = last) ∨
      ∃ between, after = between ++ [last] ∧
        history = before ++ entry :: between := by
  rcases List.eq_nil_or_concat after with rfl | ⟨between, final, rfl⟩
  · rcases List.append_inj' equal rfl with ⟨sameFront, sameLast⟩
    cases sameLast
    exact Or.inl ⟨rfl, sameFront.symm, rfl⟩
  · have regrouped :
        history ++ [last] = (before ++ entry :: between) ++ [final] := by
      simpa using equal
    rcases List.append_inj' regrouped rfl with ⟨sameFront, sameLast⟩
    cases sameLast
    exact Or.inr ⟨between, List.concat_eq_append .., sameFront⟩

/-- Every entry satisfies `good` with the entries that precede it. -/
def Each (good : List α → α → Prop) (history : List α) : Prop :=
  ∀ before entry after, history = before ++ entry :: after → good before entry

namespace Each

variable {good : List α → α → Prop}

theorem nil : Each good [] := by
  intro before entry after equal
  simp at equal

theorem concat {history : List α} {last : α}
    (each : Each good history)
    (holds : good history last) :
    Each good (history ++ [last]) := by
  intro before entry after equal
  rcases eq_last_or_earlier equal with ⟨_, rfl, rfl⟩ | ⟨between, _, earlier⟩
  · exact holds
  · exact each before entry between earlier

@[simp]
theorem cons_iff {first : α} {rest : List α} :
    Each good (first :: rest) ↔
      good [] first ∧ Each (fun before => good (first :: before)) rest := by
  constructor
  · intro each
    refine ⟨each [] first rest rfl, ?_⟩
    intro before entry after equal
    exact each (first :: before) entry after (congrArg (first :: ·) equal)
  · rintro ⟨head, each⟩ before entry after equal
    cases before with
    | nil =>
        cases equal
        exact head
    | cons other before =>
        cases equal
        exact each before entry after rfl

@[simp]
theorem append_iff {first second : List α} :
    Each good (first ++ second) ↔
      Each good first ∧ Each (fun before => good (first ++ before)) second := by
  induction first generalizing good with
  | nil =>
      simp only [List.nil_append]
      exact (and_iff_right nil).symm
  | cons entry rest ih =>
      simp only [List.cons_append]
      rw [cons_iff, cons_iff, ih, and_assoc]

theorem of_forall_mem {history : List α}
    (holds : ∀ before, ∀ entry ∈ history, good before entry) :
    Each good history := by
  intro before entry after equal
  apply holds before entry
  rw [equal]
  exact List.mem_append_right before (List.mem_cons_self ..)

end Each

/-- An entry that opens is followed by none that closes. -/
def Open (opens closes : α → Prop) (history : List α) : Prop :=
  ∃ before entry after, history = before ++ entry :: after ∧
    opens entry ∧ ∀ later ∈ after, ¬ closes later

namespace Open

variable {opens closes : α → Prop}

theorem not_nil : ¬ Open opens closes [] := by
  rintro ⟨before, entry, after, equal, _⟩
  simp at equal

theorem of_concat {history : List α} {last : α}
    (opened : Open opens closes (history ++ [last])) :
    opens last ∨ (Open opens closes history ∧ ¬ closes last) := by
  rcases opened with ⟨before, entry, after, equal, opensEntry, unclosed⟩
  rcases eq_last_or_earlier equal with ⟨_, _, rfl⟩ | ⟨between, rfl, earlier⟩
  · exact Or.inl opensEntry
  · refine Or.inr ⟨⟨before, entry, between, earlier, opensEntry, ?_⟩, ?_⟩
    · intro later member
      exact unclosed later (by simp [member])
    · exact unclosed last (by simp)

/-- What opened and is no longer open was closed on the way. -/
theorem exists_closes {before between : List α} {entry : α}
    (notOpen : ¬ Open opens closes (before ++ entry :: between))
    (opensEntry : opens entry) :
    ∃ later ∈ between, closes later := by
  by_contra unclosed
  refine notOpen ⟨before, entry, between, rfl, opensEntry, ?_⟩
  intro later member closesLater
  exact unclosed ⟨later, member, closesLater⟩

end Open

end Infractl.Lib
