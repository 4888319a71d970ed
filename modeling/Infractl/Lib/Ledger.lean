import Mathlib.Data.Set.Insert

/-!
# Ledgers of outstanding entries

One party keeps entries outstanding until they are settled.  Another holds, by
keys of its own, the entries it has to settle, one under each key.  An entry is
issued under a key, and a key settles the entry that is held under it.

The two agree as long as no entry is issued under a key that holds one.  The
entry that was held there is then an orphan: it is outstanding and under no
key, and it stays so whatever is issued or settled after.
-/

namespace Infractl.Lib

/-- The entries held by key, and those outstanding. -/
@[ext]
structure Ledger (Key Entry : Type) where
  held : Key → Option Entry
  outstanding : Set Entry

namespace Ledger

variable {Key Entry : Type}

/-- The entries held are those outstanding. -/
def Matches (ledger : Ledger Key Entry) : Prop :=
  ∀ entry, (∃ key, ledger.held key = some entry) ↔ entry ∈ ledger.outstanding

/-- The entries held are those outstanding, each under one key. -/
structure Sound (ledger : Ledger Key Entry) : Prop where
  entries : ledger.Matches
  single : ∀ {key other entry}, ledger.held key = some entry →
    ledger.held other = some entry → key = other

/-- An entry that is outstanding and under no key. -/
structure Orphan (ledger : Ledger Key Entry) (entry : Entry) : Prop where
  outstanding : entry ∈ ledger.outstanding
  unheld : ∀ key, ledger.held key ≠ some entry

theorem Orphan.not_matches {ledger : Ledger Key Entry} {orphan : Entry}
    (orphaned : ledger.Orphan orphan) :
    ¬ ledger.Matches := by
  intro entries
  rcases (entries orphan).mpr orphaned.outstanding with ⟨key, held⟩
  exact orphaned.unheld key held

variable [DecidableEq Key]

def issue (ledger : Ledger Key Entry) (key : Key) (entry : Entry) :
    Ledger Key Entry where
  held := Function.update ledger.held key (some entry)
  outstanding := insert entry ledger.outstanding

/-- Settle the entry that is held under a key. -/
def settle (ledger : Ledger Key Entry) (key : Key) (entry : Entry) :
    Ledger Key Entry where
  held := Function.update ledger.held key none
  outstanding := ledger.outstanding \ {entry}

variable {ledger : Ledger Key Entry} {key : Key} {entry orphan : Entry}

@[simp]
theorem held_issue_eq_some_iff {other : Key} {found : Entry} :
    (ledger.issue key entry).held other = some found ↔
      (other = key ∧ entry = found) ∨ (other ≠ key ∧ ledger.held other = some found) := by
  by_cases same : other = key
  · subst same
    simp [issue]
  · simp [issue, same]

@[simp]
theorem held_settle_eq_some_iff {other : Key} {found : Entry} :
    (ledger.settle key entry).held other = some found ↔
      other ≠ key ∧ ledger.held other = some found := by
  by_cases same : other = key
  · subst same
    simp [settle]
  · simp [settle, same]

/-- An entry issued under a free key keeps the two in agreement. -/
theorem Sound.issue (sound : ledger.Sound) (free : ledger.held key = none)
    (fresh : entry ∉ ledger.outstanding) :
    (ledger.issue key entry).Sound where
  entries := by
    intro found
    simp only [held_issue_eq_some_iff]
    change _ ↔ found = entry ∨ found ∈ ledger.outstanding
    rw [← sound.entries found]
    constructor
    · rintro ⟨other, ⟨_, rfl⟩ | ⟨_, held⟩⟩
      · exact Or.inl rfl
      · exact Or.inr ⟨other, held⟩
    · rintro (rfl | ⟨other, held⟩)
      · exact ⟨key, Or.inl ⟨rfl, rfl⟩⟩
      · refine ⟨other, Or.inr ⟨?_, held⟩⟩
        rintro rfl
        cases free.symm.trans held
  single := by
    have unheld (other : Key) : ledger.held other ≠ some entry :=
      fun held => fresh ((sound.entries entry).mp ⟨other, held⟩)
    intro first second found
    simp only [held_issue_eq_some_iff]
    rintro (⟨rfl, rfl⟩ | ⟨_, held⟩) (⟨rfl, same⟩ | ⟨_, alsoHeld⟩)
    · rfl
    · exact absurd alsoHeld (unheld second)
    · exact absurd (same ▸ held) (unheld first)
    · exact sound.single held alsoHeld

/-- A key that settles its entry keeps the two in agreement. -/
theorem Sound.settle (sound : ledger.Sound) (holds : ledger.held key = some entry) :
    (ledger.settle key entry).Sound where
  entries := by
    intro found
    simp only [held_settle_eq_some_iff]
    change _ ↔ found ∈ ledger.outstanding ∧ found ≠ entry
    rw [← sound.entries found]
    constructor
    · rintro ⟨other, different, held⟩
      refine ⟨⟨other, held⟩, ?_⟩
      rintro rfl
      exact different (sound.single held holds)
    · rintro ⟨⟨other, held⟩, different⟩
      refine ⟨other, ?_, held⟩
      rintro rfl
      exact different (Option.some.inj (held.symm.trans holds))
  single := by
    intro first second found
    simp only [held_settle_eq_some_iff]
    rintro ⟨_, held⟩ ⟨_, alsoHeld⟩
    exact sound.single held alsoHeld

/-- The entry that a key held before another is issued under it. -/
theorem Sound.orphan_issue (sound : ledger.Sound) (taken : ledger.held key = some orphan)
    (fresh : entry ∉ ledger.outstanding) :
    (ledger.issue key entry).Orphan orphan where
  outstanding := Or.inr ((sound.entries orphan).mp ⟨key, taken⟩)
  unheld := by
    intro other held
    rcases held_issue_eq_some_iff.mp held with ⟨_, rfl⟩ | ⟨different, held⟩
    · exact fresh ((sound.entries entry).mp ⟨key, taken⟩)
    · exact different (sound.single held taken)

theorem Orphan.issue (orphaned : ledger.Orphan orphan)
    (fresh : entry ∉ ledger.outstanding) :
    (ledger.issue key entry).Orphan orphan where
  outstanding := Or.inr orphaned.outstanding
  unheld := by
    intro other held
    rcases held_issue_eq_some_iff.mp held with ⟨_, rfl⟩ | ⟨_, held⟩
    · exact fresh orphaned.outstanding
    · exact orphaned.unheld other held

theorem Orphan.settle (orphaned : ledger.Orphan orphan)
    (holds : ledger.held key = some entry) :
    (ledger.settle key entry).Orphan orphan where
  outstanding := by
    refine ⟨orphaned.outstanding, ?_⟩
    rintro rfl
    exact orphaned.unheld key holds
  unheld := by
    intro other held
    exact orphaned.unheld other (held_settle_eq_some_iff.mp held).2

end Ledger

end Infractl.Lib
