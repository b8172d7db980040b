import Wiring.Text.Basic

/-!
# Settings of a generation run

What a run can be told: how many units a routine may hold, the package of the
generated sources, the output directory and the name of the default unit.
-/

namespace Wiring

/-- How many units a routine may hold: at least one, and no more than a 64-bit
word can count. -/
structure Capacity where
  /-- The number of units. -/
  rows : Nat
  /-- A routine holds at least one unit. -/
  rows_pos : 0 < rows
  /-- The number fits a word. -/
  rows_lt : rows < Word.count
deriving DecidableEq, Repr

namespace Capacity

/-- The capacity of so many units, if there is one. -/
def ofNat? (rows : Nat) : Option Capacity :=
  if h : 0 < rows ∧ rows < Word.count then some ⟨rows, h.1, h.2⟩ else none

theorem ofNat?_eq_some_iff {rows : Nat} {capacity : Capacity} :
    ofNat? rows = some capacity ↔ rows = capacity.rows := by
  unfold ofNat?
  constructor
  · intro h
    split at h
    · exact congrArg Capacity.rows (Option.some.inj h)
    · cases h
  · rintro rfl
    rw [dif_pos ⟨capacity.rows_pos, capacity.rows_lt⟩]

/-- The capacity where none is given. -/
def standard : Capacity := ⟨500, by decide, by decide⟩

instance : Inhabited Capacity := ⟨standard⟩

end Capacity

/-- Settings shared by all units of a run. -/
structure Settings where
  /-- How many units a routine may hold. -/
  capacity : Capacity := .standard
  /-- The package that generated sources declare. -/
  generatedPackage : String := "org.koin.ksp.generated"
  /-- The directory that receives the generated files. -/
  outDir : String := "generated"
  /-- The name of the file that holds the default unit. -/
  defaultFile : String := "KoinDefault.kt"
deriving DecidableEq, Repr, Inhabited

/-- Settings given on the command line. -/
structure Overrides where
  /-- How many units a routine may hold. -/
  capacity : Option Capacity := none
  /-- The package that generated sources declare. -/
  generatedPackage : Option String := none
  /-- The directory that receives the generated files. -/
  outDir : Option String := none
deriving DecidableEq, Repr, Inhabited

end Wiring
