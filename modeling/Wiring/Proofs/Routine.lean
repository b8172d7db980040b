import Mathlib.Data.List.Basic
import Mathlib.Data.List.Induction
import Wiring.Routine

/-!
# Cutting units into routines

Cutting loses nothing, keeps the order, fills every routine but the last one, and
numbers the routines without gaps. The number of calls, which is computed from the
number of units alone, agrees with the number of routines except where the capacity
divides the number of units; there one more call is made.
-/

namespace Wiring

variable {α : Type}

/-! ## Cutting -/

/-- Cuts units into routines that are numbered from `index`. -/
def cutRoutines (capacity : Capacity) (index : Nat) : List α → List (Routine α)
  | [] => []
  | unit :: rest =>
      ⟨index, (unit :: rest).take capacity.rows⟩ ::
        cutRoutines capacity (index + 1) ((unit :: rest).drop capacity.rows)
termination_by units => units.length
decreasing_by
  have := capacity.rows_pos
  simp only [List.length_drop, List.length_cons]
  omega

theorem addUnit_cons {index : Nat} {first : Routine α} {routines : List (Routine α)}
    (h : routines = [] → first.index ≠ index) (unit : α) :
    addUnit index unit (first :: routines) = first :: addUnit index unit routines := by
  unfold addUnit
  cases routines with
  | nil => simp [h rfl]
  | cons second routines =>
      rw [List.getLast?_cons_cons]
      cases hlast : (second :: routines).getLast? with
      | none => simp at hlast
      | some last =>
          dsimp only
          split <;> rfl

/-- One more unit goes to the last routine, or, if that is full, to a new one. -/
theorem cutRoutines_concat (capacity : Capacity) (index : Nat) (units : List α) (unit : α) :
    cutRoutines capacity index (units ++ [unit]) =
      addUnit (index + units.length / capacity.rows) unit (cutRoutines capacity index units) := by
  have hpos := capacity.rows_pos
  fun_induction cutRoutines capacity index units with
  | case1 index =>
      have hone : [unit].take capacity.rows = [unit] := List.take_of_length_le hpos
      have hnone : [unit].drop capacity.rows = [] := List.drop_of_length_le hpos
      simp [cutRoutines, addUnit, hone, hnone]
  | case2 index first rest ih =>
      generalize hunits : first :: rest = units at ih ⊢
      have hcons : units ++ [unit] = first :: (rest ++ [unit]) := by rw [← hunits]; rfl
      rw [hcons, cutRoutines, ← hcons]
      by_cases hroom : units.length < capacity.rows
      · have htake : (units ++ [unit]).take capacity.rows = units ++ [unit] :=
          List.take_of_length_le (by simpa using Nat.succ_le_of_lt hroom)
        have hdrop : (units ++ [unit]).drop capacity.rows = [] :=
          List.drop_of_length_le (by simpa using Nat.succ_le_of_lt hroom)
        have hfull := Nat.le_of_lt hroom
        simp [cutRoutines, addUnit, htake, hdrop, List.take_of_length_le hfull,
          List.drop_of_length_le hfull, Nat.div_eq_of_lt hroom]
      · -- the first routine is full, so the unit goes to one behind it
        have hfull := Nat.not_lt.mp hroom
        have hquotient : index + units.length / capacity.rows =
            index + 1 + (units.drop capacity.rows).length / capacity.rows := by
          rw [List.length_drop, Nat.div_eq_sub_div hpos hfull]
          omega
        rw [List.take_append_of_le_length hfull, List.drop_append_of_le_length hfull, ih,
          hquotient, addUnit_cons]
        intro _
        exact Nat.ne_of_lt (Nat.lt_add_right _ (Nat.lt_succ_self index))

/-- Assigning the units one by one cuts them. -/
theorem RoutinePlan.ofUnits_eq (capacity : Capacity) (units : List α) :
    ofUnits capacity units =
      { capacity, unitCount := units.length, routines := cutRoutines capacity 0 units } := by
  unfold ofUnits
  induction units using List.reverseRecOn with
  | nil => simp [empty, cutRoutines]
  | append_singleton units unit ih =>
      rw [List.foldl_append, ih, List.foldl_cons, List.foldl_nil, add, cutRoutines_concat]
      simp

theorem RoutinePlan.callCount_ofUnits (capacity : Capacity) (units : List α) :
    (ofUnits capacity units).callCount = units.length / capacity.rows + 1 := by
  rw [ofUnits_eq, callCount]

/-! ## What the routines hold -/

/-- The routines hold the units one behind the other. -/
theorem flatMap_units_cutRoutines (capacity : Capacity) (index : Nat) (units : List α) :
    (cutRoutines capacity index units).flatMap Routine.units = units := by
  fun_induction cutRoutines capacity index units with
  | case1 => rfl
  | case2 index unit rest ih =>
      rw [List.flatMap_cons, ih]
      exact List.take_append_drop capacity.rows (unit :: rest)

/-- A routine holds at least one unit and no more than the capacity allows. -/
theorem length_units_of_mem_cutRoutines {capacity : Capacity} {index : Nat} {units : List α}
    {routine : Routine α} (hmem : routine ∈ cutRoutines capacity index units) :
    0 < routine.units.length ∧ routine.units.length ≤ capacity.rows := by
  have hpos := capacity.rows_pos
  fun_induction cutRoutines capacity index units with
  | case1 => cases hmem
  | case2 index unit rest ih =>
      rcases List.mem_cons.mp hmem with rfl | hmem
      · simp only [List.length_take, List.length_cons]
        omega
      · exact ih hmem

/-- Every routine is full behind which another one comes. -/
theorem length_units_of_mem_dropLast {capacity : Capacity} {index : Nat} {units : List α}
    {routine : Routine α} (hmem : routine ∈ (cutRoutines capacity index units).dropLast) :
    routine.units.length = capacity.rows := by
  fun_induction cutRoutines capacity index units with
  | case1 => cases hmem
  | case2 index unit rest ih =>
      cases hmore : (unit :: rest).drop capacity.rows with
      | nil =>
          rw [hmore, cutRoutines] at hmem
          cases hmem
      | cons next more =>
          -- what is left over shows that the first routine took all it could hold
          have hlength := congrArg List.length hmore
          rw [hmore] at hmem ih
          rw [List.dropLast_cons_of_ne_nil (by simp [cutRoutines])] at hmem
          rcases List.mem_cons.mp hmem with rfl | hmem
          · simp only [List.length_drop, List.length_cons, List.length_take] at hlength ⊢
            omega
          · exact ih hmem

/-- The unit at a position stands in the routine whose number is the quotient of the
position by the capacity. -/
theorem assignments_cutRoutines (capacity : Capacity) (index : Nat) (units : List α) :
    ((cutRoutines capacity index units).flatMap fun routine =>
        routine.units.map fun unit => (routine.index, unit)) =
      units.mapIdx fun position unit => (index + position / capacity.rows, unit) := by
  have hpos := capacity.rows_pos
  fun_induction cutRoutines capacity index units with
  | case1 => rfl
  | case2 index unit rest ih =>
      generalize unit :: rest = units at ih ⊢
      have hfirst : (units.take capacity.rows).map (fun unit => (index, unit)) =
          (units.take capacity.rows).mapIdx fun position unit =>
            (index + position / capacity.rows, unit) := by
        apply List.ext_getElem (by simp)
        intro position hposition _
        have hlt : position < capacity.rows := by simp at hposition; omega
        simp [Nat.div_eq_of_lt hlt]
      have hmore : ((units.drop capacity.rows).mapIdx fun position unit =>
          (index + 1 + position / capacity.rows, unit)) =
            (units.drop capacity.rows).mapIdx fun position unit =>
              (index + (position + (units.take capacity.rows).length) / capacity.rows, unit) := by
        apply List.ext_getElem (by simp)
        intro position hposition _
        have hfull : min capacity.rows units.length = capacity.rows := by
          simp at hposition; omega
        simp only [List.getElem_mapIdx, List.length_take, hfull, Nat.add_div_right _ hpos]
        congr 1
        omega
      rw [List.flatMap_cons, ih, hfirst, hmore, ← List.mapIdx_append, List.take_append_drop]

/-- The routines are numbered without gaps. -/
theorem map_index_cutRoutines (capacity : Capacity) (index : Nat) (units : List α) :
    (cutRoutines capacity index units).map Routine.index =
      List.range' index (cutRoutines capacity index units).length := by
  fun_induction cutRoutines capacity index units with
  | case1 => rfl
  | case2 index unit rest ih => rw [List.map_cons, ih, List.length_cons, List.range'_succ]

/-! ## How many routines there are -/

/-- The number of routines that units need: their number divided by the capacity and
rounded up. -/
def routineCount (capacity : Capacity) (unitCount : Nat) : Nat :=
  (unitCount + capacity.rows - 1) / capacity.rows

theorem routineCount_zero (capacity : Capacity) : routineCount capacity 0 = 0 := by
  have hpos := capacity.rows_pos
  exact Nat.div_eq_of_lt (by omega)

/-- Taking a routine off leaves one routine less to fill. -/
theorem routineCount_eq_succ {capacity : Capacity} {unitCount : Nat} (hunits : 0 < unitCount) :
    routineCount capacity unitCount = routineCount capacity (unitCount - capacity.rows) + 1 := by
  have hpos := capacity.rows_pos
  unfold routineCount
  rw [← Nat.add_div_right _ hpos]
  by_cases hle : capacity.rows ≤ unitCount
  · congr 1
    omega
  · -- the last routine takes all that is left
    have hlast : unitCount + capacity.rows - 1 = (unitCount - 1) + capacity.rows := by omega
    rw [hlast, Nat.add_div_right _ hpos, Nat.add_div_right _ hpos,
      Nat.div_eq_of_lt (by omega), Nat.div_eq_of_lt (by omega)]

theorem length_cutRoutines (capacity : Capacity) (index : Nat) (units : List α) :
    (cutRoutines capacity index units).length = routineCount capacity units.length := by
  fun_induction cutRoutines capacity index units with
  | case1 => exact (routineCount_zero capacity).symm
  | case2 index unit rest ih =>
      rw [List.length_cons, ih, List.length_drop]
      exact (routineCount_eq_succ (Nat.succ_pos rest.length)).symm

/-- Each routine takes up the units where the routines before it leave off. -/
theorem map_units_cutRoutines (capacity : Capacity) (index : Nat) (units : List α) :
    (cutRoutines capacity index units).map Routine.units =
      (List.range (routineCount capacity units.length)).map fun position =>
        (units.drop (position * capacity.rows)).take capacity.rows := by
  fun_induction cutRoutines capacity index units with
  | case1 => simp [routineCount_zero]
  | case2 index unit rest ih =>
      rw [routineCount_eq_succ (by simp), List.range_succ_eq_map, List.map_cons, List.map_cons, ih,
        List.length_drop, List.map_map, Nat.zero_mul, List.drop_zero]
      congr 1
      apply List.map_congr_left
      intro position _
      rw [Function.comp_apply, List.drop_drop, Nat.succ_mul, Nat.add_comm]

/-- Where the capacity divides the number of units every routine is full. -/
theorem routineCount_of_dvd {capacity : Capacity} {unitCount : Nat}
    (hdvd : capacity.rows ∣ unitCount) :
    routineCount capacity unitCount = unitCount / capacity.rows := by
  obtain ⟨count, rfl⟩ := hdvd
  have hpos := capacity.rows_pos
  have hsum : capacity.rows * count + capacity.rows - 1 =
      (capacity.rows - 1) + capacity.rows * count := by omega
  rw [routineCount, hsum, Nat.add_mul_div_left _ _ hpos, Nat.mul_div_cancel_left _ hpos,
    Nat.div_eq_of_lt (by omega), Nat.zero_add]

/-- Everywhere else one routine is not full. -/
theorem routineCount_of_not_dvd {capacity : Capacity} {unitCount : Nat}
    (hdvd : ¬capacity.rows ∣ unitCount) :
    routineCount capacity unitCount = unitCount / capacity.rows + 1 := by
  have hpos := capacity.rows_pos
  have hrest : 0 < unitCount % capacity.rows := Nat.emod_pos_of_not_dvd hdvd
  have hsplit := Nat.div_add_mod unitCount capacity.rows
  have hsum : unitCount + capacity.rows - 1 =
      (unitCount % capacity.rows - 1) + capacity.rows * (unitCount / capacity.rows + 1) := by
    rw [Nat.mul_succ]
    omega
  have hlt := Nat.mod_lt unitCount hpos
  rw [routineCount, hsum, Nat.add_mul_div_left _ _ hpos, Nat.div_eq_of_lt (by omega),
    Nat.zero_add]

/-- No routine is left without a call. -/
theorem le_div_of_lt_routineCount {capacity : Capacity} {unitCount index : Nat}
    (hindex : index < routineCount capacity unitCount) : index ≤ unitCount / capacity.rows := by
  by_cases hdvd : capacity.rows ∣ unitCount
  · rw [routineCount_of_dvd hdvd] at hindex
    exact Nat.le_of_lt hindex
  · rw [routineCount_of_not_dvd hdvd] at hindex
    exact Nat.lt_succ_iff.mp hindex

/-- A call is left without a routine exactly where the capacity divides the number of
units, and it is the last one. -/
theorem le_div_and_routineCount_le_iff {capacity : Capacity} {unitCount index : Nat} :
    index ≤ unitCount / capacity.rows ∧ routineCount capacity unitCount ≤ index ↔
      capacity.rows ∣ unitCount ∧ index = unitCount / capacity.rows := by
  by_cases hdvd : capacity.rows ∣ unitCount
  · rw [routineCount_of_dvd hdvd]
    constructor
    · rintro ⟨hle, hge⟩
      exact ⟨hdvd, Nat.le_antisymm hle hge⟩
    · rintro ⟨_, rfl⟩
      exact ⟨Nat.le_refl _, Nat.le_refl _⟩
  · rw [routineCount_of_not_dvd hdvd]
    constructor
    · rintro ⟨hle, hlt⟩
      exact absurd (Nat.lt_of_lt_of_le hlt hle) (Nat.lt_irrefl _)
    · rintro ⟨hdivides, _⟩
      exact absurd hdivides hdvd

/-! ## The plan -/

/-- Units are cut at the multiples of the capacity: no unit is lost or moved, every routine
but the last one is full, and one more call is made than there are routines exactly where
the last one is full too, or where there is none. -/
theorem RoutinePlan.ofUnits_cuts_at_multiples (capacity : Capacity) (units : List α) :
    let plan := ofUnits capacity units
    plan.unitCount = units.length ∧
      plan.routines.flatMap Routine.units = units ∧
      plan.routines.map Routine.index = List.range (routineCount capacity units.length) ∧
      (∀ routine ∈ plan.routines.dropLast, routine.units.length = capacity.rows) ∧
      (∀ routine ∈ plan.routines.getLast?,
        1 ≤ routine.units.length ∧ routine.units.length ≤ capacity.rows) ∧
      plan.assignments = units.mapIdx (fun position unit => (position / capacity.rows, unit)) ∧
      plan.callCount =
        plan.routines.length + if capacity.rows ∣ units.length then 1 else 0 := by
  rw [ofUnits_eq]
  intro plan
  have hcount : plan.routines.length = routineCount capacity units.length :=
    length_cutRoutines capacity 0 units
  refine ⟨rfl, flatMap_units_cutRoutines capacity 0 units, ?_, ?_, ?_, ?_, ?_⟩
  · have hindices : plan.routines.map Routine.index = List.range' 0 plan.routines.length :=
      map_index_cutRoutines capacity 0 units
    rw [hindices, hcount, List.range_eq_range']
  · exact fun routine hmem => length_units_of_mem_dropLast hmem
  · exact fun routine hlast => length_units_of_mem_cutRoutines (List.mem_of_getLast? hlast)
  · have hassigned := assignments_cutRoutines capacity 0 units
    simp only [Nat.zero_add] at hassigned
    exact hassigned
  · rw [hcount]
    change units.length / capacity.rows + 1 = _
    split
    next hdvd => rw [routineCount_of_dvd hdvd]
    next hdvd => rw [routineCount_of_not_dvd hdvd]

/-- Four units fill two routines of two, and a third call is left without a routine. -/
theorem RoutinePlan.ofUnits_cuts_at_multiples_of_full_routines :
    let capacity : Capacity := ⟨2, by decide, by decide⟩
    let plan := ofUnits capacity ["a", "b", "c", "d"]
    (⟨0, ["a", "b"]⟩ ∈ plan.routines.dropLast ∧ (["a", "b"] : List String).length = 2) ∧
      (⟨1, ["c", "d"]⟩ ∈ plan.routines.getLast? ∧ (["c", "d"] : List String).length ≤ 2) ∧
      plan.assignments = [(0, "a"), (0, "b"), (1, "c"), (1, "d")] ∧
      plan.routines.length = 2 ∧ plan.callCount = 3 := by
  intro capacity plan
  have hplan : plan.routines = [⟨0, ["a", "b"]⟩, ⟨1, ["c", "d"]⟩] := by
    decide
  obtain ⟨-, -, -, hfull, hlast, hassigned, hcalls⟩ :=
    ofUnits_cuts_at_multiples capacity ["a", "b", "c", "d"]
  have hfirst : ⟨0, ["a", "b"]⟩ ∈ plan.routines.dropLast := by simp [hplan]
  have hsecond : ⟨1, ["c", "d"]⟩ ∈ plan.routines.getLast? := by simp [hplan]
  have hdvd : capacity.rows ∣ ["a", "b", "c", "d"].length := by decide
  rw [if_pos hdvd] at hcalls
  refine ⟨⟨hfirst, hfull _ hfirst⟩, ⟨hsecond, (hlast _ hsecond).2⟩, hassigned.trans ?_, ?_,
    hcalls.trans ?_⟩
  · simp [capacity]
  · rw [hplan]
    rfl
  · change plan.routines.length + 1 = 3
    rw [hplan]
    rfl

end Wiring
