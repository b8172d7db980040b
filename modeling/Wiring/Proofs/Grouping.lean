import Mathlib.Data.List.Induction
import Mathlib.Data.List.Nodup
import Wiring.Grouping
import Wiring.Proofs.Draft

/-!
# Groupings as partitions of the distinct definitions

A grouping is determined by filters: the distinct definitions without a scope, and
for every distinct scope the distinct definitions in it. Both are in the order of
first occurrence, so grouping is stable.
-/

namespace Wiring

/-! ## First occurrences -/

section FirstOccurrence

variable {α β : Type} [DecidableEq α] [DecidableEq β]

/-- Duplicates are erased from the front: behind an element all that equals it goes. -/
@[elab_as_elim]
theorem eraseDups_induction {motive : List α → Prop} (nil : motive [])
    (cons : ∀ x xs, motive (xs.filter fun y => !y == x) → motive (x :: xs))
    (xs : List α) : motive xs := by
  match xs with
  | [] => exact nil
  | x :: xs => exact cons x xs (eraseDups_induction nil cons _)
termination_by xs.length
decreasing_by exact Nat.lt_succ_of_le (List.length_filter_le _ _)

theorem nodup_eraseDups (xs : List α) : xs.eraseDups.Nodup := by
  induction xs using eraseDups_induction with
  | nil => exact List.nodup_nil
  | cons x xs ih =>
      rw [List.eraseDups_cons]
      refine List.nodup_cons.mpr ⟨?_, ih⟩
      intro hmem
      have hne := (List.mem_filter.mp (List.mem_eraseDups.mp hmem)).2
      simp at hne

/-- The first occurrences among the elements kept are the first occurrences kept. -/
theorem eraseDups_filter (p : α → Bool) (xs : List α) :
    (xs.filter p).eraseDups = xs.eraseDups.filter p := by
  induction xs using eraseDups_induction with
  | nil => rfl
  | cons x xs ih =>
      have hcomm : (xs.filter p).filter (fun y => !y == x) =
          (xs.filter fun y => !y == x).filter p := by
        simp only [List.filter_filter, Bool.and_comm]
      rw [List.eraseDups_cons]
      by_cases hx : p x = true
      · rw [List.filter_cons_of_pos hx, List.filter_cons_of_pos hx, List.eraseDups_cons,
          hcomm, ih]
      · rw [List.filter_cons_of_neg hx, List.filter_cons_of_neg hx, ← ih, ← hcomm]
        congr 1
        symm
        apply List.filter_eq_self.mpr
        intro y hy
        have hne : y ≠ x := by
          rintro rfl
          exact hx (List.mem_filter.mp hy).2
        simpa using hne

/-- Whether duplicates are erased before or only after a partial map makes no
difference to the first occurrences of its values. -/
theorem eraseDups_filterMap_eraseDups (f : α → Option β) (xs : List α) :
    (xs.eraseDups.filterMap f).eraseDups = (xs.filterMap f).eraseDups := by
  induction xs using eraseDups_induction with
  | nil => rfl
  | cons x xs ih =>
      rw [List.eraseDups_cons]
      cases hx : f x with
      | none =>
          rw [List.filterMap_cons_none hx, List.filterMap_cons_none hx, ih, List.filterMap_filter]
          congr 1
          apply List.filterMap_congr
          intro y _
          by_cases hy : y = x <;> simp [hy, hx]
      | some value =>
          -- what equals the head was erased before, what only has its value is erased after
          have hsame : ((xs.filter fun y => !y == x).filterMap f).filter (fun y => !y == value) =
              (xs.filterMap f).filter fun y => !y == value := by
            rw [List.filterMap_filter, List.filter_filterMap, List.filter_filterMap]
            apply List.filterMap_congr
            intro y _
            by_cases hy : y = x <;> simp [hy, hx, Option.filter]
          rw [List.filterMap_cons_some hx, List.filterMap_cons_some hx, List.eraseDups_cons,
            List.eraseDups_cons, eraseDups_filter fun y => !y == value, ih, ← eraseDups_filter,
            hsame]

end FirstOccurrence

/-- The distinct definitions that live in a scope, or in none, in the order of their
first occurrence. -/
def definitionsIn (scope : Option Scope) (definitions : List Definition) : List Definition :=
  definitions.eraseDups.filter fun definition => definition.scope = scope

/-- The distinct scopes in the order of the first definitions that carry them. -/
def distinctScopes (definitions : List Definition) : List Scope :=
  (definitions.filterMap Definition.scope).eraseDups

/-- The distinct definitions in the order of their registration: first those without
a scope, then those of each scope. -/
def registrationOrder (definitions : List Definition) : List Definition :=
  definitionsIn none definitions ++
    (distinctScopes definitions).flatMap fun scope => definitionsIn (some scope) definitions

section Order

variable {definitions : List Definition} {definition : Definition} {scope : Option Scope}

theorem mem_definitionsIn :
    definition ∈ definitionsIn scope definitions ↔
      definition ∈ definitions ∧ definition.scope = scope := by
  simp [definitionsIn]

theorem mem_distinctScopes {scope : Scope} :
    scope ∈ distinctScopes definitions ↔
      ∃ definition ∈ definitions, definition.scope = some scope := by
  simp [distinctScopes]

theorem nodup_definitionsIn (scope : Option Scope) (definitions : List Definition) :
    (definitionsIn scope definitions).Nodup :=
  (nodup_eraseDups definitions).filter _

/-- Every definition has its place in the order. -/
theorem mem_registrationOrder :
    definition ∈ registrationOrder definitions ↔ definition ∈ definitions := by
  unfold registrationOrder
  rw [List.mem_append, List.mem_flatMap]
  constructor
  · rintro (hmem | ⟨scope, _, hmem⟩)
    · exact (mem_definitionsIn.mp hmem).1
    · exact (mem_definitionsIn.mp hmem).1
  · intro hmem
    cases hscope : definition.scope with
    | none => exact Or.inl (mem_definitionsIn.mpr ⟨hmem, hscope⟩)
    | some scope =>
        have hlisted := mem_distinctScopes.mpr ⟨definition, hmem, hscope⟩
        exact Or.inr ⟨scope, hlisted, mem_definitionsIn.mpr ⟨hmem, hscope⟩⟩

/-- No definition has two places in the order. -/
theorem nodup_registrationOrder (definitions : List Definition) :
    (registrationOrder definitions).Nodup := by
  refine List.nodup_append'.mpr ⟨nodup_definitionsIn _ _, List.nodup_flatMap.mpr ⟨?_, ?_⟩, ?_⟩
  · intro scope _
    exact nodup_definitionsIn _ _
  · apply (nodup_eraseDups _).imp
    -- a definition in two scopes would have to carry both
    intro first second hne definition hfirst hsecond
    have hboth := (mem_definitionsIn.mp hfirst).2.symm.trans (mem_definitionsIn.mp hsecond).2
    exact hne (Option.some.inj hboth)
  · intro definition hunscoped hscoped
    obtain ⟨scope, _, hmem⟩ := List.mem_flatMap.mp hscoped
    have hnone := (mem_definitionsIn.mp hunscoped).2
    rw [(mem_definitionsIn.mp hmem).2] at hnone
    cases hnone

end Order

namespace Grouping

/-! ## What grouping collects -/

theorem unscoped_foldl_add (definitions : List Definition) :
    (definitions.foldl add empty).unscoped =
      definitions.filter fun definition => definition.scope = none := by
  induction definitions using List.reverseRecOn with
  | nil => rfl
  | append_singleton definitions definition ih =>
      rw [List.foldl_append, List.foldl_cons, List.foldl_nil, add]
      cases hscope : definition.scope <;> simp [hscope, ih]

/-- A definition joins the group of its scope, or founds it. -/
theorem addMember_map {scopes : List Scope} (membersOf : Scope → List Definition)
    (hnodup : scopes.Nodup) (scope : Scope) (definition : Definition) :
    addMember scope definition (scopes.map fun other => ⟨other, membersOf other⟩) =
      (scopes.map fun other =>
        ⟨other, if other = scope then membersOf other ++ [definition] else membersOf other⟩) ++
          if scope ∈ scopes then [] else [⟨scope, [definition]⟩] := by
  induction scopes with
  | nil => simp [addMember]
  | cons first scopes ih =>
      obtain ⟨hnew, hnodup⟩ := List.nodup_cons.mp hnodup
      rw [List.map_cons, addMember]
      by_cases heq : first = scope
      · subst heq
        have hrest : ∀ other ∈ scopes, other ≠ first := fun other hother heq => hnew (heq ▸ hother)
        simpa using fun other hother heq => absurd heq (hrest other hother)
      · simp [heq, Ne.symm heq, ih hnodup]

theorem groups_foldl_add (definitions : List Definition) :
    (definitions.foldl add empty).groups =
      (definitions.filterMap Definition.scope).eraseDups.map fun scope =>
        ⟨scope, definitions.filter fun definition => definition.scope = some scope⟩ := by
  induction definitions using List.reverseRecOn with
  | nil => rfl
  | append_singleton definitions definition ih =>
      rw [List.foldl_append, List.foldl_cons, List.foldl_nil, add]
      cases hscope : definition.scope with
      | none => simp [hscope, ih]
      | some scope =>
          have hscopes : ((definitions ++ [definition]).filterMap Definition.scope).eraseDups =
              (definitions.filterMap Definition.scope).eraseDups ++
                if scope ∈ (definitions.filterMap Definition.scope).eraseDups then []
                else [scope] := by
            rw [List.filterMap_append, List.filterMap_cons_some hscope, List.filterMap_nil,
              List.eraseDups_append, List.cons_removeAll, List.nil_removeAll]
            by_cases hmem : scope ∈ definitions.filterMap Definition.scope
            · simp [hmem]
            · simp [hmem, List.eraseDups_cons]
          simp only [ih]
          rw [hscopes, addMember_map _ (nodup_eraseDups _), List.map_append]
          congr 1
          · apply List.map_congr_left
            intro other _
            by_cases heq : other = scope
            · simp [heq, hscope]
            · simp [heq, Ne.symm heq, hscope]
          · split
            · rfl
            next hnew =>
              -- no definition before the new one is in a scope that comes for the first time
              have hnone : definitions.filter (fun definition => definition.scope = some scope) =
                  [] := by
                apply List.filter_eq_nil_iff.mpr
                intro other hother heq
                apply hnew
                exact List.mem_eraseDups.mpr
                  (List.mem_filterMap.mpr ⟨other, hother, of_decide_eq_true heq⟩)
              simp [List.filter_append, hnone, hscope]

theorem unscoped_ofDefinitions (definitions : List Definition) :
    (ofDefinitions definitions).unscoped = definitionsIn none definitions :=
  unscoped_foldl_add _

/-- There is one group for every distinct scope, and it holds all that is in it. -/
theorem groups_ofDefinitions (definitions : List Definition) :
    (ofDefinitions definitions).groups =
      (distinctScopes definitions).map fun scope =>
        ⟨scope, definitionsIn (some scope) definitions⟩ := by
  unfold ofDefinitions distinctDefinitions distinctScopes definitionsIn
  rw [groups_foldl_add, eraseDups_filterMap_eraseDups]

/-- Single definitions come first, then the scopes. -/
theorem units_ofDefinitions (definitions : List Definition) :
    (ofDefinitions definitions).units =
      (definitionsIn none definitions).map .single ++
        (distinctScopes definitions).map fun scope =>
          .group ⟨scope, definitionsIn (some scope) definitions⟩ := by
  rw [units, unscoped_ofDefinitions, groups_ofDefinitions, List.map_map]
  rfl

theorem length_units (grouping : Grouping) : grouping.units.length = grouping.unitCount := by
  simp [units, unitCount]

/-! ## What the units hold -/

/-- The units hold the distinct definitions in the order of their registration. -/
theorem flatMap_definitions_units (definitions : List Definition) :
    (ofDefinitions definitions).units.flatMap EmissionUnit.definitions =
      registrationOrder definitions := by
  rw [units_ofDefinitions, List.flatMap_append, List.flatMap_map, List.flatMap_map]
  congr 1
  exact List.flatMap_singleton' _

/-- What holds of every definition holds throughout the units, and conversely. -/
theorem forall_mem_units_iff {definitions : List Definition} {p : Definition → Prop} :
    (∀ unit ∈ (ofDefinitions definitions).units, ∀ definition ∈ unit.definitions,
      p definition) ↔ ∀ definition ∈ definitions, p definition := by
  rw [← List.forall_mem_flatMap, flatMap_definitions_units]
  constructor
  · intro h definition hmem
    exact h definition (mem_registrationOrder.mpr hmem)
  · intro h definition hmem
    exact h definition (mem_registrationOrder.mp hmem)

end Grouping

end Wiring
