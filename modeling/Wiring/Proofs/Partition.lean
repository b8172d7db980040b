import Wiring.Proofs.Grouping

/-!
# Grouping as a stable partition

What comes first in a list is told by positions alone: each value once, in the order of
the first elements that have it. This determines the distinct definitions and the order of
the groups, and so the whole grouping, which is found again when its own definitions are
grouped.
-/

namespace Wiring

/-! ## Values in the order in which they come first -/

section FirstValues

variable {α β : Type} [DecidableEq β]

/-- The values that `value` has on the elements of `xs`, each once, in the order of the first
elements that have them. For `value = some` these are the distinct elements. -/
structure FirstValues (value : α → Option β) (xs : List α) (firsts : List β) : Prop where
  mem_iff : ∀ y, y ∈ firsts ↔ ∃ x ∈ xs, value x = some y
  /-- Their order is that of the positions where they come first. -/
  ordered : firsts.Pairwise fun y z =>
    xs.findIdx (fun x => value x = some y) < xs.findIdx (fun x => value x = some z)

namespace FirstValues

variable {value : α → Option β} {xs : List α} {firsts others : List β}

theorem nodup (h : FirstValues value xs firsts) : firsts.Nodup :=
  h.ordered.imp fun hlt heq => absurd (heq ▸ hlt) (Nat.lt_irrefl _)

/-- There is only one such list. -/
theorem eq (h : FirstValues value xs firsts) (hother : FirstValues value xs others) :
    firsts = others := by
  have hperm : firsts.Perm others := (List.perm_ext_iff_of_nodup h.nodup hother.nodup).mpr
    fun y => (h.mem_iff y).trans (hother.mem_iff y).symm
  refine List.Perm.eq_of_pairwise ?_ h.ordered hother.ordered hperm
  intro y z _ _ hlt hgt
  exact absurd hgt (Nat.not_lt_of_gt hlt)

end FirstValues

/-- Erasing duplicates keeps what comes first. -/
theorem firstValues_eraseDups (value : α → Option β) (xs : List α) :
    FirstValues value xs (xs.filterMap value).eraseDups := by
  refine ⟨fun y => by simp, ?_⟩
  induction xs with
  | nil => exact .nil
  | cons x xs ih =>
      cases hvalue : value x with
      | none =>
          rw [List.filterMap_cons_none hvalue]
          simpa [List.findIdx_cons, hvalue] using ih
      | some first =>
          rw [List.filterMap_cons_some hvalue, List.eraseDups_cons,
            eraseDups_filter fun y => !y == first]
          refine List.pairwise_cons.mpr ⟨?_, (ih.filter _).imp_of_mem ?_⟩
          · intro y hy
            have hne : first ≠ y := by
              rintro rfl
              simp at hy
            simp [List.findIdx_cons, hvalue, hne]
          · intro y z hy hz hlt
            -- neither of them is what comes first of all
            have hyne : first ≠ y := by
              rintro rfl
              simp at hy
            have hzne : first ≠ z := by
              rintro rfl
              simp at hz
            simpa [List.findIdx_cons, hvalue, hyne, hzne] using hlt

theorem eraseDups_of_nodup {xs : List β} (h : xs.Nodup) : xs.eraseDups = xs := by
  induction xs with
  | nil => rfl
  | cons x xs ih =>
      obtain ⟨hnot, hnodup⟩ := List.nodup_cons.mp h
      have hall : xs.filter (fun y => !y == x) = xs := by
        apply List.filter_eq_self.mpr
        intro y hy
        have hne : y ≠ x := fun heq => hnot (heq ▸ hy)
        simpa using hne
      rw [List.eraseDups_cons, hall, ih hnodup]

/-- Of values that come in runs, one run for each, the first of each run is left. -/
theorem eraseDups_flatMap_runs {values : List β} {run : β → List β} (hnodup : values.Nodup)
    (hne : ∀ y ∈ values, run y ≠ []) (hrun : ∀ y, ∀ z ∈ run y, z = y) :
    (values.flatMap run).eraseDups = values := by
  induction values with
  | nil => rfl
  | cons y values ih =>
      obtain ⟨hnot, hvalues⟩ := List.nodup_cons.mp hnodup
      obtain ⟨hhead, htail⟩ := List.forall_mem_cons.mp hne
      obtain ⟨z, more, hmore⟩ := List.exists_cons_of_ne_nil hhead
      obtain rfl : z = y := hrun y z (by simp [hmore])
      have hgone : more.filter (fun y => !y == z) = [] := by
        apply List.filter_eq_nil_iff.mpr
        intro y hy
        simp [hrun z y (by simp [hmore, hy])]
      have hkept : (values.flatMap run).filter (fun y => !y == z) = values.flatMap run := by
        apply List.filter_eq_self.mpr
        intro y hy
        obtain ⟨other, hother, hmem⟩ := List.mem_flatMap.mp hy
        have hne : y ≠ z := fun heq => hnot (heq ▸ hrun other y hmem ▸ hother)
        simpa using hne
      rw [List.flatMap_cons, hmore, List.cons_append, List.eraseDups_cons, List.filter_append,
        hgone, List.nil_append, hkept, ih hvalues htail]

omit [DecidableEq β] in
/-- Where all runs but one are empty, that one is all there is. -/
theorem flatMap_eq_of_single {values : List β} {run : β → List α} {y : β} (hnodup : values.Nodup)
    (hothers : ∀ z, z ≠ y → run z = []) (hmissing : y ∉ values → run y = []) :
    values.flatMap run = run y := by
  induction values with
  | nil => exact (hmissing List.not_mem_nil).symm
  | cons z values ih =>
      obtain ⟨hnot, hnodup⟩ := List.nodup_cons.mp hnodup
      rw [List.flatMap_cons]
      by_cases heq : z = y
      · subst heq
        have hrest : values.flatMap run = [] := List.flatMap_eq_nil_iff.mpr fun other hother =>
          hothers other fun heq => hnot (heq ▸ hother)
        rw [hrest, List.append_nil]
      · rw [hothers z heq, List.nil_append]
        exact ih hnodup fun hnot => hmissing (by simp [Ne.symm heq, hnot])

end FirstValues

/-! ## Grouping what was grouped -/

section Order

variable (definitions : List Definition)

theorem definitionsIn_registrationOrder (scope : Option Scope) :
    definitionsIn scope (registrationOrder definitions) = definitionsIn scope definitions := by
  have hsame : ∀ other : Option Scope, (definitionsIn other definitions).filter
      (fun definition => definition.scope = scope) =
        if other = scope then definitionsIn scope definitions else [] := by
    intro other
    split
    next heq =>
      subst heq
      exact List.filter_eq_self.mpr fun definition hmem => by simp [(mem_definitionsIn.mp hmem).2]
    next hne =>
      exact List.filter_eq_nil_iff.mpr fun definition hmem => by
        simp [(mem_definitionsIn.mp hmem).2, hne]
  rw [definitionsIn, eraseDups_of_nodup (nodup_registrationOrder definitions), registrationOrder,
    List.filter_append, List.filter_flatMap]
  simp only [hsame]
  cases scope with
  | none => simp
  | some scope =>
      rw [if_neg (by simp), List.nil_append]
      refine (flatMap_eq_of_single (y := scope) (nodup_eraseDups _) ?_ ?_).trans (if_pos rfl)
      · intro other hne
        exact if_neg (by simpa using hne)
      · intro hmissing
        rw [if_pos rfl]
        apply List.eq_nil_iff_forall_not_mem.mpr
        intro definition hmem
        exact hmissing (mem_distinctScopes.mpr ⟨definition, mem_definitionsIn.mp hmem⟩)

theorem distinctScopes_registrationOrder :
    distinctScopes (registrationOrder definitions) = distinctScopes definitions := by
  have hunscoped : (definitionsIn none definitions).filterMap Definition.scope = [] := by
    apply List.filterMap_eq_nil_iff.mpr
    intro definition hmem
    exact (mem_definitionsIn.mp hmem).2
  rw [distinctScopes, registrationOrder, List.filterMap_append, hunscoped, List.nil_append,
    List.filterMap_flatMap]
  apply eraseDups_flatMap_runs (nodup_eraseDups _)
  · intro scope hscope
    obtain ⟨definition, hmem, heq⟩ := mem_distinctScopes.mp hscope
    apply List.ne_nil_of_mem (a := scope)
    exact List.mem_filterMap.mpr ⟨definition, mem_definitionsIn.mpr ⟨hmem, heq⟩, heq⟩
  · intro scope other hother
    obtain ⟨definition, hmem, heq⟩ := List.mem_filterMap.mp hother
    exact Option.some.inj (heq.symm.trans (mem_definitionsIn.mp hmem).2)

end Order

namespace Grouping

theorem ofDefinitions_registrationOrder (definitions : List Definition) :
    ofDefinitions (registrationOrder definitions) = ofDefinitions definitions := by
  have hunscoped : (ofDefinitions (registrationOrder definitions)).unscoped =
      (ofDefinitions definitions).unscoped := by
    rw [unscoped_ofDefinitions, unscoped_ofDefinitions, definitionsIn_registrationOrder]
  have hgroups : (ofDefinitions (registrationOrder definitions)).groups =
      (ofDefinitions definitions).groups := by
    simp only [groups_ofDefinitions, distinctScopes_registrationOrder,
      definitionsIn_registrationOrder]
  rw [show ofDefinitions (registrationOrder definitions) =
    ⟨(ofDefinitions (registrationOrder definitions)).unscoped,
      (ofDefinitions (registrationOrder definitions)).groups⟩ from rfl, hunscoped, hgroups]

/-- Grouping is the stable partition of the distinct definitions by their scopes: those
without a scope, and one group for every scope, in the order in which the scopes come first.
Each distinct definition is in exactly one place, and nothing changes when all that was
grouped is grouped once more. -/
theorem ofDefinitions_is_stable_partition {definitions distinct : List Definition}
    (hdistinct : FirstValues some definitions distinct) :
    let grouping := ofDefinitions definitions
    distinctDefinitions definitions = distinct ∧
      grouping.unscoped = distinct.filter (fun definition => definition.scope = none) ∧
      FirstValues Definition.scope distinct (grouping.groups.map ScopeGroup.scope) ∧
      (∀ group ∈ grouping.groups, group.members ≠ [] ∧
        group.members = distinct.filter fun definition => definition.scope = some group.scope) ∧
      (∀ definition ∈ distinct,
        (grouping.unscoped ++ grouping.groups.flatMap ScopeGroup.members).count definition = 1) ∧
      grouping.units.length = grouping.unitCount ∧
      ofDefinitions (grouping.units.flatMap EmissionUnit.definitions) = grouping := by
  intro grouping
  have hfirsts : distinctDefinitions definitions = distinct := by
    have herased := firstValues_eraseDups some definitions
    rw [List.filterMap_some] at herased
    exact herased.eq hdistinct
  subst hfirsts
  have hgroups : grouping.groups = (distinctScopes definitions).map fun scope =>
      ⟨scope, definitionsIn (some scope) definitions⟩ := groups_ofDefinitions definitions
  have hplaces : grouping.unscoped ++ grouping.groups.flatMap ScopeGroup.members =
      registrationOrder definitions := by
    rw [hgroups, List.flatMap_map, unscoped_ofDefinitions]
    rfl
  refine ⟨rfl, unscoped_ofDefinitions definitions, ?_, ?_, ?_, length_units grouping, ?_⟩
  · have hscopes : grouping.groups.map ScopeGroup.scope =
        ((distinctDefinitions definitions).filterMap Definition.scope).eraseDups := by
      rw [hgroups, List.map_map, distinctDefinitions, eraseDups_filterMap_eraseDups]
      exact List.map_id _
    rw [hscopes]
    exact firstValues_eraseDups _ _
  · intro group hgroup
    rw [hgroups] at hgroup
    obtain ⟨scope, hscope, rfl⟩ := List.mem_map.mp hgroup
    obtain ⟨definition, hmem⟩ := mem_distinctScopes.mp hscope
    exact ⟨List.ne_nil_of_mem (mem_definitionsIn.mpr hmem), rfl⟩
  · intro definition hmem
    rw [hplaces]
    apply List.count_eq_one_of_mem (nodup_registrationOrder definitions)
    exact mem_registrationOrder.mpr (List.mem_eraseDups.mp hmem)
  · rw [flatMap_definitions_units]
    exact ofDefinitions_registrationOrder definitions

/-- A repetition, a scope that comes again, and two scopes of one text. -/
theorem ofDefinitions_is_stable_partition_of_interleaving :
    let plain := Definition.ofType "app" "Plain" { name := "single" }
    let first := (Definition.ofType "app" "First" { name := "scoped" }).inScope (.named "s")
    let other := (Definition.ofType "app" "Other" { name := "scoped" }).inScope (.type "s")
    let last := (Definition.ofType "app" "Last" { name := "scoped" }).inScope (.named "s")
    let definitions := [first, plain, other, first, last]
    FirstValues some definitions [first, plain, other, last] ∧
      ofDefinitions definitions =
        ⟨[plain], [⟨.named "s", [first, last]⟩, ⟨.type "s", [other]⟩]⟩ ∧
      ofDefinitions [plain, first, last, other] = ofDefinitions definitions := by
  intro plain first other last definitions
  have hdistinct : FirstValues some definitions [first, plain, other, last] :=
    firstValues_eraseDups some definitions
  have hgrouping : ofDefinitions definitions =
      ⟨[plain], [⟨.named "s", [first, last]⟩, ⟨.type "s", [other]⟩]⟩ := by decide
  obtain ⟨-, -, -, -, -, -, hagain⟩ := ofDefinitions_is_stable_partition hdistinct
  refine ⟨hdistinct, hgrouping, ?_⟩
  rw [hgrouping] at hagain ⊢
  exact hagain

end Grouping

end Wiring
