import Wiring.Proofs.Registration
import Wiring.Proofs.Script

/-!
# Definitions that stop a unit

A definition is defective where it has no statement: its name is blank, or it is called
through a module instance and stands in the default module. A unit is written up to its
first defective definition in the order of registration, which need not be the first
one declared, and that definition is what is reported.
-/

namespace Wiring

namespace Definition

/-- Whether the definition has no statement at a place. -/
def isDefective (place : Place) (definition : Definition) : Bool :=
  Text.isBlankText definition.name || (place = .defaultModule && definition.isMember)

/-- What is wrong with a defective definition; a blank name comes first. -/
def defect (definition : Definition) : Defect :=
  if Text.isBlankText definition.name then .emptyName else .memberOutsideModule

variable {definition : Definition} {place : Place}

theorem statement_eq_error_of_isDefective (hdefective : definition.isDefective place = true) :
    definition.statement place = .error definition.defect := by
  unfold statement defect
  by_cases hblank : Text.isBlankText definition.name = true
  · simp [hblank]
  · simp only [isDefective, hblank, Bool.false_or, Bool.and_eq_true, decide_eq_true_eq] at hdefective
    obtain ⟨rfl, hmember⟩ := hdefective
    have htarget : definition.provider.target definition.package .defaultModule =
        .error .memberOutsideModule := by
      unfold isMember at hmember
      cases hprovider : definition.provider with
      | type name => simp [hprovider, Provider.isMember] at hmember
      | function name isMember =>
          rw [hprovider] at hmember
          obtain rfl : isMember = true := hmember
          rfl
    simp [hblank, htarget]

theorem exists_statement_of_isDefective_eq_false
    (hsound : definition.isDefective place = false) :
    ∃ content, definition.statement place = .ok content := by
  simp only [isDefective, Bool.or_eq_false_iff, Bool.and_eq_false_iff,
    decide_eq_false_iff_not] at hsound
  obtain ⟨hnamed, hplace⟩ := hsound
  have htarget : ∃ target, definition.provider.target definition.package place = .ok target := by
    unfold isMember at hplace
    cases hprovider : definition.provider with
    | type name => exact ⟨_, rfl⟩
    | function name isMember =>
        rw [hprovider] at hplace
        cases isMember with
        | false => exact ⟨_, rfl⟩
        | true =>
            cases place with
            | routine instanceName => exact ⟨_, rfl⟩
            | defaultModule => simp [Provider.isMember] at hplace
  obtain ⟨target, htarget⟩ := htarget
  simp [statement, hnamed, htarget]

theorem isDefective_eq_false_iff :
    definition.isDefective place = false ↔ (definition.statement? place).isSome := by
  unfold statement?
  cases hdefective : definition.isDefective place with
  | true => simp [statement_eq_error_of_isDefective hdefective, Except.toOption]
  | false =>
      obtain ⟨content, hstatement⟩ := exists_statement_of_isDefective_eq_false hdefective
      simp [hstatement, Except.toOption]

/-- Nothing is defective where all names are there and nothing needs an instance in vain. -/
theorem forall_isDefective_eq_false_iff {definitions : List Definition} :
    (∀ definition ∈ definitions, definition.isDefective place = false) ↔
      (∀ definition ∈ definitions, Text.isBlankText definition.name = false) ∧
        (place = .defaultModule →
          ∀ definition ∈ definitions, definition.isMember = false) := by
  simp only [isDefective, Bool.or_eq_false_iff, Bool.and_eq_false_iff, decide_eq_false_iff_not]
  constructor
  · intro h
    refine ⟨fun definition hmem => (h definition hmem).1, ?_⟩
    intro hplace definition hmem
    exact (h definition hmem).2.resolve_left (not_not_intro hplace)
  · rintro ⟨hnamed, hplain⟩ definition hmem
    refine ⟨hnamed definition hmem, ?_⟩
    by_cases hplace : place = .defaultModule
    · exact Or.inr (hplain hplace definition hmem)
    · exact Or.inl hplace

theorem malformed?_eq_some {malformed : Malformed}
    (hmalformed : definition.malformed? place = some malformed) :
    definition.isDefective place = true ∧ malformed = ⟨definition.label, definition.defect⟩ := by
  unfold malformed? at hmalformed
  cases hdefective : definition.isDefective place with
  | true =>
      rw [statement_eq_error_of_isDefective hdefective] at hmalformed
      exact ⟨rfl, (Option.some.inj hmalformed).symm⟩
  | false =>
      obtain ⟨content, hstatement⟩ := exists_statement_of_isDefective_eq_false hdefective
      simp [hstatement] at hmalformed

end Definition

/-- A script whose texts are all there has no defective definition. -/
theorem isDefective_eq_false_of_map_text?_eq {place : Place} {script : List Piece}
    {texts : List String} (htexts : script.map (Piece.text? place) = texts.map some) :
    ∀ definition ∈ Piece.definitions script, definition.isDefective place = false := by
  intro definition hmem
  obtain ⟨piece, hpiece, hdefinition⟩ := List.mem_filterMap.mp hmem
  cases piece with
  | fixed content => cases hdefinition
  | statement other =>
      obtain rfl := Option.some.inj hdefinition
      have htext : (Piece.statement other).text? place ∈ texts.map some := by
        rw [← htexts]
        exact List.mem_map_of_mem hpiece
      obtain ⟨content, _, hcontent⟩ := List.mem_map.mp htext
      exact Definition.isDefective_eq_false_iff.mpr (Option.isSome_of_eq_some hcontent.symm)

section Delivery

variable {σ : Type} {calm : Sink σ} {state : σ}

/-- At a sink without faults a unit is completed exactly if no definition is defective. -/
theorem Origin.deliver_eq_ok_iff (origin : Origin) (settings : Settings)
    (hcalm : calm.IsFaultFree state) :
    (calm.deliver (origin.sourceUnit settings) state).1 = .ok () ↔
      ∀ definition ∈ origin.definitions, definition.isDefective origin.place = false := by
  have hstated : AllStated origin.place origin.definitions ↔
      ∀ definition ∈ origin.definitions, definition.isDefective origin.place = false := by
    simp only [AllStated, Definition.isDefective_eq_false_iff]
  rw [← hstated, ← Origin.stop_sourceUnit_eq_none, hcalm.deliver_eq,
    SourceUnit.rendered]
  cases (origin.sourceUnit settings).draft.stop <;> simp

/-- A unit succeeds at a sink without faults exactly if no definition has a blank name
and, in the default module, none is called through a module instance. Otherwise the
first defective definition in the order of registration is reported under the name of
the unit, and the sink has received exactly what stands in front of its statement. -/
theorem deliver_stops_at_first_defect (origin : Origin) (settings : Settings)
    (hcalm : calm.IsFaultFree state) :
    let result := (calm.deliver (origin.sourceUnit settings) state).1
    let received := calm.received (origin.sourceUnit settings) state
    let script := origin.script settings
    (result = .ok () ↔
      (∀ definition ∈ origin.definitions, Text.isBlankText definition.name = false) ∧
      (origin.place = .defaultModule →
        ∀ definition ∈ origin.definitions, definition.isMember = false)) ∧
    Piece.definitions script = registrationOrder origin.definitions ∧
    match (registrationOrder origin.definitions).find? (Definition.isDefective origin.place) with
    | none => result = .ok () ∧ script.map (Piece.text? origin.place) = received.map some
    | some definition =>
        result = .error (.malformed origin.name ⟨definition.label,
          if Text.isBlankText definition.name then .emptyName else .memberOutsideModule⟩) ∧
        ∃ before after, script = before ++ .statement definition :: after ∧
          .statement definition ∉ before ∧
          before.map (Piece.text? origin.place) = received.map some := by
  intro result received script
  have horder := origin.definitions_script settings
  have hresult : result = (origin.sourceUnit settings).rendered := hcalm.deliver_eq _
  have hreceived : received = (origin.sourceUnit settings).draft.pieces := hcalm.received_eq _
  refine ⟨?_, horder, ?_⟩
  · rw [origin.deliver_eq_ok_iff settings hcalm]
    exact Definition.forall_isDefective_eq_false_iff
  · cases origin.follows_sourceUnit settings with
    | complete hpieces hstop =>
        have hsound := isDefective_eq_false_of_map_text?_eq hpieces
        rw [horder] at hsound
        have hnone : (registrationOrder origin.definitions).find?
            (Definition.isDefective origin.place) = none := by
          apply List.find?_eq_none.mpr
          intro definition hmem
          simp [hsound definition hmem]
        rw [hnone]
        refine ⟨?_, ?_⟩
        · rw [hresult, SourceUnit.rendered, hstop]
        · rw [hreceived]
          exact hpieces
    | @stopped before after definition malformed hscript hpieces hmalformed hstop =>
        have hsound := isDefective_eq_false_of_map_text?_eq hpieces
        obtain ⟨hdefective, rfl⟩ := Definition.malformed?_eq_some hmalformed
        -- the definitions in front are sound, so this one is found first
        have hfound : (registrationOrder origin.definitions).find?
            (Definition.isDefective origin.place) = some definition := by
          rw [← horder, hscript, Piece.definitions_append, List.find?_append]
          have hbefore : (Piece.definitions before).find?
              (Definition.isDefective origin.place) = none := by
            apply List.find?_eq_none.mpr
            intro other hmem
            simp [hsound other hmem]
          rw [hbefore]
          exact List.find?_cons_of_pos hdefective
        rw [hfound]
        refine ⟨?_, before, after, hscript, ?_, ?_⟩
        · rw [hresult, SourceUnit.rendered, hstop, origin.name_sourceUnit]
          rfl
        · intro hmem
          have hother := hsound definition (List.mem_filterMap.mpr ⟨_, hmem, rfl⟩)
          rw [hdefective] at hother
          cases hother
        · rw [hreceived]
          exact hpieces

/-- Of three defective definitions the one declared last stops the default unit: it is in
no scope. Its blank name is reported, although it would be called through an instance. -/
theorem deliver_stops_at_first_defect_of_scopes :
    let inMenu := (Definition.ofType "app" "" { name := "scoped" }).inScope (.named "menu")
    let member := ((Definition.ofFunction "app" "clock" { name := "single" }).inScope
      (.type "app.Menu")).memberOfModule
    let last := (Definition.ofFunction "app" "\t" { name := "single" }).memberOfModule
    let origin := Origin.pooled [{ Module.named "app" "Main" with
      definitions := [inMenu, member, Definition.ofType "app" "Store" { name := "single" }, last] }]
    TextBuffer.sink.IsFaultFree {} ∧
    (TextBuffer.sink.deliver (origin.sourceUnit {}) {}).1 =
      .error (.malformed "defaultModule" ⟨"app.\t", .emptyName⟩) := by
  intro inMenu member last origin
  have hstops := deliver_stops_at_first_defect origin {} Sink.isFaultFree_textBuffer
  have hfound : (registrationOrder origin.definitions).find?
      (Definition.isDefective origin.place) = some last := by
    decide +kernel
  have hlabel : last.label = "app.\t" := by decide +kernel
  have hblank : Text.isBlankText last.name = true := by decide +kernel
  simp only [hfound, hlabel, hblank, if_true] at hstops
  exact ⟨Sink.isFaultFree_textBuffer, hstops.2.2.1⟩

end Delivery

end Wiring
