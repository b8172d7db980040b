import Wiring.Proofs.Dispatch
import Wiring.Proofs.Text.Delimited

/-!
# The module instance is in scope where it is used

Whether there is a module instance is decided once, from the definitions as they are
declared. Its construction, the calls of the routines and their signatures all follow
that decision, so a call hands over what the routine it names takes, and a statement
that calls through the instance stands in a routine that declares it.
-/

namespace Wiring

/-! ## One element in a list of two parts -/

section Parts

variable {α : Type} {first second front back : List α} {x : α}

theorem exists_left_of_not_mem (h : first ++ second = front ++ x :: back) (hx : x ∉ second) :
    ∃ inner, first = front ++ x :: inner := by
  rcases exists_of_append_eq_append_cons h with ⟨inner, hfirst, _⟩ | ⟨inner, _, rfl⟩
  · exact ⟨inner, hfirst⟩
  · exact absurd (List.mem_append_right _ List.mem_cons_self) hx

theorem exists_right_of_not_mem (h : first ++ second = front ++ x :: back) (hx : x ∉ first) :
    ∃ inner, front = first ++ inner ∧ second = inner ++ x :: back := by
  rcases exists_of_append_eq_append_cons h with ⟨inner, rfl, _⟩ | hright
  · exact absurd (List.mem_append_right _ List.mem_cons_self) hx
  · exact hright

end Parts

namespace Module

variable {module : Module} {settings : Settings} {index : Nat} {text : String}

/-- What the routines of a module take, by name and type: the module instance, if some
distinct definition is called through it. -/
def routineParameters (module : Module) : List (String × String) :=
  if (registrationOrder module.definitions).any Definition.isMember then
    [(Fragment.instanceName, module.path)]
  else []

/-- The construction of a value that routines take. -/
def constructionText (parameter : String × String) : String :=
  Fragment.newLine ++ "val " ++ parameter.1 ++ " = " ++ parameter.2 ++ "()"

/-- A call of a routine that hands over the values with these names. -/
def callWith (module : Module) (index : Nat) (arguments : List String) : String :=
  Fragment.newLine ++ Fragment.routineName module.fieldName index ++ "(" ++
    ", ".intercalate arguments ++ ")"

/-- The signature of a routine that takes these parameters. -/
def signatureWith (module : Module) (index : Nat) (parameters : List (String × String)) :
    String :=
  Fragment.modifier module.visibility ++ "fun Module." ++
    Fragment.routineName module.fieldName index ++ "(" ++
    ", ".intercalate (parameters.map fun parameter => parameter.1 ++ ": " ++ parameter.2) ++ ")\x7b"

/-! ## One decision -/

/-- Repeated definitions do not count: what is declared decides as the distinct
definitions would. -/
theorem instanceType_eq (module : Module) :
    module.instanceType = module.routineParameters.head?.map Prod.snd := by
  have hany : (registrationOrder module.definitions).any Definition.isMember =
      module.hasMembers := by
    unfold hasMembers
    rw [Bool.eq_iff_iff, List.any_eq_true, List.any_eq_true]
    simp only [mem_registrationOrder]
  unfold instanceType routineParameters
  rw [hany]
  split <;> rfl

theorem routineParameters_eq_nil_or (module : Module) :
    module.routineParameters = [] ∨
      module.routineParameters = [(Fragment.instanceName, module.path)] := by
  unfold routineParameters
  split
  next => exact Or.inr rfl
  next => exact Or.inl rfl

theorem instanceTexts_eq (module : Module) :
    module.instanceTexts = module.routineParameters.map constructionText := by
  unfold instanceTexts
  rw [instanceType_eq]
  rcases module.routineParameters_eq_nil_or with hnone | hsome
  · rw [hnone]
    rfl
  · rw [hsome]
    rfl

theorem callText_eq (module : Module) (index : Nat) :
    module.callText index = module.callWith index (module.routineParameters.map Prod.fst) := by
  unfold callText callWith Fragment.routineCall
  rw [instanceType_eq]
  rcases module.routineParameters_eq_nil_or with hnone | hsome
  · rw [hnone]
    rfl
  · rw [hsome]
    simp

theorem headerText_eq (module : Module) (index : Nat) :
    module.headerText index = module.signatureWith index module.routineParameters := by
  unfold headerText signatureWith Fragment.routineHeader
  rw [instanceType_eq]
  rcases module.routineParameters_eq_nil_or with hnone | hsome
  · rw [hnone]
    rfl
  · rw [hsome]
    simp

/-! ## One construction -/

theorem startsIn_instanceStatement (path : String) :
    StartsIn ["\n\t"] (Fragment.instanceStatement path) := by
  iterate 5 refine StartsIn.append ?_ _
  exact ⟨"\n\t", by decide, by decide⟩

theorem endsIn_instanceStatement (path : String) :
    EndsIn ["()"] (Fragment.instanceStatement path) :=
  EndsIn.append ⟨"()", by decide, by decide⟩ _

theorem count_toDigits_eq_zero {c : Char} (hc : c.isDigit = false) (number : Nat) :
    (Nat.toDigits 10 number).count c = 0 := by
  rw [List.count_eq_zero]
  intro hmem
  rw [Nat.isDigit_of_mem_toDigits (by decide) (by decide) hmem] at hc
  cases hc

/-- The field name and the path of a module differ in separators only. -/
theorem count_fieldName (module : Module) {c : Char} (hdot : c ≠ '.') (hunderscore : c ≠ '_') :
    module.fieldName.toList.count c = module.path.toList.count c := by
  have hseparators : (module.package.toList.map fun c => if c = '.' then '_' else c).count c =
      module.package.toList.count c := by
    rw [List.count_eq_countP, List.count_eq_countP, List.countP_map]
    apply List.countP_congr
    intro source _
    by_cases hsource : source = '.'
    · simp [hsource, hdot.symm, hunderscore.symm]
    · simp [hsource]
  unfold fieldName path qualify
  split
  next => rfl
  next => simp [List.count_append, hseparators, hdot.symm, hunderscore.symm]

/-- No call constructs the instance. -/
theorem instanceStatement_ne_callText (module : Module) (index : Nat) :
    Fragment.instanceStatement module.path ≠ module.callText index := by
  cases hinstance : module.instanceType with
  | some path =>
      have hcall := endsIn_callText_of_instanceType_eq_some hinstance index
      exact (endsIn_instanceStatement _).ne hcall (by decide)
  | none =>
      -- both end in empty parentheses, but the keyword adds a letter to the path
      intro heq
      have hcount := congrArg (fun text => text.toList.count 'v') heq
      have hnumber : (Nat.toDigits 10 index).count 'v' = 0 := count_toDigits_eq_zero (by decide) _
      have hname : Fragment.instanceName.toList.count 'v' = 0 := by decide
      simp [Fragment.instanceStatement, callText, Fragment.routineCall, Fragment.routineName,
        hinstance, module.count_fieldName, List.count_append, hnumber, hname] at hcount

/-! ## Statements inside routines -/

section Routines

variable {builder front back : List String} {bodies : List (List String)}

theorem mem_routinesTexts {body : List String} (hbody : body ∈ bodies) (htext : text ∈ body)
    (number : Nat) : text ∈ module.routinesTexts number bodies := by
  induction bodies generalizing number with
  | nil => cases hbody
  | cons first bodies ih =>
      rcases List.mem_cons.mp hbody with rfl | hbody
      · exact List.mem_append_left _ (List.mem_append_left _ (List.mem_append_right _ htext))
      · exact List.mem_append_right _ (ih hbody (number + 1))

/-- A statement among the texts of routines stands behind a signature, and the routine
that the signature opens is not closed before it. -/
theorem exists_header_of_routinesTexts_eq (hstart : StartsIn ["\n\t"] text)
    (hbodies : ∀ body ∈ bodies, ∀ text ∈ body, StartsIn ["\n\t"] text) (number : Nat)
    (h : module.routinesTexts number bodies = front ++ text :: back) :
    ∃ index before inside, front = before ++ module.headerText index :: inside ∧
      Fragment.blockClosing ∉ inside := by
  have hclosing : StartsIn ["\n\x7d"] Fragment.blockClosing := ⟨"\n\x7d", by decide, by decide⟩
  have hgap : StartsIn ["\n\n"] Fragment.routineGap := ⟨"\n\n", by decide, by decide⟩
  induction bodies generalizing number front with
  | nil => simp [routinesTexts] at h
  | cons body bodies ih =>
      obtain ⟨hbody, hrest⟩ := List.forall_mem_cons.mp hbodies
      have hheader : text ≠ module.headerText number :=
        hstart.ne (module.startsIn_headerText number) (by decide)
      rcases exists_of_append_eq_append_cons h with ⟨inner, hroutine, _⟩ | ⟨inner, rfl, hinner⟩
      · -- in this routine, where neither the signature nor the closing is a statement
        obtain ⟨inner, hopened⟩ := exists_left_of_not_mem hroutine
          (by simpa using hstart.ne hclosing (by decide))
        obtain ⟨inside, rfl, hinside⟩ := exists_right_of_not_mem hopened
          (by simpa using ⟨hstart.ne hgap (by decide), hheader⟩)
        refine ⟨number, [Fragment.routineGap], inside, rfl, ?_⟩
        intro hmem
        have hclosed : Fragment.blockClosing ∈ body := by
          rw [hinside]
          exact List.mem_append_left _ hmem
        exact (hbody _ hclosed).ne hclosing (by decide) rfl
      · obtain ⟨index, before, inside, rfl, hnot⟩ := ih hrest (number + 1) hinner
        exact ⟨index, module.routineTexts number body ++ before, inside, by simp, hnot⟩

/-- A statement in a module unit stands behind a signature, and the routine that the
signature opens is not closed before it. -/
theorem exists_header_of_layout_eq (hstart : StartsIn ["\n\t"] text)
    (hend : EndsIn statementEndings text) (hbuilder : ∀ text ∈ builder, EndsIn ["()", "ce)"] text)
    (hbodies : ∀ body ∈ bodies, ∀ text ∈ body, StartsIn ["\n\t"] text)
    (h : module.layout settings builder bodies = front ++ text :: back) :
    ∃ index before inside, front = before ++ module.headerText index :: inside ∧
      Fragment.blockClosing ∉ inside := by
  have hclosing : StartsIn ["\n\x7d"] Fragment.blockClosing := ⟨"\n\x7d", by decide, by decide⟩
  have haccessor := hstart.ne (startsIn_accessor module.visibility module.path module.fieldName)
    (by decide)
  have hfront : text ∉ module.openingTexts settings ++ builder ++ [Fragment.blockClosing] := by
    simp only [List.mem_append, List.mem_singleton, not_or]
    refine ⟨⟨?_, ?_⟩, hstart.ne hclosing (by decide)⟩
    · intro hmem
      exact hend.ne (endsIn_openingTexts settings text hmem) (by decide) rfl
    · intro hmem
      exact hend.ne (hbuilder text hmem) (by decide) rfl
  unfold layout at h
  obtain ⟨inner, hinner⟩ := exists_left_of_not_mem h (by simpa using haccessor)
  obtain ⟨inner, rfl, hroutines⟩ := exists_right_of_not_mem hinner hfront
  obtain ⟨index, before, inside, rfl, hnot⟩ :=
    exists_header_of_routinesTexts_eq hstart hbodies 0 hroutines
  exact ⟨index, _ ++ before, inside, (List.append_assoc _ _ _).symm, hnot⟩

end Routines

end Module

theorem EmissionUnit.mem_texts_of_statement? {place : Place} {unit : EmissionUnit}
    {definition : Definition} (hmem : definition ∈ unit.definitions) {statement : String}
    (hstatement : definition.statement? place = some statement) :
    statement ∈ unit.texts place := by
  cases unit with
  | single single =>
      obtain rfl := List.mem_singleton.mp hmem
      exact Option.mem_toList.mpr hstatement
  | group block =>
      have hmember := List.mem_filterMap.mpr ⟨definition, hmem, hstatement⟩
      exact List.mem_append_left _ (List.mem_cons_of_mem _ hmember)

/-- A member is called through the module instance. -/
theorem Definition.target_of_isMember {definition : Definition}
    (hmember : definition.isMember = true) (instanceName : String) :
    definition.provider.target definition.package (.routine instanceName) =
      .ok (instanceName ++ "." ++ definition.name) := by
  unfold isMember at hmember
  unfold name
  cases hprovider : definition.provider with
  | type name =>
      rw [hprovider] at hmember
      cases hmember
  | function name isMember =>
      rw [hprovider] at hmember
      obtain rfl : isMember = true := hmember
      rfl

section Delivery

variable {σ : Type} {module : Module} {settings : Settings} {sink : Sink σ} {state : σ}

namespace Module

theorem endsIn_builderTexts (module : Module) (capacity : Capacity) :
    ∀ text ∈ module.builderTexts capacity, EndsIn ["()", "ce)"] text := by
  unfold builderTexts
  split
  next => exact List.forall_mem_nil _
  next =>
    refine List.forall_mem_append.mpr ⟨?_, List.forall_mem_map.mpr ?_⟩
    · intro text htext
      obtain ⟨path, _, rfl⟩ := Option.map_eq_some_iff.mp (Option.mem_toList.mp htext)
      exact (endsIn_instanceStatement path).mono (by decide)
    · intro index _
      exact module.endsIn_callText index

/-- The instance is constructed once if routines take it, and not at all otherwise. -/
theorem count_instanceStatement_received
    (hok : (sink.deliver (module.sourceUnit settings) state).1 = .ok ())
    (hdefinitions : module.definitions ≠ []) :
    (sink.received (module.sourceUnit settings) state).count
        (Fragment.instanceStatement module.path) = module.routineParameters.length := by
  have hnonempty : ¬module.definitions.isEmpty := by simpa using hdefinitions
  have hcalls : Fragment.instanceStatement module.path ∉
      (List.range (module.plan settings.capacity).callCount).map module.callText := by
    intro hmem
    obtain ⟨index, _, heq⟩ := List.mem_map.mp hmem
    exact module.instanceStatement_ne_callText index heq.symm
  rw [(received_eq hok).2, count_layout_eq_count_builder (startsIn_instanceStatement _)
    ((endsIn_instanceStatement _).mono (by decide)) (module.endsForeign_routineBodies _),
    builderTexts, if_neg hnonempty, List.count_append, List.count_eq_zero_of_not_mem hcalls,
    instanceTexts_eq]
  rcases module.routineParameters_eq_nil_or with hnone | hsome
  · rw [hnone]
    rfl
  · rw [hsome]
    exact List.count_singleton_self

/-- Each statement of a completed unit stands behind a signature, and the routine that
the signature opens is not closed before it. -/
theorem exists_header_of_received_eq
    (hok : (sink.deliver (module.sourceUnit settings) state).1 = .ok ())
    {definition : Definition} {statement : String}
    (hstatement : definition.statement? (.routine Fragment.instanceName) = some statement)
    {front back : List String}
    (h : sink.received (module.sourceUnit settings) state = front ++ statement :: back) :
    ∃ index before inside, front = before ++ module.headerText index :: inside ∧
      Fragment.blockClosing ∉ inside := by
  obtain ⟨hstart, hend⟩ := Definition.statement?_affixes hstatement
  rw [(received_eq hok).2] at h
  exact exists_header_of_layout_eq hstart hend (module.endsIn_builderTexts _)
    (module.startsIn_routineBodies _) h

theorem mem_received_of_statement?
    (hok : (sink.deliver (module.sourceUnit settings) state).1 = .ok ())
    {definition : Definition} (hmem : definition ∈ module.definitions) {statement : String}
    (hstatement : definition.statement? (.routine Fragment.instanceName) = some statement) :
    statement ∈ sink.received (module.sourceUnit settings) state := by
  have hplace := mem_registrationOrder.mpr hmem
  rw [← Grouping.flatMap_definitions_units] at hplace
  obtain ⟨unit, hunit, hdefinition⟩ := List.mem_flatMap.mp hplace
  have hflatten : statement ∈ (module.routineBodies settings.capacity).flatten := by
    rw [flatten_routineBodies, ← flatMap_texts_units]
    exact List.mem_flatMap_of_mem hunit
      (EmissionUnit.mem_texts_of_statement? hdefinition hstatement)
  obtain ⟨body, hbody, htext⟩ := List.mem_flatten.mp hflatten
  rw [(received_eq hok).2]
  exact List.mem_append_left _ (List.mem_append_right _ (mem_routinesTexts hbody htext 0))

end Module

/-- The module instance is in scope exactly where it is used. In a completed unit of a
module that has definitions, routines take the module instance where some distinct
definition is called through it, and nothing otherwise. The builder block constructs just
what they take, once and in front of the calls; every call hands it over, and every
signature declares it. So each statement that calls through the instance stands in a
routine that declares it. -/
theorem instance_is_in_scope
    (hok : (sink.deliver (module.sourceUnit settings) state).1 = .ok ())
    (hdefinitions : module.definitions ≠ []) :
    let received := sink.received (module.sourceUnit settings) state
    let parameters := module.routineParameters
    received = module.layout settings
      (parameters.map Module.constructionText ++
        (List.range (module.plan settings.capacity).callCount).map module.callText)
      (module.routineBodies settings.capacity) ∧
    received.count (Module.constructionText (Fragment.instanceName, module.path)) =
      parameters.length ∧
    (∀ index, module.callText index = module.callWith index (parameters.map Prod.fst) ∧
      module.headerText index = module.signatureWith index parameters) ∧
    ∀ definition ∈ module.definitions, definition.isMember = true →
      parameters = [(Fragment.instanceName, module.path)] ∧
      definition.provider.target definition.package (.routine Fragment.instanceName) =
        .ok (Fragment.instanceName ++ "." ++ definition.name) ∧
      ∃ statement, definition.statement? (.routine Fragment.instanceName) = some statement ∧
        statement ∈ received ∧
        ∀ front back, received = front ++ statement :: back →
          ∃ index before inside,
            front = before ++ module.signatureWith index parameters :: inside ∧
            Fragment.blockClosing ∉ inside := by
  intro received parameters
  obtain ⟨hstated, hreceived⟩ := Module.received_eq hok
  have hnonempty : ¬module.definitions.isEmpty := by simpa using hdefinitions
  rw [Module.builderTexts, if_neg hnonempty, Module.instanceTexts_eq] at hreceived
  refine ⟨hreceived, Module.count_instanceStatement_received hok hdefinitions,
    fun index => ⟨module.callText_eq index, module.headerText_eq index⟩, ?_⟩
  intro definition hmem hmember
  have hparameters : parameters = [(Fragment.instanceName, module.path)] := by
    apply if_pos
    exact List.any_eq_true.mpr ⟨definition, mem_registrationOrder.mpr hmem, hmember⟩
  obtain ⟨statement, hstatement⟩ := Option.isSome_iff_exists.mp (hstated definition hmem)
  refine ⟨hparameters, Definition.target_of_isMember hmember _, statement, hstatement,
    Module.mem_received_of_statement? hok hmem hstatement, ?_⟩
  intro front back hsplit
  obtain ⟨index, before, inside, hfront, hnot⟩ :=
    Module.exists_header_of_received_eq hok hstatement hsplit
  rw [module.headerText_eq] at hfront
  exact ⟨index, before, inside, hfront, hnot⟩

/-- A member in a scope, alone in the last of two routines, behind a repeated type. -/
theorem instance_is_in_scope_of_last_routine :
    let type := Definition.ofType "app" "Store" { name := "single" }
    let member := ((Definition.ofFunction "" "clock" { name := "scoped" }).inScope
      (.named "menu")).memberOfModule
    let module := { Module.named "app" "Main" with definitions := [type, member, type] }
    let settings : Settings := { capacity := ⟨1, by decide, by decide⟩ }
    let received := TextBuffer.sink.received (module.sourceUnit settings) {}
    (TextBuffer.sink.deliver (module.sourceUnit settings) {}).1 = .ok () ∧
    module.definitions ≠ [] ∧
    received.count "\n\t\t\t\tval moduleInstance = app.Main()" = 1 ∧
    module.callText 1 = "\n\t\t\t\tapp_Main1(moduleInstance)" ∧
    module.headerText 1 = "public fun Module.app_Main1(moduleInstance: app.Main)\x7b" ∧
    ∀ front back, received =
        front ++ "\n\t\t\t\tscoped() \x7b moduleInstance.clock() \x7d" :: back →
      ∃ index before inside, front = before ++ module.headerText index :: inside := by
  intro type member module settings received
  have hstated : AllStated (.routine Fragment.instanceName) module.definitions := by decide
  have hok : (TextBuffer.sink.deliver (module.sourceUnit settings) {}).1 = .ok () :=
    Origin.deliver_eq_ok (.declared module) Sink.isFaultFree_textBuffer hstated _
  have hdefinitions : module.definitions ≠ [] := by decide
  obtain ⟨_, hcount, htexts, hmembers⟩ := instance_is_in_scope hok hdefinitions
  obtain ⟨hparameters, _, statement, hstatement, _, hinside⟩ :=
    hmembers member (by decide) (by decide)
  have hspelled : member.statement? (.routine Fragment.instanceName) =
      some "\n\t\t\t\tscoped() \x7b moduleInstance.clock() \x7d" := by decide
  obtain rfl := Option.some.inj (hspelled.symm.trans hstatement)
  refine ⟨hok, hdefinitions, ?_, by decide, by decide, ?_⟩
  · rw [hparameters] at hcount
    exact hcount
  · intro front back hsplit
    obtain ⟨index, before, inside, hfront, _⟩ := hinside front back hsplit
    exact ⟨index, before, inside, hfront.trans (by rw [(htexts index).2])⟩

end Delivery

end Wiring
