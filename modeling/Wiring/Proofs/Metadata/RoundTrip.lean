import Wiring.Proofs.Metadata.Reading
import Wiring.Proofs.Settings.Reading

/-!
# Compact texts are read back

A record that is written in full is one of its forms, so that its compact text is read
as the record it was written for. Two records therefore never have the same text.
-/

namespace Wiring

open Json

variable {α : Type}

/-! ## Records written in full -/

theorem Fills.arranged {slots : List Slot} {members : List (String × Value)}
    (h : Fills slots members) : Arranged slots members :=
  ⟨members, [], h, by simp, by simp⟩

theorem isListOf_map {form : α → Value → Prop} {encode : α → Value} (elements : List α)
    (h : ∀ element, form element (encode element)) :
    IsListOf form elements (.array (elements.map encode)) := by
  refine ⟨_, rfl, ?_⟩
  rw [List.forall₂_map_right_iff, List.forall₂_same]
  exact fun element _ => h element

theorem Keyword.isForm_encode (keyword : Keyword) : keyword.IsForm keyword.encode :=
  ⟨_, rfl, Fills.arranged (.fill rfl (.fill rfl .done))⟩

theorem Parameter.isForm_encode (parameter : Parameter) : parameter.IsForm parameter.encode := by
  cases parameter with
  | dependency => exact ⟨_, rfl, Fills.arranged (.fill rfl (.fill rfl (.fill rfl (.fill rfl .done))))⟩
  | injected => exact ⟨_, rfl, Fills.arranged (.fill rfl (.fill rfl .done))⟩
  | property => exact ⟨_, rfl, Fills.arranged (.fill rfl (.fill rfl (.fill rfl .done)))⟩
  | all => exact ⟨_, rfl, Fills.arranged (.fill rfl .done)⟩

theorem Definition.isForm_encode (definition : Definition) :
    definition.IsForm definition.encode := by
  refine ⟨_, rfl, Fills.arranged ?_⟩
  have hown : Fills definition.ownSlots definition.ownMembers :=
    .fill rfl (.fill definition.keyword.isForm_encode (.fill rfl (.fill rfl (.fill rfl (.fill rfl
      (.fill (isListOf_map definition.parameters Parameter.isForm_encode) .done))))))
  rw [slots]
  cases definition.provider with
  | type name => exact .fill rfl (.fill rfl hown)
  | function name isMember => exact .fill rfl (.fill rfl (.fill rfl hown))

theorem ModuleRef.isForm_encode (reference : ModuleRef) : reference.IsForm reference.encode :=
  ⟨_, rfl, Fills.arranged (.fill rfl (.fill rfl .done))⟩

theorem Module.isForm_encode (module : Module) : module.IsForm module.encode := by
  have hincludes : IsIncludesForm module.includes
      ((module.includes.map fun refs => .array (refs.map ModuleRef.encode)).getD .null) := by
    cases module.includes with
    | none => rfl
    | some references => exact isListOf_map references ModuleRef.isForm_encode
  exact ⟨_, rfl, Fills.arranged (.fill rfl (.fill rfl (.fill rfl
    (.fill (isListOf_map module.definitions Definition.isForm_encode) (.fill hincludes .done)))))⟩

theorem Metadata.isForm_encode (metadata : Metadata) : metadata.IsForm metadata.encode :=
  ⟨_, rfl, Fills.arranged (.fill (isListOf_map metadata.modules Module.isForm_encode)
    (.fill (isListOf_map metadata.defaultSources Module.isForm_encode) .done))⟩

theorem Settings.isRecord_encode (settings : Settings) :
    IsRecord settings.slots settings.encode :=
  ⟨_, rfl, Fills.arranged (.fill rfl (.fill rfl (.fill rfl (.fill rfl .done))))⟩

/-! ## Their numbers and their depth -/

theorem isPlain_optionalText (text : Option String) : (Value.optionalText text).isPlain = true := by
  cases text <;> rfl

theorem depth_optionalText (text : Option String) : (Value.optionalText text).depth = 0 := by
  cases text <;> rfl

theorem arePlain_map {encode : α → Value} (h : ∀ element, (encode element).isPlain = true) :
    ∀ elements : List α, arePlain (elements.map encode) = true
  | [] => rfl
  | element :: elements => by simp [arePlain, h element, arePlain_map h elements]

theorem itemsDepth_map_le {encode : α → Value} {bound : Nat}
    (h : ∀ element, (encode element).depth ≤ bound) :
    ∀ elements : List α, itemsDepth (elements.map encode) ≤ bound
  | [] => Nat.zero_le _
  | element :: elements => Nat.max_le.mpr ⟨h element, itemsDepth_map_le h elements⟩

theorem Keyword.isPlain_encode (keyword : Keyword) : keyword.encode.isPlain = true := by
  simp [encode, Value.isPlain, membersPlain, isPlain_optionalText]

theorem Scope.isPlain_encode (scope : Scope) : scope.encode.isPlain = true := by
  cases scope <;> rfl

theorem Parameter.isPlain_encode (parameter : Parameter) : parameter.encode.isPlain = true := by
  cases parameter <;> simp [encode, Value.isPlain, membersPlain, isPlain_optionalText]

theorem Definition.isPlain_encode (definition : Definition) :
    definition.encode.isPlain = true := by
  have hscope : ((definition.scope.map Scope.encode).getD .null).isPlain = true := by
    cases definition.scope with
    | none => rfl
    | some scope => exact scope.isPlain_encode
  have hbindings : arePlain (definition.bindings.map .text) = true :=
    arePlain_map (fun _ => rfl) _
  have hown : membersPlain definition.ownMembers = true := by
    simp [ownMembers, Value.isPlain, membersPlain, isPlain_optionalText, hscope, hbindings,
      definition.keyword.isPlain_encode,
      arePlain_map Parameter.isPlain_encode definition.parameters]
  rw [encode]
  cases definition.provider <;> simpa [Provider.members, Value.isPlain, membersPlain] using hown

theorem ModuleRef.isPlain_encode (reference : ModuleRef) :
    reference.encode.isPlain = true := rfl

theorem Module.isPlain_encode (module : Module) : module.encode.isPlain = true := by
  have hincludes : ((module.includes.map fun refs =>
      Value.array (refs.map ModuleRef.encode)).getD .null).isPlain = true := by
    cases module.includes with
    | none => rfl
    | some references => exact arePlain_map ModuleRef.isPlain_encode references
  simp [encode, Value.isPlain, membersPlain, Visibility.encode, hincludes,
    arePlain_map Definition.isPlain_encode module.definitions]

theorem Metadata.isPlain_encode (metadata : Metadata) : metadata.encode.isPlain = true := by
  simp [encode, Value.isPlain, membersPlain, arePlain_map Module.isPlain_encode]

theorem Settings.isPlain_encode (settings : Settings) : settings.encode.isPlain = true := by
  simp [encode_eq, Value.isPlain, membersPlain, Value.natural, Number.isWord,
    settings.capacity.rows_lt]

theorem Parameter.depth_encode (parameter : Parameter) : parameter.encode.depth = 1 := by
  cases parameter <;> simp [encode, Value.depth, membersDepth, depth_optionalText]

theorem Scope.depth_encode (scope : Scope) : scope.encode.depth = 1 := by
  cases scope <;> rfl

theorem ModuleRef.depth_encode (reference : ModuleRef) : reference.encode.depth = 1 := rfl

theorem Keyword.depth_encode (keyword : Keyword) : keyword.encode.depth = 1 := by
  simp [encode, Value.depth, membersDepth, depth_optionalText]

theorem Definition.depth_encode_le (definition : Definition) : definition.encode.depth ≤ 3 := by
  have hkeyword := definition.keyword.depth_encode
  have hscope : ((definition.scope.map Scope.encode).getD .null).depth ≤ 1 := by
    cases definition.scope with
    | none => exact Nat.zero_le _
    | some scope => exact scope.depth_encode.le
  have hbindings : itemsDepth (definition.bindings.map .text) ≤ 0 :=
    itemsDepth_map_le (fun text => show (Value.text text).depth ≤ 0 from Nat.le_refl _) _
  have hparameters : itemsDepth (definition.parameters.map Parameter.encode) ≤ 1 :=
    itemsDepth_map_le (fun parameter => parameter.depth_encode.le) _
  have hown : membersDepth definition.ownMembers ≤ 2 := by
    simp only [ownMembers, membersDepth, Value.depth, depth_optionalText]
    omega
  rw [encode]
  cases definition.provider <;>
    simp only [Provider.members, List.cons_append, List.nil_append, Value.depth, membersDepth] <;>
    omega

theorem Module.depth_encode_le (module : Module) : module.encode.depth ≤ 5 := by
  have hdefinitions := itemsDepth_map_le Definition.depth_encode_le module.definitions
  have hincludes : ((module.includes.map fun refs =>
      Value.array (refs.map ModuleRef.encode)).getD .null).depth ≤ 2 := by
    cases module.includes with
    | none => exact Nat.zero_le _
    | some references =>
        have hreferences : itemsDepth (references.map ModuleRef.encode) ≤ 1 :=
          itemsDepth_map_le (fun reference => reference.depth_encode.le) _
        exact Nat.succ_le_succ hreferences
  simp only [encode, Visibility.encode, Value.depth, membersDepth]
  omega

theorem Metadata.depth_encode_le (metadata : Metadata) : metadata.encode.depth ≤ 7 := by
  have hmodules := itemsDepth_map_le Module.depth_encode_le metadata.modules
  have hsources := itemsDepth_map_le Module.depth_encode_le metadata.defaultSources
  simp only [encode, Value.depth, membersDepth]
  omega

/-! ## The round trip -/

/-- Each value of a type is read back from its compact text, which is its own. -/
structure ReadsBack (encode : α → Value) (decode : Node → Except Refusal α) : Prop where
  /-- The text is read as the value it was written for. -/
  parse_compact : ∀ x, Json.parse decode (encode x).compact = .ok x
  /-- Different values have different texts. -/
  injective : Function.Injective fun x => (encode x).compact

theorem ReadsBack.of_reads {encode : α → Value} {decode : Node → Except Refusal α}
    (hreads : ∀ x, Reads decode (encode x) x) (hplain : ∀ x, (encode x).isPlain = true) :
    ReadsBack encode decode := by
  have hparse : ∀ x, Json.parse decode (encode x).compact = .ok x := fun x =>
    parse_eq (hreads x) (hplain x) (.compact (encode x)) (by simp)
  refine ⟨hparse, fun x y hsame => ?_⟩
  -- a text is read as one value only
  have hsame : (encode x).compact = (encode y).compact := hsame
  have hx := hparse x
  rw [hsame, hparse y] at hx
  exact (Except.ok.inj hx).symm

/-- Metadata, each of its parts and settings are read back from their compact texts. -/
theorem readsBack_compact :
    ReadsBack Metadata.encode (Metadata.decode depthLimit) ∧
      ReadsBack Module.encode (Module.decode depthLimit) ∧
      ReadsBack Definition.encode (Definition.decode depthLimit) ∧
      ReadsBack Keyword.encode Keyword.decode ∧
      ReadsBack Scope.encode Scope.decode ∧
      ReadsBack Visibility.encode Visibility.decode ∧
      ReadsBack Parameter.encode (Parameter.decode depthLimit) ∧
      ReadsBack ModuleRef.encode ModuleRef.decode ∧
      ReadsBack Settings.encode Settings.decode := by
  refine ⟨.of_reads ?_ Metadata.isPlain_encode, .of_reads ?_ Module.isPlain_encode,
    .of_reads ?_ Definition.isPlain_encode, .of_reads ?_ Keyword.isPlain_encode,
    .of_reads Scope.reads Scope.isPlain_encode, .of_reads Visibility.reads fun _ => rfl,
    .of_reads ?_ Parameter.isPlain_encode, .of_reads ?_ ModuleRef.isPlain_encode,
    .of_reads ?_ Settings.isPlain_encode⟩
  · intro metadata
    have hdepth := metadata.depth_encode_le
    exact Metadata.reads metadata.isForm_encode (hdepth.trans (by decide))
  · intro module
    have hdepth := module.depth_encode_le
    exact Module.reads module.isForm_encode (hdepth.trans (by decide))
  · intro definition
    have hdepth := definition.depth_encode_le
    exact Definition.reads definition.isForm_encode (hdepth.trans (by decide))
  · exact fun keyword => Keyword.reads keyword.isForm_encode
  · intro parameter
    have hdepth := parameter.depth_encode
    exact Parameter.reads parameter.isForm_encode (hdepth.trans_le (by decide))
  · exact fun reference => ModuleRef.reads reference.isForm_encode
  · exact fun settings => Settings.reads settings.isRecord_encode

end Wiring
