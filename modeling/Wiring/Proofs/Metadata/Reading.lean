import Wiring.Metadata.Decode
import Wiring.Proofs.Json.Union
import Wiring.Proofs.Metadata.Form

/-!
# Metadata is read from each of its forms

For each record it is listed what its slots contribute to the reading, which is then
put together as in the record itself. Where values are kept, the form must not be nested
deeper than the reader has room for.
-/

namespace Wiring

open Json

variable {members : List (String × Value)} {value : Value} {room : Nat}

/-! ## Keywords -/

namespace Keyword

/-- What the slots of a keyword contribute. -/
def fields (keyword : Keyword) : List (String × Member) :=
  [("keyword", .name keyword.name), ("import", .importPath keyword.importPath)]

/-- What is collected from the members of a keyword. -/
def found (keyword : Keyword) (members : List (String × Value)) : List Member :=
  members.filterMap (contribution keyword.fields fun _ => none)

theorem readMember_of_not_mem {name : String} (hname : name ∉ ["keyword", "import"])
    (node : Node) : readMember name node = node.skip.map fun _ => none := by
  unfold readMember
  split <;> simp_all

theorem ofMembers_found {keyword : Keyword} (h : Arranged keyword.slots members) :
    ofMembers (keyword.found members) = .ok keyword := by
  have hname : required "keyword" Member.name? (keyword.found members) = .ok keyword.name :=
    h.required_eq "keyword" rfl (by simp [fields, Member.name?]) (fun _ => rfl) (by simp [slots])
  have himport : optional none Member.importPath? (keyword.found members) =
      keyword.importPath :=
    h.optional_eq "import" rfl (by simp [fields, Member.importPath?]) (fun _ => rfl)
      (by simp [slots])
  rw [ofMembers, hname, himport]
  rfl

theorem reads_members {keyword : Keyword} (h : Arranged keyword.slots members) :
    ∀ member ∈ members, Reads (readMember member.1) member.2
      (contribution keyword.fields (fun _ => none) member) := by
  refine h.reads_members keyword.fields (fun _ => none) (by simp [slots])
    (fun _ => depth_le_membersDepth) ?_ ?_
  · refine .cons ⟨rfl, ?_⟩ (.cons ⟨rfl, ?_⟩ .nil)
    · rintro _ rfl -
      exact (reads_text .text _).map _
    · rintro _ rfl -
      exact (reads_optionalText .text _).map _
  · exact fun name value hname _ => reads_skipped (readMember_of_not_mem hname) value

theorem reads {keyword : Keyword} (h : keyword.IsForm value) :
    Reads Keyword.decode value keyword := by
  obtain ⟨members, rfl, h⟩ := h
  exact reads_record (fun _ _ _ => rfl) (reads_members h)
    (h.distinct (by simp [slots]) (by simp [slots])) (ofMembers_found h)

end Keyword

/-! ## Scopes and visibilities -/

theorem Scope.reads (scope : Scope) : Reads Scope.decode scope.encode scope := by
  cases scope with
  | type name => exact reads_withValue rfl ((reads_text .text name).map _)
  | named name => exact reads_withValue rfl ((reads_text .text name).map _)

theorem Visibility.reads (visibility : Visibility) :
    Reads Visibility.decode visibility.encode visibility := by
  cases visibility <;> exact reads_bare rfl rfl

/-! ## Parameters -/

namespace Parameter

/-- The variant of a parameter. -/
def variant : Parameter → Variant
  | dependency .. => .dependency
  | injected _ => .injected
  | property .. => .property
  | all => .all

/-- The name of the variant of a parameter. -/
def kind : Parameter → String
  | dependency .. => "dependency"
  | injected _ => "injected"
  | property .. => "property"
  | all => "list"

/-- What the slots of a parameter contribute besides the name of the variant. -/
def fields : Parameter → List (String × Member)
  | dependency qualifier isNullable isLazy =>
      [("qualifier", .qualifier qualifier), ("is_nullable", .isNullable isNullable),
        ("is_lazy", .isLazy isLazy)]
  | injected isNullable => [("is_nullable", .isNullable isNullable)]
  | property key isNullable => [("key", .key key), ("is_nullable", .isNullable isNullable)]
  | all => []

/-- What is collected from the members of a parameter. -/
def found (parameter : Parameter) (members : List (String × Value)) : List Member :=
  members.filterMap (contribution parameter.fields fun _ => none)

theorem nodup_slots (parameter : Parameter) : (parameter.slots.map Slot.name).Nodup := by
  cases parameter <;> simp [slots]

theorem names_tail_slots (parameter : Parameter) :
    parameter.slots.tail.map Slot.name = parameter.variant.fields := by
  cases parameter <;> rfl

theorem read_kept {parameter : Parameter} (h : Arranged parameter.slots members) :
    ∀ member ∈ members, parameter.variant.readField member.1 member.2.stored =
      .ok (contribution parameter.fields (fun _ => none) member) := by
  refine h.read_kept parameter.fields parameter.nodup_slots (List.tail_sublist _) ?_ ?_
  · cases parameter with
    | dependency qualifier isNullable isLazy =>
        refine .cons ⟨rfl, ?_⟩ (.cons ⟨rfl, ?_⟩ (.cons ⟨rfl, ?_⟩ .nil)) <;> rintro _ rfl
        · cases qualifier <;> rfl
        · rfl
        · rfl
    | injected isNullable =>
        refine .cons ⟨rfl, ?_⟩ .nil
        rintro _ rfl
        rfl
    | property key isNullable =>
        refine .cons ⟨rfl, ?_⟩ (.cons ⟨rfl, ?_⟩ .nil) <;> rintro _ rfl <;> rfl
    | all => exact .nil
  · intro name value hname
    rw [names_tail_slots] at hname
    simp [Variant.readField, hname]

theorem lookup_tagName (parameter : Parameter) :
    ∀ name ∈ [tagName], parameter.fields.lookup name = none := by
  cases parameter <;> simp [fields, tagName]

theorem readFields_eq {parameter : Parameter} (h : Arranged parameter.slots members) :
    Value.readFields parameter.variant.fields parameter.variant.readField
      (keptMembers [tagName] members) = .ok (parameter.found members) := by
  refine readFields_kept (read_kept h) parameter.lookup_tagName
    (h.distinct parameter.nodup_slots ?_)
  rw [← names_tail_slots]
  exact ((List.tail_sublist _).map _).subset

/-- The flag that three of the variants have. -/
theorem isNullable_found {parameter : Parameter} (h : Arranged parameter.slots members)
    {isNullable : Bool}
    (hslot : Slot.may "is_nullable" (· = .flag isNullable) (isNullable = false) ∈ parameter.slots)
    (hfield : (parameter.fields.lookup "is_nullable").bind Member.isNullable? =
      some isNullable) :
    optional false Member.isNullable? (parameter.found members) = isNullable := by
  refine h.optional_eq "is_nullable" hfield ?_ (fun _ => rfl) ⟨_, hslot, rfl, id⟩
  cases parameter <;> simp [fields, Member.isNullable?]

theorem ofMembers_keptMembers {parameter : Parameter} (h : Arranged parameter.slots members) :
    ofMembers parameter.variant (keptMembers [tagName] members) = .ok parameter := by
  rw [ofMembers, readFields_eq h]
  cases parameter with
  | dependency qualifier isNullable isLazy =>
      have hqualifier : optional none Member.qualifier?
          (found (.dependency qualifier isNullable isLazy) members) = qualifier :=
        h.optional_eq "qualifier" rfl (by simp [fields, Member.qualifier?]) (fun _ => rfl)
          (by simp [slots])
      have hisLazy : optional false Member.isLazy?
          (found (.dependency qualifier isNullable isLazy) members) = isLazy :=
        h.optional_eq "is_lazy" rfl (by simp [fields, Member.isLazy?]) (fun _ => rfl)
          (by simp [slots])
      change Except.ok (dependency _ _ _) = _
      rw [hqualifier, isNullable_found h (by simp [slots]) rfl, hisLazy]
  | injected isNullable =>
      change Except.ok (injected _) = _
      rw [isNullable_found h (by simp [slots]) rfl]
  | property key isNullable =>
      have hkey : required "key" Member.key? (found (.property key isNullable) members) =
          .ok key :=
        h.required_eq "key" rfl (by simp [fields, Member.key?]) (fun _ => rfl) (by simp [slots])
      change (required "key" Member.key? (found (.property key isNullable) members) >>=
        fun key => Except.ok (property key _)) = _
      rw [hkey, isNullable_found h (by simp [slots]) rfl]
      rfl
  | all => rfl

theorem lookup_kind (parameter : Parameter) :
    variants.variants.lookup parameter.kind = some parameter.variant := by
  cases parameter <;> rfl

/-- To the name of the variant all fields are foreign. -/
theorem arranged_kind {parameter : Parameter} (h : Arranged parameter.slots members) :
    Arranged [.must tagName (· = .text parameter.kind)] members := by
  have hnames := parameter.nodup_slots
  cases parameter <;> exact h.of_cons hnames

theorem decode_eq {parameter : Parameter}
    (h : Arranged [.must tagName (· = .text parameter.kind)] members)
    (hdepth : ∀ member ∈ members, member.2.depth ≤ room - 1) {node : Node}
    (hnode : node.Spells (.object members)) :
    decode room node = ofMembers parameter.variant (keptMembers [tagName] members) :=
  Variants.read_eq h (by simp) List.mem_cons_self parameter.lookup_kind hdepth hnode

theorem reads {parameter : Parameter} (h : parameter.IsForm value)
    (hdepth : value.depth ≤ room) : Reads (Parameter.decode room) value parameter := by
  obtain ⟨members, rfl, h⟩ := h
  have hroom : (Value.object members).depth ≤ room - 1 + 1 := by omega
  intro node hnode
  rw [decode_eq (arranged_kind h) (depth_le_of_mem hroom) hnode]
  exact ofMembers_keptMembers h

end Parameter

/-! ## Providers -/

namespace Provider

/-- The variant of a provider. -/
def variant : Provider → Variant
  | type _ => .type
  | function .. => .function

/-- The name of the variant of a provider. -/
def kind : Provider → String
  | type _ => "class"
  | function .. => "function"

/-- What the slots of a provider contribute besides the name of the variant. -/
def fields : Provider → List (String × Member)
  | type name => [("class_name", .name name)]
  | function name isMember => [("function_name", .name name), ("is_class_function", .isMember isMember)]

/-- What is collected from the members of a provider. -/
def found (provider : Provider) (members : List (String × Value)) : List Member :=
  members.filterMap (contribution provider.fields fun _ => none)

theorem nodup_slots (provider : Provider) : (provider.slots.map Slot.name).Nodup := by
  cases provider <;> simp [slots]

theorem names_tail_slots (provider : Provider) :
    provider.slots.tail.map Slot.name = provider.variant.fields := by
  cases provider <;> rfl

theorem read_kept {provider : Provider} (h : Arranged provider.slots members) :
    ∀ member ∈ members, provider.variant.readField member.1 member.2.stored =
      .ok (contribution provider.fields (fun _ => none) member) := by
  refine h.read_kept provider.fields provider.nodup_slots (List.tail_sublist _) ?_ ?_
  · cases provider with
    | type name =>
        refine .cons ⟨rfl, ?_⟩ .nil
        rintro _ rfl
        rfl
    | function name isMember =>
        refine .cons ⟨rfl, ?_⟩ (.cons ⟨rfl, ?_⟩ .nil) <;> rintro _ rfl <;> rfl
  · intro name value hname
    rw [names_tail_slots] at hname
    simp [Variant.readField, hname]

theorem lookup_memberNames (provider : Provider) :
    ∀ name ∈ tagName :: Definition.memberNames, provider.fields.lookup name = none := by
  cases provider <;> simp [fields, tagName, Definition.memberNames]

/-- The members of a provider are kept by the definition around it. -/
theorem readFields_eq {provider : Provider} (h : Arranged provider.slots members) :
    Value.readFields provider.variant.fields provider.variant.readField
      (keptMembers (tagName :: Definition.memberNames) members) =
        .ok (provider.found members) := by
  refine readFields_kept (read_kept h) provider.lookup_memberNames
    (h.distinct provider.nodup_slots ?_)
  rw [← names_tail_slots]
  exact ((List.tail_sublist _).map _).subset

theorem ofMembers_keptMembers {provider : Provider} (h : Arranged provider.slots members) :
    ofMembers provider.variant (keptMembers (tagName :: Definition.memberNames) members) =
      .ok provider := by
  rw [ofMembers, readFields_eq h]
  cases provider with
  | type name =>
      have hname : required "class_name" Member.name? (found (.type name) members) = .ok name :=
        h.required_eq "class_name" rfl (by simp [fields]) (fun _ => rfl) (by simp [slots])
      change (required "class_name" Member.name? (found (.type name) members) >>= _) = _
      rw [hname]
      rfl
  | function name isMember =>
      have hname : required "function_name" Member.name?
          (found (.function name isMember) members) = .ok name :=
        h.required_eq "function_name" rfl (by simp [fields, Member.name?]) (fun _ => rfl)
          (by simp [slots])
      have hisMember : optional false Member.isMember?
          (found (.function name isMember) members) = isMember :=
        h.optional_eq "is_class_function" rfl (by simp [fields, Member.isMember?])
          (fun _ => rfl) (by simp [slots])
      change (required "function_name" Member.name? (found (.function name isMember) members) >>=
        fun name => Except.ok (function name _)) = _
      rw [hname, hisMember]
      rfl

theorem lookup_kind (provider : Provider) :
    variants.variants.lookup provider.kind = some provider.variant := by
  cases provider <;> rfl

/-- To the name of the variant all fields are foreign. -/
theorem arranged_kind {provider : Provider} (h : Arranged provider.slots members) :
    Arranged [.must tagName (· = .text provider.kind)] members := by
  have hnames := provider.nodup_slots
  cases provider <;> exact h.of_cons hnames

theorem readKept_eq_ofMembers {provider : Provider}
    (h : Arranged [.must tagName (· = .text provider.kind)] members) :
    variants.readKept (keptMembers Definition.memberNames members) =
      ofMembers provider.variant (keptMembers (tagName :: Definition.memberNames) members) :=
  Variants.readKept_eq h (by simp) List.mem_cons_self (by simp [tagName, Definition.memberNames])
    provider.lookup_kind

/-- A provider is read from what a definition keeps. -/
theorem readKept_eq {provider : Provider} (h : Arranged provider.slots members) :
    variants.readKept (keptMembers Definition.memberNames members) = .ok provider :=
  (readKept_eq_ofMembers (arranged_kind h)).trans (ofMembers_keptMembers h)

end Provider

/-! ## Definitions -/

namespace Definition

/-- What the slots of a definition contribute besides those of its provider. -/
def fields (definition : Definition) : List (String × Member) :=
  [("package_name", .package definition.package),
    ("keyword", .keyword definition.keyword),
    ("scope", .scope definition.scope),
    ("qualifier", .qualifier definition.qualifier),
    ("is_created_at_start", .isEager definition.isEager),
    ("bindings", .bindings definition.bindings),
    ("parameters", .parameters definition.parameters)]

/-- What a member contributes that is none of the definition's own. -/
def foreign (member : String × Value) : Option Member :=
  some (.foreign member.1 member.2.stored)

/-- What is collected from the members of a definition. -/
def found (definition : Definition) (members : List (String × Value)) : List Member :=
  members.filterMap (contribution definition.fields foreign)

theorem nodup_slots (definition : Definition) : (definition.slots.map Slot.name).Nodup := by
  rw [slots, ownSlots]
  cases definition.provider <;> simp [Provider.slots]

theorem names_ownSlots (definition : Definition) :
    definition.ownSlots.map Slot.name = memberNames := rfl

theorem readMember_of_not_mem {name : String} (hname : name ∉ memberNames) (node : Node) :
    readMember room name node = (node.keep room).map fun value => some (.foreign name value) := by
  unfold readMember
  split <;> simp_all [memberNames]

/-- What is none of the definition's own is left to the provider. -/
theorem filterMap_foreign?_found (definition : Definition) (members : List (String × Value)) :
    (definition.found members).filterMap Member.foreign? = keptMembers memberNames members := by
  rw [found, List.filterMap_filterMap, keptMembers]
  congr 1
  funext member
  rw [contribution]
  cases hlookup : definition.fields.lookup member.1 with
  | none =>
      have hname : member.1 ∉ memberNames := by
        simpa [fields, memberNames] using List.lookup_eq_none_iff.mp hlookup
      simp [hname, foreign, Member.foreign?]
  | some found =>
      obtain ⟨before, after, hsplit, -⟩ := List.lookup_eq_some_iff.mp hlookup
      have hmember : (member.1, found) ∈ definition.fields := by simp [hsplit]
      have hown : member.1 ∈ memberNames ∧ found.foreign? = none := by
        simp only [fields, List.mem_cons, Prod.mk.injEq, List.not_mem_nil, or_false] at hmember
        rcases hmember with ⟨hname, rfl⟩ | ⟨hname, rfl⟩ | ⟨hname, rfl⟩ | ⟨hname, rfl⟩ |
          ⟨hname, rfl⟩ | ⟨hname, rfl⟩ | ⟨hname, rfl⟩ <;>
          simp [hname, memberNames, Member.foreign?]
      rw [if_pos hown.1]
      exact hown.2

theorem keyword_found {definition : Definition} (h : Arranged definition.ownSlots members) :
    required "keyword" Member.keyword? (definition.found members) = .ok definition.keyword :=
  h.required_eq "keyword" rfl (by simp [fields, Member.keyword?]) (fun _ => rfl)
    (by simp [ownSlots])

theorem ofMembers_found {definition : Definition} (h : Arranged definition.slots members) :
    ofMembers (definition.found members) = .ok definition := by
  -- to the provider the definition's own members are foreign, and the other way round
  obtain ⟨hprovider, hown⟩ := h.of_append definition.nodup_slots
  have hpackage : optional "" Member.package? (definition.found members) = definition.package :=
    hown.optional_eq "package_name" rfl (by simp [fields, Member.package?]) (fun _ => rfl)
      (by simp [ownSlots])
  have hscope : optional none Member.scope? (definition.found members) = definition.scope :=
    hown.optional_eq "scope" rfl (by simp [fields, Member.scope?]) (fun _ => rfl)
      (by simp [ownSlots])
  have hqualifier : optional none Member.qualifier? (definition.found members) =
      definition.qualifier :=
    hown.optional_eq "qualifier" rfl (by simp [fields, Member.qualifier?]) (fun _ => rfl)
      (by simp [ownSlots])
  have hisEager : optional false Member.isEager? (definition.found members) =
      definition.isEager :=
    hown.optional_eq "is_created_at_start" rfl (by simp [fields, Member.isEager?]) (fun _ => rfl)
      (by simp [ownSlots])
  have hbindings : optional [] Member.bindings? (definition.found members) =
      definition.bindings :=
    hown.optional_eq "bindings" rfl (by simp [fields, Member.bindings?]) (fun _ => rfl)
      (by simp [ownSlots])
  have hparameters : optional [] Member.parameters? (definition.found members) =
      definition.parameters :=
    hown.optional_eq "parameters" rfl (by simp [fields, Member.parameters?]) (fun _ => rfl)
      (by simp [ownSlots])
  rw [ofMembers, keyword_found hown, filterMap_foreign?_found, Provider.readKept_eq hprovider,
    hpackage, hscope, hqualifier, hisEager, hbindings, hparameters]
  rfl

theorem reads_scope (scope : Option Scope) :
    Reads (readOptional Scope.decode) ((scope.map Scope.encode).getD .null) scope := by
  cases scope with
  | none => exact reads_none _
  | some scope => exact scope.reads.some (by cases scope <;> simp [Scope.encode])

theorem reads_bindings (bindings : List String) :
    Reads (readList (readText .text)) (.array (bindings.map .text)) bindings := by
  refine reads_list ?_
  rw [List.forall₂_map_left_iff, List.forall₂_same]
  exact fun binding _ => reads_text .text binding

theorem reads_members {definition : Definition} (h : Arranged definition.ownSlots members)
    (hdepth : ∀ member ∈ members, member.2.depth ≤ room) :
    ∀ member ∈ members, Reads (readMember room member.1) member.2
      (contribution definition.fields foreign member) := by
  refine h.reads_members definition.fields foreign (by simp [names_ownSlots, memberNames]) hdepth
    ?_ ?_
  · refine .cons ⟨rfl, ?_⟩ (.cons ⟨rfl, ?_⟩ (.cons ⟨rfl, ?_⟩ (.cons ⟨rfl, ?_⟩ (.cons ⟨rfl, ?_⟩
      (.cons ⟨rfl, ?_⟩ (.cons ⟨rfl, ?_⟩ .nil))))))
    · rintro _ rfl -
      exact (reads_text .text _).map _
    · intro value hform _
      exact (Keyword.reads hform).map _
    · rintro _ rfl -
      exact (reads_scope _).map _
    · rintro _ rfl -
      exact (reads_optionalText .text _).map _
    · rintro _ rfl -
      exact (reads_flag _).map _
    · rintro _ rfl -
      exact (reads_bindings _).map _
    · intro value hform hvalue
      exact (reads_listOf hform hvalue fun _ _ hform hvalue => Parameter.reads hform hvalue).map _
  · intro name value hname hvalue node hnode
    rw [readMember_of_not_mem hname, reads_keep value hvalue node hnode]
    rfl

theorem reads {definition : Definition} (h : definition.IsForm value)
    (hdepth : value.depth ≤ room) : Reads (Definition.decode room) value definition := by
  obtain ⟨members, rfl, h⟩ := h
  obtain ⟨-, hown⟩ := h.of_append definition.nodup_slots
  have hroom : (Value.object members).depth ≤ room - 1 + 1 := by omega
  exact reads_record (fun _ _ _ => rfl) (reads_members hown (depth_le_of_mem hroom))
    (hown.distinct (by simp [names_ownSlots, memberNames]) (by simp [names_ownSlots]))
    (ofMembers_found h)

end Definition

/-! ## Module references -/

namespace ModuleRef

/-- What the slots of a module reference contribute. -/
def fields (reference : ModuleRef) : List (String × Member) :=
  [("package_name", .package reference.package), ("class_name", .name reference.name)]

/-- What is collected from the members of a module reference. -/
def found (reference : ModuleRef) (members : List (String × Value)) : List Member :=
  members.filterMap (contribution reference.fields fun _ => none)

theorem readMember_of_not_mem {name : String} (hname : name ∉ ["package_name", "class_name"])
    (node : Node) : readMember name node = node.skip.map fun _ => none := by
  unfold readMember
  split <;> simp_all

theorem ofMembers_found {reference : ModuleRef} (h : Arranged reference.slots members) :
    ofMembers (reference.found members) = .ok reference := by
  have hpackage : optional "" Member.package? (reference.found members) = reference.package :=
    h.optional_eq "package_name" rfl (by simp [fields, Member.package?]) (fun _ => rfl)
      (by simp [slots])
  have hname : required "class_name" Member.name? (reference.found members) =
      .ok reference.name :=
    h.required_eq "class_name" rfl (by simp [fields, Member.name?]) (fun _ => rfl)
      (by simp [slots])
  rw [ofMembers, hname, hpackage]
  rfl

theorem reads_members {reference : ModuleRef} (h : Arranged reference.slots members) :
    ∀ member ∈ members, Reads (readMember member.1) member.2
      (contribution reference.fields (fun _ => none) member) := by
  refine h.reads_members reference.fields (fun _ => none) (by simp [slots])
    (fun _ => depth_le_membersDepth) ?_ ?_
  · refine .cons ⟨rfl, ?_⟩ (.cons ⟨rfl, ?_⟩ .nil) <;> rintro _ rfl - <;>
      exact (reads_text .text _).map _
  · exact fun name value hname _ => reads_skipped (readMember_of_not_mem hname) value

theorem reads {reference : ModuleRef} (h : reference.IsForm value) :
    Reads ModuleRef.decode value reference := by
  obtain ⟨members, rfl, h⟩ := h
  exact reads_record (fun _ _ _ => rfl) (reads_members h)
    (h.distinct (by simp [slots]) (by simp [slots])) (ofMembers_found h)

end ModuleRef

/-! ## Modules -/

namespace Module

/-- What the slots of a module contribute. -/
def fields (module : Module) : List (String × Member) :=
  [("name", .name module.name), ("package_name", .package module.package),
    ("visibility", .visibility module.visibility),
    ("definitions", .definitions module.definitions), ("includes", .includes module.includes)]

/-- What is collected from the members of a module. -/
def found (module : Module) (members : List (String × Value)) : List Member :=
  members.filterMap (contribution module.fields fun _ => none)

theorem readMember_of_not_mem {name : String} (hname : name ∉ memberNames) (node : Node) :
    readMember room name node = node.skip.map fun _ => none := by
  unfold readMember
  split <;> simp_all [memberNames]

theorem ofMembers_found {module : Module} (h : Arranged module.slots members) :
    ofMembers (module.found members) = .ok module := by
  have hname : required "name" Member.name? (module.found members) = .ok module.name :=
    h.required_eq "name" rfl (by simp [fields, Member.name?]) (fun _ => rfl) (by simp [slots])
  have hpackage : optional "" Member.package? (module.found members) = module.package :=
    h.optional_eq "package_name" rfl (by simp [fields, Member.package?]) (fun _ => rfl)
      (by simp [slots])
  have hvisibility : optional .exported Member.visibility? (module.found members) =
      module.visibility :=
    h.optional_eq "visibility" rfl (by simp [fields, Member.visibility?]) (fun _ => rfl)
      (by simp [slots])
  have hdefinitions : optional [] Member.definitions? (module.found members) =
      module.definitions :=
    h.optional_eq "definitions" rfl (by simp [fields, Member.definitions?]) (fun _ => rfl)
      (by simp [slots])
  have hincludes : optional none Member.includes? (module.found members) = module.includes :=
    h.optional_eq "includes" rfl (by simp [fields, Member.includes?]) (fun _ => rfl)
      (by simp [slots])
  rw [ofMembers, hname, hpackage, hvisibility, hdefinitions, hincludes]
  rfl

theorem reads_includes {includes : Option (List ModuleRef)} (h : IsIncludesForm includes value)
    (hdepth : value.depth ≤ room) :
    Reads (readOptional (readList ModuleRef.decode)) value includes := by
  cases includes with
  | none =>
      obtain rfl : value = .null := h
      exact reads_none _
  | some references =>
      have hlist : IsListOf ModuleRef.IsForm references value := h
      refine (reads_listOf hlist hdepth fun _ _ hform _ => ModuleRef.reads hform).some ?_
      obtain ⟨values, rfl, -⟩ := hlist
      simp

theorem reads_members {module : Module} (h : Arranged module.slots members)
    (hdepth : ∀ member ∈ members, member.2.depth ≤ room) :
    ∀ member ∈ members, Reads (readMember room member.1) member.2
      (contribution module.fields (fun _ => none) member) := by
  refine h.reads_members module.fields (fun _ => none) (by simp [slots]) hdepth ?_ ?_
  · refine .cons ⟨rfl, ?_⟩ (.cons ⟨rfl, ?_⟩ (.cons ⟨rfl, ?_⟩ (.cons ⟨rfl, ?_⟩ (.cons ⟨rfl, ?_⟩
      .nil))))
    · rintro _ rfl -
      exact (reads_text .text _).map _
    · rintro _ rfl -
      exact (reads_text .text _).map _
    · rintro _ rfl -
      exact module.visibility.reads.map _
    · intro value hform hvalue
      exact (reads_listOf hform hvalue fun _ _ hform hvalue => Definition.reads hform hvalue).map _
    · intro value hform hvalue
      exact (reads_includes hform hvalue).map _
  · exact fun name value hname _ => reads_skipped (readMember_of_not_mem hname) value

theorem reads {module : Module} (h : module.IsForm value) (hdepth : value.depth ≤ room) :
    Reads (Module.decode room) value module := by
  obtain ⟨members, rfl, h⟩ := h
  have hroom : (Value.object members).depth ≤ room - 1 + 1 := by omega
  exact reads_record (fun _ _ _ => rfl) (reads_members h (depth_le_of_mem hroom))
    (h.distinct (by simp [slots]) (by simp [slots, memberNames])) (ofMembers_found h)

end Module

/-! ## Metadata -/

namespace Metadata

/-- What the slots of metadata contribute. -/
def fields (metadata : Metadata) : List (String × Member) :=
  [("modules", .modules metadata.modules),
    ("default_modules", .defaultSources metadata.defaultSources)]

/-- What is collected from the members of metadata. -/
def found (metadata : Metadata) (members : List (String × Value)) : List Member :=
  members.filterMap (contribution metadata.fields fun _ => none)

theorem readMember_of_not_mem {name : String} (hname : name ∉ memberNames) (node : Node) :
    readMember room name node = node.skip.map fun _ => none := by
  unfold readMember
  split <;> simp_all [memberNames]

theorem ofMembers_found {metadata : Metadata} (h : Arranged metadata.slots members) :
    ofMembers (metadata.found members) = .ok metadata := by
  have hmodules : optional [] Member.modules? (metadata.found members) = metadata.modules :=
    h.optional_eq "modules" rfl (by simp [fields, Member.modules?]) (fun _ => rfl)
      (by simp [slots])
  have hdefaultSources : optional [] Member.defaultSources? (metadata.found members) =
      metadata.defaultSources :=
    h.optional_eq "default_modules" rfl (by simp [fields, Member.defaultSources?]) (fun _ => rfl)
      (by simp [slots])
  rw [ofMembers, hmodules, hdefaultSources]

theorem reads_members {metadata : Metadata} (h : Arranged metadata.slots members)
    (hdepth : ∀ member ∈ members, member.2.depth ≤ room) :
    ∀ member ∈ members, Reads (readMember room member.1) member.2
      (contribution metadata.fields (fun _ => none) member) := by
  refine h.reads_members metadata.fields (fun _ => none) (by simp [slots]) hdepth ?_ ?_
  · refine .cons ⟨rfl, ?_⟩ (.cons ⟨rfl, ?_⟩ .nil) <;> intro value hform hvalue <;>
      exact (reads_listOf hform hvalue fun _ _ hform hvalue => Module.reads hform hvalue).map _
  · exact fun name value hname _ => reads_skipped (readMember_of_not_mem hname) value

theorem reads {metadata : Metadata} (h : metadata.IsForm value) (hdepth : value.depth ≤ room) :
    Reads (Metadata.decode room) value metadata := by
  obtain ⟨members, rfl, h⟩ := h
  have hroom : (Value.object members).depth ≤ room - 1 + 1 := by omega
  exact reads_record (fun _ _ _ => rfl) (reads_members h (depth_le_of_mem hroom))
    (h.distinct (by simp [slots]) (by simp [slots, memberNames])) (ofMembers_found h)

/-- A text that is read without a fault needs no place to be told. -/
theorem ofText_eq_of_parse {metadata : Metadata} {text : String}
    (hparse : parse text = .ok metadata) : ofText text = .ok metadata := by
  have hread : Json.parse (decode depthLimit) text = .ok metadata := hparse
  rw [ofText, parsePlaced, hread]
  rfl

/-- Metadata is read from each text that spells one of its forms: its members in any
order, without those that hold their default, and among members of other names. -/
theorem ofText_form (metadata : Metadata) {value : Value} {text : String} {blanks : List Char}
    (hform : metadata.IsForm value) (hplain : value.isPlain = true)
    (hdepth : value.depth ≤ depthLimit) (htext : Spaced value.tokens text.toList blanks)
    (hblanks : ∀ c ∈ blanks, isSpace c = true) :
    ofText text = .ok metadata :=
  ofText_eq_of_parse (parse_eq (reads hform hdepth) hplain htext hblanks)

/-- In each object the members are reversed and a foreign one comes first, everything that
holds its default is left out, and blanks stand in front of each token. -/
theorem ofText_form_of_reversed_members :
    let parameter : Parameter := .property "zone" true
    let definition : Definition :=
      { provider := .function "clock" true, keyword := { name := "single" },
        parameters := [parameter] }
    let module : Module := { name := "Main", definitions := [definition] }
    let metadata : Metadata := { modules := [module] }
    let parameterForm : Value :=
      .object [("is_lazy", .number (.integer 7)), ("is_nullable", .flag true),
        ("key", .text "zone"), ("kind", .text "property")]
    let definitionForm : Value :=
      .object [("class_name", .null), ("parameters", .array [parameterForm]),
        ("keyword", .object [("keyword", .text "single")]), ("is_class_function", .flag true),
        ("function_name", .text "clock"), ("kind", .text "function")]
    let moduleForm : Value :=
      .object [("kind", .text "list"), ("definitions", .array [definitionForm]),
        ("name", .text "Main")]
    let form : Value :=
      .object [("note", .array [.number (.integer (-1)), .object []]),
        ("modules", .array [moduleForm])]
    let text := String.ofList (form.tokens.flatMap (['\n', ' '] ++ ·) ++ ['\t'])
    metadata.IsForm form ∧ form.isPlain = true ∧ form.depth ≤ depthLimit ∧
      ofText text = .ok metadata := by
  intro parameter definition module metadata parameterForm definitionForm moduleForm form text
  have hparameter : parameter.IsForm parameterForm :=
    ⟨_, rfl, [("kind", .text "property"), ("key", .text "zone"), ("is_nullable", .flag true)],
      [("is_lazy", .number (.integer 7))], .fill rfl (.fill rfl (.fill rfl .done)), by decide,
      List.reverse_perm [_, _, _, _]⟩
  have hkeyword : definition.keyword.IsForm (.object [("keyword", .text "single")]) :=
    ⟨_, rfl, _, [], .fill rfl (.leaveOut rfl .done), by decide, .refl _⟩
  have hdefinition : definition.IsForm definitionForm :=
    ⟨_, rfl, [("kind", .text "function"), ("function_name", .text "clock"),
        ("is_class_function", .flag true), ("keyword", .object [("keyword", .text "single")]),
        ("parameters", .array [parameterForm])],
      [("class_name", .null)],
      .fill rfl (.fill rfl (.fill rfl (.leaveOut rfl (.fill hkeyword (.leaveOut rfl (.leaveOut rfl
        (.leaveOut rfl (.leaveOut rfl (.fill ⟨_, rfl, .cons hparameter .nil⟩ .done))))))))),
      by decide, List.reverse_perm [_, _, _, _, _, _]⟩
  have hmodule : module.IsForm moduleForm :=
    ⟨_, rfl, [("name", .text "Main"), ("definitions", .array [definitionForm])],
      [("kind", .text "list")],
      .fill rfl (.leaveOut rfl (.leaveOut rfl (.fill ⟨_, rfl, .cons hdefinition .nil⟩
        (.leaveOut rfl .done)))),
      by decide, List.reverse_perm [_, _, _]⟩
  have hform : metadata.IsForm form :=
    ⟨_, rfl, [("modules", .array [moduleForm])],
      [("note", .array [.number (.integer (-1)), .object []])],
      .fill ⟨_, rfl, .cons hmodule .nil⟩ (.leaveOut rfl .done), by decide,
      List.reverse_perm [_, _]⟩
  have hplain : form.isPlain = true := by decide
  have hdepth : form.depth ≤ depthLimit := by decide
  have htext : Spaced form.tokens text.toList ['\t'] := by
    rw [String.toList_ofList]
    exact Spaced.flatMap (by simp [isSpace]) form.tokens
  exact ⟨hform, hplain, hdepth,
    ofText_form metadata hform hplain hdepth htext (by simp [isSpace])⟩

end Metadata

end Wiring
