import Wiring.Proofs.Metadata.Ending
import Wiring.Proofs.Metadata.Guarding

/-!
# Metadata has each member of a record once

Wherever a record of metadata is spoiled, the text is refused, and the message names the
member that comes again or is missing: nothing is read from the first or from the last one of
two. The name of a variant and its fields are met later than other members, since they are
kept until the object ends, and with the same outcome.
-/

namespace Wiring

open Json

variable {room : Nat} {fault : Fault} {members others edited : List (String × Value)}

/-! ## Records without kept members -/

theorem Keyword.guards (keyword other : Keyword) :
    Guards Keyword.decode keyword.encode other.encode := by
  have hreads := reads_members (IsRecord.arranged keyword.isForm_encode)
  have hothers := reads_members (IsRecord.arranged other.isForm_encode)
  refine guards_record (fun _ _ _ => rfl) hreads (fun member hmember => ⟨_, hothers member hmember⟩)
    (by simp) (by simp) ?_ ?_
  · intro name hname hmandatory rest hrest
    have honly : ∀ name ∈ ["keyword", "import"], name ∈ mandatoryNames → name = "keyword" := by
      decide
    obtain rfl := honly name hname hmandatory
    have hmissing : Refused _ (required "keyword" Member.name? (keyword.found rest)) :=
      refused_required "keyword" (by simp [fields, Member.name?]) (fun _ => rfl) hrest
    exact hmissing.bind _
  · simp only [List.forall_mem_cons]
    exact ⟨fun _ _ => (guards_text _ _).map _,
      fun _ _ => guards_of_depth_eq_zero (.inl (depth_optionalText _)), by simp⟩

theorem ModuleRef.guards (reference other : ModuleRef) :
    Guards ModuleRef.decode reference.encode other.encode := by
  have hreads := reads_members (IsRecord.arranged reference.isForm_encode)
  have hothers := reads_members (IsRecord.arranged other.isForm_encode)
  refine guards_record (fun _ _ _ => rfl) hreads (fun member hmember => ⟨_, hothers member hmember⟩)
    (by simp) (by simp) ?_ ?_
  · intro name hname hmandatory rest hrest
    have honly : ∀ name ∈ ["package_name", "class_name"],
        name ∈ mandatoryNames → name = "class_name" := by decide
    obtain rfl := honly name hname hmandatory
    have hmissing : Refused _ (required "class_name" Member.name? (reference.found rest)) :=
      refused_required "class_name" (by simp [fields, Member.name?]) (fun _ => rfl) hrest
    exact hmissing.bind _
  · simp only [List.forall_mem_cons]
    exact ⟨fun _ _ => guards_text _ _, fun _ _ => guards_text _ _, by simp⟩

/-! ## Parameters -/

namespace Parameter

theorem knows {parameter : Parameter} (h : Arranged parameter.slots members)
    {member : String × Value} (hmember : member ∈ members) : variants.Knows member := fun hname =>
  ⟨_, _, (arranged_kind h).holds (by simp) List.mem_cons_self hmember hname, parameter.lookup_kind⟩

/-- A variant reads a field of any variant that has it, and passes over all others. -/
theorem exists_readField {parameter : Parameter} (h : Arranged parameter.slots members)
    {member : String × Value} (hmember : member ∈ members)
    (hname : member.1 ∈ parameter.variant.fields) (variant : Variant) :
    ∃ found, variant.readField member.1 member.2.stored = .ok found := by
  have hread := read_kept h member hmember
  by_cases hin : member.1 ∈ variant.fields
  · unfold Variant.readField at hread ⊢
    rw [if_pos hname] at hread
    exact ⟨_, (if_pos hin).trans hread⟩
  · exact ⟨none, if_neg hin⟩

section Written

variable {parameter other : Parameter}

theorem arranged_of_encode_eq (h : parameter.encode = .object members) :
    Arranged parameter.slots members :=
  IsRecord.arranged (h ▸ parameter.isForm_encode)

theorem names_of_encode_eq (h : parameter.encode = .object members) :
    members.map Prod.fst = tagName :: parameter.variant.fields := by
  cases parameter <;> cases h <;> rfl

theorem nodup_of_encode_eq (h : parameter.encode = .object members) :
    (members.map Prod.fst).Nodup := by
  rw [names_of_encode_eq h]
  cases parameter <;> simp [variant, Variant.fields, tagName]

theorem depth_of_encode_eq (h : parameter.encode = .object members) {member : String × Value}
    (hmember : member ∈ members) : member.2.depth ≤ room :=
  (depth_le_of_mem (h ▸ parameter.depth_encode.le) member hmember).trans (Nat.zero_le room)

theorem mem_fields_of_encode_eq (h : parameter.encode = .object members)
    {member : String × Value} (hmember : member ∈ members) (hkind : member.1 ≠ tagName) :
    member.1 ∈ parameter.variant.fields := by
  have hname : member.1 ∈ members.map Prod.fst := List.mem_map.mpr ⟨member, hmember, rfl⟩
  rw [names_of_encode_eq h] at hname
  exact (List.mem_cons.mp hname).resolve_left hkind

theorem refuses_repeated {before after : List (String × Value)} {member : String × Value}
    (hparameter : parameter.encode = .object (before ++ after))
    (hother : other.encode = .object others) (hmember : member ∈ others)
    (hname : member.1 ∈ (before ++ after).map Prod.fst) :
    Refuses (Parameter.decode room) (.object (before ++ member :: after))
      (.repeatedMember member.1) := by
  have hmembers := arranged_of_encode_eq hparameter
  have hothers := arranged_of_encode_eq hother
  have hnodup := nodup_of_encode_eq hparameter
  have hdepth : ∀ value ∈ before ++ member :: after, value.2.depth ≤ room - 1 := by
    intro value hvalue
    rcases mem_inserted.mp hvalue with rfl | hvalue
    · exact depth_of_encode_eq hother hmember
    · exact depth_of_encode_eq hparameter hvalue
  by_cases hkind : member.1 = tagName
  · -- the second name of the variant is met while the object is read
    refine (variants.collects room).refuses_repeated (fun value hvalue => ?_) hnodup
      (by simp [hkind]) hname
    have hknows : variants.Knows value := by
      rcases mem_inserted.mp hvalue with rfl | hvalue
      · exact knows hothers hmember
      · exact knows hmembers hvalue
    exact hknows.exists_reads (hdepth value hvalue)
  · -- a second field is kept like the first one, and met when the variant is known
    intro node hnode
    rw [decode_eq ((arranged_kind hmembers).insert (by simpa using hkind)) hdepth hnode, ofMembers]
    refine Refused.bind (refused_readFields ?_ hnodup ?_ hname (by simpa using hkind)) _
    · intro value hvalue hout
      have hfield : value.1 ≠ tagName := by simpa using hout
      rcases mem_inserted.mp hvalue with rfl | hvalue
      · exact exists_readField hothers hmember (mem_fields_of_encode_eq hother hmember hfield) _
      · exact exists_readField hmembers hvalue
          (mem_fields_of_encode_eq hparameter hvalue hfield) _
    · rw [names_of_encode_eq hparameter] at hname
      exact (List.mem_cons.mp hname).resolve_left hkind

theorem refuses_missing {before after : List (String × Value)} {member : String × Value}
    (hparameter : parameter.encode = .object (before ++ member :: after))
    (hmandatory : member.1 ∈ mandatoryNames) :
    Refuses (Parameter.decode room) (.object (before ++ after)) (.missingMember member.1) := by
  have hmembers := arranged_of_encode_eq hparameter
  obtain ⟨hout, hnodup⟩ := nodup_inserted.mp (nodup_of_encode_eq hparameter)
  have hdepth : ∀ value ∈ before ++ after, value.2.depth ≤ room - 1 := fun value hvalue =>
    depth_of_encode_eq hparameter (mem_inserted.mpr (.inr hvalue))
  by_cases hkind : member.1 = tagName
  · rw [hkind] at hout ⊢
    exact Variants.refuses_untagged hdepth hout
  · -- the key is the only field that has no default
    have honly : ∀ variant : Variant, ∀ name ∈ variant.fields, name ∈ mandatoryNames →
        variant = .property ∧ name = "key" := by
      intro variant
      cases variant <;> decide
    have hfield := mem_fields_of_encode_eq hparameter (mem_inserted.mpr (.inl rfl)) hkind
    obtain ⟨hvariant, hkey⟩ := honly _ _ hfield hmandatory
    have hread : ∀ value ∈ before ++ after, parameter.variant.readField value.1 value.2.stored =
        .ok (contribution parameter.fields (fun _ => none) value) := fun value hvalue =>
      read_kept hmembers value (mem_inserted.mpr (.inr hvalue))
    have hmissing : Refused (· = .missingMember "key")
        (required "key" Member.key? (parameter.found (before ++ after))) := by
      refine refused_required "key" ?_ (fun _ => rfl) (hkey ▸ hout)
      cases parameter <;> simp [fields, Member.key?]
    intro node hnode
    rw [decode_eq ((arranged_kind hmembers).erase (by simpa using hkind)) hdepth hnode, ofMembers,
      readFields_kept hread parameter.lookup_tagName (distinct_of_nodup hnodup), hvariant, hkey]
    exact hmissing.bind _

theorem guards (parameter other : Parameter) :
    Guards (Parameter.decode room) parameter.encode other.encode := by
  obtain ⟨members, hparameter, -⟩ := parameter.isForm_encode
  obtain ⟨others, hother, -⟩ := other.isForm_encode
  have hspoiled : ∀ edited fault, Spoils others members edited fault →
      Refuses (Parameter.decode room) (.object edited) fault := by
    intro edited fault h
    cases h with
    | repeated hmember hname => exact refuses_repeated hparameter hother hmember hname
    | missing hmandatory => exact refuses_missing hparameter hmandatory
  have hmembers := arranged_of_encode_eq hparameter
  rw [hparameter, hother]
  exact guards_object (variants.collects room)
    (fun member hmember => (knows hmembers hmember).exists_reads
      (depth_of_encode_eq hparameter hmember))
    (nodup_of_encode_eq hparameter)
    (fun member hmember other _ => guards_of_depth_eq_zero
      (.inl (Nat.le_zero.mp (depth_of_encode_eq hparameter hmember)))) hspoiled

end Written

end Parameter

/-! ## Providers -/

namespace Provider

theorem knows {provider : Provider} (h : Arranged provider.slots members)
    {member : String × Value} (hmember : member ∈ members) : variants.Knows member := fun hname =>
  ⟨_, _, (arranged_kind h).holds (by simp) List.mem_cons_self hmember hname, provider.lookup_kind⟩

/-- The variants share no field, so that each one passes over the fields of the other. -/
theorem exists_readField {provider : Provider} (h : Arranged provider.slots members)
    {member : String × Value} (hmember : member ∈ members)
    (hname : member.1 ∈ provider.variant.fields) (variant : Variant) :
    ∃ found, variant.readField member.1 member.2.stored = .ok found := by
  have hdisjoint : ∀ name ∈ provider.variant.fields, name ∈ variant.fields →
      provider.variant = variant := by
    cases provider.variant <;> cases variant <;> decide
  by_cases hin : member.1 ∈ variant.fields
  · exact ⟨_, hdisjoint _ hname hin ▸ read_kept h member hmember⟩
  · exact ⟨none, if_neg hin⟩

end Provider

/-! ## Definitions -/

namespace Definition

section Written

variable {definition other : Definition} {before after : List (String × Value)}
  {member : String × Value}

theorem arranged_of_encode_eq (h : definition.encode = .object members) :
    Arranged definition.provider.slots members ∧ Arranged definition.ownSlots members := by
  have hmembers : Arranged definition.slots members :=
    IsRecord.arranged (h ▸ definition.isForm_encode)
  exact hmembers.of_append definition.nodup_slots

theorem names_of_encode_eq (h : definition.encode = .object members) :
    members.map Prod.fst = tagName :: definition.provider.variant.fields ++ memberNames := by
  rw [encode] at h
  obtain rfl := Value.object.inj h
  cases definition.provider <;> rfl

theorem nodup_of_encode_eq (h : definition.encode = .object members) :
    (members.map Prod.fst).Nodup := by
  rw [names_of_encode_eq h]
  cases definition.provider.variant <;> decide

theorem depth_of_encode_eq (h : definition.encode = .object members) {member : String × Value}
    (hmember : member ∈ members) : member.2.depth ≤ 2 :=
  depth_le_of_mem (h ▸ definition.depth_encode_le) member hmember

theorem mem_fields_of_encode_eq (h : definition.encode = .object members)
    {member : String × Value} (hmember : member ∈ members)
    (hforeign : member.1 ∉ tagName :: memberNames) :
    member.1 ∈ definition.provider.variant.fields := by
  have hname : member.1 ∈ members.map Prod.fst := List.mem_map.mpr ⟨member, hmember, rfl⟩
  rw [names_of_encode_eq h] at hname
  simp only [List.cons_append, List.mem_cons, List.mem_append] at hname hforeign
  tauto

/-- What the definition leaves over is read as a provider once its own members are. -/
theorem refuses_of_provider (hown : Arranged definition.ownSlots members)
    (hdepth : ∀ member ∈ members, member.2.depth ≤ room - 1)
    (hprovider : Refused (· = fault) (Provider.variants.readKept (keptMembers memberNames members))) :
    Refuses (Definition.decode room) (.object members) fault := by
  refine refuses_record (fun _ _ _ => rfl) (reads_members hown hdepth)
    (hown.distinct (by simp [names_ownSlots, memberNames]) (by simp [names_ownSlots])) ?_
  change Refused _ (ofMembers (definition.found members))
  rw [ofMembers, keyword_found hown, filterMap_foreign?_found]
  exact hprovider.bind _

theorem refused_provider_repeated (hdefinition : definition.encode = .object (before ++ after))
    (hother : other.encode = .object others) (hmember : member ∈ others)
    (hname : member.1 ∈ (before ++ after).map Prod.fst) (hforeign : member.1 ∉ memberNames) :
    Refused (· = .repeatedMember member.1)
      (Provider.variants.readKept (keptMembers memberNames (before ++ member :: after))) := by
  obtain ⟨hmembers, -⟩ := arranged_of_encode_eq hdefinition
  obtain ⟨hothers, -⟩ := arranged_of_encode_eq hother
  have hnodup := nodup_of_encode_eq hdefinition
  by_cases hkind : member.1 = tagName
  · refine Refused.bind (refused_readFields ?_ hnodup (by simp [hkind]) hname hforeign) _
    intro value hvalue _
    have hknows : Provider.variants.Knows value := by
      rcases mem_inserted.mp hvalue with rfl | hvalue
      · exact Provider.knows hothers hmember
      · exact Provider.knows hmembers hvalue
    exact hknows.exists_readKeptMember
  · have hforeign : member.1 ∉ tagName :: memberNames := by simp [hkind, hforeign]
    rw [Provider.readKept_eq_ofMembers
      ((Provider.arranged_kind hmembers).insert (by simpa using hkind)), Provider.ofMembers]
    refine Refused.bind (refused_readFields ?_ hnodup ?_ hname hforeign) _
    · intro value hvalue hout
      rcases mem_inserted.mp hvalue with rfl | hvalue
      · exact Provider.exists_readField hothers hmember
          (mem_fields_of_encode_eq hother hmember hout) _
      · exact Provider.exists_readField hmembers hvalue
          (mem_fields_of_encode_eq hdefinition hvalue hout) _
    · obtain ⟨value, hvalue, heq⟩ := List.mem_map.mp hname
      exact heq ▸ mem_fields_of_encode_eq hdefinition hvalue (heq ▸ hforeign)

theorem refused_provider_missing
    (hdefinition : definition.encode = .object (before ++ member :: after))
    (hmandatory : member.1 ∈ mandatoryNames) (hforeign : member.1 ∉ memberNames) :
    Refused (· = .missingMember member.1)
      (Provider.variants.readKept (keptMembers memberNames (before ++ after))) := by
  obtain ⟨hmembers, -⟩ := arranged_of_encode_eq hdefinition
  obtain ⟨hout, hnodup⟩ := nodup_inserted.mp (nodup_of_encode_eq hdefinition)
  by_cases hkind : member.1 = tagName
  · rw [hkind] at hout ⊢
    refine Provider.variants.refused_untagged fun hin => hout ?_
    rw [map_fst_keptMembers] at hin
    exact List.mem_of_mem_filter hin
  · -- the name is the only field that has no default
    have honly : ∀ variant : Provider.Variant, ∀ name ∈ variant.fields, name ∈ mandatoryNames →
        name = variant.nameField := by
      intro variant
      cases variant <;> decide
    have hforeign : member.1 ∉ tagName :: memberNames := by simp [hkind, hforeign]
    have hname := honly _ _ (mem_fields_of_encode_eq hdefinition (mem_inserted.mpr (.inl rfl))
      hforeign) hmandatory
    have hread : ∀ value ∈ before ++ after,
        definition.provider.variant.readField value.1 value.2.stored =
          .ok (contribution definition.provider.fields (fun _ => none) value) :=
      fun value hvalue => Provider.read_kept hmembers value (mem_inserted.mpr (.inr hvalue))
    have hmissing : Refused (· = .missingMember member.1)
        (required definition.provider.variant.nameField Provider.Member.name?
          (definition.provider.found (before ++ after))) := by
      rw [hname] at hout ⊢
      refine refused_required _ ?_ (fun _ => rfl) hout
      cases definition.provider <;>
        simp [Provider.fields, Provider.variant, Provider.Variant.nameField, Provider.Member.name?]
    rw [Provider.readKept_eq_ofMembers
      ((Provider.arranged_kind hmembers).erase (by simpa using hkind)), Provider.ofMembers,
      readFields_kept hread definition.provider.lookup_memberNames (distinct_of_nodup hnodup)]
    exact hmissing.bind _

theorem refuses_repeated (hdefinition : definition.encode = .object (before ++ after))
    (hother : other.encode = .object others) (hroom : 3 ≤ room) (hmember : member ∈ others)
    (hname : member.1 ∈ (before ++ after).map Prod.fst) :
    Refuses (Definition.decode room) (.object (before ++ member :: after))
      (.repeatedMember member.1) := by
  obtain ⟨-, hmembers⟩ := arranged_of_encode_eq hdefinition
  obtain ⟨-, hothers⟩ := arranged_of_encode_eq hother
  have hdepth : ∀ {definition : Definition} {members : List (String × Value)},
      definition.encode = .object members → ∀ value ∈ members, value.2.depth ≤ room - 1 :=
    fun h value hvalue => (depth_of_encode_eq h hvalue).trans (by omega)
  by_cases hown : member.1 ∈ memberNames
  · refine (Collects.of_readRecord fun _ _ _ => rfl).refuses_repeated (fun value hvalue => ?_)
      (nodup_of_encode_eq hdefinition) hown hname
    rcases mem_inserted.mp hvalue with rfl | hvalue
    · exact ⟨_, reads_members hothers (hdepth hother) _ hmember⟩
    · exact ⟨_, reads_members hmembers (hdepth hdefinition) value hvalue⟩
  · refine refuses_of_provider (hmembers.insert (by rwa [names_ownSlots])) (fun value hvalue => ?_)
      (refused_provider_repeated hdefinition hother hmember hname hown)
    rcases mem_inserted.mp hvalue with rfl | hvalue
    · exact hdepth hother _ hmember
    · exact hdepth hdefinition value hvalue

theorem refuses_missing (hdefinition : definition.encode = .object (before ++ member :: after))
    (hroom : 3 ≤ room) (hmandatory : member.1 ∈ mandatoryNames) :
    Refuses (Definition.decode room) (.object (before ++ after)) (.missingMember member.1) := by
  obtain ⟨-, hmembers⟩ := arranged_of_encode_eq hdefinition
  have hdepth : ∀ value ∈ before ++ member :: after, value.2.depth ≤ room - 1 :=
    fun value hvalue => (depth_of_encode_eq hdefinition hvalue).trans (by omega)
  have hrest : ∀ value ∈ before ++ after, value ∈ before ++ member :: after :=
    fun value hvalue => mem_inserted.mpr (.inr hvalue)
  by_cases hown : member.1 ∈ memberNames
  · have honly : ∀ name ∈ memberNames, name ∈ mandatoryNames → name = "keyword" := by decide
    obtain ⟨hout, hnodup⟩ := nodup_inserted.mp (nodup_of_encode_eq hdefinition)
    rw [honly _ hown hmandatory] at hout ⊢
    have hmissing : Refused (· = .missingMember "keyword")
        (required "keyword" Member.keyword? (definition.found (before ++ after))) :=
      refused_required "keyword" (by simp [fields, Member.keyword?]) (fun _ => rfl) hout
    exact refuses_record (fun _ _ _ => rfl)
      (fun value hvalue => reads_members hmembers hdepth value (hrest value hvalue))
      (distinct_of_nodup hnodup) (hmissing.bind _)
  · exact refuses_of_provider (hmembers.erase (by rwa [names_ownSlots]))
      (fun value hvalue => hdepth value (hrest value hvalue))
      (refused_provider_missing hdefinition hmandatory hown)

/-- The members of a definition in which records stand are its own. -/
theorem guards_members (hdefinition : definition.encode = .object members)
    (hother : other.encode = .object others) (hroom : 3 ≤ room) :
    ∀ member ∈ members, ∀ second, others.lookup member.1 = some second →
      Guards (readMember (room - 1) member.1) member.2 second := by
  rw [encode] at hdefinition hother
  obtain rfl := Value.object.inj hdefinition
  obtain rfl := Value.object.inj hother
  have hprovider : ∀ member ∈ definition.provider.members, member.2.depth = 0 := by
    cases definition.provider <;> simp [Provider.members, Value.depth]
  have hkeyword : (other.provider.members ++ other.ownMembers).lookup "keyword" =
      some other.keyword.encode := by
    cases other.provider <;> rfl
  have hparameters : (other.provider.members ++ other.ownMembers).lookup "parameters" =
      some (.array (other.parameters.map Parameter.encode)) := by
    cases other.provider <;> rfl
  have hreads : ∀ parameter : Parameter,
      Reads (Parameter.decode (room - 1 - 1)) parameter.encode parameter := fun parameter =>
    Parameter.reads parameter.isForm_encode (parameter.depth_encode.trans_le (by omega))
  refine List.forall_mem_append.mpr ⟨fun member hmember _ _ =>
    guards_of_depth_eq_zero (.inl (hprovider member hmember)), ?_⟩
  simp only [ownMembers, List.forall_mem_cons]
  refine ⟨fun _ _ => guards_text _ _, fun second hsecond => ?_,
    fun second _ => guards_scope definition.scope second,
    fun _ _ => guards_of_depth_eq_zero (.inl (depth_optionalText _)),
    fun _ _ => guards_of_depth_eq_zero (.inl rfl),
    fun second _ => guards_texts definition.bindings second, fun second hsecond => ?_, by simp⟩
  · obtain rfl := Option.some.inj (hkeyword.symm.trans hsecond)
    exact (definition.keyword.guards other.keyword).map _
  · obtain rfl := Option.some.inj (hparameters.symm.trans hsecond)
    exact (guards_map hreads Parameter.guards _ _).map _

theorem guards (definition other : Definition) (hroom : 3 ≤ room) :
    Guards (Definition.decode room) definition.encode other.encode := by
  obtain ⟨members, hdefinition, -⟩ := definition.isForm_encode
  obtain ⟨others, hother, -⟩ := other.isForm_encode
  have hspoiled : ∀ edited fault, Spoils others members edited fault →
      Refuses (Definition.decode room) (.object edited) fault := by
    intro edited fault h
    cases h with
    | repeated hmember hname => exact refuses_repeated hdefinition hother hroom hmember hname
    | missing hmandatory => exact refuses_missing hdefinition hroom hmandatory
  obtain ⟨-, hmembers⟩ := arranged_of_encode_eq hdefinition
  have hdepth : ∀ value ∈ members, value.2.depth ≤ room - 1 :=
    fun value hvalue => (depth_of_encode_eq hdefinition hvalue).trans (by omega)
  rw [hdefinition, hother]
  exact guards_object (.of_readRecord fun _ _ _ => rfl)
    (fun member hmember => ⟨_, reads_members hmembers hdepth member hmember⟩)
    (nodup_of_encode_eq hdefinition) (guards_members hdefinition hother hroom) hspoiled

end Written

end Definition

/-! ## Modules -/

theorem Module.guards_includes (includes others : Option (List ModuleRef)) :
    Guards (readOptional (readList ModuleRef.decode))
      ((includes.map fun refs => .array (refs.map ModuleRef.encode)).getD .null)
      ((others.map fun refs => .array (refs.map ModuleRef.encode)).getD .null) := by
  cases includes with
  | none => exact guards_of_depth_eq_zero (.inl rfl)
  | some references =>
      cases others with
      | none => exact guards_of_depth_eq_zero (.inr rfl)
      | some others =>
          have hreads : ∀ reference : ModuleRef,
              Reads ModuleRef.decode reference.encode reference := fun reference =>
            ModuleRef.reads reference.isForm_encode
          exact (guards_map hreads ModuleRef.guards references others).some

theorem Module.guards (module other : Module) (hroom : 5 ≤ room) :
    Guards (Module.decode room) module.encode other.encode := by
  have hdepth : ∀ module : Module, (module.encode).depth ≤ room - 1 + 1 := fun module =>
    module.depth_encode_le.trans (by omega)
  have hreads := reads_members (IsRecord.arranged module.isForm_encode)
    (depth_le_of_mem (hdepth module))
  have hothers := reads_members (IsRecord.arranged other.isForm_encode)
    (depth_le_of_mem (hdepth other))
  refine guards_record (fun _ _ _ => rfl) hreads (fun member hmember => ⟨_, hothers member hmember⟩)
    (by simp) (by simp [memberNames]) ?_ ?_
  · intro name hname hmandatory rest hrest
    have honly : ∀ name ∈ memberNames, name ∈ mandatoryNames → name = "name" := by decide
    obtain rfl := honly name hname hmandatory
    have hmissing : Refused _ (required "name" Member.name? (module.found rest)) :=
      refused_required "name" (by simp [fields, Member.name?]) (fun _ => rfl) hrest
    exact hmissing.bind _
  · have hdefinitions : ∀ definition : Definition,
        Reads (Definition.decode (room - 1 - 1)) definition.encode definition := fun definition =>
      Definition.reads definition.isForm_encode (definition.depth_encode_le.trans (by omega))
    simp only [List.forall_mem_cons]
    refine ⟨fun _ _ => guards_text _ _, fun _ _ => guards_text _ _,
      fun _ _ => guards_text _ _, fun second hsecond => ?_, fun second hsecond => ?_, by simp⟩
    · obtain rfl : Value.array (other.definitions.map Definition.encode) = second :=
        Option.some.inj hsecond
      exact (guards_map hdefinitions (fun definition second =>
        definition.guards second (by omega)) _ _).map _
    · obtain rfl := Option.some.inj hsecond
      exact (guards_includes module.includes other.includes).map _

/-! ## Metadata -/

namespace Metadata

theorem guards_modules (modules others : List Module) (hroom : 5 ≤ room) :
    Guards (readList (Module.decode room)) (.array (modules.map Module.encode))
      (.array (others.map Module.encode)) :=
  guards_map (fun module => Module.reads module.isForm_encode (module.depth_encode_le.trans hroom))
    (fun module other => module.guards other hroom) modules others

theorem guards (metadata other : Metadata) (hroom : 7 ≤ room) :
    Guards (Metadata.decode room) metadata.encode other.encode := by
  have hdepth : ∀ metadata : Metadata, (metadata.encode).depth ≤ room - 1 + 1 := fun metadata =>
    metadata.depth_encode_le.trans (by omega)
  have hreads := reads_members (IsRecord.arranged metadata.isForm_encode)
    (depth_le_of_mem (hdepth metadata))
  have hothers := reads_members (IsRecord.arranged other.isForm_encode)
    (depth_le_of_mem (hdepth other))
  refine guards_record (fun _ _ _ => rfl) hreads (fun member hmember => ⟨_, hothers member hmember⟩)
    (by simp) (by simp [memberNames]) ?_ ?_
  · intro name hname hmandatory
    have hnone : ∀ name ∈ memberNames, name ∉ mandatoryNames := by decide
    exact absurd hmandatory (hnone name hname)
  · simp only [List.forall_mem_cons]
    refine ⟨fun second hsecond => ?_, fun second hsecond => ?_, by simp⟩
    · obtain rfl := Option.some.inj hsecond
      exact (guards_modules metadata.modules other.modules (by omega)).map _
    · obtain rfl : Value.array (other.defaultSources.map Module.encode) = second :=
        Option.some.inj hsecond
      exact (guards_modules metadata.defaultSources other.defaultSources (by omega)).map _

/-! ## Texts of spoiled records -/

/-- What is put in for a record is as plain as the values its members come from. -/
theorem isPlain_spoiled {path : List PathStep} {metadata second : Metadata}
    (hmembers : metadata.encode.at? path = some (.object members))
    (hothers : second.encode.at? path = some (.object others))
    (h : Spoils others members edited fault) : (Value.object edited).isPlain = true := by
  have hplain := membersPlain_iff.mp (Value.isPlain_at? metadata.isPlain_encode hmembers)
  have hothersPlain := membersPlain_iff.mp (Value.isPlain_at? second.isPlain_encode hothers)
  refine membersPlain_iff.mpr fun value hvalue => ?_
  cases h with
  | repeated hmember =>
      rcases mem_inserted.mp hvalue with rfl | hvalue
      · exact hothersPlain _ hmember
      · exact hplain value hvalue
  | missing => exact hplain value (mem_inserted.mpr (.inr hvalue))

theorem ofText_spoiled {path : List PathStep} {metadata second : Metadata}
    (hmembers : metadata.encode.at? path = some (.object members))
    (hothers : second.encode.at? path = some (.object others))
    (h : Spoils others members edited fault) :
    ∃ misread, ofText (metadata.encode.replaceAt path (.object edited)).compact =
      .error (.metadata misread) ∧ misread.fault = fault := by
  have hrefuses : Refuses (decode depthLimit) (metadata.encode.replaceAt path (.object edited))
      fault := metadata.guards second (by decide) hmembers hothers h
  obtain ⟨refusal, hparse, hfault⟩ := hrefuses.parse_compact
    (Value.isPlain_replaceAt metadata.isPlain_encode (isPlain_spoiled hmembers hothers h))
  exact ⟨_, ofText_eq_of_refusal hparse, hfault⟩

/-- In a record of metadata, wherever it stands, no member may come again, and none without
a default may be missing: the text is refused with a message that names the member. It
does not matter where the second member comes, nor what it holds of all that other metadata
holds there. -/
theorem ofText_refuses_spoiled_record (metadata other : Metadata) (path : List PathStep)
    {members others : List (String × Value)}
    (hmembers : metadata.encode.at? path = some (.object members))
    (hothers : other.encode.at? path = some (.object others)) :
    (∀ (before after : List (String × Value)) (member : String × Value),
      before ++ after = members → member ∈ others → member.1 ∈ members.map Prod.fst →
        member.1 ∉ Scope.variantNames →
          ∃ misread,
            ofText (metadata.encode.replaceAt path (.object (before ++ member :: after))).compact =
              .error (.metadata misread) ∧
            misread.fault.category = .data ∧
            misread.fault.message = "duplicate field `" ++ member.1 ++ "`") ∧
    ∀ (before after : List (String × Value)) (member : String × Value),
      before ++ member :: after = members → member.1 ∈ mandatoryNames →
        ∃ misread,
          ofText (metadata.encode.replaceAt path (.object (before ++ after))).compact =
            .error (.metadata misread) ∧
          misread.fault.category = .data ∧
          misread.fault.message = "missing field `" ++ member.1 ++ "`" := by
  refine ⟨?_, ?_⟩
  · rintro before after member rfl hmember hname hrecord
    obtain ⟨misread, hread, hfault⟩ :=
      ofText_spoiled hmembers hothers (.repeated hmember hname hrecord)
    exact ⟨misread, hread, by rw [hfault]; rfl, by rw [hfault]; rfl⟩
  · rintro before after member rfl hmandatory
    obtain ⟨misread, hread, hfault⟩ := ofText_spoiled hmembers hothers (.missing hmandatory)
    exact ⟨misread, hread, by rw [hfault]; rfl, by rw [hfault]; rfl⟩

/-- The definition of a class gets the kind of another one in front of its own, or loses the
name of the class; both are kept members. -/
theorem ofText_refuses_spoiled_record_of_second_kind :
    let definition : Definition := { provider := .type "Clock", keyword := { name := "single" } }
    let second : Definition := { definition with provider := .function "clock" false }
    let metadata : Metadata := { modules := [{ name := "Main", definitions := [definition] }] }
    let other : Metadata := { modules := [{ name := "Main", definitions := [second] }] }
    let path : List PathStep :=
      [.member "modules", .item 0, .member "definitions", .item 0]
    let members := definition.provider.members ++ definition.ownMembers
    let others := second.provider.members ++ second.ownMembers
    metadata.encode.at? path = some (.object members) ∧
      other.encode.at? path = some (.object others) ∧ ("kind", .text "function") ∈ others ∧
      (∃ misread,
        ofText (metadata.encode.replaceAt path
          (.object (("kind", .text "function") :: members))).compact =
            .error (.metadata misread) ∧
        misread.fault.category = .data ∧ misread.fault.message = "duplicate field `kind`") ∧
      ∃ misread,
        ofText (metadata.encode.replaceAt path
          (.object (("kind", .text "class") :: definition.ownMembers))).compact =
            .error (.metadata misread) ∧
        misread.fault.category = .data ∧
        misread.fault.message = "missing field `class_name`" := by
  intro definition second metadata other path members others
  have hmembers : metadata.encode.at? path = some (.object members) := rfl
  have hothers : other.encode.at? path = some (.object others) := rfl
  have hkind : ("kind", .text "function") ∈ others := List.mem_cons_self
  have hrefuses := metadata.ofText_refuses_spoiled_record other path hmembers hothers
  exact ⟨hmembers, hothers, hkind,
    hrefuses.1 [] members ("kind", .text "function") rfl hkind List.mem_cons_self (by decide),
    hrefuses.2 [("kind", .text "class")] definition.ownMembers ("class_name", .text "Clock") rfl
      (by decide)⟩

end Metadata

end Wiring
