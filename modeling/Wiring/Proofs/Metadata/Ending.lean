import Wiring.Proofs.Json.Following
import Wiring.Proofs.Metadata.RoundTrip

/-!
# Metadata ends with its text

The compact text of metadata cannot be taken for that of other metadata when it is cut or
continued: a part of it ends too early, and behind it nothing but blanks may stand.
-/

namespace Wiring

open Json

variable {room : Nat}

/-! ## Records that break off -/

theorem Keyword.follows (keyword : Keyword) : Follows Keyword.decode keyword.encode := by
  refine follows_record (fun _ _ _ => rfl) (fun _ _ => rfl)
    ⟨keyword, reads keyword.isForm_encode⟩ ?_ (by simp [Distinct])
  simp only [List.forall_mem_cons]
  exact ⟨(follows_text .text _).map _, (follows_optionalText .text _).map _, by simp⟩

theorem Scope.follows (scope : Scope) : Follows Scope.decode scope.encode := by
  cases scope with
  | type name => exact follows_withValue rfl ((follows_text .text name).map _)
  | named name => exact follows_withValue rfl ((follows_text .text name).map _)

theorem Visibility.follows (visibility : Visibility) :
    Follows Visibility.decode visibility.encode := by
  cases visibility <;> exact follows_bare rfl rfl

theorem follows_keep_optionalText (text : Option String) :
    Follows (Node.keep room) (.optionalText text) :=
  follows_keep (depth_optionalText text) (by cases text <;> simp [Value.optionalText])

theorem Parameter.follows (parameter : Parameter) (hroom : 1 ≤ room) :
    Follows (Parameter.decode room) parameter.encode := by
  have hwhole : Reads (Parameter.decode room) parameter.encode parameter :=
    reads parameter.isForm_encode (parameter.depth_encode.trans_le hroom)
  have hvariant := parameter.lookup_kind
  cases parameter <;> refine Variants.follows hwhole hvariant ?_ ?_ ?_ <;>
    simp [kind, tagName, Distinct, follows_keep_text, follows_keep_flag,
      follows_keep_optionalText]

theorem Definition.follows_scope (scope : Option Scope) :
    Follows (readOptional Scope.decode) ((scope.map Scope.encode).getD .null) := by
  cases scope with
  | none => exact (Scope.follows (.type "")).none
  | some scope =>
      have hobject : ∃ members, scope.encode = .object members := by cases scope <;> exact ⟨_, rfl⟩
      obtain ⟨members, hmembers⟩ := hobject
      exact scope.follows.some (by simp [hmembers]) (by simp [hmembers])

/-- The members of the provider are kept by the definition around it. -/
theorem Provider.follows_members (provider : Provider) :
    ∀ member ∈ provider.members, Follows (Definition.readMember room member.1) member.2 := by
  cases provider with
  | type name =>
      simp only [members, List.forall_mem_cons]
      exact ⟨(follows_keep_text room _).map _, (follows_keep_text room _).map _, by simp⟩
  | function name isMember =>
      simp only [members, List.forall_mem_cons]
      exact ⟨(follows_keep_text room _).map _, (follows_keep_text room _).map _,
        (follows_keep_flag room _).map _, by simp⟩

theorem Definition.follows (definition : Definition) (hroom : 3 ≤ room) :
    Follows (Definition.decode room) definition.encode := by
  have hown : ∀ member ∈ definition.ownMembers,
      Follows (readMember (room - 1) member.1) member.2 := by
    simp only [ownMembers, List.forall_mem_cons]
    have hbindings : ∀ value ∈ definition.bindings.map Value.text,
        Follows (readText .text) value :=
      List.forall_mem_map.mpr fun binding _ => follows_text .text binding
    have hparameters : ∀ value ∈ definition.parameters.map Parameter.encode,
        Follows (Parameter.decode (room - 1 - 1)) value :=
      List.forall_mem_map.mpr fun parameter _ => parameter.follows (by omega)
    exact ⟨(follows_text .text _).map _, definition.keyword.follows.map _,
      (follows_scope _).map _, (follows_optionalText .text _).map _, (follows_flag _).map _,
      (follows_list hbindings).map _, (follows_list hparameters).map _, by simp⟩
  have hwhole := reads definition.isForm_encode (definition.depth_encode_le.trans hroom)
  refine follows_record (fun _ _ _ => rfl) (fun _ _ => rfl) ⟨definition, hwhole⟩ ?_ ?_
  · exact List.forall_mem_append.mpr ⟨definition.provider.follows_members, hown⟩
  · rw [ownMembers]
    cases definition.provider <;> simp [Provider.members, Distinct]

theorem ModuleRef.follows (reference : ModuleRef) :
    Follows ModuleRef.decode reference.encode := by
  refine follows_record (fun _ _ _ => rfl) (fun _ _ => rfl)
    ⟨reference, reads reference.isForm_encode⟩ ?_ (by simp [Distinct])
  simp only [List.forall_mem_cons]
  exact ⟨(follows_text .text _).map _, (follows_text .text _).map _, by simp⟩

theorem Module.follows_includes (includes : Option (List ModuleRef)) :
    Follows (readOptional (readList ModuleRef.decode))
      ((includes.map fun refs => .array (refs.map ModuleRef.encode)).getD .null) := by
  have hlist : ∀ references : List ModuleRef,
      Follows (readList ModuleRef.decode) (.array (references.map ModuleRef.encode)) :=
    fun references => follows_list (List.forall_mem_map.mpr fun reference _ => reference.follows)
  cases includes with
  | none => exact (hlist []).none
  | some references => exact (hlist references).some (by simp) (by simp)

theorem Module.follows (module : Module) (hroom : 5 ≤ room) :
    Follows (Module.decode room) module.encode := by
  have hdefinitions : ∀ value ∈ module.definitions.map Definition.encode,
      Follows (Definition.decode (room - 1 - 1)) value :=
    List.forall_mem_map.mpr fun definition _ => definition.follows (by omega)
  have hwhole := reads module.isForm_encode (module.depth_encode_le.trans hroom)
  refine follows_record (fun _ _ _ => rfl) (fun _ _ => rfl) ⟨module, hwhole⟩ ?_
    (by simp [Distinct])
  simp only [List.forall_mem_cons]
  exact ⟨(follows_text .text _).map _, (follows_text .text _).map _,
    module.visibility.follows.map _, (follows_list hdefinitions).map _,
    (follows_includes _).map _, by simp⟩

theorem Metadata.follows (metadata : Metadata) (hroom : 7 ≤ room) :
    Follows (Metadata.decode room) metadata.encode := by
  have hmodules : ∀ modules : List Module, ∀ value ∈ modules.map Module.encode,
      Follows (Module.decode (room - 1 - 1)) value := fun modules =>
    List.forall_mem_map.mpr fun module _ => module.follows (by omega)
  have hwhole := reads metadata.isForm_encode (metadata.depth_encode_le.trans hroom)
  refine follows_record (fun _ _ _ => rfl) (fun _ _ => rfl) ⟨metadata, hwhole⟩ ?_
    (by simp [Distinct])
  simp only [List.forall_mem_cons]
  exact ⟨(follows_list (hmodules _)).map _, (follows_list (hmodules _)).map _, by simp⟩

/-! ## Texts that are cut or continued -/

namespace Metadata

theorem ofText_eq_of_refusal {text : String} {refusal : Refusal}
    (hparse : Json.parse (decode depthLimit) text = .error refusal) :
    ofText text = .error (.metadata (Misread.ofRefusal text refusal)) := by
  rw [ofText, parsePlaced, hparse]
  rfl

theorem isSpace_iff {c : Char} : isSpace c = true ↔ c ∈ [' ', '\t', '\n', '\r'] := by
  simp [isSpace, or_assoc]

theorem ofText_of_breaksOff (metadata : Metadata) {text : String}
    (h : BreaksOff text.toList metadata.encode.writeChars) :
    ∃ misread, ofText text = .error (.metadata misread) ∧ misread.fault.category = .ended := by
  have hfollows : Follows (decode depthLimit) metadata.encode := metadata.follows (by decide)
  obtain ⟨refusal, hparse, hended⟩ := hfollows.parse_breaksOff metadata.isPlain_encode h
  exact ⟨_, ofText_eq_of_refusal hparse, hended⟩

theorem ofText_of_trailing (metadata : Metadata) {rest : String}
    (hrest : ∃ c ∈ rest.toList, isSpace c = false) :
    ∃ misread, ofText (metadata.encode.compact ++ rest) = .error (.metadata misread) ∧
      misread.fault = .trailingText := by
  have hreads : Reads (decode depthLimit) metadata.encode metadata :=
    reads metadata.isForm_encode (metadata.depth_encode_le.trans (by decide))
  have hparse := parse_trailing hreads metadata.isPlain_encode
    (Spaced.compact_append metadata.encode rest) (by simp [encode]) hrest
  exact ⟨_, ofText_eq_of_refusal hparse, rfl⟩

theorem ofText_of_blanks (metadata : Metadata) {rest : String}
    (hrest : ∀ c ∈ rest.toList, isSpace c = true) :
    ofText (metadata.encode.compact ++ rest) = .ok metadata :=
  ofText_form metadata metadata.isForm_encode metadata.isPlain_encode
    (metadata.depth_encode_le.trans (by decide)) (Spaced.compact_append metadata.encode rest) hrest

/-- Metadata is read from its compact text, behind which there may be blanks, and from
nothing else that starts like it: cut at any character the text ends too early, and whatever
else comes behind it is refused as such. -/
theorem compact_is_delimited (metadata : Metadata) :
    (∀ text rest : String, rest ≠ "" → text ++ rest = metadata.encode.compact →
      ∃ misread, ofText text = .error (.metadata misread) ∧ misread.fault.category = .ended) ∧
    ∀ rest : String,
      (ofText (metadata.encode.compact ++ rest) = .ok metadata ↔
        ∀ c ∈ rest.toList, c ∈ [' ', '\t', '\n', '\r']) ∧
      ((∃ c ∈ rest.toList, c ∉ [' ', '\t', '\n', '\r']) →
        ∃ misread, ofText (metadata.encode.compact ++ rest) = .error (.metadata misread) ∧
          misread.fault.category = .grammar ∧ misread.fault.message = "trailing characters") := by
  simp only [← isSpace_iff]
  refine ⟨fun text rest hrest htext => ?_, fun rest => ⟨⟨fun hread => ?_, ?_⟩, fun hother => ?_⟩⟩
  · refine metadata.ofText_of_breaksOff ⟨rest.toList, by simpa using hrest, ?_⟩
    rw [← String.toList_append, htext, Value.compact, String.toList_ofList]
  · -- what is read is not refused
    by_contra hother
    have hother : ∃ c ∈ rest.toList, isSpace c = false := by simpa using hother
    obtain ⟨misread, hrefused, -⟩ := metadata.ofText_of_trailing hother
    rw [hread] at hrefused
    cases hrefused
  · exact metadata.ofText_of_blanks
  · obtain ⟨misread, hrefused, hfault⟩ := metadata.ofText_of_trailing (by simpa using hother)
    exact ⟨misread, hrefused, by rw [hfault]; rfl, by rw [hfault]; rfl⟩

/-- The text is cut inside the escape of a control character, or goes on with a line break
or with a bracket too many. -/
theorem compact_is_delimited_of_escaped_name :
    let metadata : Metadata := { modules := [{ name := "M\x07" }] }
    let text := "\x7b\"modules\":[\x7b\"name\":\"M\\u00"
    let behind := "07\",\"package_name\":\"\",\"visibility\":\"public\",\"definitions\":[]," ++
      "\"includes\":null\x7d],\"default_modules\":[]\x7d"
    behind ≠ "" ∧ text ++ behind = metadata.encode.compact ∧
      (∃ misread, ofText text = .error (.metadata misread) ∧ misread.fault.category = .ended) ∧
      ofText (metadata.encode.compact ++ "\n") = .ok metadata ∧
      ∃ misread, ofText (metadata.encode.compact ++ " \x7d") = .error (.metadata misread) ∧
        misread.fault.category = .grammar ∧ misread.fault.message = "trailing characters" := by
  intro metadata text behind
  have hbehind : behind ≠ "" := by decide
  have htext : text ++ behind = metadata.encode.compact := by decide +kernel
  have hdelimited := metadata.compact_is_delimited
  exact ⟨hbehind, htext, hdelimited.1 text behind hbehind htext,
    (hdelimited.2 "\n").1.mpr (by simp), (hdelimited.2 " \x7d").2 ⟨'}', by decide, by decide⟩⟩

end Metadata

end Wiring
