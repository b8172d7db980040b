import Wiring.Proofs.Draft

/-!
# How texts begin and end

The texts of a unit hold names that are arbitrary, so they are told apart by the fixed
characters around them. Two texts are different as soon as the ending of neither is an
ending of the other's, and likewise for beginnings.
-/

namespace Wiring

/-! ## Beginnings and endings -/

/-- The text ends in one of these. -/
def EndsIn (endings : List String) (text : String) : Prop :=
  ∃ ending ∈ endings, ending.toList <:+ text.toList

/-- The text starts with one of these. -/
def StartsIn (beginnings : List String) (text : String) : Prop :=
  ∃ beginning ∈ beginnings, beginning.toList <+: text.toList

section Affix

variable {affixes others texts : List String} {first second text : String}

theorem EndsIn.ne (hfirst : EndsIn affixes first) (hsecond : EndsIn others second)
    (hapart : ∀ ending ∈ affixes, ∀ other ∈ others,
      ¬ending.toList <:+ other.toList ∧ ¬other.toList <:+ ending.toList) :
    first ≠ second := by
  obtain ⟨ending, hending, hfirst⟩ := hfirst
  obtain ⟨other, hother, hsecond⟩ := hsecond
  obtain ⟨hnot, hnot'⟩ := hapart ending hending other hother
  rintro rfl
  exact (List.suffix_or_suffix_of_suffix hfirst hsecond).elim hnot hnot'

theorem StartsIn.ne (hfirst : StartsIn affixes first) (hsecond : StartsIn others second)
    (hapart : ∀ beginning ∈ affixes, ∀ other ∈ others,
      ¬beginning.toList <+: other.toList ∧ ¬other.toList <+: beginning.toList) :
    first ≠ second := by
  obtain ⟨beginning, hbeginning, hfirst⟩ := hfirst
  obtain ⟨other, hother, hsecond⟩ := hsecond
  obtain ⟨hnot, hnot'⟩ := hapart beginning hbeginning other hother
  rintro rfl
  exact (List.prefix_or_prefix_of_prefix hfirst hsecond).elim hnot hnot'

theorem EndsIn.append (h : EndsIn affixes text) (front : String) :
    EndsIn affixes (front ++ text) := by
  obtain ⟨ending, hending, hsuffix⟩ := h
  refine ⟨ending, hending, ?_⟩
  rw [String.toList_append]
  exact hsuffix.trans (List.suffix_append _ _)

theorem StartsIn.append (h : StartsIn affixes text) (rest : String) :
    StartsIn affixes (text ++ rest) := by
  obtain ⟨beginning, hbeginning, hprefix⟩ := h
  refine ⟨beginning, hbeginning, ?_⟩
  rw [String.toList_append]
  exact hprefix.trans (List.prefix_append _ _)

theorem EndsIn.mono (h : EndsIn affixes text) (hsubset : affixes ⊆ others) :
    EndsIn others text := by
  obtain ⟨ending, hending, hsuffix⟩ := h
  exact ⟨ending, hsubset hending, hsuffix⟩

/-- A text that is indented stands on a new line. -/
theorem StartsIn.shorten (h : StartsIn affixes text)
    (hshorter : ∀ beginning ∈ affixes, StartsIn others beginning) : StartsIn others text := by
  obtain ⟨beginning, hbeginning, hprefix⟩ := h
  obtain ⟨shorter, hmem, hshort⟩ := hshorter beginning hbeginning
  exact ⟨shorter, hmem, hshort.trans hprefix⟩

theorem endsIn_singleton {ending : String} :
    EndsIn [ending] text ↔ ending.toList <:+ text.toList := by
  simp [EndsIn]

/-- Texts put together end as the last one does, which may be any of them. -/
theorem endsIn_intercalate {separator : String} (hne : texts ≠ [])
    (h : ∀ text ∈ texts, EndsIn affixes text) : EndsIn affixes (separator.intercalate texts) := by
  induction texts with
  | nil => exact absurd rfl hne
  | cons text texts ih =>
      obtain ⟨hhead, htail⟩ := List.forall_mem_cons.mp h
      by_cases hlast : texts = []
      · rw [hlast, String.intercalate_singleton]
        exact hhead
      · rw [String.intercalate_cons_of_ne_nil hlast]
        exact (ih hlast htail).append _

end Affix

/-! ## Numbers -/

theorem eq_of_toString_eq {first second : Nat} (h : toString first = toString second) :
    first = second := by
  rw [Nat.toString_eq_ofList_toDigits, Nat.toString_eq_ofList_toDigits] at h
  have hdigits := congrArg (Nat.ofDigitChars 10 · 0) (String.ofList_injective h)
  simpa [Nat.ofDigitChars_ten_toDigits] using hdigits

theorem isDigit_of_mem_toString {number : Nat} {c : Char} (hc : c ∈ (toString number).toList) :
    c.isDigit = true := by
  rw [Nat.toString_eq_ofList_toDigits, String.toList_ofList] at hc
  exact Nat.isDigit_of_mem_toDigits (by decide) (by decide) hc

theorem not_mem_toString {c : Char} (hc : c.isDigit = false) (number : Nat) :
    c ∉ (toString number).toList := by
  intro hmem
  rw [isDigit_of_mem_toString hmem] at hc
  cases hc

/-! ## Texts that are lines -/

theorem endsIn_moduleHeader (package : String) :
    EndsIn ["\n"] (Fragment.moduleHeader package) :=
  EndsIn.append ⟨"\n", by decide, by decide⟩ _

theorem endsIn_importLines (definitions : List Definition) :
    EndsIn ["\n"] (importLines definitions) :=
  EndsIn.append ⟨"\n", by decide, by decide⟩ _

/-- The text stands on a line of its own. -/
abbrev OnNewLine (text : String) : Prop := StartsIn ["\n"] text

/-- Every statement of a block starts with a new line. -/
theorem onNewLine_newLine : OnNewLine Fragment.newLine := ⟨"\n", by decide, by decide⟩

theorem onNewLine_blockClosing : OnNewLine Fragment.blockClosing := ⟨"\n", by decide, by decide⟩

theorem onNewLine_routineGap : OnNewLine Fragment.routineGap := ⟨"\n", by decide, by decide⟩

theorem onNewLine_fieldOpening (visibility : Visibility) (field : String) :
    OnNewLine (Fragment.fieldOpening visibility field) := by
  iterate 4 refine StartsIn.append ?_ _
  exact ⟨"\n", by decide, List.prefix_rfl⟩

theorem onNewLine_includesStatement (references : List ModuleRef) :
    OnNewLine (includesStatement references) := by
  iterate 3 refine StartsIn.append ?_ _
  exact onNewLine_newLine

theorem onNewLine_instanceStatement (path : String) :
    OnNewLine (Fragment.instanceStatement path) := by
  iterate 5 refine StartsIn.append ?_ _
  exact onNewLine_newLine

theorem startsIn_opening (scope : Scope) : StartsIn ["\n\t"] scope.opening := by
  cases scope with
  | type name =>
      iterate 3 refine StartsIn.append ?_ _
      exact ⟨"\n\t", by decide, by decide⟩
  | named name =>
      iterate 5 refine StartsIn.append ?_ _
      exact ⟨"\n\t", by decide, by decide⟩

/-- The field stands on a line of its own too, which it starts with its visibility. -/
theorem startsIn_fieldOpening (visibility : Visibility) (field : String) :
    StartsIn ["\np", "\ni"] (Fragment.fieldOpening visibility field) := by
  iterate 3 refine StartsIn.append ?_ _
  cases visibility with
  | exported => exact ⟨"\np", by decide, by decide⟩
  | internal => exact ⟨"\ni", by decide, by decide⟩
  | fileLocal => exact ⟨"\np", by decide, by decide⟩

/-- So does the accessor. -/
theorem startsIn_accessor (visibility : Visibility) (path field : String) :
    StartsIn ["\np", "\ni"] (Fragment.accessor visibility path field) := by
  iterate 6 refine StartsIn.append ?_ _
  cases visibility with
  | exported => exact ⟨"\np", by decide, by decide⟩
  | internal => exact ⟨"\ni", by decide, by decide⟩
  | fileLocal => exact ⟨"\np", by decide, by decide⟩

/-! ## Texts that are no calls -/

/-- The endings of all texts but calls and accessors. A call ends in an empty pair of
parentheses or behind the name of the module instance. -/
def foreignEndings : List String := ["\n", "\x7b", "\x7d", "s)", "))", "le)"]

/-- The text ends as no call does. -/
abbrev EndsForeign (text : String) : Prop := EndsIn foreignEndings text

theorem endsForeign_blockClosing : EndsForeign Fragment.blockClosing :=
  ⟨"\x7d", by decide, by decide⟩

theorem endsForeign_scopeClosing : EndsForeign Fragment.scopeClosing :=
  ⟨"\x7d", by decide, by decide⟩

theorem endsForeign_routineGap : EndsForeign Fragment.routineGap :=
  ⟨"\n", by decide, by decide⟩

theorem endsIn_fieldOpening (visibility : Visibility) (field : String) :
    EndsIn ["\x7b"] (Fragment.fieldOpening visibility field) :=
  EndsIn.append ⟨"\x7b", by decide, by decide⟩ _

theorem endsForeign_opening (scope : Scope) : EndsForeign scope.opening := by
  cases scope with
  | type name => exact EndsIn.append ⟨"\x7b", by decide, by decide⟩ _
  | named name => exact EndsIn.append ⟨"\x7b", by decide, by decide⟩ _

theorem endsIn_includesStatement {references : List ModuleRef} (hne : references ≠ []) :
    EndsIn ["le)"] (includesStatement references) := by
  have hlast : EndsIn [".module"] (", ".intercalate (references.map ModuleRef.accessor)) := by
    apply endsIn_intercalate (by simpa using hne)
    intro text htext
    obtain ⟨reference, _, rfl⟩ := List.mem_map.mp htext
    exact EndsIn.append ⟨".module", by decide, by decide⟩ _
  have hclosed : (".module" ++ ")").toList <:+ (includesStatement references).toList := by
    unfold includesStatement
    rw [String.toList_append, String.toList_append, List.suffix_append_self_iff]
    exact endsIn_singleton.mp (hlast.append _)
  have hending : "le)".toList <:+ (".module" ++ ")").toList := by decide
  exact ⟨"le)", by decide, hending.trans hclosed⟩

/-! ## Registrations -/

/-- The endings of statements. -/
def statementEndings : List String := ["\x7d", "s)", "))"]

theorem Definition.endsIn_bindingText {definition : Definition} (front : String) :
    EndsIn statementEndings (front ++ ") \x7d" ++ definition.bindingText) := by
  unfold bindingText
  split
  · rw [String.append_empty]
    exact EndsIn.append ⟨"\x7d", by decide, by decide⟩ _
  · refine EndsIn.append (EndsIn.append ⟨"s)", by decide, by decide⟩ _) _
  · refine EndsIn.append (EndsIn.append ⟨"))", by decide, by decide⟩ _) _

theorem Definition.statement?_affixes {definition : Definition} {place : Place} {text : String}
    (h : definition.statement? place = some text) :
    StartsIn ["\n\t"] text ∧ EndsIn statementEndings text := by
  obtain ⟨target, _, rfl⟩ := exists_target_of_statement? h
  refine ⟨?_, endsIn_bindingText _⟩
  simp only [String.append_assoc]
  exact StartsIn.append ⟨"\n\t", by decide, by decide⟩ _

/-- What registers something is indented, and no call. -/
theorem EmissionUnit.texts_affixes {place : Place} {unit : EmissionUnit} {text : String}
    (htext : text ∈ unit.texts place) : StartsIn ["\n\t"] text ∧ EndsForeign text := by
  have hstatement : ∀ definition : Definition, definition.statement? place = some text →
      StartsIn ["\n\t"] text ∧ EndsForeign text := by
    intro definition hstatement
    obtain ⟨hstart, hend⟩ := Definition.statement?_affixes hstatement
    exact ⟨hstart, hend.mono (by decide)⟩
  cases unit with
  | single definition => exact hstatement definition (Option.mem_toList.mp htext)
  | group block =>
      rcases List.mem_append.mp htext with htext | htext
      · rcases List.mem_cons.mp htext with rfl | htext
        · exact ⟨startsIn_opening _, endsForeign_opening _⟩
        · obtain ⟨definition, _, htext⟩ := List.mem_filterMap.mp htext
          exact hstatement definition htext
      · obtain rfl := List.mem_singleton.mp htext
        exact ⟨⟨"\n\t", by decide, by decide⟩, endsForeign_scopeClosing⟩

end Wiring
