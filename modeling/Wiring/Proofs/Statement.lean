import Wiring.Proofs.Draft
import Wiring.Proofs.Text.Delimited

/-!
# What a statement tells about its definition

Options and arguments are put together with the same commas and parentheses that arbitrary
qualifiers and property keys may hold. Each of them still tells where it ends: a call is told
by its name up to the first parenthesis, and what it quotes is a literal. A statement
therefore determines the options and the parameters it was made from, although what it calls
may look like anything.
-/

namespace Wiring

/-! ## Arguments -/

theorem selfDelimiting_qualifierArgument : SelfDelimiting qualifierArgument :=
  Text.selfDelimiting_literal.enclose ("qualifier=" ++ Fragment.qualifierType ++ "(") ")"

/-- A qualifier that is left out is told by the parenthesis that is closed at once. -/
theorem optionalQualifier_append {first second : Option String} {rest others : List Char}
    (h : ((first.map qualifierArgument).getD "").toList ++ ')' :: rest =
      ((second.map qualifierArgument).getD "").toList ++ ')' :: others) :
    first = second ∧ rest = others := by
  have hstart : ∀ (qualifier : String) (rest others : List Char),
      (qualifierArgument qualifier).toList ++ rest ≠ ')' :: others := by
    simp [qualifierArgument]
  cases first with
  | none =>
      cases second with
      | none => exact ⟨rfl, (List.cons.inj h).2⟩
      | some other => exact absurd h.symm (hstart other _ _)
  | some qualifier =>
      cases second with
      | none => exact absurd h (hstart qualifier _ _)
      | some other =>
          obtain ⟨rfl, hrest⟩ := selfDelimiting_qualifierArgument h
          exact ⟨rfl, (List.cons.inj hrest).2⟩

namespace Parameter

/-- The function that looks the argument up. -/
def callName : Parameter → String
  | dependency _ false false => "get"
  | dependency _ true false => "getOrNull"
  | dependency _ false true => "inject"
  | dependency _ true true => "injectOrNull"
  | injected false => "params.get"
  | injected true => "params.getOrNull"
  | property _ false => "getProperty"
  | property _ true => "getPropertyOrNull"
  | all => "getAll"

/-- What is handed to that function. -/
def callArgument : Parameter → String
  | dependency qualifier _ _ => (qualifier.map qualifierArgument).getD ""
  | property key _ => Text.literal key
  | injected _ | all => ""

theorem argument_eq (parameter : Parameter) :
    parameter.argument = parameter.callName ++ "(" ++ parameter.callArgument ++ ")" := by
  cases parameter with
  | dependency qualifier isNullable isLazy => cases isNullable <;> cases isLazy <;> rfl
  | injected isNullable => cases isNullable <;> rfl
  | property key isNullable => cases isNullable <;> rfl
  | all => rfl

theorem not_mem_callName (parameter : Parameter) : '(' ∉ parameter.callName.toList := by
  unfold callName
  split <;> decide

/-- What is not quoted of a parameter. -/
def shape : Parameter → Parameter
  | dependency _ isNullable isLazy => dependency none isNullable isLazy
  | property _ isNullable => property "" isNullable
  | injected isNullable => injected isNullable
  | all => all

/-- The name of the function tells all that is not handed to it. -/
theorem shape_eq_of_callName_eq {first second : Parameter}
    (h : first.callName = second.callName) : first.shape = second.shape := by
  unfold callName at h
  split at h <;> split at h <;> first | rfl | simp at h

/-- An argument ends where its parentheses are closed. -/
theorem selfDelimiting_argument : SelfDelimiting argument := by
  intro first second rest others heq
  have hcalls : ∀ (parameter : Parameter) (rest : List Char), parameter.argument.toList ++ rest =
      parameter.callName.toList ++ '(' :: (parameter.callArgument.toList ++ ')' :: rest) := by
    intro parameter rest
    simp [argument_eq]
  rw [hcalls, hcalls] at heq
  obtain ⟨hname, hcall⟩ :=
    append_cons_inj_of_not_mem first.not_mem_callName second.not_mem_callName heq
  have hname : first.callName = second.callName := String.toList_injective hname
  have hshape := shape_eq_of_callName_eq hname
  cases first with
  | dependency qualifier isNullable isLazy =>
      cases second <;> simp only [shape, dependency.injEq, reduceCtorEq] at hshape
      obtain ⟨-, rfl, rfl⟩ := hshape
      obtain ⟨rfl, hrest⟩ := optionalQualifier_append hcall
      exact ⟨rfl, hrest⟩
  | injected isNullable =>
      cases second <;> simp only [shape, injected.injEq, reduceCtorEq] at hshape
      subst hshape
      exact ⟨rfl, (List.cons.inj hcall).2⟩
  | property key isNullable =>
      cases second <;> simp only [shape, property.injEq, reduceCtorEq] at hshape
      obtain ⟨-, rfl⟩ := hshape
      obtain ⟨rfl, hrest⟩ := Text.selfDelimiting_literal hcall
      exact ⟨rfl, (List.cons.inj hrest).2⟩
  | all =>
      cases second <;> simp only [shape, reduceCtorEq] at hshape
      exact ⟨rfl, (List.cons.inj hcall).2⟩

theorem argument_ne_empty (parameter : Parameter) : parameter.argument ≠ "" := by
  rw [argument_eq]
  simp [String.append_eq_empty_iff]

end Parameter

/-! ## Options -/

namespace Definition

/-- The flag that asks for an instance at once, with what separates it from a qualifier. -/
def flagText (separator : String) (isEager : Bool) : String :=
  if isEager then separator ++ "createdAtStart=true" else ""

theorem flagText_append {separator : String} {isEager other : Bool} {rest others : List Char}
    (hseparator : separator = "" ∨ separator = ",")
    (h : (flagText separator isEager).toList ++ ')' :: rest =
      (flagText separator other).toList ++ ')' :: others) :
    isEager = other ∧ rest = others := by
  rcases hseparator with rfl | rfl <;> cases isEager <;> cases other <;> simp [flagText] at h ⊢ <;>
    exact h

/-- The options, without a list. -/
theorem options_eq (definition : Definition) :
    definition.options =
      match definition.qualifier with
      | none => flagText "" definition.isEager
      | some qualifier => qualifierArgument qualifier ++ flagText "," definition.isEager := by
  unfold options
  cases definition.qualifier with
  | none => cases definition.isEager <;> simp [flagText]
  | some qualifier =>
      cases definition.isEager <;>
        simp [flagText, String.intercalate_cons_of_ne_nil, String.append_assoc]

/-- The options end where their parenthesis is closed. -/
theorem options_append {first second : Definition} {rest others : List Char}
    (h : first.options.toList ++ ')' :: rest = second.options.toList ++ ')' :: others) :
    (first.qualifier = second.qualifier ∧ first.isEager = second.isEager) ∧ rest = others := by
  have hstart : ∀ (qualifier : String) (isEager : Bool) (rest others : List Char),
      (qualifierArgument qualifier).toList ++ rest ≠
        (flagText "" isEager).toList ++ ')' :: others := by
    intro qualifier isEager rest others
    cases isEager <;> simp [flagText, qualifierArgument]
  rw [options_eq, options_eq] at h
  cases hqualifier : first.qualifier with
  | none =>
      cases hother : second.qualifier with
      | none =>
          simp only [hqualifier, hother] at h
          obtain ⟨hflag, hrest⟩ := flagText_append (.inl rfl) h
          exact ⟨⟨rfl, hflag⟩, hrest⟩
      | some other =>
          simp only [hqualifier, hother, String.toList_append, List.append_assoc] at h
          exact absurd h.symm (hstart other _ _ _)
  | some qualifier =>
      cases hother : second.qualifier with
      | none =>
          simp only [hqualifier, hother, String.toList_append, List.append_assoc] at h
          exact absurd h (hstart qualifier _ _ _)
      | some other =>
          simp only [hqualifier, hother, String.toList_append, List.append_assoc] at h
          obtain ⟨rfl, hmore⟩ := selfDelimiting_qualifierArgument h
          obtain ⟨hflag, hrest⟩ := flagText_append (.inr rfl) hmore
          exact ⟨⟨rfl, hflag⟩, hrest⟩

/-! ## Statements -/

variable {first second : Definition} {place : Place} {target text other : String}

theorem arguments_eq_iff :
    first.arguments = second.arguments ↔ first.parameters = second.parameters := by
  constructor
  · intro h
    exact Parameter.selfDelimiting_argument.intercalate_injective Parameter.argument_ne_empty "," h
  · intro h
    rw [arguments, arguments, h]

theorem any_isInjected_iff : first.parameters.any Parameter.isInjected = true ↔
    ∃ isNullable, Parameter.injected isNullable ∈ first.parameters := by
  rw [List.any_eq_true]
  constructor
  · rintro ⟨parameter, hmem, hinjected⟩
    cases parameter with
    | injected isNullable => exact ⟨isNullable, hmem⟩
    | _ => cases hinjected
  · rintro ⟨isNullable, hmem⟩
    exact ⟨_, hmem, rfl⟩

theorem receiver_eq_or (definition : Definition) :
    definition.receiver = "params -> " ∨ definition.receiver = "" := by
  unfold receiver
  split
  · exact .inl rfl
  · exact .inr rfl

/-- The receiver is no part of what is called, whatever that looks like. -/
theorem receiver_append {rest others : List Char}
    (h : first.receiver.toList ++ (target.toList ++ '(' :: rest) =
      second.receiver.toList ++ (target.toList ++ '(' :: others)) : rest = others := by
  have hmarker : ∀ rest others : List Char, "params -> ".toList ++ (target.toList ++ '(' :: rest) ≠
      "".toList ++ (target.toList ++ '(' :: others) := fun rest others =>
    append_append_cons_ne (by decide) (by decide)
  rcases first.receiver_eq_or with hfirst | hfirst <;>
    rcases second.receiver_eq_or with hsecond | hsecond <;> rw [hfirst, hsecond] at h
  · simpa using h
  · exact absurd h (hmarker _ _)
  · exact absurd h.symm (hmarker _ _)
  · simpa using h

/-- What comes in front of the receiver. -/
def head (definition : Definition) : String :=
  Fragment.newLine ++ definition.keyword.name ++ "(" ++ definition.options ++ ") \x7b "

theorem exists_target_of_statement (h : first.statement place = .ok text) :
    ∃ target, first.provider.target first.package place = .ok target ∧
      text = first.head ++ first.receiver ++ target ++ "(" ++ first.arguments ++ ") \x7d" ++
        first.bindingText :=
  exists_target_of_statement? (by rw [statement?, h]; rfl)

/-- Where two definitions register the same provider by the same keyword and bind it to the
same types, their statements are the same exactly if their options and parameters are. No two
lists of parameters have the same arguments, and the receiver stands in front of what is
called exactly if the caller hands something over. -/
theorem statement_determines_options_and_parameters
    (hprovider : first.provider = second.provider) (hpackage : first.package = second.package)
    (hkeyword : first.keyword.name = second.keyword.name)
    (hbindings : first.bindings = second.bindings)
    (hfirst : first.statement place = .ok text) (hsecond : second.statement place = .ok other) :
    (text = other ↔ first.qualifier = second.qualifier ∧ first.isEager = second.isEager ∧
        first.parameters = second.parameters) ∧
      (first.arguments = second.arguments ↔ first.parameters = second.parameters) ∧
      ∃ target, first.provider.target first.package place = .ok target ∧
        ((first.head ++ "params -> " ++ target ++ "(").toList <+: text.toList ↔
          ∃ isNullable, Parameter.injected isNullable ∈ first.parameters) := by
  obtain ⟨target, htarget, rfl⟩ := exists_target_of_statement hfirst
  obtain ⟨same, hsame, rfl⟩ := exists_target_of_statement hsecond
  obtain rfl : target = same := by
    rw [hprovider, hpackage, hsame] at htarget
    exact (Except.ok.inj htarget).symm
  have hbinding : first.bindingText = second.bindingText := by
    rw [bindingText, bindingText, hbindings]
  refine ⟨⟨fun h => ?_, ?_⟩, arguments_eq_iff, target, htarget, ?_⟩
  · have hchars := congrArg String.toList h
    simp only [head, hkeyword, hbinding, String.toList_append, List.append_assoc,
      List.append_cancel_left_eq] at hchars
    obtain ⟨⟨hqualifier, hisEager⟩, hblock⟩ := options_append hchars
    have hcall : first.arguments.toList ++ (") \x7d".toList ++ second.bindingText.toList) =
        second.arguments.toList ++ (") \x7d".toList ++ second.bindingText.toList) :=
      receiver_append (List.append_cancel_left hblock)
    have harguments := String.toList_injective (List.append_cancel_right hcall)
    exact ⟨hqualifier, hisEager, arguments_eq_iff.mp harguments⟩
  · rintro ⟨hqualifier, hisEager, hparameters⟩
    have hoptions : first.options = second.options := by
      rw [options_eq, options_eq, hqualifier, hisEager]
    have hreceiver : first.receiver = second.receiver := by rw [receiver, receiver, hparameters]
    rw [head, head, hkeyword, hoptions, hreceiver, arguments_eq_iff.mpr hparameters, hbinding]
  · rw [← any_isInjected_iff]
    constructor
    · rintro ⟨rest, hrest⟩
      by_contra hnone
      have hreceiver : first.receiver = "" := if_neg hnone
      simp only [hreceiver, String.toList_append, List.append_assoc,
        List.append_cancel_left_eq] at hrest
      exact append_append_cons_ne (by decide) (by decide) hrest
    · intro hsome
      have hreceiver : first.receiver = "params -> " := if_pos hsome
      refine ⟨(first.arguments ++ ") \x7d" ++ first.bindingText).toList, ?_⟩
      rw [hreceiver]
      simp only [String.toList_append, List.append_assoc]

/-- The qualifier looks like the end of its literal, a key like one more argument, and what is
called like a receiver. -/
theorem statement_determines_options_and_parameters_of_lookalikes :
    let first : Definition :=
      { provider := .type "params -> Clock", keyword := { name := "single" }
        qualifier := some "\"),createdAtStart=true", parameters := [.property "a\"),getAll(" false] }
    let second : Definition := { first with parameters := [.property "a" false, .all] }
    let text := "\n\t\t\t\tsingle(qualifier=org.koin.core.qualifier.StringQualifier(" ++
      "\"\\\"),createdAtStart=true\")) \x7b params -> Clock(getProperty(\"a\\\"),getAll(\")) \x7d"
    let other := "\n\t\t\t\tsingle(qualifier=org.koin.core.qualifier.StringQualifier(" ++
      "\"\\\"),createdAtStart=true\")) \x7b params -> Clock(getProperty(\"a\"),getAll()) \x7d"
    first.statement .defaultModule = .ok text ∧ second.statement .defaultModule = .ok other ∧
      text ≠ other ∧ first.arguments ≠ second.arguments := by
  intro first second text other
  have hfirst : first.statement .defaultModule = .ok text := by decide +kernel
  have hsecond : second.statement .defaultModule = .ok other := by decide +kernel
  have hparameters : first.parameters ≠ second.parameters := by decide
  have hprovider : first.provider = second.provider := rfl
  obtain ⟨htexts, harguments, -⟩ :=
    statement_determines_options_and_parameters hprovider rfl rfl rfl hfirst hsecond
  exact ⟨hfirst, hsecond, fun h => hparameters (htexts.mp h).2.2,
    fun h => hparameters (harguments.mp h)⟩

end Definition

end Wiring
