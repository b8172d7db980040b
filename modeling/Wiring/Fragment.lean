import Wiring.Model

/-!
# Fixed fragments of generated sources

The generators only put these texts together; none of them depends on more than
the few names it shows. A text of the metadata stands between double quotes, where the
escapes end neither the literal nor the line and start no template.
-/

namespace Wiring.Text

/-! ## String literals -/

/-- How one character is written inside a literal. -/
def escapeChar (c : Char) : List Char :=
  match c with
  | '\\' => ['\\', '\\']
  | '"' => ['\\', '"']
  | '$' => ['\\', '$']
  | '\n' => ['\\', 'n']
  | '\r' => ['\\', 'r']
  | '\t' => ['\\', 't']
  | c => [c]

/-- An escape is a backslash with a mark behind it, and no mark breaks the line. -/
theorem escapeChar_cases (c : Char) :
    (∃ mark, escapeChar c = ['\\', mark] ∧ mark ∉ ['\n', '\r', '\t']) ∨
      escapeChar c = [c] ∧ c ∉ ['\\', '"', '$', '\n', '\r', '\t'] := by
  unfold escapeChar
  split
  case h_7 => exact .inr ⟨rfl, by simp_all⟩
  all_goals exact .inl ⟨_, rfl, by decide⟩

/-- The characters of the literal that denotes `chars`. -/
def literalChars (chars : List Char) : List Char :=
  '"' :: (chars.flatMap escapeChar ++ ['"'])

/-- The literal that denotes `text`. -/
def literal (text : String) : String :=
  String.ofList (literalChars text.toList)

end Wiring.Text

namespace Wiring.Fragment

/-- What every statement of a block starts with. -/
def newLine : String := "\n\t\t\t\t"

/-- Closes a builder block or a routine. -/
def blockClosing : String := "\n\x7d"

/-- Closes a scope block. -/
def scopeClosing : String := "\n\t\t\t\t\x7d"

/-- The local name of the module instance. -/
def instanceName : String := "moduleInstance"

/-- The type of accessors. -/
def moduleType : String := "org.koin.core.module.Module"

/-- The constructor of string qualifiers. -/
def qualifierType : String := "org.koin.core.qualifier.StringQualifier"

/-- The function that names a scope by a string. -/
def namedFunction : String := "org.koin.core.qualifier.named"

/-- What separates a routine from the text before it. -/
def routineGap : String := "\n\n"

/-- The imports of every unit. -/
def commonImports : String :=
  "import org.koin.core.module.Module\nimport org.koin.dsl.*\n"

/-- The package and the fixed imports of a module unit. -/
def moduleHeader (package : String) : String :=
  "package " ++ package ++ "\n\n" ++ commonImports

/-- The package and the fixed imports of the default unit. -/
def defaultHeader (package : String) : String :=
  "package " ++ package ++ "\n\nimport org.koin.core.KoinApplication\n" ++ commonImports

/-- The function and the field that open the builder of the default unit. -/
def defaultOpening : String :=
  "public fun KoinApplication.defaultModule(): KoinApplication = modules(defaultModule)\n" ++
    "public val defaultModule : Module = module \x7b"

/-- The modifier of a visibility, with the space behind it. -/
def modifier : Visibility → String
  | .exported => "public "
  | .internal => "internal "
  | .fileLocal => "private "

/-- The field that opens the builder of a module. -/
def fieldOpening (visibility : Visibility) (field : String) : String :=
  "\n" ++ modifier visibility ++ "val " ++ field ++ " : Module = module \x7b"

/-- The statement that makes the module instance. -/
def instanceStatement (path : String) : String :=
  newLine ++ "val " ++ instanceName ++ " = " ++ path ++ "()"

/-- The name of a routine. -/
def routineName (field : String) (index : Nat) : String := field ++ toString index

/-- The call of a routine; it hands the module instance over where there is one. -/
def routineCall (field : String) (index : Nat) (instanceType : Option String) : String :=
  newLine ++ routineName field index ++ "(" ++
    (if instanceType.isSome then instanceName else "") ++ ")"

/-- The signature that opens a routine; it takes the module instance where there
is one. -/
def routineHeader (visibility : Visibility) (field : String) (index : Nat)
    (instanceType : Option String) : String :=
  let parameter :=
    match instanceType with
    | some type => instanceName ++ ": " ++ type
    | none => ""
  modifier visibility ++ "fun Module." ++ routineName field index ++ "(" ++ parameter ++ ")\x7b"

/-- The accessor behind the routines of a module. -/
def accessor (visibility : Visibility) (path field : String) : String :=
  "\n" ++ modifier visibility ++ "val " ++ path ++ ".module : " ++ moduleType ++
    " get() = " ++ field

end Wiring.Fragment
