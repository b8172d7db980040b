import Wiring.Proofs.Text.Escaping

/-!
# Scanning nested text

A scanner reads generated text once from left to right. It passes over string
literals and, outside of them, expects every brace and parenthesis to be closed in
the reverse order of their opening. What a text does to the brackets still open does
not depend on the brackets around it, so texts can be scanned piece by piece.
-/

namespace Wiring

/-- Where a scanner stands. -/
inductive ScanMode where
  /-- Outside of string literals. -/
  | code
  /-- Inside a string literal of which this much was read. -/
  | literal (read : List Char)
  /-- Behind a backslash inside a string literal. -/
  | escaped (read : List Char)
deriving DecidableEq, Repr

/-- A scanner in the middle of a text. -/
structure Scanner where
  mode : ScanMode
  /-- What closes the open brackets, the innermost one first. -/
  due : List Char
  /-- The string literals passed over, in order. -/
  literals : List String
deriving DecidableEq, Repr

namespace Scanner

/-- A character that ends a line. -/
def isLineBreak (c : Char) : Bool := c == '\n' || c == '\r'

/-- What is due behind a character outside of literals. A bracket that closes must be
the one that is due. -/
def dueBehind (c : Char) (due : List Char) : Option (List Char) :=
  if c = '(' then some (')' :: due)
  else if c = '\x7b' then some ('\x7d' :: due)
  else if c = ')' ∨ c = '\x7d' then
    match due with
    | closer :: due => if c = closer then some due else none
    | [] => none
  else some due

/-- Reads one character. No literal goes beyond the end of its line. -/
def step (scanner : Scanner) (c : Char) : Option Scanner :=
  match scanner.mode with
  | .code =>
      if c = '"' then some { scanner with mode := .literal [c] }
      else (dueBehind c scanner.due).map fun due => { scanner with due }
  | .literal read =>
      if isLineBreak c then none
      else if c = '"' then
        some { scanner with
          mode := .code, literals := scanner.literals ++ [String.ofList (read ++ [c])] }
      else if c = '\\' then some { scanner with mode := .escaped (read ++ [c]) }
      else some { scanner with mode := .literal (read ++ [c]) }
  | .escaped read =>
      if isLineBreak c then none else some { scanner with mode := .literal (read ++ [c]) }

/-- Reads characters from left to right. -/
def run (scanner : Scanner) (chars : List Char) : Option Scanner := chars.foldlM step scanner

theorem run_append (scanner : Scanner) (first second : List Char) :
    scanner.run (first ++ second) = (scanner.run first).bind (run · second) :=
  List.foldlM_append

theorem run_cons (scanner : Scanner) (c : Char) (chars : List Char) :
    scanner.run (c :: chars) = (scanner.step c).bind (run · chars) := rfl

/-! ## Texts inside others -/

/-- The scanner inside a text that has left `due` open and passed over `literals`. -/
def within (scanner : Scanner) (due : List Char) (literals : List String) : Scanner :=
  { scanner with due := scanner.due ++ due, literals := literals ++ scanner.literals }

theorem dueBehind_append {c : Char} {due left : List Char} (h : dueBehind c due = some left)
    (outer : List Char) : dueBehind c (due ++ outer) = some (left ++ outer) := by
  unfold dueBehind at h ⊢
  split_ifs at h ⊢ with hopen hopen' hclose
  · cases h
    rfl
  · cases h
    rfl
  · cases due with
    | nil => cases h
    | cons closer due =>
        -- the bracket that is due was opened inside
        simp only [List.cons_append] at h ⊢
        split_ifs at h ⊢
        cases h
        rfl
  · cases h
    rfl

theorem step_within {scanner next : Scanner} {c : Char} (h : scanner.step c = some next)
    (due : List Char) (literals : List String) :
    (scanner.within due literals).step c = some (next.within due literals) := by
  obtain ⟨mode, inner, passed⟩ := scanner
  cases mode with
  | code =>
      simp only [step, within] at h ⊢
      split_ifs at h ⊢
      · cases h
        rfl
      · obtain ⟨left, hleft, rfl⟩ := Option.map_eq_some_iff.mp h
        rw [dueBehind_append hleft]
        rfl
  | literal read =>
      simp only [step, within] at h ⊢
      split_ifs at h ⊢
      · cases h
        rw [List.append_assoc]
      · cases h
        rfl
      · cases h
        rfl
  | escaped read =>
      simp only [step, within] at h ⊢
      split_ifs at h ⊢
      cases h
      rfl

theorem run_within {scanner next : Scanner} {chars : List Char}
    (h : scanner.run chars = some next) (due : List Char) (literals : List String) :
    (scanner.within due literals).run chars = some (next.within due literals) := by
  induction chars generalizing scanner with
  | nil =>
      cases h
      rfl
  | cons c chars ih =>
      obtain ⟨middle, hstep, hrest⟩ := Option.bind_eq_some_iff.mp h
      rw [run_cons, step_within hstep, Option.bind_some]
      exact ih hrest

end Scanner

/-- The literals of a text, in order, if all its brackets are closed in the order in
which they must be and all its literals end on the line where they begin. -/
def scanLiterals (text : String) : Option (List String) :=
  match Scanner.run ⟨.code, [], []⟩ text.toList with
  | some ⟨.code, [], literals⟩ => some literals
  | _ => none

example : scanLiterals "f(\"a)\") \x7b get(\"\\\"\x7b\") \x7d" =
    some ["\"a)\"", "\"\\\"\x7b\""] := by
  decide

example : scanLiterals "f( \x7b ) \x7d" = none ∧ scanLiterals "\"a\n\"" = none := by decide

/-! ## What texts do to open brackets -/

/-- Where `due` closes the brackets that are open in front of the text, `left` closes
those that are open behind it, and these literals stand in between. -/
def Takes (due : List Char) (text : String) (left : List Char) (literals : List String) : Prop :=
  Scanner.run ⟨.code, due, []⟩ text.toList = some ⟨.code, left, literals⟩

instance (due : List Char) (text : String) (left : List Char) (literals : List String) :
    Decidable (Takes due text left literals) :=
  inferInstanceAs (Decidable (_ = _))

theorem scanLiterals_of_takes {text : String} {literals : List String}
    (h : Takes [] text [] literals) : scanLiterals text = some literals := by
  unfold scanLiterals
  rw [h]

namespace Takes

variable {due middle left : List Char} {first second text : String}
  {literals others : List String}

/-- A text may stand inside more brackets. -/
theorem inside (h : Takes due text left literals) (outer : List Char) :
    Takes (due ++ outer) text (left ++ outer) literals :=
  Scanner.run_within h outer []

/-- A text that closes what it opens may stand anywhere. -/
theorem anywhere (h : Takes [] text [] literals) : Takes due text due literals :=
  h.inside due

theorem empty : Takes due "" due [] := rfl

theorem opening : Takes due "(" (')' :: due) [] :=
  (show Takes [] "(" [')'] [] from rfl).inside due

theorem closing : Takes (')' :: due) ")" due [] :=
  (show Takes [')'] ")" [] [] from rfl).inside due

theorem append (hfirst : Takes due first middle literals)
    (hsecond : Takes middle second left others) :
    Takes due (first ++ second) left (literals ++ others) := by
  have hrest := Scanner.run_within hsecond [] literals
  simp only [Scanner.within, List.append_nil] at hrest
  unfold Takes
  rw [String.toList_append, Scanner.run_append, hfirst, Option.bind_some, hrest]

/-- A text without literals adds none. -/
theorem append_silent (hfirst : Takes due first middle literals)
    (hsecond : Takes middle second left []) : Takes due (first ++ second) left literals := by
  simpa only [List.append_nil] using hfirst.append hsecond

/-- Texts with a separator between them, each of which closes what it opens. -/
theorem intercalate {α : Type} {separator : String} (hseparator : Takes due separator due [])
    {items : List α} {textOf : α → String} {literalsOf : α → List String}
    (hitems : ∀ item ∈ items, Takes due (textOf item) due (literalsOf item)) :
    Takes due (separator.intercalate (items.map textOf)) due (items.flatMap literalsOf) := by
  induction items with
  | nil => exact empty
  | cons item items ih =>
      obtain ⟨hitem, hrest⟩ := List.forall_mem_cons.mp hitems
      rw [List.flatMap_cons]
      by_cases hlast : items = []
      · subst hlast
        simpa using hitem
      · rw [List.map_cons, String.intercalate_cons_of_ne_nil (by simpa using hlast)]
        exact (hitem.append_silent hseparator).append (ih hrest)

theorem intercalate_silent {separator : String} (hseparator : Takes due separator due [])
    {texts : List String} (htexts : ∀ text ∈ texts, Takes due text due []) :
    Takes due (separator.intercalate texts) due [] := by
  have hall := intercalate hseparator htexts
  rwa [List.map_id', List.flatMap_eq_nil_iff.mpr fun _ _ => rfl] at hall

theorem join_nil : Takes due (String.join []) due [] := rfl

theorem join_cons {texts : List String} (htext : Takes due text middle literals)
    (htexts : Takes middle (String.join texts) left others) :
    Takes due (String.join (text :: texts)) left (literals ++ others) := by
  rw [String.join_cons]
  exact htext.append htexts

theorem join_append {texts rest : List String}
    (htexts : Takes due (String.join texts) middle literals)
    (hrest : Takes middle (String.join rest) left others) :
    Takes due (String.join (texts ++ rest)) left (literals ++ others) := by
  rw [String.join_append]
  exact htexts.append hrest

/-- Texts one behind the other, each of which closes what it opens. -/
theorem join {α : Type} {items : List α} {textsOf : α → List String}
    {literalsOf : α → List String}
    (hitems : ∀ item ∈ items, Takes due (String.join (textsOf item)) due (literalsOf item)) :
    Takes due (String.join (items.flatMap textsOf)) due (items.flatMap literalsOf) := by
  induction items with
  | nil => exact join_nil
  | cons item items ih =>
      obtain ⟨hitem, hrest⟩ := List.forall_mem_cons.mp hitems
      exact hitem.join_append (ih hrest)

theorem join_silent {texts : List String} (htexts : ∀ text ∈ texts, Takes due text due []) :
    Takes due (String.join texts) due [] := by
  induction texts with
  | nil => exact join_nil
  | cons text texts ih =>
      obtain ⟨htext, hrest⟩ := List.forall_mem_cons.mp htexts
      exact htext.join_cons (ih hrest)

end Takes

/-! ## Plain texts -/

/-- The text holds no brace, parenthesis or double quote. -/
def IsPlainText (text : String) : Prop := ∀ c ∈ text.toList, c ∉ ['\x7b', '\x7d', '(', ')', '"']

instance (text : String) : Decidable (IsPlainText text) :=
  List.decidableBAll (· ∉ ['\x7b', '\x7d', '(', ')', '"']) text.toList

namespace IsPlainText

variable {first second text : String}

theorem append (hfirst : IsPlainText first) (hsecond : IsPlainText second) :
    IsPlainText (first ++ second) := by
  unfold IsPlainText
  rw [String.toList_append]
  exact List.forall_mem_append.mpr ⟨hfirst, hsecond⟩

theorem takes (h : IsPlainText text) {due : List Char} : Takes due text due [] := by
  have hrun : ∀ chars : List Char, (∀ c ∈ chars, c ∉ ['\x7b', '\x7d', '(', ')', '"']) →
      Scanner.run ⟨.code, due, []⟩ chars = some ⟨.code, due, []⟩ := by
    intro chars
    induction chars with
    | nil =>
        intro _
        rfl
    | cons c chars ih =>
        intro hchars
        obtain ⟨hc, hrest⟩ := List.forall_mem_cons.mp hchars
        simp only [List.mem_cons, List.not_mem_nil, or_false, not_or] at hc
        have hstep : Scanner.step ⟨.code, due, []⟩ c = some ⟨.code, due, []⟩ := by
          simp [Scanner.step, Scanner.dueBehind, hc]
        rw [Scanner.run_cons, hstep, Option.bind_some]
        exact ih hrest
  exact hrun text.toList h

end IsPlainText

/-! ## Literals -/

/-- The escapes keep a scanner inside the literal, whatever they stand for. -/
theorem Scanner.run_escapeChar (read due : List Char) (c : Char) :
    Scanner.run ⟨.literal read, due, []⟩ (Text.escapeChar c) =
      some ⟨.literal (read ++ Text.escapeChar c), due, []⟩ := by
  rcases Text.escapeChar_cases c with ⟨mark, hescape, hmark⟩ | ⟨hescape, hplain⟩
  · simp only [List.mem_cons, List.not_mem_nil, or_false, not_or] at hmark
    simp [hescape, run, step, isLineBreak, hmark]
  · simp only [List.mem_cons, List.not_mem_nil, or_false, not_or] at hplain
    simp [hescape, run, step, isLineBreak, hplain]

theorem Scanner.run_flatMap_escapeChar (read due chars : List Char) :
    Scanner.run ⟨.literal read, due, []⟩ (chars.flatMap Text.escapeChar) =
      some ⟨.literal (read ++ chars.flatMap Text.escapeChar), due, []⟩ := by
  induction chars generalizing read with
  | nil => simp [run]
  | cons c chars ih =>
      rw [List.flatMap_cons, run_append, run_escapeChar, Option.bind_some, ih, List.append_assoc]

/-- A scanner passes over the literal of any text as a whole. -/
theorem takes_literal (text : String) {due : List Char} :
    Takes due (Text.literal text) due [Text.literal text] := by
  unfold Takes Text.literal Text.literalChars
  have hopen : Scanner.step ⟨.code, due, []⟩ '"' = some ⟨.literal ['"'], due, []⟩ := rfl
  rw [String.toList_ofList, Scanner.run_cons, hopen, Option.bind_some, Scanner.run_append,
    Scanner.run_flatMap_escapeChar]
  rfl

/-- No literal goes beyond its line. -/
theorem not_isLineBreak_of_mem_literal {text : String} {c : Char}
    (hc : c ∈ (Text.literal text).toList) : Scanner.isLineBreak c = false := by
  have hblank := Text.not_mem_of_mem_literal hc
  simp only [List.mem_cons, List.not_mem_nil, or_false, not_or] at hblank
  simp [Scanner.isLineBreak, hblank]

end Wiring
