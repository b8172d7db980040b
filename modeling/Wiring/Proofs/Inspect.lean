import Wiring.Inspect
import Wiring.Proofs.Affix
import Wiring.Proofs.Layout
import Wiring.Proofs.Text.Search

/-!
# What inspection finds in a source unit

Where a routine of a field begins is found by its signature, and where it is called by the
indentation of the call. Both are found in a source unit, and nothing else is taken for
them, as long as the other texts of the unit neither hold the beginning of a signature nor
start a line as calls do.
-/

namespace Wiring.Inspect

open Text (Avoids Clear IsLine onLines)

/-! ## Paths in a text -/

/-- A character of a path: of the names in it or between them. -/
def isPathChar (c : Char) : Bool := c.isAlphanum || c = '_' || c = '.'

/-- The text is made of characters of paths. -/
abbrev IsPath (text : String) : Prop := ∀ c ∈ text.toList, isPathChar c = true

/-- The path in front of the text ends within it, and not as the first word of a signature
does. -/
def StopsPath (text : String) : Prop :=
  let rest := text.toList.dropWhile isPathChar
  2 ≤ rest.length ∧ ¬[' ', 'M'] <+: rest

instance (text : String) : Decidable (StopsPath text) := by
  unfold StopsPath
  infer_instance

theorem isPath_of_all {text : String} (h : text.toList.all isPathChar = true) : IsPath text :=
  List.all_eq_true.mp h

theorem IsPath.append {first second : String} (hfirst : IsPath first) (hsecond : IsPath second) :
    IsPath (first ++ second) := by
  intro c hc
  rw [String.toList_append, List.mem_append] at hc
  exact hc.elim (hfirst c) (hsecond c)

theorem isPath_toString (number : Nat) : IsPath (toString number) := by
  intro c hc
  simp [isPathChar, Char.isAlphanum, isDigit_of_mem_toString hc]

theorem IsPath.not_mem {path : String} (hpath : IsPath path) {c : Char}
    (hc : isPathChar c = false) : c ∉ path.toList := by
  intro hmem
  rw [hpath c hmem] at hc
  cases hc

theorem IsPath.isLine {path : String} (hpath : IsPath path) : IsLine path :=
  ⟨hpath.not_mem (by decide), hpath.not_mem (by decide)⟩

theorem StopsPath.append {text : String} (h : StopsPath text) (rest : List Char) :
    ¬[' ', 'M'] <+: (text.toList ++ rest).dropWhile isPathChar := by
  obtain ⟨hlength, hnot⟩ := h
  have hne : (text.toList.dropWhile isPathChar).isEmpty = false := by
    rw [List.isEmpty_eq_false_iff]
    rintro heq
    simp [heq] at hlength
  rw [List.dropWhile_append, hne, if_neg Bool.false_ne_true]
  intro hprefix
  exact hnot (List.prefix_of_prefix_length_le hprefix (List.prefix_append _ _) hlength)

/-! ## Where no signature begins -/

/-- No signature of the field begins inside the text. -/
abbrev SignatureFree (field text : String) : Prop := Clear (signatureStart field).toList text

/-- No routine is closed inside the text. -/
abbrev ClosingFree (text : String) : Prop := Clear ['\n', '\x7d'] text

section Signature

variable {field path : String}

theorem signatureStart_eq (field : String) : (signatureStart field).toList =
    ['f', 'u', 'n'] ++ ([' ', 'M'] ++ ("odule.".toList ++ field.toList)) := by
  simp [signatureStart]

/-- Only at the end of a path can a signature begin, since its first word ends in a blank. -/
theorem avoids_path (hpath : IsPath path) {rest : List Char}
    (hrest : ¬[' ', 'M'] <+: rest.dropWhile isPathChar) :
    Avoids (signatureStart field).toList path.toList rest := by
  rw [signatureStart_eq]
  unfold IsPath at hpath
  generalize path.toList = chars at hpath
  induction chars with
  | nil => trivial
  | cons c chars ih =>
      obtain ⟨hc, hchars⟩ := List.forall_mem_cons.mp hpath
      refine ⟨?_, ih hchars⟩
      rintro ⟨behind, hbehind⟩
      apply hrest
      have hdrop := congrArg (List.dropWhile isPathChar) hbehind
      rw [← List.cons_append, List.dropWhile_append_of_pos hpath] at hdrop
      rw [← hdrop]
      exact ⟨"odule.".toList ++ field.toList ++ behind, by simp [List.dropWhile, isPathChar]⟩

theorem signatureFree_of_not_mem {text : String} (h : 'f' ∉ text.toList) :
    SignatureFree field text := by
  unfold SignatureFree
  rw [signatureStart_eq]
  exact Text.clear_of_not_mem h

/-- A path does no harm between texts that hold no beginning themselves. -/
theorem signatureFree_path {before after : String} (hpath : IsPath path)
    (hbefore : 'f' ∉ before.toList) (hafter : 'f' ∉ after.toList) (hstops : StopsPath after) :
    SignatureFree field (before ++ path ++ after) := by
  refine ⟨fun rest => ?_⟩
  simp only [String.toList_append, List.append_assoc]
  refine Avoids.append ((signatureFree_of_not_mem hbefore).avoids _) ?_
  have hafter : SignatureFree field after := signatureFree_of_not_mem hafter
  exact (avoids_path hpath (hstops.append rest)).append (hafter.avoids rest)

end Signature

/-! ## Bodies -/

section Bodies

variable {field : String}

/-- The body of the routine in the text behind the beginning of its signature. -/
def body? (part : List Char) : Option String :=
  (Text.splitOnce [')', '\x7b'] part).map fun (_, rest) =>
    match Text.splitOnce ['\n', '\x7d'] rest with
    | some (body, _) => String.ofList body
    | none => String.ofList rest

theorem routineBodies_eq (source field : String) : routineBodies source field =
    ((Text.splitAll (signatureStart field).toList source.toList).drop 1).filterMap body? := rfl

/-- What stands behind the beginning of a signature: the number of the routine, its body,
and what closes it. -/
def routineEnd (index : Nat) (body : String) : String :=
  toString index ++ "()\x7b" ++ body ++ Fragment.blockClosing

theorem body?_routineEnd (index : Nat) {body : String} (hbody : ClosingFree body)
    (more : List Char) : body? ((routineEnd index body).toList ++ more) = some body := by
  have hopened : ')' ∉ (toString index ++ "(").toList := by
    simpa using not_mem_toString (c := ')') (by decide) index
  have hsplit : (routineEnd index body).toList ++ more =
      (toString index ++ "(").toList ++ ([')', '\x7b'] ++ (body.toList ++
        (['\n', '\x7d'] ++ more))) := by
    simp [routineEnd, Fragment.blockClosing]
  unfold body?
  rw [hsplit, Text.splitOnce_append (Text.avoids_of_not_mem hopened), Option.map_some]
  dsimp only
  rw [Text.splitOnce_append (hbody.avoids _)]
  exact congrArg some String.ofList_toList

/-- A line that does not start with a brace ends no routine. -/
theorem closingFree_line {line : String} (hline : IsLine line) (hempty : line ≠ "")
    (hbrace : line.toList.head? ≠ some '\x7d') : ClosingFree ("\n" ++ line) := by
  obtain ⟨first, more, hmore⟩ := List.exists_cons_of_ne_nil (mt String.toList_eq_nil_iff.mp hempty)
  have hne : first ≠ '\x7d' := by simpa [hmore] using hbrace
  have hchars : ("\n" ++ line).toList = '\n' :: line.toList := by simp
  refine ⟨fun rest => ?_⟩
  rw [hchars]
  refine ⟨?_, Text.avoids_of_not_mem hline.1⟩
  simp [hmore, Ne.symm hne]

variable {module : Module}

theorem signatureFree_routineEnd (index : Nat) {body : String}
    (hbody : SignatureFree field body) : SignatureFree field (routineEnd index body) := by
  have hnumber : 'f' ∉ (toString index ++ "()\x7b").toList := by
    simpa using not_mem_toString (c := 'f') (by decide) index
  exact ((signatureFree_of_not_mem hnumber).append hbody).append
    (signatureFree_of_not_mem (by decide))

theorem signatureFree_modifier (visibility : Visibility) :
    SignatureFree field (Fragment.modifier visibility) := by
  apply signatureFree_of_not_mem
  cases visibility <;> decide

theorem join_routinesTexts_cons (hinstance : module.instanceType = none) (index : Nat)
    (body : List String) (bodies : List (List String)) :
    String.join (module.routinesTexts index (body :: bodies)) =
      Fragment.routineGap ++ Fragment.modifier module.visibility ++
        signatureStart module.fieldName ++ (routineEnd index (String.join body) ++
          String.join (module.routinesTexts (index + 1) bodies)) := by
  simp [Module.routinesTexts, Module.routineTexts, Module.headerText, Fragment.routineHeader,
    Fragment.routineName, hinstance, signatureStart, routineEnd, String.join_cons,
    String.join_append, String.append_assoc]

/-- Between the beginnings of two signatures there is one routine. -/
theorem splitAll_routinesTexts (hinstance : module.instanceType = none)
    {bodies : List (List String)}
    (hbodies : ∀ body ∈ bodies,
      SignatureFree module.fieldName (String.join body) ∧ ClosingFree (String.join body))
    {front last : String} (hfront : SignatureFree module.fieldName front)
    (hlast : Avoids (signatureStart module.fieldName).toList last.toList []) (index : Nat) :
    ∃ rest parts, Text.splitAll (signatureStart module.fieldName).toList
        (front ++ (String.join (module.routinesTexts index bodies) ++ last)).toList =
          (front.toList ++ rest) :: parts ∧
      parts.filterMap body? = bodies.map String.join := by
  induction bodies generalizing front index with
  | nil =>
      refine ⟨last.toList, [], ?_, rfl⟩
      have hnone : String.join (module.routinesTexts index []) = "" := rfl
      rw [hnone, String.empty_append, String.toList_append]
      exact Text.splitAll_of_avoids ((hfront.avoids _).append hlast)
  | cons body bodies ih =>
      obtain ⟨⟨hbody, hclosed⟩, hbodies⟩ := List.forall_mem_cons.mp hbodies
      -- what is in front of the next signature is the rest of the routine that began with this one
      obtain ⟨rest, parts, hparts, hfound⟩ :=
        ih hbodies (signatureFree_routineEnd index hbody) (index + 1)
      have hgap : SignatureFree module.fieldName Fragment.routineGap :=
        signatureFree_of_not_mem (by decide)
      have hfront := hfront.append (hgap.append (signatureFree_modifier module.visibility))
      refine ⟨(Fragment.routineGap ++ Fragment.modifier module.visibility).toList,
        ((routineEnd index (String.join body)).toList ++ rest) :: parts, ?_, ?_⟩
      · rw [← hparts, ← String.toList_append]
        refine Eq.trans (congrArg _ ?_) (Text.splitAll_append ?_ (hfront.avoids _))
        · simp [join_routinesTexts_cons hinstance]
        · simp [signatureStart_eq]
      · rw [List.filterMap_cons_some (body?_routineEnd index hclosed rest), hfound]
        rfl

/-- The bodies of a unit are found again. -/
theorem routineBodies_layout (hinstance : module.instanceType = none) {settings : Settings}
    {builder : List String} {bodies : List (List String)}
    (hfront : ∀ text ∈ module.openingTexts settings ++ builder, SignatureFree module.fieldName text)
    (hbodies : ∀ body ∈ bodies,
      SignatureFree module.fieldName (String.join body) ∧ ClosingFree (String.join body))
    (hlast : Avoids (signatureStart module.fieldName).toList
      (Fragment.accessor module.visibility module.path module.fieldName).toList []) :
    routineBodies (String.join (module.layout settings builder bodies)) module.fieldName =
      bodies.map String.join := by
  have hclosing : SignatureFree module.fieldName Fragment.blockClosing :=
    signatureFree_of_not_mem (by decide)
  have hfront := (Clear.join hfront).append hclosing
  obtain ⟨rest, parts, hparts, hfound⟩ := splitAll_routinesTexts hinstance hbodies hfront hlast 0
  have hlayout : String.join (module.layout settings builder bodies) =
      String.join (module.openingTexts settings ++ builder) ++ Fragment.blockClosing ++
        (String.join (module.routinesTexts 0 bodies) ++
          Fragment.accessor module.visibility module.path module.fieldName) := by
    simp [Module.layout, String.join_append, String.join_cons, String.append_assoc]
  rw [routineBodies_eq, hlayout, hparts]
  exact hfound

end Bodies

/-! ## Calls -/

section Calls

variable {field line text other : String} {calls others : List String}

/-- Whether a line is taken for a call of a routine of the field. -/
def isCall (field line : String) : Bool := (callStart field).toList.isPrefixOf line.toList

/-- The text is made of lines, each behind a line feed, and these of them are taken for
calls. -/
def HasCalls (field text : String) (calls : List String) : Prop :=
  ∃ texts, text = onLines texts ∧ (∀ line ∈ texts, IsLine line) ∧
    texts.filter (isCall field) = calls

theorem HasCalls.append (h : HasCalls field text calls) (hother : HasCalls field other others) :
    HasCalls field (text ++ other) (calls ++ others) := by
  obtain ⟨texts, rfl, htexts, rfl⟩ := h
  obtain ⟨more, rfl, hmore, rfl⟩ := hother
  refine ⟨texts ++ more, (Text.onLines_append _ _).symm, ?_, List.filter_append ..⟩
  simpa [or_imp, forall_and] using ⟨htexts, hmore⟩

theorem hasCalls_empty : HasCalls field "" [] := ⟨[], rfl, by simp, rfl⟩

theorem HasCalls.join {α : Type} {textOf : α → String} {callsOf : α → List String} {xs : List α}
    (h : ∀ x ∈ xs, HasCalls field (textOf x) (callsOf x)) :
    HasCalls field (String.join (xs.map textOf)) (xs.flatMap callsOf) := by
  induction xs with
  | nil => exact hasCalls_empty
  | cons x xs ih =>
      obtain ⟨hhead, htail⟩ := List.forall_mem_cons.mp h
      rw [List.map_cons, String.join_cons, List.flatMap_cons]
      exact hhead.append (ih htail)

theorem HasCalls.join_map {α : Type} {textOf callOf : α → String} {xs : List α}
    (h : ∀ x ∈ xs, HasCalls field (textOf x) [callOf x]) :
    HasCalls field (String.join (xs.map textOf)) (xs.map callOf) := by
  have hjoined := HasCalls.join h
  rwa [← List.map_eq_flatMap] at hjoined

theorem HasCalls.join_silent {texts : List String} (h : ∀ text ∈ texts, HasCalls field text []) :
    HasCalls field (String.join texts) [] := by
  have hnone : texts.flatMap (fun _ => ([] : List String)) = [] := by simp
  rw [← List.map_id texts, ← hnone]
  exact HasCalls.join h

theorem hasCalls_of_isCall (hline : IsLine line) (hcall : isCall field line = true) :
    HasCalls field ("\n" ++ line) [line] :=
  ⟨[line], by simp [Text.onLines_cons], by simpa using hline, by simp [hcall]⟩

theorem hasCalls_of_isCall_eq_false (hline : IsLine line) (hcall : isCall field line = false) :
    HasCalls field ("\n" ++ line) [] :=
  ⟨[line], by simp [Text.onLines_cons], by simpa using hline, by simp [hcall]⟩

/-- A call is indented. -/
theorem isCall_append_eq_false (hempty : line ≠ "") (htab : line.toList.head? ≠ some '\t')
    (rest : String) : isCall field (line ++ rest) = false := by
  obtain ⟨first, more, hmore⟩ := List.exists_cons_of_ne_nil (mt String.toList_eq_nil_iff.mp hempty)
  have hne : first ≠ '\t' := by simpa [hmore] using htab
  have hnot : ¬(callStart field).toList <+: (line ++ rest).toList := by
    simp [callStart, hmore, Ne.symm hne]
  exact Bool.eq_false_iff.mpr (mt List.isPrefixOf_iff_prefix.mp hnot)

theorem isCall_callStart (rest : String) : isCall field (callStart field ++ rest) = true := by
  simp [isCall]

/-- The calls are told apart from all other lines of a text whose last line is not empty. -/
theorem dispatcherCalls_eq {first last : String} (hfirst : IsLine first)
    (hnone : isCall field first = false) (htext : HasCalls field text calls) (hlast : IsLine last)
    (hne : last ≠ "") (hnolast : isCall field last = false) :
    dispatcherCalls (first ++ (text ++ ("\n" ++ last))) field = calls := by
  obtain ⟨texts, rfl, htexts, rfl⟩ := htext
  have hjoined : first ++ (onLines texts ++ ("\n" ++ last)) =
      first ++ onLines (texts ++ [last]) := by
    simp [Text.onLines_append, Text.onLines_cons]
  unfold dispatcherCalls
  rw [hjoined, Text.lines_onLines hfirst htexts hlast hne, List.filter_map, List.map_map]
  have hsame : String.ofList ∘ String.toList = id := funext fun _ => String.ofList_toList
  have hcalls : ((fun line => (callStart field).toList.isPrefixOf line) ∘ String.toList) =
      isCall field := rfl
  rw [hsame, List.map_id, hcalls]
  simp [hnone, hnolast]

variable {module : Module}

theorem isLine_headerText (hinstance : module.instanceType = none)
    (hfield : IsLine module.fieldName) (index : Nat) : IsLine (module.headerText index) := by
  have hmodifier : IsLine (Fragment.modifier module.visibility) := by
    cases module.visibility <;> decide
  have hname : IsLine (Fragment.routineName module.fieldName index) :=
    hfield.append (isPath_toString index).isLine
  unfold Module.headerText Fragment.routineHeader
  rw [hinstance]
  exact ((((hmodifier.append (by decide)).append hname).append (by decide)).append
    (by decide)).append (by decide)

theorem isCall_headerText (field : String) (index : Nat) :
    isCall field (module.headerText index) = false := by
  have hstart : Fragment.modifier module.visibility ≠ "" ∧
      (Fragment.modifier module.visibility).toList.head? ≠ some '\t' := by
    cases module.visibility <;> decide
  unfold Module.headerText Fragment.routineHeader
  simp only [String.append_assoc]
  exact isCall_append_eq_false hstart.1 hstart.2 _

theorem hasCalls_blockClosing : HasCalls field Fragment.blockClosing [] := by
  have hline : Fragment.blockClosing = "\n" ++ ("\x7d" ++ "") := by decide
  rw [hline]
  exact hasCalls_of_isCall_eq_false (by decide) (isCall_append_eq_false (by decide) (by decide) _)

/-- A routine calls nothing that its body does not call. -/
theorem hasCalls_routinesTexts (hinstance : module.instanceType = none)
    {bodies : List (List String)} (hfield : IsLine module.fieldName)
    (hbodies : ∀ body ∈ bodies, HasCalls field (String.join body) []) (index : Nat) :
    HasCalls field (String.join (module.routinesTexts index bodies)) [] := by
  induction bodies generalizing index with
  | nil => exact hasCalls_empty
  | cons body bodies ih =>
      obtain ⟨hbody, hbodies⟩ := List.forall_mem_cons.mp hbodies
      have hempty : HasCalls field ("\n" ++ "") [] :=
        hasCalls_of_isCall_eq_false (by decide) (by simp [isCall, callStart])
      have hheader := hasCalls_of_isCall_eq_false (isLine_headerText hinstance hfield index)
        (isCall_headerText field index)
      have hjoined : String.join (module.routinesTexts index (body :: bodies)) =
          "\n" ++ "" ++ ("\n" ++ module.headerText index) ++ String.join body ++
            Fragment.blockClosing ++ String.join (module.routinesTexts (index + 1) bodies) := by
        simp [Module.routinesTexts, Module.routineTexts, String.join_cons, String.join_append,
          Fragment.routineGap, ← String.append_assoc]
      rw [hjoined]
      exact (((hempty.append hheader).append hbody).append hasCalls_blockClosing).append
        (ih hbodies (index + 1))

end Calls

end Wiring.Inspect
