import Mathlib.Data.List.TakeWhile
import Wiring.Json.Node
import Wiring.Json.Value

/-!
# Tokens of a JSON text

A text spells a value by tokens, in front of each of which any blanks may stand. The
compact text has none.
-/

namespace Wiring.Json

/-! ## The tokens of a value -/

mutual

/-- The tokens that spell a value. -/
def Value.tokens : Value → List (List Char)
  | .null => [Value.null.writeChars]
  | .flag value => [(Value.flag value).writeChars]
  | .number value => [writeNumber value]
  | .text value => [writeText value]
  | .array [] => [['['], [']']]
  | .array (item :: items) => ['['] :: (item.tokens ++ itemTokens items)
  | .object [] => [['{'], ['}']]
  | .object ((name, value) :: members) =>
      ['{'] :: writeText name :: [':'] :: (value.tokens ++ memberTokens members)

/-- The tokens of the further elements of an array and of its closing bracket. -/
def itemTokens : List Value → List (List Char)
  | [] => [[']']]
  | item :: items => [','] :: (item.tokens ++ itemTokens items)

/-- The tokens of the further members of an object and of its closing bracket. -/
def memberTokens : List (String × Value) → List (List Char)
  | [] => [['}']]
  | (name, value) :: members =>
      [','] :: writeText name :: [':'] :: (value.tokens ++ memberTokens members)

end

mutual

/-- The compact text puts the tokens next to each other. -/
theorem Value.flatten_tokens : ∀ value : Value, value.tokens.flatten = value.writeChars
  | .null | .flag true | .flag false | .number _ | .text _ | .array [] | .object [] => by
      simp [Value.tokens, Value.writeChars]
  | .array (item :: items) => by
      simp [Value.tokens, Value.writeChars, Value.flatten_tokens item, flatten_itemTokens items]
  | .object ((name, value) :: members) => by
      simp [Value.tokens, Value.writeChars, Value.flatten_tokens value,
        flatten_memberTokens members]

theorem flatten_itemTokens : ∀ items : List Value, (itemTokens items).flatten = writeItems items
  | [] => rfl
  | item :: items => by
      simp [itemTokens, writeItems, Value.flatten_tokens item, flatten_itemTokens items]

theorem flatten_memberTokens :
    ∀ members : List (String × Value), (memberTokens members).flatten = writeMembers members
  | [] => rfl
  | (name, value) :: members => by
      simp [memberTokens, writeMembers, Value.flatten_tokens value,
        flatten_memberTokens members]

end

/-! ## Blanks -/

/-- Blanks in front of a text do not matter to a scan. -/
theorem skipSpace_append {blanks : List Char} (hblanks : ∀ c ∈ blanks, isSpace c = true)
    (text : List Char) : skipSpace (blanks ++ text) = skipSpace text :=
  List.dropWhile_append_of_pos hblanks

theorem skipSpace_cons {c : Char} (hc : isSpace c = false) (text : List Char) :
    skipSpace (c :: text) = c :: text := by
  simp [skipSpace, hc]

/-- A text of blanks holds nothing else. -/
theorem skipSpace_eq_nil_iff {text : List Char} :
    skipSpace text = [] ↔ ∀ c ∈ text, isSpace c = true := by
  simp [skipSpace, List.dropWhile_eq_nil_iff]

/-- A text that starts with the tokens, each behind any blanks, and goes on with `rest`. -/
inductive Spaced : List (List Char) → List Char → List Char → Prop where
  /-- Nothing but what follows. -/
  | done {rest : List Char} : Spaced [] rest rest
  /-- Blanks, a token, and the further tokens. -/
  | next {blanks token text rest : List Char} {tokens : List (List Char)}
      (hblanks : ∀ c ∈ blanks, isSpace c = true) (htext : Spaced tokens text rest) :
      Spaced (token :: tokens) (blanks ++ (token ++ text)) rest

namespace Spaced

variable {tokens more : List (List Char)} {text rest token : List Char} {c : Char}

/-- The same blanks in front of each token. -/
theorem flatMap {blanks : List Char} (hblanks : ∀ c ∈ blanks, isSpace c = true) :
    ∀ tokens : List (List Char),
      Spaced tokens (tokens.flatMap (blanks ++ ·) ++ rest) rest
  | [] => Spaced.done
  | token :: tokens => by
      simpa [List.flatMap_cons, List.append_assoc] using
        Spaced.next hblanks (flatMap hblanks tokens)

/-- The compact text of a value spells it. -/
theorem writeChars (value : Value) : Spaced value.tokens (value.writeChars ++ rest) rest := by
  simpa [List.flatMap_id', value.flatten_tokens] using
    @flatMap rest [] (by simp) value.tokens

/-- A text goes on behind the tokens of a value as it does behind its compact text. -/
theorem compact_append (value : Value) (rest : String) :
    Spaced value.tokens (value.compact ++ rest).toList rest.toList := by
  rw [String.toList_append, Value.compact, String.toList_ofList]
  exact writeChars value

theorem compact (value : Value) : Spaced value.tokens value.compact.toList [] := by
  simpa using compact_append value ""

/-- Tokens one after the other split a text in two. -/
theorem split_append (h : Spaced (tokens ++ more) text rest) :
    ∃ middle, Spaced tokens text middle ∧ Spaced more middle rest := by
  induction tokens generalizing text with
  | nil => exact ⟨text, .done, h⟩
  | cons token tokens ih =>
      cases h with
      | next hblanks htext =>
          obtain ⟨middle, hfirst, hmore⟩ := ih htext
          exact ⟨middle, .next hblanks hfirst, hmore⟩

theorem length_le (h : Spaced tokens text rest) : rest.length ≤ text.length := by
  induction h with
  | done => exact Nat.le_refl _
  | next _ _ ih => simp; omega

/-- Behind its blanks a text starts with the first token. -/
theorem skipSpace_eq (h : Spaced ((c :: token) :: tokens) text rest) (hc : isSpace c = false) :
    ∃ behind, skipSpace text = c :: (token ++ behind) ∧ Spaced tokens behind rest ∧
      token.length + behind.length < text.length := by
  cases h with
  | @next blanks _ behind _ _ hblanks htext =>
      refine ⟨behind, ?_, htext, by simp; omega⟩
      rw [skipSpace_append hblanks, List.cons_append, skipSpace_cons hc]

/-- The first token may be a bracket, a comma or a colon. -/
theorem skipSpace_mark (h : Spaced ([c] :: tokens) text rest) (hc : isSpace c = false) :
    ∃ behind, skipSpace text = c :: behind ∧ Spaced tokens behind rest ∧
      behind.length < text.length := by
  simpa using h.skipSpace_eq hc

/-- Behind a single token comes what follows all of them. -/
theorem skipSpace_last (h : Spaced [c :: token] text rest) (hc : isSpace c = false) :
    skipSpace text = c :: (token ++ rest) := by
  obtain ⟨behind, hskip, hdone, -⟩ := h.skipSpace_eq hc
  cases hdone
  exact hskip

/-- A text without its first blanks is still spelled by its tokens. -/
theorem of_skipSpace (h : Spaced ((c :: token) :: tokens) text rest) (hc : isSpace c = false) :
    Spaced ((c :: token) :: tokens) (skipSpace text) rest ∧
      (skipSpace text).length ≤ text.length := by
  obtain ⟨behind, hskip, hmore, hlength⟩ := h.skipSpace_eq hc
  rw [hskip]
  have hspaced : Spaced ((c :: token) :: tokens) ([] ++ (c :: token ++ behind)) rest :=
    .next (by simp) hmore
  exact ⟨hspaced, by simp; omega⟩

end Spaced

end Wiring.Json
