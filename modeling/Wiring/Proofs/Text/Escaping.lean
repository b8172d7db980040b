import Mathlib.Algebra.Ring.Parity
import Mathlib.Data.List.DropRight
import Wiring.Proofs.Text.Delimited

/-!
# What is escaped in a literal

Whether a character is escaped hangs on the run of backslashes in front of it: from left to
right they escape each other in pairs, so one is left over for the character exactly if their
number is odd. No escape leaves one over for what is written behind it. A text may therefore
look escaped already or end in any number of backslashes: its literal still goes on up to the
quote that was put behind it, and no template starts inside.
-/

namespace Wiring.Text

/-! ## Runs of backslashes -/

/-- What comes next behind this text is escaped: the backslashes at its end do not pair up. -/
def EscapesNext (before : List Char) : Prop :=
  Odd (before.rtakeWhile (· == '\\')).length

instance : DecidablePred EscapesNext := fun before =>
  inferInstanceAs (Decidable (Odd (before.rtakeWhile (· == '\\')).length))

variable {before after front chars : List Char} {c : Char}

theorem not_escapesNext_nil : ¬EscapesNext [] := by
  simp [EscapesNext]

/-- A backslash escapes what comes next, unless it is escaped itself. -/
theorem escapesNext_concat : EscapesNext (before ++ [c]) ↔ c = '\\' ∧ ¬EscapesNext before := by
  unfold EscapesNext
  by_cases hc : c = '\\'
  · subst hc
    rw [List.rtakeWhile_concat_pos _ _ _ rfl, List.length_append, List.length_singleton,
      Nat.odd_add_one]
    simp
  · rw [List.rtakeWhile_concat_neg _ _ _ (by simpa using hc)]
    simp [hc]

theorem exists_of_escapesNext (h : EscapesNext before) :
    ∃ front, before = front ++ ['\\'] ∧ ¬EscapesNext front := by
  rcases List.eq_nil_or_concat' before with rfl | ⟨front, c, rfl⟩
  · exact absurd h not_escapesNext_nil
  · obtain ⟨rfl, hfront⟩ := escapesNext_concat.mp h
    exact ⟨front, rfl, hfront⟩

/-! ## Escapes one behind the other -/

/-- The mark uses up the backslash in front of it, also where it is one itself. -/
theorem not_escapesNext_append_escapeChar (hfront : ¬EscapesNext front) (c : Char) :
    ¬EscapesNext (front ++ escapeChar c) := by
  rcases escapeChar_cases c with ⟨mark, hescape, -⟩ | ⟨hescape, hplain⟩
  · have hopen : EscapesNext (front ++ ['\\']) := escapesNext_concat.mpr ⟨rfl, hfront⟩
    rw [hescape, ← List.singleton_append, ← List.append_assoc, escapesNext_concat]
    exact fun hmark => hmark.2 hopen
  · rw [hescape, escapesNext_concat]
    exact fun hc => hplain (by simp [hc.1])

theorem not_escapesNext_append_flatMap (hfront : ¬EscapesNext front) (chars : List Char) :
    ¬EscapesNext (front ++ chars.flatMap escapeChar) := by
  induction chars generalizing front with
  | nil => simpa using hfront
  | cons c chars ih =>
      rw [List.flatMap_cons, ← List.append_assoc]
      exact ih (not_escapesNext_append_escapeChar hfront c)

/-- What could end a literal or start a template is the mark of an escape. -/
theorem escapesNext_of_escapeChar_eq (hfront : ¬EscapesNext front) {source : Char}
    (hc : c = '"' ∨ c = '$') (h : escapeChar source = before ++ c :: after) :
    EscapesNext (front ++ before) := by
  rcases escapeChar_cases source with ⟨mark, hescape, -⟩ | ⟨hescape, hplain⟩
  · rw [hescape] at h
    cases before with
    | nil =>
        -- the backslash in front is neither of the two
        obtain rfl := (List.cons.inj h).1
        simp at hc
    | cons d before =>
        obtain ⟨rfl, hmark⟩ := List.cons.inj h
        obtain ⟨rfl, -⟩ | ⟨-, hnil⟩ := List.append_eq_singleton_iff.mp hmark.symm
        · exact escapesNext_concat.mpr ⟨rfl, hfront⟩
        · cases hnil
  · rw [hescape] at h
    obtain ⟨-, hsource⟩ | ⟨-, hnil⟩ := List.append_eq_singleton_iff.mp h.symm
    · obtain rfl := (List.cons.inj hsource).1
      rcases hc with rfl | rfl <;> simp at hplain
    · cases hnil

theorem escapesNext_of_flatMap_eq (hfront : ¬EscapesNext front) (hc : c = '"' ∨ c = '$')
    (h : chars.flatMap escapeChar = before ++ c :: after) : EscapesNext (front ++ before) := by
  -- in front of each escape no backslash is left over, so the escape can be read by itself
  induction chars generalizing front before with
  | nil => simp at h
  | cons source chars ih =>
      rw [List.flatMap_cons] at h
      rcases exists_of_append_eq_append_cons h with ⟨inner, hescape, -⟩ | ⟨inner, rfl, hrest⟩
      · exact escapesNext_of_escapeChar_eq hfront hc hescape
      · rw [← List.append_assoc]
        exact ih (not_escapesNext_append_escapeChar hfront source) hrest

/-! ## Literals -/

/-- Line feeds, carriage returns and tabs are written by their marks. -/
theorem not_mem_of_mem_literal {text : String} (hc : c ∈ (literal text).toList) :
    c ∉ ['\n', '\r', '\t'] := by
  have hquote : '"' ∉ ['\n', '\r', '\t'] := by decide
  simp only [literal, literalChars, String.toList_ofList, List.mem_cons, List.mem_append,
    List.mem_flatMap, List.not_mem_nil, or_false] at hc
  rcases hc with rfl | ⟨source, -, hescape⟩ | rfl
  · exact hquote
  · rcases escapeChar_cases source with ⟨mark, heq, hmark⟩ | ⟨heq, hplain⟩
    · rw [heq] at hescape
      rcases List.mem_pair.mp hescape with rfl | rfl
      · decide
      · exact hmark
    · rw [heq] at hescape
      obtain rfl := List.mem_singleton.mp hescape
      -- a character that stands for itself is none of those with an escape
      exact fun hmem => hplain (List.mem_append_right ['\\', '"', '$'] hmem)
  · exact hquote

/-- A place in a literal is its first character, one inside of it or its last one. -/
theorem places_of_literal_eq {text : String} (h : (literal text).toList = before ++ c :: after) :
    (before = [] ∧ c = '"') ∨
    (∃ inner rest, before = '"' :: inner ∧ after = rest ++ ['"'] ∧
      text.toList.flatMap escapeChar = inner ++ c :: rest) ∨
    (before = '"' :: text.toList.flatMap escapeChar ∧ c = '"' ∧ after = []) := by
  rw [literal, literalChars, String.toList_ofList] at h
  cases before with
  | nil => exact .inl ⟨rfl, (List.cons.inj h).1.symm⟩
  | cons d inner =>
      obtain ⟨rfl, hbehind⟩ := List.cons.inj h
      rcases exists_of_append_eq_append_cons hbehind with
        ⟨rest, hinside, rfl⟩ | ⟨more, rfl, hend⟩
      · exact .inr (.inl ⟨inner, rest, rfl, rfl, hinside⟩)
      · obtain ⟨rfl, hlast⟩ | ⟨-, hnil⟩ := List.append_eq_singleton_iff.mp hend.symm
        · obtain ⟨rfl, rfl⟩ := List.cons.inj hlast
          exact .inr (.inr ⟨by rw [List.append_nil], rfl, rfl⟩)
        · cases hnil

theorem not_escapesNext_quote : ¬EscapesNext ['"'] := by decide

theorem escapesNext_of_dollar_eq {text : String}
    (h : (literal text).toList = before ++ '$' :: after) : EscapesNext before := by
  rcases places_of_literal_eq h with
    ⟨-, hquote⟩ | ⟨inner, rest, rfl, -, hinside⟩ | ⟨-, hquote, -⟩
  · cases hquote
  · exact escapesNext_of_flatMap_eq not_escapesNext_quote (.inr rfl) hinside
  · cases hquote

theorem quote_not_escaped_iff {text : String} (h : (literal text).toList = before ++ c :: after) :
    c = '"' ∧ ¬EscapesNext before ↔ before = [] ∨ after = [] := by
  rcases places_of_literal_eq h with
    ⟨rfl, rfl⟩ | ⟨inner, rest, rfl, rfl, hinside⟩ | ⟨rfl, rfl, rfl⟩
  · exact iff_of_true ⟨rfl, not_escapesNext_nil⟩ (.inl rfl)
  · refine iff_of_false ?_ (by simp)
    rintro ⟨rfl, hfree⟩
    exact hfree (escapesNext_of_flatMap_eq not_escapesNext_quote (.inl rfl) hinside)
  · exact iff_of_true ⟨rfl, not_escapesNext_append_flatMap not_escapesNext_quote _⟩ (.inr rfl)

/-- A literal tells its text and where it ends, whatever follows. It stays on its line, each
dollar sign in it stands behind a backslash that is not escaped itself, and the quotes that
are not escaped are its two ends. -/
theorem literal_is_delimited :
    Function.Injective literal ∧
    (∀ text other rest others : String,
      literal text ++ rest = literal other ++ others ↔ text = other ∧ rest = others) ∧
    ∀ text : String,
      (∀ c ∈ (literal text).toList, c ∉ ['\n', '\r', '\t']) ∧
      ∀ (before after : List Char) (c : Char), (literal text).toList = before ++ c :: after →
        (c = '$' → ∃ front, before = front ++ ['\\'] ∧ ¬EscapesNext front) ∧
        (c = '"' ∧ ¬EscapesNext before ↔ before = [] ∨ after = []) := by
  refine ⟨literal_injective, fun _ _ _ _ => literal_append_inj, fun text =>
    ⟨fun c => not_mem_of_mem_literal, fun before after c h => ⟨?_, quote_not_escaped_iff h⟩⟩⟩
  rintro rfl
  exact exists_of_escapesNext (escapesNext_of_dollar_eq h)

/-- The text looks escaped already, goes on behind a line feed and ends in a backslash, which
does not run together with what follows. -/
theorem literal_is_delimited_of_escaped_dollar :
    let text := "\\$\n\\"
    let front := "\"\\\\".toList
    let inside := "\"\\\\\\$\\n\\\\".toList
    ('n' ∈ (literal text).toList ∧ 'n' ∉ ['\n', '\r', '\t']) ∧
      ((literal text).toList = (front ++ ['\\']) ++ '$' :: "\\n\\\\\"".toList ∧
        ∃ free, front ++ ['\\'] = free ++ ['\\'] ∧ ¬EscapesNext free) ∧
      ((literal text).toList = inside ++ '"' :: [] ∧ ¬EscapesNext inside) ∧
      literal text ++ "\"" ≠ literal (text ++ "\"") ++ "" := by
  intro text front inside
  obtain ⟨-, hdelimited, hliteral⟩ := literal_is_delimited
  obtain ⟨hline, hplaces⟩ := hliteral text
  have hmember : 'n' ∈ (literal text).toList := by decide
  have hdollar : (literal text).toList = (front ++ ['\\']) ++ '$' :: "\\n\\\\\"".toList := by
    decide
  have hquote : (literal text).toList = inside ++ '"' :: [] := by decide
  refine ⟨⟨hmember, hline _ hmember⟩, ⟨hdollar, (hplaces _ _ _ hdollar).1 rfl⟩,
    ⟨hquote, ((hplaces _ _ _ hquote).2.mpr (.inr rfl)).2⟩, fun heq => ?_⟩
  exact absurd ((hdelimited ..).mp heq).1 (by decide)

end Wiring.Text
