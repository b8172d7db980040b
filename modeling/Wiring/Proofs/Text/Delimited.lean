import Mathlib.Data.List.Basic
import Wiring.Fragment

/-!
# Texts that tell where they end

A way of writing values is self-delimiting if the value can be told from the text whatever
follows it, and so can the place where the text ends. Quoted literals are written like that,
and so is what stands between fixed fragments; values written one behind the other with a
separator can then be told apart.
-/

namespace Wiring

variable {α : Type}

/-- Each text determines the value it is written for, and where it ends, whatever follows. -/
def SelfDelimiting (write : α → String) : Prop :=
  ∀ ⦃first second : α⦄ ⦃rest others : List Char⦄,
    (write first).toList ++ rest = (write second).toList ++ others →
      first = second ∧ rest = others

namespace SelfDelimiting

variable {write : α → String}

/-- Fixed text around the values does not matter. -/
theorem enclose (h : SelfDelimiting write) (opening closing : String) :
    SelfDelimiting fun value => opening ++ write value ++ closing := by
  intro first second rest others heq
  simp only [String.toList_append, List.append_assoc, List.append_cancel_left_eq] at heq
  obtain ⟨rfl, hrest⟩ := h heq
  exact ⟨rfl, List.append_cancel_left hrest⟩

/-- Values are told from their texts put one behind the other. -/
theorem flatMap_injective (h : SelfDelimiting write) (hne : ∀ value, write value ≠ "") :
    Function.Injective fun values : List α => values.flatMap fun value => (write value).toList := by
  have hnil : ∀ value, (write value).toList ≠ [] := fun value => by simpa using hne value
  intro values others heq
  induction values generalizing others with
  | nil =>
      cases others with
      | nil => rfl
      | cons other others => simp [hnil] at heq
  | cons value values ih =>
      cases others with
      | nil => simp [hnil] at heq
      | cons other others =>
          obtain ⟨rfl, hrest⟩ := h heq
          rw [ih hrest]

end SelfDelimiting

/-- Behind the first text each further one comes with the separator in front of it. -/
theorem toList_intercalate_cons (separator text : String) (texts : List String) :
    (separator.intercalate (text :: texts)).toList =
      text.toList ++ texts.flatMap fun text => (separator ++ text).toList := by
  induction texts generalizing text with
  | nil => simp
  | cons next texts ih =>
      rw [String.intercalate_cons_of_ne_nil (by simp), String.toList_append, ih]
      simp

/-- Values are told from their texts with a separator between them. -/
theorem SelfDelimiting.intercalate_injective {write : α → String} (h : SelfDelimiting write)
    (hne : ∀ value, write value ≠ "") (separator : String) :
    Function.Injective fun values : List α => separator.intercalate (values.map write) := by
  have hnil : ∀ value, (write value).toList ≠ [] := fun value => by simpa using hne value
  have hmore : SelfDelimiting fun value => separator ++ write value := by
    simpa using h.enclose separator ""
  intro values others heq
  have hchars : (separator.intercalate (values.map write)).toList =
      (separator.intercalate (others.map write)).toList := congrArg String.toList heq
  cases values with
  | nil =>
      cases others with
      | nil => rfl
      | cons other others =>
          rw [List.map_cons, toList_intercalate_cons] at hchars
          simp [hnil] at hchars
  | cons value values =>
      cases others with
      | nil =>
          rw [List.map_cons, toList_intercalate_cons] at hchars
          simp [hnil] at hchars
      | cons other others =>
          simp only [List.map_cons, toList_intercalate_cons, List.flatMap_map] at hchars
          obtain ⟨rfl, hrest⟩ := h hchars
          have hnonempty : ∀ value, separator ++ write value ≠ "" := by
            simp [String.append_eq_empty_iff, hne]
          rw [hmore.flatMap_injective hnonempty hrest]

/-- A text up to a character that it does not hold is determined by what follows too. -/
theorem append_cons_inj_of_not_mem {c : Char} {first second rest others : List Char}
    (hfirst : c ∉ first) (hsecond : c ∉ second) (h : first ++ c :: rest = second ++ c :: others) :
    first = second ∧ rest = others := by
  induction first generalizing second with
  | nil =>
      cases second with
      | nil => exact ⟨rfl, (List.cons.inj h).2⟩
      | cons d second => exact absurd (by simp [(List.cons.inj h).1]) hsecond
  | cons d first ih =>
      cases second with
      | nil => exact absurd (by simp [(List.cons.inj h).1]) hfirst
      | cons e second =>
          obtain ⟨rfl, hmore⟩ := List.cons.inj h
          obtain ⟨rfl, hrest⟩ :=
            ih (List.not_mem_of_not_mem_cons hfirst) (List.not_mem_of_not_mem_cons hsecond) hmore
          exact ⟨rfl, hrest⟩

/-- An element of two texts one behind the other stands in the first or in the second. -/
theorem exists_of_append_eq_append_cons {first second front back : List α} {x : α}
    (h : first ++ second = front ++ x :: back) :
    (∃ inner, first = front ++ x :: inner ∧ back = inner ++ second) ∨
      ∃ inner, front = first ++ inner ∧ second = inner ++ x :: back := by
  rcases List.append_eq_append_iff.mp h with ⟨inner, hfront, hsecond⟩ | ⟨inner, hfirst, hback⟩
  · exact Or.inr ⟨inner, hfront, hsecond⟩
  · cases inner with
    | nil => exact Or.inr ⟨[], by simpa using hfirst.symm, hback.symm⟩
    | cons y inner =>
        obtain ⟨rfl, hrest⟩ := List.cons.inj hback
        exact Or.inl ⟨inner, hfirst, hrest⟩

/-- No text in front of another one is made up for by the other one's going on, if the first
lacks a character that both go on with. -/
theorem append_append_cons_ne {c : Char} {marker text rest others : List Char}
    (hne : marker ≠ []) (hc : c ∉ marker) :
    marker ++ (text ++ c :: rest) ≠ text ++ c :: others := by
  intro h
  rw [← List.append_assoc] at h
  rcases List.append_eq_append_iff.mp h with ⟨inner, htext, -⟩ | ⟨inner, htext, hinner⟩
  · have hlength := congrArg List.length htext
    have hpos := List.length_pos_iff.mpr hne
    simp only [List.length_append] at hlength
    omega
  · cases inner with
    | nil =>
        have hlength := congrArg List.length htext
        have hpos := List.length_pos_iff.mpr hne
        simp only [List.length_append, List.length_nil] at hlength
        omega
    | cons d inner =>
        -- the second text holds the character once more than the first
        obtain rfl := (List.cons.inj hinner).1
        have hcount := congrArg (List.count c) htext
        simp only [List.count_append, List.count_eq_zero_of_not_mem hc, List.count_cons_self]
          at hcount
        omega

/-! ## Quoted literals -/

namespace Text

/-- An escape tells which character it stands for, and never ends a literal. -/
theorem escapeChar_append {c d : Char} {rest others : List Char}
    (h : escapeChar c ++ rest = escapeChar d ++ others) : c = d ∧ rest = others := by
  unfold escapeChar at h
  split at h <;> split at h <;> grind

theorem escapeChar_append_ne (c : Char) (rest others : List Char) :
    escapeChar c ++ rest ≠ '"' :: others := by
  unfold escapeChar
  split <;> simp_all

/-- A literal ends at its first quote that is not escaped. -/
theorem selfDelimiting_literal : SelfDelimiting literal := by
  have hchars : ∀ (chars more rest others : List Char),
      chars.flatMap escapeChar ++ '"' :: rest = more.flatMap escapeChar ++ '"' :: others →
        chars = more ∧ rest = others := by
    intro chars
    induction chars with
    | nil =>
        intro more rest others heq
        cases more with
        | nil => simpa using heq
        | cons d more =>
            rw [List.flatMap_cons, List.append_assoc] at heq
            exact absurd heq.symm (escapeChar_append_ne _ _ _)
    | cons c chars ih =>
        intro more rest others heq
        cases more with
        | nil =>
            rw [List.flatMap_cons, List.append_assoc] at heq
            exact absurd heq (escapeChar_append_ne _ _ _)
        | cons d more =>
            rw [List.flatMap_cons, List.flatMap_cons, List.append_assoc, List.append_assoc] at heq
            obtain ⟨rfl, hmore⟩ := escapeChar_append heq
            obtain ⟨rfl, hrest⟩ := ih _ _ _ hmore
            exact ⟨rfl, hrest⟩
  intro first second rest others heq
  simp only [literal, literalChars, String.toList_ofList, List.cons_append, List.append_assoc,
    List.nil_append, List.cons.injEq, true_and] at heq
  obtain ⟨htext, hrest⟩ := hchars _ _ _ _ heq
  exact ⟨String.toList_injective htext, hrest⟩

theorem literal_append_inj {text other rest others : String} :
    literal text ++ rest = literal other ++ others ↔ text = other ∧ rest = others := by
  constructor
  · intro heq
    have hchars := congrArg String.toList heq
    rw [String.toList_append, String.toList_append] at hchars
    obtain ⟨htext, hrest⟩ := selfDelimiting_literal hchars
    exact ⟨htext, String.toList_injective hrest⟩
  · rintro ⟨rfl, rfl⟩
    rfl

theorem literal_injective : Function.Injective literal := by
  intro text other heq
  exact (literal_append_inj.mp (congrArg (· ++ "") heq)).1

end Text

end Wiring
