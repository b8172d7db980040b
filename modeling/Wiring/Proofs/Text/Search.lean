import Mathlib.Data.List.Basic
import Wiring.Text.Search

/-!
# Where texts are split

A text that was put together around a needle is split where the needle was put, as long as
the needle begins nowhere else. Whether it does is settled part by part: what is inside a
part, and what runs over from one part into the next.
-/

namespace Wiring.Text

/-! ## Texts in which nothing begins -/

/-- The needle does not begin inside the text, when `rest` stands behind it. -/
def Avoids (needle : List Char) : List Char → List Char → Prop
  | [], _ => True
  | c :: text, rest => ¬needle <+: c :: (text ++ rest) ∧ Avoids needle text rest

/-- The needle does not begin inside the text, whatever stands behind it. -/
structure Clear (needle : List Char) (text : String) : Prop where
  avoids : ∀ rest, Avoids needle text.toList rest

section Avoids

variable {needle text other rest : List Char}

theorem Avoids.append (h : Avoids needle text (other ++ rest)) (hother : Avoids needle other rest) :
    Avoids needle (text ++ other) rest := by
  induction text with
  | nil => exact hother
  | cons c text ih => exact ⟨by simpa using h.1, ih h.2⟩

/-- What does not hold the first character of the needle can hold no beginning. -/
theorem avoids_of_not_mem {first : Char} (h : first ∉ text) :
    Avoids (first :: needle) text rest := by
  induction text with
  | nil => trivial
  | cons c text ih =>
      obtain ⟨hne, htext⟩ := not_or.mp (mt List.mem_cons.mpr h)
      exact ⟨fun hprefix => hne (List.cons_prefix_cons.mp hprefix).1, ih htext⟩

theorem Clear.append {first second : String} (hfirst : Clear needle first)
    (hsecond : Clear needle second) : Clear needle (first ++ second) := by
  refine ⟨fun rest => ?_⟩
  rw [String.toList_append]
  exact (hfirst.avoids _).append (hsecond.avoids rest)

theorem Clear.join {texts : List String} (h : ∀ text ∈ texts, Clear needle text) :
    Clear needle (String.join texts) := by
  induction texts with
  | nil => exact ⟨fun _ => trivial⟩
  | cons text texts ih =>
      obtain ⟨hhead, htail⟩ := List.forall_mem_cons.mp h
      rw [String.join_cons]
      exact hhead.append (ih htail)

theorem clear_of_not_mem {first : Char} {text : String} (h : first ∉ text.toList) :
    Clear (first :: needle) text :=
  ⟨fun _ => avoids_of_not_mem h⟩

end Avoids

/-! ## Splitting -/

section Split

variable {needle front rest : List Char}

/-- The first occurrence is the one that nothing in front of it anticipates. -/
theorem splitOnce_append (h : Avoids needle front (needle ++ rest)) :
    splitOnce needle (front ++ (needle ++ rest)) = some (front, rest) := by
  induction front with
  | nil => cases needle <;> cases rest <;> simp [splitOnce]
  | cons c front ih =>
      have hnot : ¬needle.isPrefixOf (c :: (front ++ (needle ++ rest))) = true := by
        simpa using h.1
      rw [List.cons_append, splitOnce, if_neg hnot, ih h.2]

theorem splitParts_append (passed rest : List Char) :
    splitParts needle passed.length (passed ++ rest) = splitParts needle 0 rest := by
  induction passed with
  | nil => rfl
  | cons c passed ih => exact ih

theorem splitAll_append (hne : needle ≠ []) (h : Avoids needle front (needle ++ rest)) :
    splitAll needle (front ++ (needle ++ rest)) = front :: splitAll needle rest := by
  unfold splitAll
  induction front with
  | nil =>
      obtain ⟨first, more, rfl⟩ := List.exists_cons_of_ne_nil hne
      have hprefix : (first :: more).isPrefixOf (first :: (more ++ rest)) = true := by simp
      rw [List.nil_append, List.cons_append, splitParts, if_pos hprefix]
      exact congrArg _ (splitParts_append more rest)
  | cons c front ih =>
      have hnot : ¬needle.isPrefixOf (c :: (front ++ (needle ++ rest))) = true := by
        simpa using h.1
      rw [List.cons_append, splitParts, if_neg hnot, ih h.2]
      rfl

theorem splitAll_of_avoids (h : Avoids needle front []) : splitAll needle front = [front] := by
  unfold splitAll
  induction front with
  | nil => rfl
  | cons c front ih =>
      have hnot : ¬needle.isPrefixOf (c :: front) = true := by simpa using h.1
      rw [splitParts, if_neg hnot, ih h.2]
      rfl

end Split

/-! ## Lines -/

/-- The texts as lines, each behind a line feed. -/
def onLines (texts : List String) : String := String.join (texts.map ("\n" ++ ·))

@[simp] theorem onLines_nil : onLines [] = "" := rfl

theorem onLines_cons (text : String) (texts : List String) :
    onLines (text :: texts) = "\n" ++ text ++ onLines texts := by
  simp [onLines, String.join_cons]

theorem onLines_append (texts others : List String) :
    onLines (texts ++ others) = onLines texts ++ onLines others := by
  induction texts with
  | nil => simp
  | cons text texts ih =>
      rw [List.cons_append, onLines_cons, ih, onLines_cons, ← String.append_assoc]

/-- The text stays on its line and is not shortened when lines are told apart. -/
def IsLine (text : String) : Prop := '\n' ∉ text.toList ∧ '\r' ∉ text.toList

instance (text : String) : Decidable (IsLine text) := by
  unfold IsLine
  infer_instance

theorem IsLine.append {first second : String} (hfirst : IsLine first) (hsecond : IsLine second) :
    IsLine (first ++ second) := by
  simp [IsLine, hfirst.1, hfirst.2, hsecond.1, hsecond.2]

theorem splitAll_onLines {first : String} {texts : List String} (hfirst : IsLine first)
    (htexts : ∀ text ∈ texts, IsLine text) :
    splitAll ['\n'] (first ++ onLines texts).toList =
      first.toList :: texts.map String.toList := by
  induction texts generalizing first with
  | nil =>
      rw [onLines_nil, String.append_empty]
      exact splitAll_of_avoids (avoids_of_not_mem hfirst.1)
  | cons text texts ih =>
      obtain ⟨htext, htexts⟩ := List.forall_mem_cons.mp htexts
      have hsplit : (first ++ onLines (text :: texts)).toList =
          first.toList ++ (['\n'] ++ (text ++ onLines texts).toList) := by
        rw [onLines_cons]
        simp
      rw [hsplit, splitAll_append (by simp) (avoids_of_not_mem hfirst.1), ih htext htexts]
      rfl

theorem dropReturn_of_isLine {text : String} (h : IsLine text) :
    dropReturn text.toList = text.toList := by
  unfold dropReturn
  split
  next hlast => exact absurd (List.mem_of_getLast? hlast) h.2
  next => rfl

/-- Lines are found again, unless nothing stands on the last one. -/
theorem lines_onLines {first last : String} {texts : List String} (hfirst : IsLine first)
    (htexts : ∀ text ∈ texts, IsLine text) (hlast : IsLine last) (hne : last ≠ "") :
    lines (first ++ onLines (texts ++ [last])).toList =
      (first :: texts ++ [last]).map String.toList := by
  have hall : ∀ text ∈ texts ++ [last], IsLine text := by
    simpa [or_imp, forall_and] using ⟨htexts, hlast⟩
  have hparts : splitAll ['\n'] (first ++ onLines (texts ++ [last])).toList =
      (first :: texts).map String.toList ++ [last.toList] := by
    rw [splitAll_onLines hfirst hall]
    simp
  have hended : ((first :: texts).map String.toList).map dropReturn =
      (first :: texts).map String.toList := by
    rw [List.map_map]
    apply List.map_congr_left
    intro text htext
    rcases List.mem_cons.mp htext with rfl | htext
    · exact dropReturn_of_isLine hfirst
    · exact dropReturn_of_isLine (htexts text htext)
  obtain ⟨c, more, hchars⟩ := List.exists_cons_of_ne_nil (l := last.toList) (by simpa using hne)
  unfold lines
  rw [hparts]
  simp only [List.dropLast_concat, List.getLast?_concat, hended, hchars]
  simp [hchars]

end Wiring.Text
