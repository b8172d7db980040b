import Mathlib.Data.List.Forall2
import Wiring.Proofs.Json.Numeral
import Wiring.Proofs.Json.Quoted
import Wiring.Proofs.Json.Tokens

/-!
# The scan of a spelled value

A text made of the tokens of a value is scanned as a complete node that spells this
value, and the scan stops right behind it. The fuel suffices because every token has
at least one character.
-/

namespace Wiring.Json

/-! ## Nodes that spell a value -/

/-- A complete node that means the given value. -/
inductive Node.Spells : Node → Value → Prop where
  /-- No value. -/
  | null {extent : Extent} : Spells (.null extent) .null
  /-- A truth value. -/
  | flag {value : Bool} {extent : Extent} : Spells (.flag value extent) (.flag value)
  | number {numeral : Numeral} {extent : Extent} {number : Number}
      (hread : numeral.read extent.rest = .ok number.stored) :
      Spells (.number numeral extent) (.number number)
  | text {quoted : QuotedText} {text : String} (htext : quoted.Spells text) :
      Spells (.text quoted) (.text text)
  /-- An array whose elements spell the given ones. -/
  | array {start rest : List Char} {items : List (Item Node)} {values : List Value}
      (hitems : List.Forall₂ (fun item value => Spells item.value value) items values) :
      Spells (.array start items (.closed rest)) (.array values)
  /-- An object whose members spell the given ones. -/
  | object {start rest : List Char} {members : List (Member Node)}
      {values : List (String × Value)}
      (hnames : List.Forall₂ (fun member value => member.name.Spells value.1) members values)
      (hvalues : List.Forall₂ (fun member value => Spells member.value value.2) members values) :
      Spells (.object start members (.closed rest)) (.object values)

mutual

/-- Whether all numbers of a value are whole and, but for their signs, fit a word. -/
def Value.isPlain : Value → Bool
  | .null | .flag _ | .text _ => true
  | .number value => value.isWord
  | .array items => arePlain items
  | .object members => membersPlain members

/-- Whether all elements are plain. -/
def arePlain : List Value → Bool
  | [] => true
  | item :: items => item.isPlain && arePlain items

/-- Whether the values of all members are plain. -/
def membersPlain : List (String × Value) → Bool
  | [] => true
  | (_, value) :: members => value.isPlain && membersPlain members

end

/-! ## First tokens -/

theorem isSpace_eq_false_of_isDigit {c : Char} (hc : c.isDigit = true) :
    isSpace c = false ∧ c ≠ ']' := by
  refine ⟨?_, by rintro rfl; simp at hc⟩
  simp only [isSpace, Bool.or_eq_false_iff, decide_eq_false_iff_not]
  refine ⟨⟨⟨?_, ?_⟩, ?_⟩, ?_⟩ <;> rintro rfl <;> simp at hc

/-- A digit starts neither a word nor the sign of a number. -/
theorem ne_letter_of_isDigit {c : Char} (hc : c.isDigit = true) :
    c ≠ 'n' ∧ c ≠ 't' ∧ c ≠ 'f' ∧ c ≠ '-' := by
  refine ⟨?_, ?_, ?_, ?_⟩ <;> rintro rfl <;> simp at hc

theorem writeInteger_start (value : Int) : ∃ (c : Char) (token : List Char),
    writeInteger value = c :: token ∧ isSpace c = false ∧ c ≠ ']' := by
  unfold writeInteger
  split
  next => exact ⟨'-', _, rfl, by decide, by decide⟩
  next =>
    cases hdigits : Nat.toDigits 10 value.natAbs with
    | nil => exact absurd hdigits Nat.toDigits_ne_nil
    | cons c digits =>
        have hc : c.isDigit = true := isDigit_of_mem_digits (hdigits ▸ List.mem_cons_self)
        exact ⟨c, digits, rfl, isSpace_eq_false_of_isDigit hc⟩

/-- What the first token of a value starts with: no blank, and no closing bracket. -/
theorem Value.tokens_start {value : Value} (hplain : value.isPlain = true) :
    ∃ (c : Char) (token : List Char) (tokens : List (List Char)),
      value.tokens = (c :: token) :: tokens ∧ isSpace c = false ∧ c ≠ ']' := by
  match value, hplain with
  | .null, _ | .flag true, _ | .flag false, _ | .text _, _ | .array [], _ | .array (_ :: _), _
  | .object [], _ | .object ((_, _) :: _), _ => exact ⟨_, _, _, rfl, by decide, by decide⟩
  | .number (.integer value), _ =>
      obtain ⟨c, token, htoken, hc⟩ := writeInteger_start value
      exact ⟨c, token, [], by rw [Value.tokens, writeNumber, htoken], hc⟩

/-- Where a value is due, its first character is found behind the blanks. -/
theorem Spaced.skipSpace_value {value : Value} (hplain : value.isPlain = true)
    {tokens : List (List Char)} {text rest : List Char}
    (h : Spaced (value.tokens ++ tokens) text rest) :
    ∃ (c : Char) (behind : List Char), skipSpace text = c :: behind ∧ c ≠ ']' ∧
      Spaced (value.tokens ++ tokens) (skipSpace text) rest ∧
      (skipSpace text).length ≤ text.length := by
  obtain ⟨c, token, more, htokens, hblank, hbracket⟩ := Value.tokens_start hplain
  rw [htokens, List.cons_append] at h ⊢
  obtain ⟨behind, hskip, -, -⟩ := h.skipSpace_eq hblank
  exact ⟨c, _, hskip, hbracket, h.of_skipSpace hblank⟩

theorem continuesNumber_eq_false {c : Char} (hc : isSpace c = true) :
    continuesNumber c = false := by
  simp only [isSpace, Bool.or_eq_true, decide_eq_true_eq] at hc
  rcases hc with ((rfl | rfl) | rfl) | rfl <;> decide

/-- In front of a bracket or a comma a number ends. -/
theorem Spaced.ends {c : Char} {tokens : List (List Char)} {text rest : List Char}
    (h : Spaced ([c] :: tokens) text rest) (hc : continuesNumber c = false) :
    text.head?.any continuesNumber = false := by
  cases h with
  | @next blanks _ text _ _ hblanks _ =>
      cases blanks with
      | nil => simpa using hc
      | cons blank blanks =>
          simpa using continuesNumber_eq_false (hblanks blank (by simp))

/-! ## Scanning the tokens of a value -/

theorem scanValue_writeNumber {number : Number} (fuel : Nat) {text rest : List Char}
    (hword : number.isWord = true) (hskip : skipSpace text = writeNumber number ++ rest)
    (hends : rest.head?.any continuesNumber = false) :
    ∃ numeral : Numeral, scanValue (fuel + 1) text = .number numeral ⟨skipSpace text, rest⟩ ∧
      numeral.read rest = .ok number.stored := by
  cases number with
  | real value => simp [Number.isWord] at hword
  | integer value =>
      refine ⟨.ofInt value, ?_, Numeral.read_ofInt (by simpa [Number.isWord] using hword) rest⟩
      rw [← scanNumber_toDigits (skipSpace text) value hends]
      by_cases hnegative : value < 0
      · simp only [writeNumber, writeInteger, hnegative, if_true] at hskip
        simp [scanValue, hskip, hnegative]
      · simp only [writeNumber, writeInteger, hnegative, if_false] at hskip
        cases hdigits : Nat.toDigits 10 value.natAbs with
        | nil => exact absurd hdigits Nat.toDigits_ne_nil
        | cons c digits =>
            have hc : c.isDigit = true := isDigit_of_mem_digits (hdigits ▸ List.mem_cons_self)
            rw [hdigits] at hskip
            simp [scanValue, hskip, hnegative, hc, ne_letter_of_isDigit hc]

/-! ### Arrays and objects step by step -/

section Steps

variable {fuel : Nat} {text behind after rest : List Char} {c : Char}

theorem scanValue_array (htext : skipSpace text = '[' :: behind)
    (hbehind : skipSpace behind = c :: after) (hc : c ≠ ']') :
    scanValue (fuel + 1) text = .array (skipSpace text)
      (scanItems fuel (skipSpace behind)).1 (scanItems fuel (skipSpace behind)).2 := by
  rw [scanValue]
  simp only [htext, hbehind]
  simp only [Char.reduceEq, if_false, Char.reduceIsDigit, Bool.false_eq_true, if_true]
  split <;> simp_all

theorem scanValue_object (htext : skipSpace text = '{' :: behind)
    (hbehind : skipSpace behind = '"' :: after) :
    scanValue (fuel + 1) text = .object (skipSpace text)
      (scanMembers fuel after).1 (scanMembers fuel after).2 := by
  rw [scanValue]
  simp [htext, hbehind]

theorem scanItems_last (hrest : skipSpace (scanValue fuel text).rest = ']' :: rest) :
    scanItems (fuel + 1) text =
      ([{ value := scanValue fuel text, behind := rest }], .closed rest) := by
  rw [scanItems]
  simp [hrest]

theorem scanItems_more (hrest : skipSpace (scanValue fuel text).rest = ',' :: behind)
    (hbehind : skipSpace behind = c :: after) (hc : c ≠ ']') :
    scanItems (fuel + 1) text =
      ({ value := scanValue fuel text, behind := skipSpace behind } ::
        (scanItems fuel (skipSpace behind)).1, (scanItems fuel (skipSpace behind)).2) := by
  rw [scanItems]
  simp only [hrest, hbehind]
  split <;> simp_all

/-- The member that starts behind the opening quote of its name. -/
def scanMember (fuel : Nat) (chars : List Char) : Member Node :=
  let name := scanText .plain chars
  let value :=
    match skipSpace name.rest with
    | [] => .missing .endInObject []
    | ':' :: rest => scanValue fuel rest
    | rest => .missing .expectedColon rest
  { name, behindName := skipBrace name.rest, value, behind := skipBrace value.rest }

theorem scanMember_value
    (hcolon : skipSpace (scanText .plain text).rest = ':' :: behind) :
    (scanMember fuel text).value = scanValue fuel behind := by
  simp [scanMember, hcolon]

/-- What follows a member decides how the scan goes on. -/
theorem scanMembers_succ (fuel : Nat) (chars : List Char) :
    scanMembers (fuel + 1) chars =
      match skipSpace (scanMember fuel chars).value.rest with
      | [] => ([scanMember fuel chars], .cutOff)
      | '}' :: rest => ([scanMember fuel chars], .closed rest)
      | ',' :: rest =>
          let next := skipSpace rest
          match next with
          | [] => ([scanMember fuel chars], .commaCutOff)
          | '}' :: _ => ([scanMember fuel chars], .comma next)
          | '"' :: rest =>
              let (members, tail) := scanMembers fuel rest
              (scanMember fuel chars :: members, tail)
          | _ => ([scanMember fuel chars], .badName next)
      | rest => ([scanMember fuel chars], .junk rest) := by
  rw [scanMembers]
  rfl

theorem scanMembers_last
    (hrest : skipSpace (scanMember fuel text).value.rest = '}' :: rest) :
    scanMembers (fuel + 1) text = ([scanMember fuel text], .closed rest) := by
  rw [scanMembers_succ, hrest]
  rfl

theorem scanMembers_more
    (hrest : skipSpace (scanMember fuel text).value.rest = ',' :: behind)
    (hbehind : skipSpace behind = '"' :: after) :
    scanMembers (fuel + 1) text =
      (scanMember fuel text :: (scanMembers fuel after).1, (scanMembers fuel after).2) := by
  rw [scanMembers_succ, hrest]
  simp only [hbehind]

end Steps

/-! ### The scan

By recursion on the value. A bracket or a comma is passed before each element and member,
and the text behind it is shorter by at least one character, which pays for the two
units of fuel that the element takes. -/

mutual

theorem scanValue_spells : ∀ (value : Value) {fuel : Nat} {text rest : List Char},
    value.isPlain = true → Spaced value.tokens text rest →
    (∀ number, value = .number number → rest.head?.any continuesNumber = false) →
    2 * text.length ≤ fuel →
      (scanValue (fuel + 1) text).Spells value ∧ (scanValue (fuel + 1) text).rest = rest
  | .null, fuel, text, rest, _, hspaced, _, _ => by
      have hskip := hspaced.skipSpace_last (by rfl)
      have hscan : scanValue (fuel + 1) text = .null ⟨skipSpace text, rest⟩ := by
        simp [scanValue, hskip, scanWord]
      rw [hscan]
      exact ⟨.null, rfl⟩
  | .flag true, fuel, text, rest, _, hspaced, _, _ => by
      have hskip := hspaced.skipSpace_last (by rfl)
      have hscan : scanValue (fuel + 1) text = .flag true ⟨skipSpace text, rest⟩ := by
        simp [scanValue, hskip, scanWord]
      rw [hscan]
      exact ⟨.flag, rfl⟩
  | .flag false, fuel, text, rest, _, hspaced, _, _ => by
      have hskip := hspaced.skipSpace_last (by rfl)
      have hscan : scanValue (fuel + 1) text = .flag false ⟨skipSpace text, rest⟩ := by
        simp [scanValue, hskip, scanWord]
      rw [hscan]
      exact ⟨.flag, rfl⟩
  | .number number, fuel, text, rest, hplain, hspaced, hends, _ => by
      have hword : number.isWord = true := hplain
      obtain ⟨c, token, tokens, htokens, hc, -⟩ := Value.tokens_start hplain
      have hchars : writeNumber number = c :: token := by
        simpa [Value.tokens] using (List.cons.inj htokens).1
      have hspaced : Spaced [c :: token] text rest := by simpa [Value.tokens, hchars] using hspaced
      have hskip : skipSpace text = writeNumber number ++ rest := by
        rw [hspaced.skipSpace_last hc, hchars, List.cons_append]
      obtain ⟨numeral, hscan, hread⟩ := scanValue_writeNumber fuel hword hskip (hends number rfl)
      rw [hscan]
      exact ⟨.number hread, rfl⟩
  | .text value, fuel, text, rest, _, hspaced, _, _ => by
      have hskip := hspaced.skipSpace_last (by rfl)
      have hscan : scanValue (fuel + 1) text =
          .text (scanText .plain (value.toList.flatMap writeChar ++ '"' :: rest)) := by
        simp [scanValue, hskip]
      obtain ⟨htext, hrest⟩ := scanText_spells value rest
      rw [hscan]
      exact ⟨.text htext, hrest⟩
  | .array [], fuel, text, rest, _, hspaced, _, _ => by
      obtain ⟨behind, hskip, hmore, -⟩ := hspaced.skipSpace_mark (by rfl)
      have hclose := hmore.skipSpace_last (by rfl)
      have hscan : scanValue (fuel + 1) text = .array (skipSpace text) [] (.closed rest) := by
        simp [scanValue, hskip, hclose]
      rw [hscan]
      exact ⟨.array .nil, rfl⟩
  | .object [], fuel, text, rest, _, hspaced, _, _ => by
      obtain ⟨behind, hskip, hmore, -⟩ := hspaced.skipSpace_mark (by rfl)
      have hclose := hmore.skipSpace_last (by rfl)
      have hscan : scanValue (fuel + 1) text = .object (skipSpace text) [] (.closed rest) := by
        simp [scanValue, hskip, hclose]
      rw [hscan]
      exact ⟨.object .nil .nil, rfl⟩
  | .array (item :: items), fuel, text, rest, hplain, hspaced, _, hfuel => by
      obtain ⟨behind, hskip, hmore, hlength⟩ := hspaced.skipSpace_mark (by rfl)
      have hitem : item.isPlain = true := by simp_all [Value.isPlain, arePlain]
      obtain ⟨c, after, hstart, hbracket, hitems, hshort⟩ := hmore.skipSpace_value hitem
      obtain ⟨nodes, hnodes, hspells⟩ := scanItems_spells (item :: items) (by simp) hplain hitems
        (show 2 * _ + 2 ≤ fuel by omega)
      rw [scanValue_array hskip hstart hbracket, hnodes]
      exact ⟨.array hspells, rfl⟩
  | .object ((name, value) :: members), fuel, text, rest, hplain, hspaced, _, hfuel => by
      obtain ⟨behind, hskip, hmore, hlength⟩ := hspaced.skipSpace_mark (by rfl)
      obtain ⟨after, hstart, -, -⟩ := hmore.skipSpace_eq (by rfl)
      obtain ⟨hmembers, hshort⟩ := hmore.of_skipSpace (by rfl)
      rw [hstart] at hmembers hshort
      obtain ⟨nodes, hnodes, hnames, hvalues⟩ := scanMembers_spells
        ((name, value) :: members) (by simp) hplain hmembers
        (show 2 * _ + 2 ≤ fuel by rw [List.length_cons] at hshort; omega)
      rw [scanValue_object hskip hstart, hnodes]
      exact ⟨.object hnames hvalues, rfl⟩

theorem scanItems_spells : ∀ (items : List Value) {fuel : Nat} {text rest : List Char},
    items ≠ [] → arePlain items = true → Spaced (itemTokens items).tail text rest →
    2 * text.length + 2 ≤ fuel →
      ∃ nodes : List (Item Node), scanItems fuel text = (nodes, .closed rest) ∧
        List.Forall₂ (fun item value => item.value.Spells value) nodes items
  | [], _, _, _, hitems, _, _, _ => absurd rfl hitems
  | item :: items, fuel, text, rest, _, hplain, hspaced, hfuel => by
      obtain ⟨fuel, rfl⟩ : ∃ n, fuel = n + 2 := ⟨fuel - 2, by omega⟩
      simp only [arePlain, Bool.and_eq_true] at hplain
      obtain ⟨middle, hitem, hitems⟩ := hspaced.split_append
      -- whether elements follow or not, no digit stands right behind this one
      have hends : middle.head?.any continuesNumber = false := by
        cases items <;> exact hitems.ends (by rfl)
      obtain ⟨hspells, hrest⟩ := scanValue_spells item hplain.1 hitem (fun _ _ => hends)
        (show 2 * text.length ≤ fuel by omega)
      match items with
      | [] =>
          have hskip := hitems.skipSpace_last (by rfl)
          rw [← hrest] at hskip
          exact ⟨_, scanItems_last hskip, .cons hspells .nil⟩
      | next :: items =>
          obtain ⟨behind, hskip, hmore, hlength⟩ := hitems.skipSpace_mark (by rfl)
          have hnext : next.isPlain = true := by simp_all [arePlain]
          obtain ⟨c, after, hstart, hbracket, hmore, hshort⟩ := hmore.skipSpace_value hnext
          obtain ⟨nodes, hnodes, hmore⟩ := scanItems_spells (next :: items) (by simp) hplain.2
            hmore (show 2 * _ + 2 ≤ fuel + 1 by have := hitem.length_le; omega)
          rw [← hrest] at hskip
          rw [scanItems_more hskip hstart hbracket, hnodes]
          exact ⟨_, rfl, .cons hspells hmore⟩

theorem scanMembers_spells : ∀ (members : List (String × Value)) {fuel : Nat}
    {chars rest : List Char}, members ≠ [] → membersPlain members = true →
    Spaced (memberTokens members).tail ('"' :: chars) rest → 2 * chars.length + 2 ≤ fuel →
      ∃ nodes : List (Member Node), scanMembers fuel chars = (nodes, .closed rest) ∧
        List.Forall₂ (fun member value => member.name.Spells value.1) nodes members ∧
        List.Forall₂ (fun member value => member.value.Spells value.2) nodes members
  | [], _, _, _, hmembers, _, _, _ => absurd rfl hmembers
  | (name, value) :: members, fuel, chars, rest, _, hplain, hspaced, hfuel => by
      obtain ⟨fuel, rfl⟩ : ∃ n, fuel = n + 2 := ⟨fuel - 2, by omega⟩
      simp only [membersPlain, Bool.and_eq_true] at hplain
      obtain ⟨behind, hquote, hmore, hlength⟩ := hspaced.skipSpace_eq (by rfl)
      rw [skipSpace_cons (by rfl)] at hquote
      have hchars : chars = name.toList.flatMap writeChar ++ '"' :: behind := by
        simpa using (List.cons.inj hquote).2
      obtain ⟨hname, hbehind⟩ := scanText_spells name behind
      rw [← hchars] at hname hbehind
      obtain ⟨after, hcolon, hmore, hafter⟩ := hmore.skipSpace_mark (by rfl)
      rw [← hbehind] at hcolon
      obtain ⟨middle, hvalue, hmembers⟩ := hmore.split_append
      have hshort := hvalue.length_le
      have hends : middle.head?.any continuesNumber = false := by
        cases members <;> exact hmembers.ends (by rfl)
      rw [List.length_cons] at hlength
      obtain ⟨hspells, hrest⟩ := scanValue_spells value hplain.1 hvalue (fun _ _ => hends)
        (show 2 * after.length ≤ fuel by omega)
      rw [← scanMember_value hcolon] at hspells hrest
      match members with
      | [] =>
          have hskip := hmembers.skipSpace_last (by rfl)
          rw [← hrest] at hskip
          exact ⟨_, scanMembers_last hskip, .cons hname .nil, .cons hspells .nil⟩
      | (next, nextValue) :: members =>
          obtain ⟨close, hskip, hmore, hclose⟩ := hmembers.skipSpace_mark (by rfl)
          obtain ⟨quoted, hstart, -, -⟩ := hmore.skipSpace_eq (by rfl)
          obtain ⟨hmore, hquoted⟩ := hmore.of_skipSpace (by rfl)
          rw [hstart] at hmore hquoted
          rw [List.length_cons] at hquoted
          obtain ⟨nodes, hnodes, hnames, hvalues⟩ := scanMembers_spells
            ((next, nextValue) :: members) (by simp) hplain.2 hmore
            (show 2 * _ + 2 ≤ fuel + 1 by omega)
          rw [← hrest] at hskip
          rw [scanMembers_more hskip hstart, hnodes]
          exact ⟨_, rfl, .cons hname hnames, .cons hspells hvalues⟩

end

/-! ## Texts -/

/-- The scan of a text that goes on behind a value spells this value and stops there. -/
theorem Node.scan_spells {value : Value} {text rest : List Char}
    (hplain : value.isPlain = true) (hspaced : Spaced value.tokens text rest)
    (hends : ∀ number, value = .number number → rest.head?.any continuesNumber = false) :
    (Node.scan text).Spells value ∧ (Node.scan text).rest = rest :=
  scanValue_spells value hplain hspaced hends (Nat.le_refl _)

end Wiring.Json
