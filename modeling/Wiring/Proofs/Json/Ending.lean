import Wiring.Proofs.Json.Reading

/-!
# The scan of a text that breaks off

Where a text breaks off inside the compact text of a value, its scan gives a node that
breaks off at the same place: all that comes before is complete, and nothing follows.
-/

namespace Wiring.Json

variable {α β γ : Type}

/-! ## Texts that break off -/

/-- A text that is continued to the whole one by at least one more character. -/
def BreaksOff (text whole : List Char) : Prop :=
  ∃ rest : List Char, rest ≠ [] ∧ text ++ rest = whole

namespace BreaksOff

variable {c : Char} {text first second whole : List Char}

theorem not_nil : ¬ BreaksOff text [] := by
  rintro ⟨rest, hrest, htext⟩
  exact hrest (List.append_eq_nil_iff.mp htext).2

theorem cons (h : BreaksOff text (c :: whole)) :
    text = [] ∨ ∃ more, text = c :: more ∧ BreaksOff more whole := by
  obtain ⟨rest, hrest, htext⟩ := h
  rcases List.append_eq_cons_iff.mp htext with ⟨htext, -⟩ | ⟨more, htext, hmore⟩
  · exact .inl htext
  · exact .inr ⟨more, htext, rest, hrest, hmore.symm⟩

theorem tail {d : Char} (h : BreaksOff (d :: text) (c :: whole)) :
    d = c ∧ BreaksOff text whole := by
  obtain ⟨more, hmore, hbroken⟩ := h.cons.resolve_left (by simp)
  obtain ⟨rfl, rfl⟩ := List.cons.inj hmore
  exact ⟨rfl, hbroken⟩

theorem eq_nil (h : BreaksOff text [c]) : text = [] := by
  rcases h.cons with htext | ⟨more, -, hmore⟩
  · exact htext
  · exact absurd hmore not_nil

/-- A text breaks off inside the first part of the whole one or behind it. -/
theorem append (h : BreaksOff text (first ++ second)) :
    BreaksOff text first ∨ ∃ more, text = first ++ more ∧ BreaksOff more second := by
  obtain ⟨rest, hrest, htext⟩ := h
  rcases List.append_eq_append_iff.mp htext with ⟨behind, hfirst, hbehind⟩ | ⟨more, htext, hmore⟩
  · cases behind with
    | nil => exact .inr ⟨[], by simpa using hfirst.symm, rest, hrest, by simpa using hbehind⟩
    | cons c behind => exact .inl ⟨c :: behind, by simp, hfirst.symm⟩
  · exact .inr ⟨more, htext, rest, hrest, hmore.symm⟩

end BreaksOff

/-! ## Refusals because of the end -/

/-- A reader refuses a text because it ends too early. -/
def EndsEarly (result : Except Refusal α) : Prop :=
  ∃ refusal : Refusal, result = .error refusal ∧ refusal.fault.category = .ended

namespace EndsEarly

variable {result : Except Refusal α} {fault : Fault}

theorem refused (h : EndsEarly result) : Refused (·.category = .ended) result := h

theorem bind (h : EndsEarly result) (next : α → Except Refusal β) :
    EndsEarly (result >>= next) :=
  h.refused.bind next

theorem map (h : EndsEarly result) (f : α → β) : EndsEarly (result.map f) :=
  h.refused.map f

theorem settled (h : EndsEarly result) (spot : Option Spot) :
    EndsEarly (Json.settled spot result) :=
  h.refused.settled spot

theorem refuseNext (hended : fault.category = .ended) (rest : List Char) :
    EndsEarly (Json.refuseNext fault rest : Except Refusal α) :=
  ⟨_, rfl, hended⟩

theorem refuseEnd (hended : fault.category = .ended) :
    EndsEarly (Json.refuseEnd fault : Except Refusal α) :=
  ⟨_, rfl, hended⟩

end EndsEarly

/-! ## Nodes that break off -/

/-- Elements or members up to the place where the text ends: the last one breaks off, or
the text ends behind it or behind the comma that follows it. -/
inductive CutsOff (whole cut : β → γ → Prop) : List β → Tail → List γ → Prop where
  | ended {values : List γ} : CutsOff whole cut [] .cutOff values
  | comma {values : List γ} (hmore : values ≠ []) : CutsOff whole cut [] .commaCutOff values
  | broken {part : β} {value : γ} {values : List γ} (hpart : cut part value) :
      CutsOff whole cut [part] .cutOff (value :: values)
  /-- One that is complete, and what follows it. -/
  | more {part : β} {parts : List β} {tail : Tail} {value : γ} {values : List γ}
      (hpart : whole part value) (hparts : CutsOff whole cut parts tail values) :
      CutsOff whole cut (part :: parts) tail (value :: values)

theorem CutsOff.rest_eq {whole cut : β → γ → Prop} {parts : List β} {tail : Tail}
    {values : List γ} (h : CutsOff whole cut parts tail values) : tail.rest = [] := by
  induction h with
  | ended | comma | broken => rfl
  | more _ _ ih => exact ih

mutual

/-- A node that breaks off inside the given value, because the text ends. Of a number
there may be some digits, which are a number as well. -/
inductive Node.Cut : Node → Value → Prop where
  | missing {fault : Fault} {rest : List Char} {value : Value}
      (hended : fault.category = .ended) : Node.Cut (.missing fault rest) value
  | null {start : List Char} : Node.Cut (.brokenNull ⟨start, []⟩) .null
  | flag {start : List Char} {value : Bool} : Node.Cut (.brokenFlag ⟨start, []⟩) (.flag value)
  | number {node : Node} {number : Number} : Node.Cut node (.number number)
  | text {quoted : QuotedText} {text : String} (htext : EndsEarly quoted.decode) :
      Node.Cut (.text quoted) (.text text)
  | array {start : List Char} {items : List (Item Node)} {tail : Tail} {values : List Value}
      (hitems : CutsOff (fun item value => item.value.Spells value)
        (fun item value => Node.Cut item.value value) items tail values) :
      Node.Cut (.array start items tail) (.array values)
  | object {start : List Char} {members : List (Member Node)} {tail : Tail}
      {values : List (String × Value)}
      (hmembers : CutsOff (fun member value => member.name.Spells value.1 ∧
        member.value.Spells value.2) Member.Cut members tail values) :
      Node.Cut (.object start members tail) (.object values)

/-- A member that breaks off inside its name or inside its value. -/
inductive Member.Cut : Member Node → String × Value → Prop where
  | name {member : Member Node} {value : String × Value}
      (hname : EndsEarly member.name.decode) : Member.Cut member value
  | value {member : Member Node} {value : String × Value}
      (hname : member.name.Spells value.1) (hvalue : Node.Cut member.value value.2) :
      Member.Cut member value

end

/-- Elements that break off inside the given ones. -/
abbrev ItemsCut : List (Item Node) → Tail → List Value → Prop :=
  CutsOff (fun item value => item.value.Spells value) fun item value => item.value.Cut value

/-- Members that break off inside the given ones. -/
abbrev MembersCut : List (Member Node) → Tail → List (String × Value) → Prop :=
  CutsOff (fun member value => member.name.Spells value.1 ∧ member.value.Spells value.2)
    Member.Cut

/-! ## Quoted texts -/

theorem utf8Size_hexDigit : ∀ {value : Nat}, value < 16 → (hexDigit value).utf8Size = 1 := by
  decide

theorem byteCount_eq_length {chars : List Char} (h : ∀ c ∈ chars, c.utf8Size = 1) :
    Text.byteCount chars = chars.length := by
  induction chars with
  | nil => rfl
  | cons c chars ih =>
      rw [Text.byteCount, h c (by simp), ih fun c hc => h c (by simp [hc]), List.length_cons]
      omega

/-- Digits that are not all there have too few bytes. -/
theorem BreaksOff.hasBytes_eq_false {digits whole : List Char} (h : BreaksOff digits whole)
    (hwhole : ∀ c ∈ whole, c.utf8Size = 1) : hasBytes whole.length digits = false := by
  obtain ⟨rest, hrest, rfl⟩ := h
  have hlength := List.length_pos_iff.mpr hrest
  have htake : digits.take (digits ++ rest).length = digits := List.take_of_length_le (by simp)
  have hcount := byteCount_eq_length fun c hc => hwhole c (List.mem_append_left rest hc)
  rw [hasBytes, htake, hcount, List.length_append]
  exact decide_eq_false (by omega)

/-- What is written for a character is no unit before it is complete. -/
theorem scanText_breaksOff_writeChar {c : Char} {text : List Char}
    (h : BreaksOff text (writeChar c)) : scanText .plain text = ⟨[], .cutOff⟩ := by
  have hshort : ∀ {letter : Char}, BreaksOff text ['\\', letter] →
      scanText .plain text = ⟨[], .cutOff⟩ := by
    intro letter h
    rcases h.cons with rfl | ⟨more, rfl, hmore⟩
    · simp [scanText]
    · obtain rfl := hmore.eq_nil
      simp [scanText]
  unfold writeChar at h
  split at h
  case h_8 =>
    split at h
    next hcontrol =>
      rcases h.cons with rfl | ⟨more, rfl, hmore⟩
      · simp [scanText]
      rcases hmore.cons with rfl | ⟨digits, rfl, hdigits⟩
      · simp [scanText]
      have hfew : hasBytes 4 digits = false := by
        refine hdigits.hasBytes_eq_false ?_
        have hfirst := utf8Size_hexDigit (show c.toNat / 16 < 16 by omega)
        have hsecond := utf8Size_hexDigit (show c.toNat % 16 < 16 by omega)
        simp [hfirst, hsecond, show '0'.utf8Size = 1 by decide]
      simp [scanText, hfew]
    next =>
      obtain rfl := h.eq_nil
      simp [scanText]
  all_goals exact hshort h

/-- Behind its opening quote a text is not read before its closing quote has come. -/
theorem scanText_breaksOff : ∀ (chars : List Char) {text : List Char},
    BreaksOff text (chars.flatMap writeChar ++ ['"']) →
      ∃ units : List TextUnit, scanText .plain text = ⟨units, .cutOff⟩ ∧
        decodeUnits .cutOff units = refuseEnd .endInText
  | [], text, h => by
      obtain rfl := h.eq_nil
      exact ⟨[], by simp [scanText], rfl⟩
  | c :: chars, text, h => by
      rw [List.flatMap_cons, List.append_assoc] at h
      rcases h.append with hfirst | ⟨more, rfl, hmore⟩
      · exact ⟨[], scanText_breaksOff_writeChar hfirst, rfl⟩
      · obtain ⟨units, hscan, hdecode⟩ := scanText_breaksOff chars hmore
        obtain ⟨unit, hmeans, hunit⟩ := scanText_writeChar c more
        refine ⟨unit :: units, by rw [hunit, hscan, QuotedText.cons], ?_⟩
        rw [hmeans, hdecode]
        rfl

theorem scanText_endsEarly {text : String} {chars : List Char}
    (h : BreaksOff chars (text.toList.flatMap writeChar ++ ['"'])) :
    EndsEarly (scanText .plain chars).decode ∧ (scanText .plain chars).rest = [] := by
  obtain ⟨units, hscan, hdecode⟩ := scanText_breaksOff _ h
  rw [hscan]
  refine ⟨?_, rfl⟩
  rw [QuotedText.decode, hdecode]
  exact (EndsEarly.refuseEnd rfl).map _

/-! ## Words and numbers -/

/-- A word whose first letter was read is not complete before its last one has come. -/
theorem scanWord_breaksOff {node broken : Extent → Node} {start : List Char} :
    ∀ {word text : List Char}, BreaksOff text word →
      scanWord node broken start word text = broken ⟨start, []⟩
  | [], _, h => absurd h BreaksOff.not_nil
  | c :: word, text, h => by
      rcases h.cons with rfl | ⟨more, rfl, hmore⟩
      · rfl
      · rw [scanWord, if_pos rfl, scanWord_breaksOff hmore]

/-- Behind digits that are all there is nothing is left. -/
theorem scanNumber_rest {digits : List Char} (hdigits : ∀ c ∈ digits, c.isDigit = true)
    (start : List Char) (isNegative : Bool) : (scanNumber start isNegative digits).rest = [] := by
  have hspan : spanDigits digits = (digits, []) := by
    rw [spanDigits, List.takeWhile_eq_self_iff.mpr hdigits, List.dropWhile_eq_nil_iff.mpr hdigits]
  rw [scanNumber, hspan]
  dsimp only
  split <;> rfl

theorem scanValue_integer_rest {value : Int} (fuel : Nat) {text : List Char}
    (h : BreaksOff text (writeInteger value)) : (scanValue (fuel + 1) text).rest = [] := by
  have hdigits : ∀ {digits : List Char}, BreaksOff digits (Nat.toDigits 10 value.natAbs) →
      ∀ c ∈ digits, c.isDigit = true := by
    rintro digits ⟨rest, -, hwhole⟩ c hc
    exact isDigit_of_mem_digits (hwhole ▸ List.mem_append_left rest hc)
  cases text with
  | nil => simp [scanValue, skipSpace, Node.rest]
  | cons c text =>
      unfold writeInteger at h
      split at h
      next =>
        obtain ⟨rfl, hbroken⟩ := h.tail
        simp only [scanValue, skipSpace_cons (show isSpace '-' = false from rfl)]
        exact scanNumber_rest (hdigits hbroken) _ true
      next =>
        have hc : c.isDigit = true := hdigits h c (by simp)
        simp only [scanValue, skipSpace_cons (isSpace_eq_false_of_isDigit hc).1, hc,
          ne_letter_of_isDigit hc, if_false, if_true]
        exact scanNumber_rest (hdigits h) _ false

/-! ## Where the text ends -/

/-- A value starts neither with a blank nor with a closing bracket. -/
theorem BreaksOff.start_value {value : Value} (hplain : value.isPlain = true) {c : Char}
    {text more : List Char} (h : BreaksOff (c :: text) (value.writeChars ++ more)) :
    isSpace c = false ∧ c ≠ ']' := by
  obtain ⟨first, token, tokens, htokens, hfirst⟩ := Value.tokens_start hplain
  rw [← value.flatten_tokens, htokens] at h
  obtain ⟨rfl, -⟩ := h.tail
  exact hfirst

theorem skipSpace_of_eq {c : Char} {text more : List Char} (htext : text = c :: more)
    (hc : isSpace c = false) : skipSpace text = c :: more :=
  htext ▸ skipSpace_cons hc more

section Steps

variable {fuel : Nat} {text behind : List Char}

theorem scanItems_ended (hrest : skipSpace (scanValue fuel text).rest = []) :
    scanItems (fuel + 1) text = ([{ value := scanValue fuel text, behind := [] }], .cutOff) := by
  rw [scanItems]
  simp [hrest]

theorem scanItems_comma (hrest : skipSpace (scanValue fuel text).rest = ',' :: behind)
    (hbehind : skipSpace behind = []) :
    scanItems (fuel + 1) text =
      ([{ value := scanValue fuel text, behind := [] }], .commaCutOff) := by
  rw [scanItems]
  simp [hrest, hbehind]

theorem scanMember_ended (hrest : skipSpace (scanText .plain text).rest = []) :
    (scanMember fuel text).value = .missing .endInObject [] := by
  simp [scanMember, hrest]

theorem scanMembers_ended (hrest : skipSpace (scanMember fuel text).value.rest = []) :
    scanMembers (fuel + 1) text = ([scanMember fuel text], .cutOff) := by
  rw [scanMembers_succ, hrest]

theorem scanMembers_comma (hrest : skipSpace (scanMember fuel text).value.rest = ',' :: behind)
    (hbehind : skipSpace behind = []) :
    scanMembers (fuel + 1) text = ([scanMember fuel text], .commaCutOff) := by
  rw [scanMembers_succ, hrest]
  simp only [hbehind]

end Steps

/-! ### The scan

By recursion on the value. The text breaks off inside the value that comes first, which is
the case of the recursion, or else this value is complete and it breaks off behind it. -/

/-- No number goes on where another token is due. -/
theorem BreaksOff.ends {c : Char} {text whole : List Char} (h : BreaksOff text (c :: whole))
    (hc : continuesNumber c = false) : text.head?.any continuesNumber = false := by
  rcases h.cons with rfl | ⟨more, rfl, -⟩
  · rfl
  · simpa using hc

section Parts

variable {value : Value} {fuel : Nat} {more : List Char}

theorem scanValue_cut_append (hplain : value.isPlain = true)
    (hcut : ∀ {text : List Char}, BreaksOff text value.writeChars → 2 * text.length ≤ fuel →
      (scanValue (fuel + 1) text).Cut value ∧ (scanValue (fuel + 1) text).rest = [])
    (hends : ∀ {text : List Char}, BreaksOff text more →
      text.head?.any continuesNumber = false)
    {text : List Char} (h : BreaksOff text (value.writeChars ++ more))
    (hfuel : 2 * text.length ≤ fuel) :
    (scanValue (fuel + 1) text).Cut value ∧ (scanValue (fuel + 1) text).rest = [] ∨
      (scanValue (fuel + 1) text).Spells value ∧ BreaksOff (scanValue (fuel + 1) text).rest more ∧
        (scanValue (fuel + 1) text).rest.length ≤ text.length := by
  rcases h.append with hbroken | ⟨behind, rfl, hbehind⟩
  · exact .inl (hcut hbroken hfuel)
  · obtain ⟨hspells, hrest⟩ := scanValue_spells value hplain (Spaced.writeChars value)
      (fun _ _ => hends hbehind) hfuel
    rw [hrest]
    exact .inr ⟨hspells, hbehind, by simp⟩

theorem scanMember_cut {name : String} (hplain : value.isPlain = true)
    (hcut : ∀ {text : List Char}, BreaksOff text value.writeChars → 2 * text.length ≤ fuel →
      (scanValue (fuel + 1) text).Cut value ∧ (scanValue (fuel + 1) text).rest = [])
    (hends : ∀ {text : List Char}, BreaksOff text more →
      text.head?.any continuesNumber = false)
    {chars : List Char} (h : BreaksOff chars (name.toList.flatMap writeChar ++ ['"'] ++
      ':' :: (value.writeChars ++ more))) (hfuel : 2 * chars.length ≤ fuel) :
    Member.Cut (scanMember (fuel + 1) chars) (name, value) ∧
        (scanMember (fuel + 1) chars).value.rest = [] ∨
      ((scanMember (fuel + 1) chars).name.Spells name ∧
          (scanMember (fuel + 1) chars).value.Spells value) ∧
        BreaksOff (scanMember (fuel + 1) chars).value.rest more ∧
          (scanMember (fuel + 1) chars).value.rest.length ≤ chars.length := by
  rcases h.append with hbroken | ⟨behind, rfl, hbehind⟩
  · obtain ⟨hname, hrest⟩ := scanText_endsEarly hbroken
    refine .inl ⟨.name hname, ?_⟩
    rw [scanMember_ended (by rw [hrest]; rfl)]
    rfl
  obtain ⟨hname, hrest⟩ := scanText_spells name behind
  rw [List.append_assoc, List.singleton_append] at hfuel ⊢
  -- in front of its colon the value is missing as it is in front of itself
  rcases hbehind.cons with rfl | ⟨text, rfl, htext⟩
  · refine .inl ⟨.value hname ?_, ?_⟩ <;> rw [scanMember_ended (by rw [hrest]; rfl)]
    · exact .missing rfl
    · rfl
  · have hcolon := skipSpace_of_eq hrest rfl
    have hlength : 2 * text.length ≤ fuel := by simp at hfuel; omega
    have hvalue := scanValue_cut_append hplain hcut hends htext hlength
    rw [← scanMember_value hcolon] at hvalue
    rcases hvalue with ⟨hcut, hrest⟩ | ⟨hspells, hbroken, hshort⟩
    · exact .inl ⟨.value hname hcut, hrest⟩
    · exact .inr ⟨⟨hname, hspells⟩, hbroken, by simp; omega⟩

end Parts

mutual

theorem scanValue_cut : ∀ (value : Value) {fuel : Nat} {text : List Char},
    value.isPlain = true → BreaksOff text value.writeChars → 2 * text.length ≤ fuel →
      (scanValue (fuel + 1) text).Cut value ∧ (scanValue (fuel + 1) text).rest = []
  | .number (.integer value), fuel, text, _, h, _ => ⟨.number, scanValue_integer_rest fuel h⟩
  | value, fuel, [], _, _, _ => by
      have hscan : scanValue (fuel + 1) [] = .missing .endInValue [] := rfl
      rw [hscan]
      exact ⟨.missing rfl, rfl⟩
  | .null, fuel, c :: text, _, h, _ => by
      obtain ⟨rfl, hbroken⟩ := h.tail
      have hscan : scanValue (fuel + 1) ('n' :: text) = .brokenNull ⟨'n' :: text, []⟩ := by
        simp [scanValue, skipSpace_cons (show isSpace 'n' = false from rfl),
          scanWord_breaksOff hbroken]
      rw [hscan]
      exact ⟨.null, rfl⟩
  | .flag true, fuel, c :: text, _, h, _ => by
      obtain ⟨rfl, hbroken⟩ := h.tail
      have hscan : scanValue (fuel + 1) ('t' :: text) = .brokenFlag ⟨'t' :: text, []⟩ := by
        simp [scanValue, skipSpace_cons (show isSpace 't' = false from rfl),
          scanWord_breaksOff hbroken]
      rw [hscan]
      exact ⟨.flag, rfl⟩
  | .flag false, fuel, c :: text, _, h, _ => by
      obtain ⟨rfl, hbroken⟩ := h.tail
      have hscan : scanValue (fuel + 1) ('f' :: text) = .brokenFlag ⟨'f' :: text, []⟩ := by
        simp [scanValue, skipSpace_cons (show isSpace 'f' = false from rfl),
          scanWord_breaksOff hbroken]
      rw [hscan]
      exact ⟨.flag, rfl⟩
  | .text value, fuel, c :: text, _, h, _ => by
      obtain ⟨rfl, hbroken⟩ := h.tail
      obtain ⟨htext, hrest⟩ := scanText_endsEarly hbroken
      have hscan : scanValue (fuel + 1) ('"' :: text) = .text (scanText .plain text) := by
        simp [scanValue, skipSpace_cons (show isSpace '"' = false from rfl)]
      rw [hscan]
      exact ⟨.text htext, hrest⟩
  | .array [], fuel, c :: text, _, h, _ => by
      obtain ⟨rfl, hbroken⟩ := h.tail
      obtain rfl := hbroken.eq_nil
      exact ⟨.array .ended, rfl⟩
  | .object [], fuel, c :: text, _, h, _ => by
      obtain ⟨rfl, hbroken⟩ := h.tail
      obtain rfl := hbroken.eq_nil
      exact ⟨.object .ended, rfl⟩
  | .array (item :: items), fuel, c :: text, hplain, h, hfuel => by
      obtain ⟨rfl, hbroken⟩ := h.tail
      cases text with
      | nil => exact ⟨.array .ended, rfl⟩
      | cons c text =>
          have hitem : item.isPlain = true := by simp_all [Value.isPlain, arePlain]
          obtain ⟨hblank, hbracket⟩ := hbroken.start_value hitem
          have hskip : skipSpace (c :: text) = c :: text := skipSpace_cons hblank text
          rw [scanValue_array (skipSpace_cons rfl _) hskip hbracket, hskip]
          have hcut := scanItems_cut (item :: items) (by simp) hplain hbroken
            (show 2 * (c :: text).length + 2 ≤ fuel by simp at hfuel ⊢; omega)
          exact ⟨.array hcut, hcut.rest_eq⟩
  | .object ((name, value) :: members), fuel, c :: text, hplain, h, hfuel => by
      obtain ⟨rfl, hbroken⟩ := h.tail
      cases text with
      | nil => exact ⟨.object .ended, rfl⟩
      | cons c text =>
          obtain ⟨rfl, -⟩ := hbroken.tail
          rw [scanValue_object (skipSpace_cons rfl _) (skipSpace_cons rfl _)]
          have hcut := scanMembers_cut ((name, value) :: members) (by simp) hplain hbroken
            (show 2 * text.length + 2 ≤ fuel by simp at hfuel; omega)
          exact ⟨.object hcut, hcut.rest_eq⟩

theorem scanItems_cut : ∀ (items : List Value) {fuel : Nat} {text : List Char}, items ≠ [] →
    arePlain items = true → BreaksOff text (writeItems items).tail →
    2 * text.length + 2 ≤ fuel →
      ItemsCut (scanItems fuel text).1 (scanItems fuel text).2 items
  | [], _, _, hitems, _, _, _ => absurd rfl hitems
  | item :: items, fuel, text, _, hplain, h, hfuel => by
      obtain ⟨fuel, rfl⟩ : ∃ n, fuel = n + 2 := ⟨fuel - 2, by omega⟩
      simp only [arePlain, Bool.and_eq_true] at hplain
      -- a comma or the bracket is due behind this element, but no digit
      have hends : ∀ {text : List Char}, BreaksOff text (writeItems items) →
          text.head?.any continuesNumber = false := by
        intro text h
        cases items <;> exact h.ends (by rfl)
      rcases scanValue_cut_append hplain.1 (scanValue_cut item hplain.1) hends h
        (show 2 * text.length ≤ fuel by omega) with ⟨hcut, hrest⟩ | ⟨hspells, hbehind, hlength⟩
      · rw [scanItems_ended (by rw [hrest]; rfl)]
        exact .broken hcut
      match items with
      | [] =>
          rw [scanItems_ended (by rw [hbehind.eq_nil]; rfl)]
          exact .more hspells .ended
      | next :: items =>
          rcases hbehind.cons with hrest | ⟨more, hrest, hmore⟩
          · rw [scanItems_ended (by rw [hrest]; rfl)]
            exact .more hspells .ended
          have hskip := skipSpace_of_eq hrest rfl
          cases more with
          | nil =>
              rw [scanItems_comma hskip rfl]
              exact .more hspells (.comma (by simp))
          | cons c more =>
              have hnext : next.isPlain = true := by simp_all [arePlain]
              obtain ⟨hblank, hbracket⟩ := hmore.start_value hnext
              have hclear : skipSpace (c :: more) = c :: more := skipSpace_cons hblank more
              rw [hrest, List.length_cons] at hlength
              rw [scanItems_more hskip hclear hbracket, hclear]
              exact .more hspells (scanItems_cut (next :: items) (by simp) hplain.2 hmore
                (by omega))

theorem scanMembers_cut : ∀ (members : List (String × Value)) {fuel : Nat} {chars : List Char},
    members ≠ [] → membersPlain members = true →
    BreaksOff ('"' :: chars) (writeMembers members).tail → 2 * chars.length + 2 ≤ fuel →
      MembersCut (scanMembers fuel chars).1 (scanMembers fuel chars).2 members
  | [], _, _, hmembers, _, _, _ => absurd rfl hmembers
  | (name, value) :: members, fuel, chars, _, hplain, h, hfuel => by
      obtain ⟨fuel, rfl⟩ : ∃ n, fuel = n + 2 := ⟨fuel - 2, by omega⟩
      simp only [membersPlain, Bool.and_eq_true] at hplain
      have hends : ∀ {text : List Char}, BreaksOff text (writeMembers members) →
          text.head?.any continuesNumber = false := by
        intro text h
        cases members <;> exact h.ends (by rfl)
      rcases scanMember_cut hplain.1 (scanValue_cut value hplain.1) hends h.tail.2
        (show 2 * chars.length ≤ fuel by omega) with ⟨hcut, hrest⟩ | ⟨hspells, hbehind, hlength⟩
      · rw [scanMembers_ended (by rw [hrest]; rfl)]
        exact .broken hcut
      match members with
      | [] =>
          rw [scanMembers_ended (by rw [hbehind.eq_nil]; rfl)]
          exact .more hspells .ended
      | (nextName, next) :: members =>
          rcases hbehind.cons with hrest | ⟨more, hrest, hmore⟩
          · rw [scanMembers_ended (by rw [hrest]; rfl)]
            exact .more hspells .ended
          have hskip := skipSpace_of_eq hrest rfl
          cases more with
          | nil =>
              rw [scanMembers_comma hskip rfl]
              exact .more hspells (.comma (by simp))
          | cons c more =>
              obtain ⟨rfl, -⟩ := hmore.tail
              rw [hrest, List.length_cons, List.length_cons] at hlength
              rw [scanMembers_more hskip (skipSpace_cons rfl more)]
              exact .more hspells (scanMembers_cut ((nextName, next) :: members) (by simp)
                hplain.2 hmore (by omega))

end

/-- The scan of a text that breaks off gives a node that does. -/
theorem Node.scan_cut {value : Value} {text : List Char} (hplain : value.isPlain = true)
    (h : BreaksOff text value.writeChars) : (Node.scan text).Cut value :=
  (scanValue_cut value hplain h (Nat.le_refl _)).1

end Wiring.Json
