import Wiring.Json.Decode

/-!
# Quoted texts are read back

Each character is written as one unit of a quoted text, which stands for that
character whatever comes behind it.
-/

namespace Wiring.Json

/-! ## Units -/

/-- A unit that stands for a character on its own. -/
def TextUnit.Means (unit : TextUnit) (c : Char) : Prop :=
  ∀ (ending : TextEnd) (units : List TextUnit),
    decodeUnits ending (unit :: units) = (decodeUnits ending units).map (c :: ·)

theorem TextUnit.char_means (c : Char) : (TextUnit.char c).Means c := by
  intro ending units
  rw [decodeUnits]

/-- A 16-bit unit below the surrogates needs no second one. -/
theorem TextUnit.code_means {unit : Nat} (hunit : unit < 0xd800) (rest : List Char) :
    (TextUnit.code unit rest).Means (Char.ofNat unit) := by
  have hlow : isLowSurrogate unit = false := by simp [isLowSurrogate]; omega
  have hhigh : isHighSurrogate unit = false := by simp [isHighSurrogate]; omega
  intro ending units
  -- the decoder looks at the unit behind a code before it looks at the code
  cases units with
  | nil => simp [decodeUnits, hlow, hhigh]
  | cons next units =>
      cases next with
      | char c =>
          simp only [decodeUnits, hlow, hhigh]
          cases decodeUnits ending units <;> rfl
      | code next behind => simp [decodeUnits, hlow, hhigh]

/-! ## Characters -/

theorem hexValue?_hexDigit : ∀ {value : Nat}, value < 16 →
    Text.hexValue? (hexDigit value) = some value := by
  decide

theorem hasBytes_four (a b c d : Char) (rest : List Char) :
    hasBytes 4 (a :: b :: c :: d :: rest) = true := by
  have := a.utf8Size_pos
  have := b.utf8Size_pos
  have := c.utf8Size_pos
  have := d.utf8Size_pos
  simp [hasBytes, Text.byteCount]
  omega

/-- A control character without a short escape is written by its code. -/
theorem scanText_control {c : Char} (hc : c.toNat < 0x20) (rest : List Char) :
    scanText .plain (['\\', 'u', '0', '0', hexDigit (c.toNat / 16), hexDigit (c.toNat % 16)] ++
      rest) = (scanText .plain rest).cons (.code c.toNat rest) := by
  have hfirst := hexValue?_hexDigit (show c.toNat / 16 < 16 by omega)
  have hsecond := hexValue?_hexDigit (show c.toNat % 16 < 16 by omega)
  have hzero : Text.hexValue? '0' = some 0 := by decide
  have hsum : c.toNat / 16 * 16 + c.toNat % 16 = c.toNat := by omega
  simp [scanText, hasBytes_four, hzero, hfirst, hsecond, hsum]

/-- What is written for a character is scanned as one unit, which means it. -/
theorem scanText_writeChar (c : Char) (rest : List Char) :
    ∃ unit : TextUnit, unit.Means c ∧
      scanText .plain (writeChar c ++ rest) = (scanText .plain rest).cons unit := by
  unfold writeChar
  split
  case h_8 _ hquote hbackslash _ _ _ _ _ =>
    split
    next hcontrol =>
      refine ⟨.code c.toNat rest, ?_, scanText_control hcontrol rest⟩
      have hmeans := TextUnit.code_means (show c.toNat < 0xd800 by omega) rest
      rwa [Char.ofNat_toNat] at hmeans
    next hcontrol =>
      refine ⟨.char c, TextUnit.char_means c, ?_⟩
      have hquote : c ≠ '"' := hquote
      have hbackslash : c ≠ '\\' := hbackslash
      simp [scanText, hquote, hbackslash, hcontrol]
  all_goals exact ⟨.char _, TextUnit.char_means _, by simp [scanText, shortEscape?]⟩

/-! ## Texts -/

/-- A quoted text that is complete and means the given one. -/
structure QuotedText.Spells (quoted : QuotedText) (text : String) : Prop where
  /-- It ends by its closing quote. -/
  closed : ∃ rest : List Char, quoted.ending = .closed rest
  /-- Its units stand for the characters of the text. -/
  decode_eq : quoted.decode = .ok text

theorem QuotedText.Spells.skip_eq {quoted : QuotedText} {text : String}
    (h : quoted.Spells text) : quoted.skip = .ok () := by
  obtain ⟨rest, hrest⟩ := h.closed
  rw [QuotedText.skip, hrest]
  rfl

/-- The characters of a text, as they are written, are scanned up to the quote. -/
theorem scanText_flatMap (chars rest : List Char) :
    ∃ units : List TextUnit,
      scanText .plain (chars.flatMap writeChar ++ '"' :: rest) = ⟨units, .closed rest⟩ ∧
        decodeUnits (.closed rest) units = .ok chars := by
  induction chars with
  | nil => exact ⟨[], by simp [scanText], rfl⟩
  | cons c chars ih =>
      obtain ⟨units, hscan, hdecode⟩ := ih
      obtain ⟨unit, hmeans, hunit⟩ := scanText_writeChar c (chars.flatMap writeChar ++ '"' :: rest)
      refine ⟨unit :: units, ?_, ?_⟩
      · rw [List.flatMap_cons, List.append_assoc, hunit, hscan, QuotedText.cons]
      · rw [hmeans, hdecode]
        rfl

/-- Behind its opening quote a text is scanned as it was written. -/
theorem scanText_spells (text : String) (rest : List Char) :
    (scanText .plain (text.toList.flatMap writeChar ++ '"' :: rest)).Spells text ∧
      (scanText .plain (text.toList.flatMap writeChar ++ '"' :: rest)).rest = rest := by
  obtain ⟨units, hscan, hdecode⟩ := scanText_flatMap text.toList rest
  rw [hscan]
  refine ⟨⟨⟨rest, rfl⟩, ?_⟩, rfl⟩
  rw [QuotedText.decode, hdecode]
  simp [Except.map]

end Wiring.Json
