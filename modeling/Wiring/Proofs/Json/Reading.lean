import Wiring.Proofs.Json.Scan

/-!
# What readers make of spelled values

A reader is described by the results it has for values, whichever node spells them. A
value that is passed over or kept is read whatever it holds; only where values are kept
the number of arrays and objects open at once is limited.
-/

namespace Wiring.Json

variable {α β : Type}

/-! ## Results of readers -/

/-- A reader has a result for every node that spells a value. -/
def Reads (read : Node → Except Refusal α) (value : Value) (result : α) : Prop :=
  ∀ node : Node, node.Spells value → read node = .ok result

/-- A text is read if blanks are all that follows the value. -/
theorem parse_eq {read : Node → Except Refusal α} {value : Value} {result : α} {text : String}
    {blanks : List Char} (hreads : Reads read value result) (hplain : value.isPlain = true)
    (htext : Spaced value.tokens text.toList blanks) (hblanks : ∀ c ∈ blanks, isSpace c = true) :
    parse read text = .ok result := by
  have hends : blanks.head?.any continuesNumber = false := by
    cases blanks with
    | nil => rfl
    | cons blank blanks => simpa using continuesNumber_eq_false (hblanks blank (by simp))
  obtain ⟨hspells, hrest⟩ := Node.scan_spells hplain htext fun _ _ => hends
  rw [parse, hreads _ hspells, hrest, skipSpace_eq_nil_iff.mpr hblanks]
  rfl

/-- A text that goes on behind a value is refused because of what comes there. -/
theorem parse_trailing {read : Node → Except Refusal α} {value : Value} {result : α}
    {text : String} {rest : List Char} (hreads : Reads read value result)
    (hplain : value.isPlain = true) (htext : Spaced value.tokens text.toList rest)
    (hends : ∀ number, value = .number number → rest.head?.any continuesNumber = false)
    (hrest : ∃ c ∈ rest, isSpace c = false) :
    parse read text = refuseNext .trailingText (skipSpace rest) := by
  obtain ⟨hspells, hscan⟩ := Node.scan_spells hplain htext hends
  have hmore : skipSpace rest ≠ [] := by
    rw [ne_eq, skipSpace_eq_nil_iff]
    simpa using hrest
  obtain ⟨c, more, hskip⟩ := List.exists_cons_of_ne_nil hmore
  rw [parse, hreads _ hspells, hscan, hskip]
  rfl

theorem Reads.map {read : Node → Except Refusal α} {value : Value} {result : α}
    (h : Reads read value result) (f : α → β) :
    Reads (fun node => (read node).map f) value (f result) := by
  intro node hnode
  change (read node).map f = .ok (f result)
  rw [h node hnode]
  rfl

/-! ## Refusals -/

/-- A result is a refusal because of a certain fault, wherever that is reported. -/
def Refused (why : Fault → Prop) (result : Except Refusal α) : Prop :=
  ∃ refusal : Refusal, result = .error refusal ∧ why refusal.fault

namespace Refused

variable {why : Fault → Prop} {result : Except Refusal α}

theorem bind (h : Refused why result) (next : α → Except Refusal β) :
    Refused why (result >>= next) := by
  obtain ⟨refusal, rfl, hwhy⟩ := h
  exact ⟨refusal, rfl, hwhy⟩

theorem map (h : Refused why result) (f : α → β) : Refused why (result.map f) := by
  obtain ⟨refusal, rfl, hwhy⟩ := h
  exact ⟨refusal, rfl, hwhy⟩

theorem settled (h : Refused why result) (spot : Option Spot) :
    Refused why (Json.settled spot result) := by
  obtain ⟨refusal, rfl, hwhy⟩ := h
  exact ⟨refusal.settle spot, rfl, hwhy⟩

end Refused

/-- A reader refuses every node that spells a value, always because of the same fault. -/
def Refuses (read : Node → Except Refusal α) (value : Value) (fault : Fault) : Prop :=
  ∀ node : Node, node.Spells value → Refused (· = fault) (read node)

/-! ## Simple types -/

theorem reads_text (expected : Expected) (text : String) :
    Reads (readText expected) (.text text) text := by
  intro node hnode
  cases hnode with
  | text htext => exact htext.decode_eq

theorem reads_flag (value : Bool) : Reads readFlag (.flag value) value := by
  intro node hnode
  cases hnode
  rfl

section Optional

variable {read : Node → Except Refusal α} {value : Value} {result : α}

theorem reads_none (read : Node → Except Refusal α) : Reads (readOptional read) .null none := by
  intro node hnode
  cases hnode
  rfl

theorem Reads.some (h : Reads read value result) (hvalue : value ≠ .null) :
    Reads (readOptional read) value (some result) := by
  intro node hnode
  have hread := h node hnode
  -- a spelled word for no value is never a broken one
  cases hnode with
  | null => exact absurd rfl hvalue
  | _ => rw [readOptional, hread] <;> simp [Except.map]

theorem reads_optionalText (expected : Expected) (text : Option String) :
    Reads (readOptional (readText expected)) (.optionalText text) text := by
  cases text with
  | none => exact reads_none _
  | some text => exact (reads_text expected text).some (by simp)

end Optional

/-- The elements of an array are read one by one. -/
theorem reads_list {read : Node → Except Refusal α} {values : List Value} {results : List α}
    (h : List.Forall₂ (Reads read) values results) :
    Reads (readList read) (.array values) results := by
  intro node hnode
  cases hnode with
  | @array start rest items _ hitems =>
      have hread : items.mapM (fun item => settledAt item.behind (read item.value)) =
          .ok results := by
        induction hitems generalizing results with
        | nil => cases h; rfl
        | cons hitem _ ih =>
            cases h with
            | cons hfirst hmore =>
                rw [List.mapM_cons, hfirst _ hitem, ih hmore]
                rfl
      rw [readList, hread]
      rfl

/-! ## Values that are passed over or kept -/

mutual

/-- What is kept of a value. -/
def Value.stored : Value → Value
  | .null => .null
  | .flag value => .flag value
  | .number value => .number value.stored
  | .text value => .text value
  | .array items => .array (storedItems items)
  | .object members => .object (storedMembers members)

/-- What is kept of elements. -/
def storedItems : List Value → List Value
  | [] => []
  | item :: items => item.stored :: storedItems items

/-- What is kept of members. -/
def storedMembers : List (String × Value) → List (String × Value)
  | [] => []
  | (name, value) :: members => (name, value.stored) :: storedMembers members

end

mutual

/-- How many arrays and objects are open at once at most. -/
def Value.depth : Value → Nat
  | .null | .flag _ | .number _ | .text _ => 0
  | .array items => itemsDepth items + 1
  | .object members => membersDepth members + 1

/-- The depth of the deepest element. -/
def itemsDepth : List Value → Nat
  | [] => 0
  | item :: items => max item.depth (itemsDepth items)

/-- The depth of the deepest value of a member. -/
def membersDepth : List (String × Value) → Nat
  | [] => 0
  | (_, value) :: members => max value.depth (membersDepth members)

end

theorem depth_le_itemsDepth {items : List Value} {value : Value} (hvalue : value ∈ items) :
    value.depth ≤ itemsDepth items := by
  induction hvalue with
  | head => exact Nat.le_max_left _ _
  | tail _ _ ih => rw [itemsDepth]; omega

theorem depth_le_membersDepth {members : List (String × Value)} {member : String × Value}
    (hmember : member ∈ members) : member.2.depth ≤ membersDepth members := by
  induction hmember with
  | head => exact Nat.le_max_left _ _
  | tail _ _ ih => rw [membersDepth]; omega

mutual

/-- A complete value is passed over. -/
theorem reads_skip : ∀ value : Value, Reads Node.skip value ()
  | .null, _, .null | .flag _, _, .flag | .number _, _, .number _ => rfl
  | .text _, _, .text htext => htext.skip_eq
  | .array values, _, .array hitems => by
      rw [Node.skip, skipItems_eq values hitems]
      rfl
  | .object values, _, .object hnames hvalues => by
      rw [Node.skip, skipMembers_eq values hnames hvalues]
      rfl

theorem skipItems_eq : ∀ (values : List Value) {items : List (Item Node)},
    List.Forall₂ (fun item value => item.value.Spells value) items values →
      skipItems items = .ok ()
  | [], _, .nil => rfl
  | value :: values, _, .cons hitem hitems => by
      rw [skipItems, reads_skip value _ hitem]
      exact skipItems_eq values hitems

theorem skipMembers_eq : ∀ (values : List (String × Value)) {members : List (Member Node)},
    List.Forall₂ (fun member value => member.name.Spells value.1) members values →
    List.Forall₂ (fun member value => member.value.Spells value.2) members values →
      skipMembers members = .ok ()
  | [], _, .nil, .nil => rfl
  | (_, value) :: values, _, .cons hname hnames, .cons hvalue hvalues => by
      rw [skipMembers, hname.skip_eq, reads_skip value _ hvalue]
      exact skipMembers_eq values hnames hvalues

end

/-- What passes over a foreign member takes nothing from it. -/
theorem reads_skipped {read : Node → Except Refusal (Option α)}
    (h : ∀ node, read node = node.skip.map fun _ => none) (value : Value) :
    Reads read value none := by
  intro node hnode
  rw [h, reads_skip value node hnode]
  rfl

mutual

/-- A value that is not too deep is kept. -/
theorem reads_keep : ∀ (value : Value) {room : Nat}, value.depth ≤ room →
    Reads (Node.keep room) value value.stored
  | .null, _, _, _, .null | .flag _, _, _, _, .flag => rfl
  | .number _, _, _, _, .number hread => by
      rw [Node.keep, hread]
      rfl
  | .text _, _, _, _, .text htext => by
      rw [Node.keep, htext.decode_eq]
      rfl
  | .array values, room, hdepth, _, .array hitems => by
      rw [Value.depth] at hdepth
      rw [Node.keep, keepItems_eq values (show itemsDepth values ≤ room - 1 by omega) hitems,
        if_neg (by omega)]
      rfl
  | .object values, room, hdepth, _, .object hnames hvalues => by
      rw [Value.depth] at hdepth
      rw [Node.keep, keepMembers_eq values (show membersDepth values ≤ room - 1 by omega) hnames
        hvalues, if_neg (by omega)]
      rfl

theorem keepItems_eq : ∀ (values : List Value) {room : Nat} {items : List (Item Node)},
    itemsDepth values ≤ room →
    List.Forall₂ (fun item value => item.value.Spells value) items values →
      keepItems room items = .ok (storedItems values)
  | [], _, _, _, .nil => rfl
  | value :: values, room, _, hdepth, .cons hitem hitems => by
      rw [itemsDepth] at hdepth
      rw [keepItems, reads_keep value (show value.depth ≤ room by omega) _ hitem,
        keepItems_eq values (show itemsDepth values ≤ room by omega) hitems]
      rfl

theorem keepMembers_eq : ∀ (values : List (String × Value)) {room : Nat}
    {members : List (Member Node)}, membersDepth values ≤ room →
    List.Forall₂ (fun member value => member.name.Spells value.1) members values →
    List.Forall₂ (fun member value => member.value.Spells value.2) members values →
      keepMembers room members = .ok (storedMembers values)
  | [], _, _, _, .nil, .nil => rfl
  | (_, value) :: values, room, _, hdepth, .cons hname hnames, .cons hvalue hvalues => by
      rw [membersDepth] at hdepth
      rw [keepMembers, hname.decode_eq, reads_keep value (show value.depth ≤ room by omega) _ hvalue,
        keepMembers_eq values (show membersDepth values ≤ room by omega) hnames hvalues]
      rfl

end

end Wiring.Json
