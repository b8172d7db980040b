import Wiring.Proofs.Json.Record

/-!
# Reading unions in any arrangement

The member that names the variant of a union may come anywhere, since the other ones
are kept until all have come. A union that shares its object keeps what the record
around it leaves over.
-/

namespace Wiring.Json

variable {α β γ : Type}

/-! ## Variants by name -/

theorem variantOf_eq {variants : List (String × α)} {name : String} {variant : α}
    (h : variants.lookup name = some variant) : variantOf variants name = .ok variant := by
  rw [variantOf, h]

/-- A union is read from the name of a variant. -/
theorem reads_bare {variants : List (String × α)} {bare : α → Except Refusal β}
    {withValue : α → Node → Except Refusal β} {name : String} {variant : α} {result : β}
    (hvariant : variants.lookup name = some variant) (hbare : bare variant = .ok result) :
    Reads (readUnion variants bare withValue) (.text name) result := by
  intro node hnode
  cases hnode with
  | text htext =>
      rw [readUnion, htext.decode_eq]
      change settledAt _ (variantOf variants name) >>= bare = _
      rw [variantOf_eq hvariant]
      exact hbare

/-- A union is read from an object whose only member holds the value of the variant. -/
theorem reads_withValue {variants : List (String × α)} {bare : α → Except Refusal β}
    {withValue : α → Node → Except Refusal β} {name : String} {variant : α} {value : Value}
    {result : β} (hvariant : variants.lookup name = some variant)
    (hvalue : Reads (withValue variant) value result) :
    Reads (readUnion variants bare withValue) (.object [(name, value)]) result := by
  intro node hnode
  cases hnode with
  | object hnames hvalues =>
      cases hnames with
      | cons hname hnames =>
          cases hnames
          cases hvalues with
          | cons hspells _ =>
              rw [readUnion, hname.decode_eq]
              change settledAt _ (variantOf variants name) >>= _ = _
              rw [variantOf_eq hvariant]
              change withValue variant _ >>= _ = _
              rw [hvalue _ hspells]
              rfl

/-! ## Kept members -/

/-- The members that are kept where those of some names are not. -/
def keptMembers (excluded : List String) (members : List (String × Value)) :
    List (String × Value) :=
  members.filterMap fun member =>
    if member.1 ∈ excluded then none else some (member.1, member.2.stored)

section Kept

variable {slots : List Slot} {members : List (String × Value)} {excluded known : List String}

theorem mem_keptMembers {kept : String × Value} : kept ∈ keptMembers excluded members ↔
    ∃ member ∈ members, member.1 ∉ excluded ∧ (member.1, member.2.stored) = kept := by
  simp only [keptMembers, List.mem_filterMap, Option.ite_none_left_eq_some, Option.some.injEq]

theorem Distinct.keptMembers (h : Distinct known members) :
    Distinct known (keptMembers excluded members) := by
  refine List.Pairwise.filterMap _ ?_ h
  intro first second hne kept hkept other hother
  simp only [Option.ite_none_left_eq_some, Option.some.injEq] at hkept hother
  obtain ⟨-, rfl⟩ := hkept
  obtain ⟨-, rfl⟩ := hother
  exact hne

/-- Each member that is kept is read as what is listed for its slot; what is kept besides
the fields is passed over. -/
theorem Arranged.read_kept {read : String → Value → Except Refusal (Option γ)}
    (fields : List (String × γ)) {own : List Slot} (h : Arranged slots members)
    (hnames : (slots.map Slot.name).Nodup) (hown : own.Sublist slots)
    (hslots : Lists (fun slot found => ∀ value, slot.holds value →
      read slot.name value.stored = .ok (some found)) own fields)
    (hforeign : ∀ name value, name ∉ own.map Slot.name → read name value = .ok none) :
    ∀ member ∈ members, read member.1 member.2.stored =
      .ok (contribution fields (fun _ => none) member) := by
  have hownNames : (own.map Slot.name).Nodup := (hown.map Slot.name).nodup hnames
  intro member hmember
  by_cases hname : member.1 ∈ own.map Slot.name
  · obtain ⟨slot, hslot, hname⟩ := List.mem_map.mp hname
    obtain ⟨found, hfound, hfits⟩ := hslots.lookup_eq hownNames hslot
    have hholds := h.holds hnames (hown.subset hslot) hmember hname.symm
    rw [contribution, ← hname, hfound]
    exact hfits member.2 hholds
  · rw [hforeign _ _ hname, contribution, hslots.lookup_eq_none hname]
    rfl

/-- Fields are read from the kept members of a record like from any others. -/
theorem readFields_kept {read : String → Value → Except Refusal (Option γ)}
    {fields : List (String × γ)}
    (hread : ∀ member ∈ members, read member.1 member.2.stored =
      .ok (contribution fields (fun _ => none) member))
    (hexcluded : ∀ name ∈ excluded, fields.lookup name = none)
    (hdistinct : Distinct known members) :
    Value.readFields known read (keptMembers excluded members) =
      .ok (members.filterMap (contribution fields fun _ => none)) := by
  have hkept : ∀ kept ∈ keptMembers excluded members,
      read kept.1 kept.2 = .ok (contribution fields (fun _ => none) kept) := by
    intro kept hkept
    obtain ⟨member, hmember, -, rfl⟩ := mem_keptMembers.mp hkept
    exact hread member hmember
  rw [readFields_eq hkept hdistinct.keptMembers, keptMembers, List.filterMap_filterMap]
  congr 2
  funext member
  -- no field has one of the names that are left out
  split
  next hin => rw [contribution, hexcluded _ hin]; rfl
  next => rfl

end Kept

/-! ## Variants by a member -/

/-- What the members that do not name the variant contribute to a union. -/
def untagged (excluded : List String) (member : String × Value) : Option (TaggedMember α) :=
  if member.1 ∈ excluded then none else some (.field member.1 member.2.stored)

section Tagged

variable {u : Variants α β} {slots : List Slot} {members : List (String × Value)}
  {excluded : List String} {label : String} {variant : α}

/-- The variant is found wherever it is named, and the other members are left. -/
theorem splitTag_eq (h : Arranged slots members)
    (htag : Slot.must tagName (· = .text label) ∈ slots) :
    splitTag (members.filterMap (contribution [(tagName, .tag variant)] (untagged excluded))) =
      .ok (variant, keptMembers (tagName :: excluded) members) := by
  have hvariant : required tagName TaggedMember.variant? (members.filterMap
      (contribution [(tagName, .tag variant)] (untagged excluded))) = .ok variant := by
    refine h.required_eq tagName (by simp [TaggedMember.variant?]) (by simp) ?_
      ⟨_, htag, rfl, id⟩
    intro member
    rw [untagged]
    split <;> rfl
  have hfields : (members.filterMap
      (contribution [(tagName, .tag variant)] (untagged excluded))).filterMap
        TaggedMember.field? = keptMembers (tagName :: excluded) members := by
    rw [List.filterMap_filterMap, keptMembers]
    congr 1
    funext member
    by_cases hname : member.1 = tagName <;> by_cases hin : member.1 ∈ excluded <;>
      simp [contribution_singleton, untagged, hname, hin, TaggedMember.field?]
  rw [splitTag, hvariant, hfields]
  rfl

theorem reads_readTag (hvariant : u.variants.lookup label = some variant) :
    Reads u.readTag (.text label) variant := by
  intro node hnode
  rw [Variants.readTag, reads_text _ _ node hnode]
  change settledAt _ (variantOf u.variants label) = _
  rw [variantOf_eq hvariant]
  rfl

/-- The member that names the variant is read where it stands, every other one is kept. -/
theorem Variants.reads_members {room : Nat}
    (htag : ∀ member ∈ members, member.1 = tagName → member.2 = .text label)
    (hvariant : u.variants.lookup label = some variant)
    (hdepth : ∀ member ∈ members, member.2.depth ≤ room) :
    ∀ member ∈ members, Reads (u.readMember room member.1) member.2
      (contribution [(tagName, .tag variant)] (untagged []) member) := by
  intro member hmember node hnode
  rw [Variants.readMember, contribution_singleton]
  split
  next hname =>
    rw [htag member hmember hname] at hnode
    rw [reads_readTag hvariant node hnode]
    rfl
  next hname =>
    rw [reads_keep member.2 (hdepth member hmember) node hnode]
    rfl

/-- Where an object names its variant once, the other members decide what the union is. -/
theorem Variants.read_eq {room : Nat} (h : Arranged slots members)
    (hnames : (slots.map Slot.name).Nodup)
    (htag : Slot.must tagName (· = .text label) ∈ slots)
    (hvariant : u.variants.lookup label = some variant)
    (hdepth : ∀ member ∈ members, member.2.depth ≤ room - 1) {node : Node}
    (hnode : node.Spells (.object members)) :
    u.read room node = u.ofMembers variant (keptMembers [tagName] members) := by
  have hreads := Variants.reads_members (u := u) (fun _ => h.holds hnames htag) hvariant hdepth
  have hdistinct : Distinct [tagName] members :=
    h.distinct hnames (by simpa using ⟨_, htag, rfl⟩)
  cases hnode with
  | object hnodeNames hnodeValues =>
      rw [Variants.read, readRecord_eq splitTag hnodeNames hnodeValues hreads hdistinct,
        splitTag_eq h htag]
      rfl

/-- What a record has kept is read as a union once the variant is told from the fields. -/
theorem Variants.readKept_eq_splitTag
    (htag : ∀ member ∈ members, member.1 = tagName → member.2 = .text label)
    (hdistinct : Distinct [tagName] members) (hexcluded : tagName ∉ excluded)
    (hvariant : u.variants.lookup label = some variant) :
    u.readKept (keptMembers excluded members) =
      splitTag (members.filterMap (contribution [(tagName, .tag variant)] (untagged excluded)))
        >>= fun (variant, fields) => u.ofMembers variant fields := by
  let gives (kept : String × Value) : Option (TaggedMember α) :=
    if kept.1 = tagName then some (.tag variant) else some (.field kept.1 kept.2)
  have hread : ∀ kept ∈ keptMembers excluded members,
      u.readKeptMember kept.1 kept.2 = .ok (gives kept) := by
    intro kept hkept
    obtain ⟨member, hmember, -, rfl⟩ := mem_keptMembers.mp hkept
    simp only [Variants.readKeptMember, gives]
    split
    next hname =>
      rw [htag member hmember hname, Value.stored, Variants.variantOfValue, variantOf_eq hvariant]
      rfl
    next => rfl
  have hgives : (keptMembers excluded members).filterMap gives =
      members.filterMap (contribution [(tagName, .tag variant)] (untagged excluded)) := by
    rw [keptMembers, List.filterMap_filterMap]
    congr 1
    funext member
    by_cases hname : member.1 = tagName
    · simp [gives, contribution_singleton, hname, hexcluded]
    · by_cases hin : member.1 ∈ excluded <;>
        simp [gives, contribution_singleton, untagged, hname, hin]
  rw [Variants.readKept, readFields_eq hread hdistinct.keptMembers, hgives]
  rfl

/-- A union is read from the members that the record around it has kept. -/
theorem Variants.readKept_eq (h : Arranged slots members)
    (hnames : (slots.map Slot.name).Nodup)
    (htag : Slot.must tagName (· = .text label) ∈ slots) (hexcluded : tagName ∉ excluded)
    (hvariant : u.variants.lookup label = some variant) :
    u.readKept (keptMembers excluded members) =
      u.ofMembers variant (keptMembers (tagName :: excluded) members) := by
  have hdistinct : Distinct [tagName] members :=
    h.distinct hnames (by simpa using ⟨_, htag, rfl⟩)
  rw [Variants.readKept_eq_splitTag (fun _ => h.holds hnames htag) hdistinct hexcluded hvariant,
    splitTag_eq h htag]
  rfl

end Tagged

end Wiring.Json
