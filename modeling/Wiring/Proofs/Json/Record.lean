import Wiring.Json.Union
import Wiring.Proofs.Json.Arrangement
import Wiring.Proofs.Json.Reading

/-!
# Reading records in any arrangement

Members are collected one by one, and what they contribute is put together when the
record ends. A field is found there whichever members come before it, so that the
order of members and foreign members do not matter.
-/

namespace Wiring.Json

variable {α β γ : Type}

/-! ## Collecting members -/

/-- A member that is no repetition contributes what is read from it. -/
theorem collect_cons {known seen : List String} {read : String → β → Except Refusal (Option γ)}
    {entry : Entry β} {name : String} {found : Option γ} (entries : List (Entry β))
    (hname : entry.name = .ok name) (hnew : ¬ (name ∈ known ∧ name ∈ seen))
    (hread : read name entry.value = .ok found) :
    collect known read seen (entry :: entries) =
      (collect known read (name :: seen) entries).map (found.toList ++ ·) := by
  rw [collect, hname]
  change (if name ∈ known ∧ name ∈ seen then _ else _) = _
  rw [if_neg hnew, hread]
  cases collect known read (name :: seen) entries <;> rfl

/-- A member that is no repetition is refused where it cannot be read. -/
theorem Refused.collect {known seen : List String}
    {read : String → β → Except Refusal (Option γ)} {entry : Entry β} {name : String}
    {why : Fault → Prop} (entries : List (Entry β)) (hname : entry.name = .ok name)
    (hnew : ¬ (name ∈ known ∧ name ∈ seen)) (hread : Refused why (read name entry.value)) :
    Refused why (Json.collect known read seen (entry :: entries)) := by
  rw [Json.collect, hname]
  change Refused why (if name ∈ known ∧ name ∈ seen then _ else _)
  rw [if_neg hnew]
  exact (hread.settled _).bind _

/-- Behind a member that is no repetition, those that follow are none either. -/
theorem Distinct.not_mem_of_cons {known seen : List String} {member : String × Value}
    {members : List (String × Value)} (h : Distinct known (member :: members))
    (hseen : ∀ name ∈ seen, name ∈ known → name ∉ (member :: members).map Prod.fst) :
    ∀ name ∈ member.1 :: seen, name ∈ known → name ∉ members.map Prod.fst := by
  intro name hname hknown hin
  rcases List.mem_cons.mp hname with rfl | hold
  · obtain ⟨second, hsecond, heq⟩ := List.mem_map.mp hin
    exact (List.pairwise_cons.mp h).1 second hsecond heq.symm hknown
  · exact hseen name hold hknown (by simp [hin])

/-- The contributions of members that are read one by one. -/
theorem collect_eq {known : List String} {read : String → β → Except Refusal (Option γ)}
    {entries : List (Entry β)} {members : List (String × Value)}
    {gives : String × Value → Option γ}
    (hentries : List.Forall₂ (fun entry member => entry.name = .ok member.1 ∧
      read member.1 entry.value = .ok (gives member)) entries members) {seen : List String}
    (hdistinct : Distinct known members)
    (hseen : ∀ name ∈ seen, name ∈ known → name ∉ members.map Prod.fst) :
    collect known read seen entries = .ok (members.filterMap gives) := by
  induction hentries generalizing seen with
  | nil => rfl
  | @cons entry member entries members hentry _ ih =>
      obtain ⟨hname, hread⟩ := hentry
      have hnew : ¬ (member.1 ∈ known ∧ member.1 ∈ seen) := fun ⟨hknown, hin⟩ =>
        hseen member.1 hin hknown (by simp)
      have hmore : collect known read (member.1 :: seen) entries =
          .ok (members.filterMap gives) :=
        ih (List.pairwise_cons.mp hdistinct).2 (hdistinct.not_mem_of_cons hseen)
      rw [collect_cons entries hname hnew hread, hmore, List.filterMap_cons]
      cases gives member <;> rfl

/-! ## Reading records -/

/-- The members of a node stand for values, each of which any of its spellings fits. -/
theorem forall₂_entry {members : List (Member Node)} {values : List (String × Value)}
    {fits : String × Value → Node → Prop}
    (hnames : List.Forall₂ (fun member value => member.name.Spells value.1) members values)
    (hvalues : List.Forall₂ (fun member value => member.value.Spells value.2) members values)
    (hfits : ∀ value ∈ values, ∀ node : Node, node.Spells value.2 → fits value node) :
    List.Forall₂ (fun entry value => entry.name = .ok value.1 ∧ fits value entry.value)
      (members.map Member.entry) values := by
  rw [List.forall₂_map_left_iff]
  induction hnames with
  | nil => exact .nil
  | cons hname _ ih =>
      cases hvalues with
      | cons hvalue hvalues =>
          exact .cons ⟨hname.decode_eq, hfits _ (by simp) _ hvalue⟩
            (ih hvalues fun value hin => hfits value (by simp [hin]))

/-- Where each member of a record is read and none comes twice, the contributions of all
of them decide what the record is. -/
theorem readRecord_eq {known : List String} {read : String → Node → Except Refusal (Option γ)}
    (build : List γ → Except Refusal α) {members : List (Member Node)} {rest : List Char}
    {values : List (String × Value)} {gives : String × Value → Option γ}
    (hnames : List.Forall₂ (fun member value => member.name.Spells value.1) members values)
    (hvalues : List.Forall₂ (fun member value => member.value.Spells value.2) members values)
    (hreads : ∀ value ∈ values, Reads (read value.1) value.2 (gives value))
    (hdistinct : Distinct known values) :
    readRecord known read build members (.closed rest) =
      settledAt rest (build (values.filterMap gives)) := by
  have hentries := forall₂_entry hnames hvalues hreads
  rw [readRecord, collect_eq hentries hdistinct (by simp)]
  rfl

/-- The members of a kept object are read like those of a record. -/
theorem readFields_eq {known : List String} {read : String → Value → Except Refusal (Option γ)}
    {values : List (String × Value)} {gives : String × Value → Option γ}
    (hreads : ∀ value ∈ values, read value.1 value.2 = .ok (gives value))
    (hdistinct : Distinct known values) :
    Value.readFields known read values = .ok (values.filterMap gives) := by
  refine collect_eq ?_ hdistinct (by simp)
  rw [List.forall₂_map_left_iff, List.forall₂_same]
  exact fun value hin => ⟨rfl, hreads value hin⟩

/-! ## Contributions -/

/-- What a member contributes to a record: what is listed under its name, or else what is
made of a foreign member. -/
def contribution (fields : List (String × γ)) (foreign : String × Value → Option γ)
    (member : String × Value) : Option γ :=
  (fields.lookup member.1).or (foreign member)

theorem contribution_singleton (name : String) (found : γ)
    (foreign : String × Value → Option γ) (member : String × Value) :
    contribution [(name, found)] foreign member =
      if member.1 = name then some found else foreign member := by
  rw [contribution, List.lookup_cons]
  split
  next hname => simp_all
  next hname => simp_all

/-- The first thing picked from contributions is the first one picked from members. -/
theorem findSome?_filterMap {δ : Type} (pick : γ → Option α) (gives : δ → Option γ)
    (members : List δ) :
    (members.filterMap gives).findSome? pick =
      members.findSome? fun member => (gives member).bind pick := by
  rw [← List.head?_filterMap, List.filterMap_filterMap, List.head?_filterMap]

section Contributions

variable {slots : List Slot} {members : List (String × Value)} {fields : List (String × γ)}
  {foreign : String × Value → Option γ} {pick : γ → Option α} {result : α}

/-- Where only the field of one name is picked, other members contribute nothing. -/
theorem contribution_bind_eq_none {name : String}
    (hfields : ∀ field ∈ fields, field.1 ≠ name → pick field.2 = none)
    (hforeign : ∀ member, (foreign member).bind pick = none) {member : String × Value}
    (hother : member.1 ≠ name) : (contribution fields foreign member).bind pick = none := by
  rw [contribution]
  cases hfound : fields.lookup member.1 with
  | none => exact hforeign member
  | some found =>
      obtain ⟨before, after, rfl, -⟩ := List.lookup_eq_some_iff.mp hfound
      exact hfields (member.1, found) (by simp) hother

theorem Arranged.findSome?_contribution (h : Arranged slots members) {slot : Slot}
    (hslot : slot ∈ slots) (hfield : (fields.lookup slot.name).bind pick = some result)
    (hfields : ∀ field ∈ fields, field.1 ≠ slot.name → pick field.2 = none)
    (hforeign : ∀ member, (foreign member).bind pick = none) :
    (members.filterMap (contribution fields foreign)).findSome? pick = some result ∨
      slot.isOptional ∧
        (members.filterMap (contribution fields foreign)).findSome? pick = none := by
  rw [findSome?_filterMap]
  refine h.findSome? hslot (fun member => contribution_bind_eq_none hfields hforeign) ?_
  intro value
  obtain ⟨found, hfound, hpick⟩ := Option.bind_eq_some_iff.mp hfield
  rw [contribution, hfound]
  exact hpick

/-- A member that must be there contributes its value. -/
theorem Arranged.required_eq (h : Arranged slots members) (name : String)
    (hfield : (fields.lookup name).bind pick = some result)
    (hfields : ∀ field ∈ fields, field.1 ≠ name → pick field.2 = none)
    (hforeign : ∀ member, (foreign member).bind pick = none)
    (hslot : ∃ slot ∈ slots, slot.name = name ∧ ¬ slot.isOptional) :
    required name pick (members.filterMap (contribution fields foreign)) = .ok result := by
  obtain ⟨slot, hslot, rfl, hmust⟩ := hslot
  have hfound := (h.findSome?_contribution hslot hfield hfields hforeign).resolve_right
    fun h => hmust h.1
  rw [required, hfound]

/-- A member that must be there is missed where none has its name. -/
theorem refused_required (name : String)
    (hfields : ∀ field ∈ fields, field.1 ≠ name → pick field.2 = none)
    (hforeign : ∀ member, (foreign member).bind pick = none)
    (hmembers : name ∉ members.map Prod.fst) :
    Refused (· = .missingMember name)
      (required name pick (members.filterMap (contribution fields foreign))) := by
  have hnone : (members.filterMap (contribution fields foreign)).findSome? pick = none := by
    rw [findSome?_filterMap, List.findSome?_eq_none_iff]
    refine fun member hmember => contribution_bind_eq_none hfields hforeign fun heq => ?_
    exact hmembers (List.mem_map.mpr ⟨member, hmember, heq⟩)
  rw [required, hnone]
  exact ⟨_, rfl, rfl⟩

/-- A member that may be left out contributes its value or the default, which is the same. -/
theorem Arranged.optional_eq (h : Arranged slots members) (name : String) {default : α}
    (hfield : (fields.lookup name).bind pick = some result)
    (hfields : ∀ field ∈ fields, field.1 ≠ name → pick field.2 = none)
    (hforeign : ∀ member, (foreign member).bind pick = none)
    (hslot : ∃ slot ∈ slots, slot.name = name ∧ (slot.isOptional → result = default)) :
    optional default pick (members.filterMap (contribution fields foreign)) = result := by
  obtain ⟨slot, hslot, rfl, hdefault⟩ := hslot
  rw [optional]
  rcases h.findSome?_contribution hslot hfield hfields hforeign with
    hfound | ⟨hoptional, hfound⟩
  · rw [hfound, Option.getD_some]
  · rw [hfound, Option.getD_none, hdefault hoptional]

end Contributions

/-! ## Whole records -/

/-- Each slot of a record is listed with what its values are read as. -/
def Lists (fits : Slot → γ → Prop) (slots : List Slot) (fields : List (String × γ)) : Prop :=
  List.Forall₂ (fun slot field => slot.name = field.1 ∧ fits slot field.2) slots fields

theorem Lists.lookup_eq {fits : Slot → γ → Prop} {slots : List Slot} {fields : List (String × γ)}
    (h : Lists fits slots fields) (hnames : (slots.map Slot.name).Nodup) {slot : Slot}
    (hslot : slot ∈ slots) : ∃ found, fields.lookup slot.name = some found ∧ fits slot found := by
  induction h with
  | nil => simp at hslot
  | @cons first field slots fields hfirst _ ih =>
      obtain ⟨name, found⟩ := field
      obtain ⟨rfl, hfits⟩ := hfirst
      rw [List.map_cons, List.nodup_cons] at hnames
      rcases List.mem_cons.mp hslot with rfl | hslot
      · exact ⟨found, List.lookup_cons_self, hfits⟩
      · obtain ⟨found, hfound, hfits⟩ := ih hnames.2 hslot
        have hne : (slot.name == first.name) = false :=
          beq_eq_false_iff_ne.mpr fun heq =>
            hnames.1 (heq ▸ List.mem_map.mpr ⟨slot, hslot, rfl⟩)
        exact ⟨found, by rw [List.lookup_cons, hne]; exact hfound, hfits⟩

theorem Lists.lookup_eq_none {fits : Slot → γ → Prop} {slots : List Slot}
    {fields : List (String × γ)} (h : Lists fits slots fields) {name : String}
    (hname : name ∉ slots.map Slot.name) : fields.lookup name = none := by
  induction h with
  | nil => rfl
  | cons hfirst _ ih =>
      rw [List.map_cons, List.mem_cons, not_or] at hname
      have hne : (name == _) = false := beq_eq_false_iff_ne.mpr (hfirst.1 ▸ hname.1)
      rw [List.lookup_cons, hne]
      exact ih hname.2

theorem depth_le_of_mem {members : List (String × Value)} {room : Nat}
    (hdepth : (Value.object members).depth ≤ room + 1) :
    ∀ member ∈ members, member.2.depth ≤ room := by
  intro member hmember
  have hvalue : member.2.depth ≤ membersDepth members := depth_le_membersDepth hmember
  rw [Value.depth] at hdepth
  omega

/-- Each member of an arrangement is read as what is listed for its slot. -/
theorem Arranged.reads_members {read : String → Node → Except Refusal (Option γ)}
    {slots : List Slot} (fields : List (String × γ)) (foreign : String × Value → Option γ)
    {members : List (String × Value)} {room : Nat} (h : Arranged slots members)
    (hnames : (slots.map Slot.name).Nodup) (hdepth : ∀ member ∈ members, member.2.depth ≤ room)
    (hslots : Lists (fun slot found => ∀ value, slot.holds value → value.depth ≤ room →
      Reads (read slot.name) value (some found)) slots fields)
    (hforeign : ∀ name value, name ∉ slots.map Slot.name → value.depth ≤ room →
      Reads (read name) value (foreign (name, value))) :
    ∀ member ∈ members, Reads (read member.1) member.2 (contribution fields foreign member) := by
  rintro ⟨name, value⟩ hmember
  have hroom : value.depth ≤ room := hdepth _ hmember
  rcases h.exists_slot hmember with ⟨slot, hslot, rfl, hholds⟩ | hother
  · obtain ⟨found, hfound, hfits⟩ := hslots.lookup_eq hnames hslot
    rw [contribution, hfound]
    exact hfits value hholds hroom
  · rw [contribution, hslots.lookup_eq_none hother]
    exact hforeign name value hother hroom

/-- A record is read where its members are read and none comes twice. -/
theorem reads_record {decode : Node → Except Refusal α} {known : List String}
    {read : String → Node → Except Refusal (Option γ)} {build : List γ → Except Refusal α}
    {members : List (String × Value)} {gives : String × Value → Option γ} {result : α}
    (hdecode : ∀ start nodes tail,
      decode (.object start nodes tail) = readRecord known read build nodes tail)
    (hreads : ∀ member ∈ members, Reads (read member.1) member.2 (gives member))
    (hdistinct : Distinct known members)
    (hbuild : build (members.filterMap gives) = .ok result) :
    Reads decode (.object members) result := by
  intro node hnode
  cases hnode with
  | object hnodeNames hnodeValues =>
      rw [hdecode, readRecord_eq build hnodeNames hnodeValues hreads hdistinct, hbuild]
      rfl

/-- A record is refused where its members are read but do not build it. -/
theorem refuses_record {decode : Node → Except Refusal α} {known : List String}
    {read : String → Node → Except Refusal (Option γ)} {build : List γ → Except Refusal α}
    {members : List (String × Value)} {gives : String × Value → Option γ} {fault : Fault}
    (hdecode : ∀ start nodes tail,
      decode (.object start nodes tail) = readRecord known read build nodes tail)
    (hreads : ∀ member ∈ members, Reads (read member.1) member.2 (gives member))
    (hdistinct : Distinct known members)
    (hbuild : Refused (· = fault) (build (members.filterMap gives))) :
    Refuses decode (.object members) fault := by
  intro node hnode
  cases hnode with
  | object hnodeNames hnodeValues =>
      rw [hdecode, readRecord_eq build hnodeNames hnodeValues hreads hdistinct]
      exact hbuild.settled _

/-- A list is read where each of its elements is read from any of its forms. -/
theorem reads_listOf {read : Node → Except Refusal α} {form : α → Value → Prop}
    {elements : List α} {value : Value} {room : Nat} (h : IsListOf form elements value)
    (hdepth : value.depth ≤ room)
    (hread : ∀ element value, form element value → value.depth ≤ room - 1 →
      Reads read value element) :
    Reads (readList read) value elements := by
  obtain ⟨values, rfl, hforms⟩ := h
  rw [Value.depth] at hdepth
  refine reads_list ?_
  have hrooms : ∀ value ∈ values, value.depth ≤ room - 1 := fun value hvalue => by
    have := depth_le_itemsDepth hvalue
    omega
  clear hdepth
  induction hforms with
  | nil => exact .nil
  | cons hform _ ih =>
      exact .cons (hread _ _ hform (hrooms _ (by simp)))
        (ih fun value hvalue => hrooms value (by simp [hvalue]))

end Wiring.Json
