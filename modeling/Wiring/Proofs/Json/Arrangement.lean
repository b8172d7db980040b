import Mathlib.Data.List.Nodup
import Wiring.Json.Value

/-!
# Records in any arrangement

A record is written with a member for each of its slots. The members may come in any
order and among members of other names, and a slot whose value has a default may be
left empty. What is found under the name of a slot depends on none of that.
-/

namespace Wiring.Json

variable {α : Type}

/-! ## Arrangements -/

/-- A member that a record is written with. -/
structure Slot where
  name : String
  /-- The values it may be written with. -/
  holds : Value → Prop
  /-- Whether it may be left out. -/
  isOptional : Prop

/-- A member without a default. -/
def Slot.must (name : String) (holds : Value → Prop) : Slot :=
  { name, holds, isOptional := False }

/-- A member that may be left out where it holds its default. -/
def Slot.may (name : String) (holds : Value → Prop) (isDefault : Prop) : Slot :=
  { name, holds, isOptional := isDefault }

section Fields

variable (name : String) (holds : Value → Prop) (isDefault : Prop)

@[simp] theorem Slot.name_must : (Slot.must name holds).name = name := rfl

@[simp] theorem Slot.isOptional_must : (Slot.must name holds).isOptional = False := rfl

@[simp] theorem Slot.name_may : (Slot.may name holds isDefault).name = name := rfl

@[simp] theorem Slot.isOptional_may :
    (Slot.may name holds isDefault).isOptional = isDefault := rfl

end Fields

/-- Members that stand for the slots in order, some of which may be left empty. -/
inductive Fills : List Slot → List (String × Value) → Prop where
  /-- No slots. -/
  | done : Fills [] []
  | fill {slot : Slot} {slots : List Slot} {value : Value} {members : List (String × Value)}
      (hvalue : slot.holds value) (hmore : Fills slots members) :
      Fills (slot :: slots) ((slot.name, value) :: members)
  /-- A slot that is left empty. -/
  | leaveOut {slot : Slot} {slots : List Slot} {members : List (String × Value)}
      (hoptional : slot.isOptional) (hmore : Fills slots members) :
      Fills (slot :: slots) members

/-- Members that stand for the slots in any order, among any members of other names. -/
def Arranged (slots : List Slot) (members : List (String × Value)) : Prop :=
  ∃ own foreign : List (String × Value), Fills slots own ∧
    (∀ member ∈ foreign, member.1 ∉ slots.map Slot.name) ∧ members.Perm (own ++ foreign)

/-- An object that is a record with these slots. -/
def IsRecord (slots : List Slot) (value : Value) : Prop :=
  ∃ members : List (String × Value), value = .object members ∧ Arranged slots members

/-- An array whose elements are forms of the given ones. -/
def IsListOf (form : α → Value → Prop) (elements : List α) (value : Value) : Prop :=
  ∃ values : List Value, value = .array values ∧ List.Forall₂ form elements values

theorem IsRecord.arranged {slots : List Slot} {members : List (String × Value)}
    (h : IsRecord slots (.object members)) : Arranged slots members := by
  obtain ⟨_, heq, h⟩ := h
  exact Value.object.inj heq ▸ h

/-! ## What an arrangement determines -/

namespace Fills

variable {slots : List Slot} {own : List (String × Value)}

theorem names_sublist (h : Fills slots own) : (own.map Prod.fst).Sublist (slots.map Slot.name) := by
  induction h with
  | done => exact .slnil
  | fill _ _ ih => exact ih.cons_cons _
  | leaveOut _ _ ih => exact ih.cons _

theorem exists_slot (h : Fills slots own) {member : String × Value} (hmember : member ∈ own) :
    ∃ slot ∈ slots, slot.name = member.1 ∧ slot.holds member.2 := by
  induction h with
  | done => simp at hmember
  | @fill slot _ value _ hvalue _ ih =>
      rcases List.mem_cons.mp hmember with rfl | hmember
      · exact ⟨slot, by simp, rfl, hvalue⟩
      · obtain ⟨found, hfound, hholds⟩ := ih hmember
        exact ⟨found, by simp [hfound], hholds⟩
  | leaveOut _ _ ih =>
      obtain ⟨found, hfound, hholds⟩ := ih hmember
      exact ⟨found, by simp [hfound], hholds⟩

theorem exists_member (h : Fills slots own) {slot : Slot} (hslot : slot ∈ slots) :
    (∃ value, slot.holds value ∧ (slot.name, value) ∈ own) ∨ slot.isOptional := by
  induction h with
  | done => simp at hslot
  | @fill first _ value _ hvalue _ ih =>
      rcases List.mem_cons.mp hslot with rfl | hslot
      · exact .inl ⟨value, hvalue, by simp⟩
      · exact (ih hslot).imp_left fun ⟨value, hvalue, hmember⟩ => ⟨value, hvalue, by simp [hmember]⟩
  | leaveOut hoptional _ ih =>
      rcases List.mem_cons.mp hslot with rfl | hslot
      · exact .inr hoptional
      · exact ih hslot

/-- What stands for the slots of a record in two parts has two parts itself. -/
theorem split_append {first second : List Slot} (h : Fills (first ++ second) own) :
    ∃ left right : List (String × Value),
      own = left ++ right ∧ Fills first left ∧ Fills second right := by
  induction first generalizing own with
  | nil => exact ⟨[], own, rfl, .done, h⟩
  | cons slot first ih =>
      cases h with
      | fill hvalue hmore =>
          obtain ⟨left, right, rfl, hleft, hright⟩ := ih hmore
          exact ⟨_ :: left, right, rfl, .fill hvalue hleft, hright⟩
      | leaveOut hoptional hmore =>
          obtain ⟨left, right, rfl, hleft, hright⟩ := ih hmore
          exact ⟨left, right, rfl, .leaveOut hoptional hleft, hright⟩

end Fills

/-- No two members have the same known name. -/
def Distinct (known : List String) (members : List (String × Value)) : Prop :=
  members.Pairwise fun first second => first.1 = second.1 → first.1 ∉ known

section Inserted

variable {before after members : List (String × Value)} {member value : String × Value}

theorem mem_inserted : value ∈ before ++ member :: after ↔ value = member ∨ value ∈ before ++ after :=
  List.perm_middle.mem_iff.trans List.mem_cons

theorem nodup_inserted : ((before ++ member :: after).map Prod.fst).Nodup ↔
    member.1 ∉ (before ++ after).map Prod.fst ∧ ((before ++ after).map Prod.fst).Nodup :=
  (List.perm_middle.map Prod.fst).nodup_iff.trans List.nodup_cons

end Inserted

theorem distinct_of_nodup {known : List String} {members : List (String × Value)}
    (hnames : (members.map Prod.fst).Nodup) : Distinct known members :=
  (List.pairwise_map.mp hnames).imp fun hne heq => absurd heq hne

namespace Arranged

variable {slots : List Slot} {slot : Slot} {members : List (String × Value)}

/-- Each member is foreign or stands for one of the slots. -/
theorem exists_slot (h : Arranged slots members) {member : String × Value}
    (hmember : member ∈ members) :
    (∃ slot ∈ slots, slot.name = member.1 ∧ slot.holds member.2) ∨
      member.1 ∉ slots.map Slot.name := by
  obtain ⟨own, foreign, hfills, hforeign, hperm⟩ := h
  rcases List.mem_append.mp (hperm.mem_iff.mp hmember) with hown | hother
  · exact .inl (hfills.exists_slot hown)
  · exact .inr (hforeign member hother)

/-- To one part of a record the members of the other part are foreign. -/
theorem of_append {first second : List Slot} (h : Arranged (first ++ second) members)
    (hnames : ((first ++ second).map Slot.name).Nodup) :
    Arranged first members ∧ Arranged second members := by
  obtain ⟨own, foreign, hfills, hforeign, hperm⟩ := h
  obtain ⟨left, right, rfl, hleft, hright⟩ := hfills.split_append
  rw [List.map_append] at hnames
  obtain ⟨-, -, hdisjoint⟩ := List.nodup_append.mp hnames
  refine ⟨⟨left, right ++ foreign, hleft, ?_, by rwa [← List.append_assoc]⟩,
    ⟨right, left ++ foreign, hright, ?_, hperm.trans ?_⟩⟩
  · intro member hmember hin
    rcases List.mem_append.mp hmember with hother | hother
    · exact hdisjoint _ hin _
        (hright.names_sublist.subset (List.mem_map.mpr ⟨member, hother, rfl⟩)) rfl
    · exact hforeign member hother (by simp [List.map_append, hin])
  · intro member hmember hin
    rcases List.mem_append.mp hmember with hother | hother
    · exact hdisjoint _
        (hleft.names_sublist.subset (List.mem_map.mpr ⟨member, hother, rfl⟩)) _ hin rfl
    · exact hforeign member hother (by simp [List.map_append, hin])
  · rw [← List.append_assoc]
    exact List.perm_append_comm.append_right foreign

section Foreign

variable {before after : List (String × Value)} {member : String × Value}

theorem insert (h : Arranged slots (before ++ after)) (hmember : member.1 ∉ slots.map Slot.name) :
    Arranged slots (before ++ member :: after) := by
  obtain ⟨own, foreign, hfills, hforeign, hperm⟩ := h
  refine ⟨own, member :: foreign, hfills, List.forall_mem_cons.mpr ⟨hmember, hforeign⟩, ?_⟩
  exact List.perm_middle.trans ((hperm.cons member).trans List.perm_middle.symm)

theorem erase (h : Arranged slots (before ++ member :: after))
    (hmember : member.1 ∉ slots.map Slot.name) : Arranged slots (before ++ after) := by
  obtain ⟨own, foreign, hfills, hforeign, hperm⟩ := h
  have hin : member ∈ own ++ foreign := hperm.mem_iff.mp (by simp)
  -- it stands for no slot, so that it is one of the foreign members
  have hout : member ∉ own := fun hown => hmember
    (hfills.names_sublist.subset (List.mem_map.mpr ⟨member, hown, rfl⟩))
  obtain ⟨left, right, rfl⟩ := List.append_of_mem ((List.mem_append.mp hin).resolve_left hout)
  refine ⟨own, left ++ right, hfills, fun other hother => hforeign other ?_, ?_⟩
  · rcases List.mem_append.mp hother with hleft | hright <;> simp [*]
  · rw [← List.append_assoc] at hperm ⊢
    exact (List.perm_middle.symm.trans (hperm.trans List.perm_middle)).cons_inv

end Foreign

/-- To the first slot of a record the members of all others are foreign. -/
theorem of_cons (h : Arranged (slot :: slots) members)
    (hnames : ((slot :: slots).map Slot.name).Nodup) : Arranged [slot] members := by
  have hparts : Arranged ([slot] ++ slots) members := h
  exact (hparts.of_append hnames).1

/-- A member under the name of a slot holds what the slot says. -/
theorem holds (h : Arranged slots members) (hnames : (slots.map Slot.name).Nodup)
    (hslot : slot ∈ slots) {member : String × Value} (hmember : member ∈ members)
    (hname : member.1 = slot.name) : slot.holds member.2 := by
  rcases h.exists_slot hmember with ⟨holder, hholder, hsame, hholds⟩ | hforeign
  · obtain rfl := List.inj_on_of_nodup_map hnames hholder hslot (hsame.trans hname)
    exact hholds
  · exact absurd (List.mem_map.mpr ⟨slot, hslot, hname.symm⟩) hforeign

theorem distinct (h : Arranged slots members) (hnames : (slots.map Slot.name).Nodup)
    {known : List String} (hknown : known ⊆ slots.map Slot.name) : Distinct known members := by
  obtain ⟨own, foreign, hfills, hforeign, hperm⟩ := h
  have hunknown : ∀ member ∈ foreign, member.1 ∉ known := fun member hmember hin =>
    hforeign member hmember (hknown hin)
  have hown : own.Pairwise fun first second => first.1 ≠ second.1 :=
    List.pairwise_map.mp (hfills.names_sublist.nodup hnames)
  have hsymm : ∀ first second : String × Value, (first.1 = second.1 → first.1 ∉ known) →
      second.1 = first.1 → second.1 ∉ known := fun _ _ h heq => heq ▸ h heq.symm
  refine (hperm.pairwise_iff fun h => hsymm _ _ h).mpr (List.pairwise_append.mpr ⟨?_, ?_, ?_⟩)
  · exact hown.imp fun hne heq => absurd heq hne
  · exact List.pairwise_of_forall_mem_list fun first hfirst _ _ _ => hunknown first hfirst
  · intro first _ second hsecond heq
    exact heq ▸ hunknown second hsecond

/-- What is looked for under the name of a slot is found, unless the slot is left empty. -/
theorem findSome? (h : Arranged slots members) (hslot : slot ∈ slots)
    {look : String × Value → Option α} {result : α}
    (hother : ∀ member, member.1 ≠ slot.name → look member = none)
    (hgives : ∀ value, look (slot.name, value) = some result) :
    members.findSome? look = some result ∨
      slot.isOptional ∧ members.findSome? look = none := by
  cases hfound : members.findSome? look with
  | none =>
      refine .inr ⟨?_, rfl⟩
      obtain ⟨own, foreign, hfills, -, hperm⟩ := h
      refine (hfills.exists_member hslot).resolve_left ?_
      -- its member would have been found
      rintro ⟨value, -, hmember⟩
      have hin : (slot.name, value) ∈ members := hperm.mem_iff.mpr (by simp [hmember])
      have hnone := List.findSome?_eq_none_iff.mp hfound _ hin
      rw [hgives value] at hnone
      simp at hnone
  | some found =>
      refine .inl ?_
      obtain ⟨member, -, hlook⟩ := List.exists_of_findSome?_eq_some hfound
      have hname : member.1 = slot.name := by
        by_contra hne
        rw [hother member hne] at hlook
        simp at hlook
      rw [← hlook, ← hgives member.2, ← hname]

end Arranged

end Wiring.Json
