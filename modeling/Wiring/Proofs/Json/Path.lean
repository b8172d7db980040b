import Wiring.Proofs.Json.Reading

/-!
# Places inside a value

A path leads from a value to one of its parts, by the names of members and the numbers of
elements. What stands there can be looked up and can be replaced, which changes nothing
beside the path.
-/

namespace Wiring.Json

/-- A step from a value to one of its parts. -/
inductive PathStep where
  /-- To the member of an object. -/
  | member (name : String)
  /-- To the element of an array, counted from zero. -/
  | item (index : Nat)
deriving DecidableEq, Repr

namespace Value

/-- The part that a path leads to. -/
def at? : Value → List PathStep → Option Value
  | value, [] => some value
  | .array items, .item index :: path => items[index]?.bind (·.at? path)
  | .object members, .member name :: path => (members.lookup name).bind (·.at? path)
  | _, _ :: _ => none

/-- The value with another part where a path leads. -/
def replaceAt : Value → List PathStep → Value → Value
  | _, [], new => new
  | .array items, .item index :: path, new => .array (items.modify index (·.replaceAt path new))
  | .object members, .member name :: path, new =>
      .object (members.map fun member =>
        if member.1 = name then (name, member.2.replaceAt path new) else member)
  | value, _ :: _, _ => value

end Value

section Steps

variable {step : PathStep} {path : List PathStep} {found : Value}

/-! ## One step -/

/-- A path goes on inside an element, the only one that a replacement changes. -/
theorem at?_array {items : List Value} (h : (Value.array items).at? (step :: path) = some found) :
    ∃ before item after, items = before ++ item :: after ∧ item.at? path = some found ∧
      ∀ new, (Value.array items).replaceAt (step :: path) new =
        .array (before ++ item.replaceAt path new :: after) := by
  cases step with
  | member name => simp [Value.at?] at h
  | item index =>
      obtain ⟨item, hitem, hfound⟩ := Option.bind_eq_some_iff.mp h
      obtain ⟨hindex, rfl⟩ := List.getElem?_eq_some_iff.mp hitem
      refine ⟨items.take index, items[index], items.drop (index + 1), ?_, hfound, fun new => ?_⟩
      · rw [List.getElem_cons_drop, List.take_append_drop]
      · rw [Value.replaceAt, List.modify_eq_take_cons_drop hindex]

/-- A path goes on inside a member. Those in front of it have other names, so that a
replacement leaves them as they are. -/
theorem at?_object {members : List (String × Value)}
    (h : (Value.object members).at? (step :: path) = some found) :
    ∃ name before value after, step = .member name ∧ members = before ++ (name, value) :: after ∧
      value.at? path = some found ∧ members.lookup name = some value ∧
      ∀ new, ∃ changed, (Value.object members).replaceAt (step :: path) new =
        .object (before ++ (name, value.replaceAt path new) :: changed) := by
  cases step with
  | item index => simp [Value.at?] at h
  | member name =>
      obtain ⟨value, hvalue, hfound⟩ := Option.bind_eq_some_iff.mp h
      obtain ⟨before, after, rfl, hbefore⟩ := List.lookup_eq_some_iff.mp hvalue
      refine ⟨name, before, value, after, rfl, rfl, hfound, hvalue, fun new => ?_⟩
      let change (member : String × Value) : String × Value :=
        if member.1 = name then (name, member.2.replaceAt path new) else member
      have hkeep : before.map change = before := by
        refine (List.map_congr_left fun member hmember => if_neg ?_).trans (List.map_id _)
        intro hname
        simpa [hname] using hbefore member hmember
      exact ⟨after.map change, by
        rw [Value.replaceAt, List.map_append, hkeep, List.map_cons, if_pos rfl]⟩

theorem Value.replaceAt_ne_null {value : Value} {members : List (String × Value)}
    (h : value.at? path = some (.object members)) (edited : List (String × Value)) :
    value.replaceAt path (.object edited) ≠ .null := by
  cases path with
  | nil => simp [Value.replaceAt]
  | cons step path => cases value <;> cases step <;> simp [Value.at?, Value.replaceAt] at h ⊢

/-- A path that leads to an object starts at an object or at an array. -/
theorem at?_of_depth_eq_zero {value : Value} (hdepth : value.depth = 0)
    (members : List (String × Value)) : value.at? path ≠ some (.object members) := by
  cases value <;> cases path <;> simp [Value.at?, Value.depth] at hdepth ⊢

/-! ## Plain values -/

theorem arePlain_iff {items : List Value} :
    arePlain items = true ↔ ∀ item ∈ items, item.isPlain = true := by
  induction items with
  | nil => simp [arePlain]
  | cons item items ih => simp [arePlain, ih]

theorem membersPlain_iff {members : List (String × Value)} :
    membersPlain members = true ↔ ∀ member ∈ members, member.2.isPlain = true := by
  induction members with
  | nil => simp [membersPlain]
  | cons member members ih => simp [membersPlain, ih]

/-- A part of a plain value is plain. -/
theorem Value.isPlain_at? {value : Value} (hplain : value.isPlain = true)
    (h : value.at? path = some found) : found.isPlain = true := by
  induction path generalizing value with
  | nil => exact Option.some.inj h ▸ hplain
  | cons step path ih =>
      cases value with
      | array items =>
          obtain ⟨before, item, after, rfl, hfound, -⟩ := at?_array h
          exact ih (arePlain_iff.mp hplain item (by simp)) hfound
      | object members =>
          obtain ⟨name, before, value, after, -, rfl, hfound, -⟩ := at?_object h
          exact ih (membersPlain_iff.mp hplain (name, value) (by simp)) hfound
      | _ => simp [Value.at?] at h

/-- A plain value stays plain where a part of it is replaced by a plain one. -/
theorem Value.isPlain_replaceAt {value new : Value} (hplain : value.isPlain = true)
    (hnew : new.isPlain = true) : (value.replaceAt path new).isPlain = true := by
  induction path generalizing value with
  | nil => simpa [Value.replaceAt] using hnew
  | cons step path ih =>
      cases value <;> cases step <;> try exact hplain
      case array.item items index =>
        refine arePlain_iff.mpr fun item hitem => ?_
        obtain ⟨position, hitem⟩ := List.mem_iff_getElem?.mp hitem
        rw [List.getElem?_modify] at hitem
        obtain ⟨old, hold, rfl⟩ := Option.map_eq_some_iff.mp hitem
        have hold := arePlain_iff.mp hplain old (List.mem_of_getElem? hold)
        split
        · exact ih hold
        · exact hold
      case object.member members name =>
        refine membersPlain_iff.mpr fun member hmember => ?_
        obtain ⟨old, hold, rfl⟩ := List.mem_map.mp hmember
        have hold := membersPlain_iff.mp hplain old hold
        split
        · exact ih hold
        · exact hold

end Steps

end Wiring.Json
