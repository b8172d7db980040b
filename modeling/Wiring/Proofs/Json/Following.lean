import Wiring.Proofs.Json.Ending
import Wiring.Proofs.Json.Union

/-!
# Readers of texts that break off

A reader follows a value if it reads each node that spells the value, and refuses each
node that breaks off inside the value because of that end. Since a reader goes from left to
right, what is complete is read before the end is met, and nothing is missed before it.
-/

namespace Wiring.Json

variable {α β γ : Type}

/-- A reader reads a value where it is complete, and refuses it where the text ends too
early, for no other reason than that. -/
structure Follows (read : Node → Except Refusal α) (value : Value) : Prop where
  whole : ∃ result, Reads read value result
  cut : ∀ node : Node, node.Cut value → EndsEarly (read node)

theorem Follows.map {read : Node → Except Refusal α} {value : Value} (h : Follows read value)
    (f : α → β) : Follows (fun node => (read node).map f) value :=
  ⟨h.whole.imp' f fun _ hreads => hreads.map f, fun node hnode => (h.cut node hnode).map f⟩

/-! ## Simple types -/

theorem follows_text (expected : Expected) (text : String) :
    Follows (readText expected) (.text text) := by
  refine ⟨⟨_, reads_text expected text⟩, fun node hnode => ?_⟩
  cases hnode with
  | missing hended => exact .refuseNext hended _
  | text htext => exact htext

theorem follows_flag (value : Bool) : Follows readFlag (.flag value) := by
  refine ⟨⟨_, reads_flag value⟩, fun node hnode => ?_⟩
  cases hnode with
  | missing hended => exact .refuseNext hended _
  | flag => exact .refuseEnd rfl

section Optional

variable {read : Node → Except Refusal α} {value : Value}

/-- Where nothing has come yet, a value that may be left out is read like any other. -/
theorem Follows.none (h : Follows read value) : Follows (readOptional read) .null := by
  refine ⟨⟨_, reads_none read⟩, fun node hnode => ?_⟩
  cases hnode with
  | missing hended => exact (h.cut _ (.missing hended)).map _
  | null => exact .refuseEnd rfl

theorem Follows.some (h : Follows read value) (hvalue : value ≠ .null)
    (hnumber : ∀ number, value ≠ .number number) : Follows (readOptional read) value := by
  obtain ⟨result, hreads⟩ := h.whole
  refine ⟨⟨_, hreads.some hvalue⟩, fun node hnode => ?_⟩
  have hcut := h.cut node hnode
  cases hnode with
  | null => exact absurd rfl hvalue
  | number => exact absurd rfl (hnumber _)
  | _ => exact hcut.map _

theorem follows_optionalText (expected : Expected) (text : Option String) :
    Follows (readOptional (readText expected)) (.optionalText text) := by
  cases text with
  | none => exact (follows_text expected "").none
  | some text => exact (follows_text expected text).some (by simp) (by simp)

end Optional

/-- A word or a text is kept as soon as it is complete. -/
theorem follows_keep {value : Value} {room : Nat} (hdepth : value.depth = 0)
    (hnumber : ∀ number, value ≠ .number number) : Follows (Node.keep room) value := by
  refine ⟨⟨_, reads_keep value (by omega)⟩, fun node hnode => ?_⟩
  cases hnode with
  | missing hended => exact .refuseNext hended _
  | null | flag => exact .refuseEnd rfl
  | number => exact absurd rfl (hnumber _)
  | text htext => exact htext.map _
  | array | object => simp [Value.depth] at hdepth

theorem follows_keep_text (room : Nat) (text : String) :
    Follows (Node.keep room) (.text text) :=
  follows_keep rfl (by simp)

theorem follows_keep_flag (room : Nat) (value : Bool) :
    Follows (Node.keep room) (.flag value) :=
  follows_keep rfl (by simp)

/-! ## Arrays -/

/-- The end of an array that breaks off is met once all its elements are read. -/
theorem endsEarly_items {read : Node → Except Refusal α} {items : List (Item Node)} {tail : Tail}
    {values : List Value} (h : ItemsCut items tail values)
    (hfollows : ∀ value ∈ values, Follows read value) (next : List α → Except Refusal β) :
    EndsEarly (do
      let results ← items.mapM fun item => settledAt item.behind (read item.value)
      tail.endArray
      next results) := by
  induction h generalizing next with
  | ended | comma => exact ⟨_, rfl, rfl⟩
  | broken hcut =>
      have hread := (hfollows _ List.mem_cons_self).cut _ hcut
      simp only [List.mapM_cons, bind_assoc]
      exact .bind (hread.settled _) _
  | more hspells _ ih =>
      obtain ⟨result, hreads⟩ := (hfollows _ List.mem_cons_self).whole
      simp only [List.mapM_cons, bind_assoc, pure_bind, hreads _ hspells]
      exact ih (fun value hvalue => hfollows value (by simp [hvalue])) fun results =>
        next (result :: results)

theorem follows_list {read : Node → Except Refusal α} {values : List Value}
    (h : ∀ value ∈ values, Follows read value) : Follows (readList read) (.array values) := by
  have hwhole : ∃ results, List.Forall₂ (Reads read) values results := by
    induction values with
    | nil => exact ⟨[], .nil⟩
    | cons value values ih =>
        obtain ⟨result, hresult⟩ := (h value (by simp)).whole
        obtain ⟨results, hresults⟩ := ih fun value hvalue => h value (by simp [hvalue])
        exact ⟨result :: results, .cons hresult hresults⟩
  refine ⟨hwhole.imp fun _ => reads_list, fun node hnode => ?_⟩
  cases hnode with
  | missing hended => exact .refuseNext hended _
  | array hitems => exact endsEarly_items hitems h pure

/-! ## Records -/

section Records

variable {known : List String} {read : String → Node → Except Refusal (Option γ)}
  {members : List (Member Node)} {tail : Tail} {values : List (String × Value)}

/-- The end of an object that breaks off is met once the members in front of it are
collected. -/
theorem endsEarly_members (h : MembersCut members tail values)
    (hfollows : ∀ value ∈ values, Follows (read value.1) value.2)
    (hdistinct : Distinct known values) {seen : List String}
    (hseen : ∀ name ∈ seen, name ∈ known → name ∉ values.map Prod.fst)
    (next : List γ → Except Refusal α) :
    EndsEarly (do
      let found ← collect known read seen (members.map Member.entry)
      tail.endObject
      next found) := by
  induction h generalizing seen next with
  | ended | comma => exact ⟨_, rfl, rfl⟩
  | @broken member value values hcut =>
      refine .bind ?_ _
      cases hcut with
      | name hname => exact .bind hname _
      | value hname hvalue =>
          have hnew : ¬ (value.1 ∈ known ∧ value.1 ∈ seen) := fun ⟨hknown, hin⟩ =>
            hseen value.1 hin hknown (by simp)
          have hread : Refused (·.category = .ended) (read value.1 member.entry.value) :=
            (hfollows value (by simp)).cut _ hvalue
          exact hread.collect _ hname.decode_eq hnew
  | @more member members tail value values hspells _ ih =>
      -- what this member contributes goes into what is done with the further ones
      have hnew : ¬ (value.1 ∈ known ∧ value.1 ∈ seen) := fun ⟨hknown, hin⟩ =>
        hseen value.1 hin hknown (by simp)
      obtain ⟨result, hreads⟩ := (hfollows value (by simp)).whole
      have hmore := ih (fun value hvalue => hfollows value (by simp [hvalue]))
        (List.pairwise_cons.mp hdistinct).2 (hdistinct.not_mem_of_cons hseen) fun found =>
          next (result.toList ++ found)
      rw [List.map_cons, collect_cons _ hspells.1.decode_eq hnew (hreads _ hspells.2)]
      generalize collect known read (value.1 :: seen) (members.map Member.entry) = found
        at hmore ⊢
      cases found <;> exact hmore

/-- A record that breaks off is refused before it is asked what is missing. -/
theorem endsEarly_readRecord (h : MembersCut members tail values)
    (hfollows : ∀ value ∈ values, Follows (read value.1) value.2)
    (hdistinct : Distinct known values) (build : List γ → Except Refusal α) :
    EndsEarly (readRecord known read build members tail) :=
  endsEarly_members h hfollows hdistinct (by simp) fun found => settledAt tail.rest (build found)

theorem follows_record {decode : Node → Except Refusal α} {build : List γ → Except Refusal α}
    (hdecode : ∀ start nodes tail,
      decode (.object start nodes tail) = readRecord known read build nodes tail)
    (hmissing : ∀ fault rest, decode (.missing fault rest) = refuseNext fault rest)
    (hwhole : ∃ result, Reads decode (.object values) result)
    (hfollows : ∀ value ∈ values, Follows (read value.1) value.2)
    (hdistinct : Distinct known values) : Follows decode (.object values) := by
  refine ⟨hwhole, fun node hnode => ?_⟩
  cases hnode with
  | missing hended =>
      rw [hmissing]
      exact .refuseNext hended _
  | object hmembers =>
      rw [hdecode]
      exact endsEarly_readRecord hmembers hfollows hdistinct build

end Records

/-! ## Unions -/

section Unions

variable {variants : List (String × α)} {bare : α → Except Refusal β}
  {withValue : α → Node → Except Refusal β} {name : String} {variant : α}

theorem follows_bare {result : β} (hvariant : variants.lookup name = some variant)
    (hbare : bare variant = .ok result) :
    Follows (readUnion variants bare withValue) (.text name) := by
  refine ⟨⟨result, reads_bare hvariant hbare⟩, fun node hnode => ?_⟩
  cases hnode with
  | missing hended => exact .refuseNext hended _
  | text htext => exact .bind htext _

/-- A variant with a value is not complete before its object is closed. -/
theorem follows_withValue {value : Value} (hvariant : variants.lookup name = some variant)
    (hvalue : Follows (withValue variant) value) :
    Follows (readUnion variants bare withValue) (.object [(name, value)]) := by
  obtain ⟨result, hreads⟩ := hvalue.whole
  refine ⟨⟨result, reads_withValue hvariant hreads⟩, fun node hnode => ?_⟩
  cases hnode with
  | missing hended => exact .refuseNext hended _
  | object hmembers =>
      cases hmembers with
      | ended | comma => exact .refuseEnd rfl
      | broken hcut =>
          cases hcut with
          | name hname => exact .bind hname _
          | value hname hcut =>
              rw [readUnion, hname.decode_eq]
              change EndsEarly (settledAt _ (variantOf variants name) >>= _)
              rw [variantOf_eq hvariant]
              exact .bind (hvalue.cut _ hcut) _
      | more hspells hmore =>
          rw [readUnion, hspells.1.decode_eq]
          change EndsEarly (settledAt _ (variantOf variants name) >>= _)
          rw [variantOf_eq hvariant]
          change EndsEarly (withValue variant _ >>= _)
          rw [hreads _ hspells.2]
          -- behind the only member no comma is written
          cases hmore with
          | ended => exact .refuseEnd rfl
          | comma hmore => exact absurd rfl hmore

end Unions

section Tagged

variable {u : Variants α β} {label : String} {variant : α}

theorem follows_readTag (hvariant : u.variants.lookup label = some variant) :
    Follows u.readTag (.text label) :=
  ⟨⟨variant, reads_readTag hvariant⟩, fun node hnode =>
    .bind ((follows_text .variantName label).cut node hnode) _⟩

/-- The variant is named before the text ends or not at all; either way the end comes
first. -/
theorem Variants.follows {room : Nat} {result : β} {members : List (String × Value)}
    (hwhole : Reads (u.read room) (.object members) result)
    (hvariant : u.variants.lookup label = some variant)
    (htag : ∀ member ∈ members, member.1 = tagName → member.2 = .text label)
    (hkept : ∀ member ∈ members, member.1 ≠ tagName → Follows (Node.keep (room - 1)) member.2)
    (hdistinct : Distinct [tagName] members) : Follows (u.read room) (.object members) := by
  have hfollows : ∀ member ∈ members, Follows (u.readMember (room - 1) member.1) member.2 := by
    intro member hmember
    by_cases hname : member.1 = tagName
    · rw [htag member hmember hname, hname]
      exact (follows_readTag hvariant).map _
    · have hread : u.readMember (room - 1) member.1 = fun node =>
          (node.keep (room - 1)).map (some ∘ .field member.1) := by
        funext node
        rw [readMember, if_neg hname]
      rw [hread]
      exact (hkept member hmember hname).map _
  refine ⟨⟨result, hwhole⟩, fun node hnode => ?_⟩
  cases hnode with
  | missing hended => exact .refuseNext hended _
  | object hmembers => exact .bind (endsEarly_readRecord hmembers hfollows hdistinct splitTag) _

end Tagged

/-! ## Whole texts -/

/-- A text that breaks off is refused because of its end. -/
theorem Follows.parse_breaksOff {read : Node → Except Refusal α} {value : Value} {text : String}
    (h : Follows read value) (hplain : value.isPlain = true)
    (htext : BreaksOff text.toList value.writeChars) : EndsEarly (parse read text) :=
  .bind (h.cut _ (Node.scan_cut hplain htext)) _

end Wiring.Json
