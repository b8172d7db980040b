import Wiring.Proofs.Json.Path
import Wiring.Proofs.Json.Refusing
import Wiring.Proofs.Metadata.RoundTrip

/-!
# Readers that guard the records inside a value

A record of metadata is spoiled by a second member of one of its names and by the loss of a
member without a default. A reader that refuses a value wherever a record inside it is
spoiled has this from the readers of the parts.
-/

namespace Wiring

open Json

variable {α γ : Type} {room : Nat} {fault : Fault} {value other : Value}
  {members others edited : List (String × Value)}

/-- The names of the members without a default. -/
def mandatoryNames : List String :=
  ["name", "keyword", "kind", "class_name", "function_name", "key"]

/-- The names of the variants of a scope, whose object is no record. -/
def Scope.variantNames : List String := ["type", "named"]

/-- The members of a record are spoiled: there is a second one of a name, which comes
anywhere and may hold what others hold under that name, or one without a default is missing. -/
inductive Spoils (others : List (String × Value)) :
    List (String × Value) → List (String × Value) → Fault → Prop where
  | repeated {before after : List (String × Value)} {member : String × Value}
      (hmember : member ∈ others) (hname : member.1 ∈ (before ++ after).map Prod.fst)
      (hrecord : member.1 ∉ Scope.variantNames) :
      Spoils others (before ++ after) (before ++ member :: after) (.repeatedMember member.1)
  | missing {before after : List (String × Value)} {member : String × Value}
      (hname : member.1 ∈ mandatoryNames) :
      Spoils others (before ++ member :: after) (before ++ after) (.missingMember member.1)

/-- What is spoiled is a record. -/
theorem Spoils.exists_name (h : Spoils others members edited fault) :
    ∃ name ∈ members.map Prod.fst, name ∉ Scope.variantNames := by
  have hmandatory : ∀ name ∈ mandatoryNames, name ∉ Scope.variantNames := by decide
  cases h with
  | @repeated _ _ member _ hname hrecord => exact ⟨member.1, hname, hrecord⟩
  | @missing _ _ member hname => exact ⟨member.1, by simp, hmandatory _ hname⟩

/-- Wherever a record inside a value is spoiled, a reader refuses the value because of that.
A second member may hold what stands there in another value. -/
def Guards (read : Node → Except Refusal α) (value other : Value) : Prop :=
  ∀ ⦃path : List PathStep⦄ ⦃members others edited : List (String × Value)⦄ ⦃fault : Fault⦄,
    value.at? path = some (.object members) → other.at? path = some (.object others) →
      Spoils others members edited fault → Refuses read (value.replaceAt path (.object edited)) fault

/-! ## Values without records -/

section Guards

variable {read : Node → Except Refusal α}

theorem guards_of_depth_eq_zero (hdepth : value.depth = 0 ∨ other.depth = 0) :
    Guards read value other := by
  intro path members others edited fault hvalue hother _
  rcases hdepth with hdepth | hdepth
  · exact absurd hvalue (at?_of_depth_eq_zero hdepth _)
  · exact absurd hother (at?_of_depth_eq_zero hdepth _)

theorem guards_text (text : String) (other : Value) : Guards read (.text text) other :=
  guards_of_depth_eq_zero (.inl rfl)

theorem guards_texts (texts : List String) (other : Value) :
    Guards read (.array (texts.map .text)) other := by
  intro path members others edited fault hvalue _ _
  cases path with
  | nil => simp [Value.at?] at hvalue
  | cons step path =>
      obtain ⟨before, item, after, hsplit, hitem, -⟩ := at?_array hvalue
      have hin : item ∈ texts.map .text := by simp [hsplit]
      obtain ⟨text, -, rfl⟩ := List.mem_map.mp hin
      exact absurd hitem (at?_of_depth_eq_zero rfl _)

/-- The object of a scope is not guarded, since its only member names the variant. -/
theorem guards_scope (scope : Option Scope) (other : Value) :
    Guards read ((scope.map Scope.encode).getD .null) other := by
  cases scope with
  | none => exact guards_of_depth_eq_zero (.inl rfl)
  | some scope =>
      obtain ⟨name, text, hencode, hname⟩ : ∃ name text,
          scope.encode = .object [(name, .text text)] ∧ name ∈ Scope.variantNames := by
        cases scope <;> exact ⟨_, _, rfl, by decide⟩
      intro path members others edited fault hvalue _ hspoils
      change scope.encode.at? path = _ at hvalue
      rw [hencode] at hvalue
      cases path with
      | nil =>
          obtain rfl : [(name, Value.text text)] = members := by simpa [Value.at?] using hvalue
          obtain ⟨_, hin, hout⟩ := hspoils.exists_name
          exact absurd (List.mem_singleton.mp hin ▸ hname) hout
      | cons step path =>
          obtain ⟨label, before, inner, after, -, hsplit, hinner, -⟩ := at?_object hvalue
          have hin : (label, inner) ∈ [(name, Value.text text)] := by simp [hsplit]
          obtain ⟨-, rfl⟩ := Prod.mk.inj (List.mem_singleton.mp hin)
          exact absurd hinner (at?_of_depth_eq_zero rfl _)

/-! ## Readers of values with records -/

theorem Guards.map (h : Guards read value other) (f : α → γ) :
    Guards (fun node => (read node).map f) value other :=
  fun _ _ _ _ _ hvalue hother hspoils => (h hvalue hother hspoils).map f

theorem Guards.some (h : Guards read value other) : Guards (readOptional read) value other :=
  fun _ _ _ edited _ hvalue hother hspoils =>
    (h hvalue hother hspoils).some (Value.replaceAt_ne_null hvalue edited)

theorem guards_list {values others : List Value}
    (hreads : ∀ value ∈ values, ∃ result, Reads read value result)
    (h : ∀ value ∈ values, ∀ other ∈ others, Guards read value other) :
    Guards (readList read) (.array values) (.array others) := by
  intro path members others edited fault hvalue hother hspoils
  cases path with
  | nil => simp [Value.at?] at hvalue
  | cons step path =>
      obtain ⟨before, value, after, rfl, hvalue, hreplace⟩ := at?_array hvalue
      obtain ⟨left, other, right, rfl, hother, -⟩ := at?_array hother
      rw [hreplace]
      exact refuses_list (fun value hin => hreads value (by simp [hin]))
        (h value (by simp) other (by simp) hvalue hother hspoils)

theorem guards_map {encode : α → Value}
    (hreads : ∀ element, Reads read (encode element) element)
    (h : ∀ element other, Guards read (encode element) (encode other)) (elements others : List α) :
    Guards (readList read) (.array (elements.map encode)) (.array (others.map encode)) :=
  guards_list (List.forall_mem_map.mpr fun element _ => ⟨element, hreads element⟩)
    (List.forall_mem_map.mpr fun element _ => List.forall_mem_map.mpr fun other _ =>
      h element other)

end Guards

section Records

variable {decode : Node → Except Refusal α} {known : List String}
  {read : String → Node → Except Refusal (Option γ)}

/-- A record is guarded where each of its members is. -/
theorem guards_object (hcollects : Collects known read decode)
    (hreads : ∀ member ∈ members, ∃ found, Reads (read member.1) member.2 found)
    (hnames : (members.map Prod.fst).Nodup)
    (hinside : ∀ member ∈ members, ∀ other, others.lookup member.1 = some other →
      Guards (read member.1) member.2 other)
    (hspoiled : ∀ edited fault, Spoils others members edited fault →
      Refuses decode (.object edited) fault) :
    Guards decode (.object members) (.object others) := by
  intro path inner inners edited fault hvalue hother hspoils
  cases path with
  | nil =>
      obtain rfl : members = inner := by simpa [Value.at?] using hvalue
      obtain rfl : others = inners := by simpa [Value.at?] using hother
      exact hspoiled _ _ hspoils
  | cons step path =>
      obtain ⟨name, before, value, after, rfl, rfl, hvalue, -, hreplace⟩ := at?_object hvalue
      obtain ⟨_, _, other, _, hstep, -, hother, hlookup, -⟩ := at?_object hother
      obtain rfl := PathStep.member.inj hstep
      obtain ⟨changed, hreplace⟩ := hreplace (.object edited)
      rw [hreplace]
      refine hcollects.refuses_member (fun value hin => hreads value (by simp [hin]))
        (hinside (name, value) (by simp) other hlookup hvalue hother hspoils) ?_
      refine hnames.sublist ?_
      rw [List.map_append, List.map_append]
      exact ((List.nil_sublist _).cons_cons name).append_left _

/-- A record is guarded where no member is kept, each one is read on its own, and the record
cannot be built without those that have no default. -/
theorem guards_record {build : List γ → Except Refusal α} {gives : String × Value → Option γ}
    (hdecode : ∀ start nodes tail,
      decode (.object start nodes tail) = readRecord known read build nodes tail)
    (hreads : ∀ member ∈ members, Reads (read member.1) member.2 (gives member))
    (hothers : ∀ member ∈ others, ∃ found, Reads (read member.1) member.2 found)
    (hnames : (members.map Prod.fst).Nodup) (hknown : members.map Prod.fst ⊆ known)
    (hmissing : ∀ name ∈ members.map Prod.fst, name ∈ mandatoryNames →
      ∀ rest : List (String × Value), name ∉ rest.map Prod.fst →
        Refused (· = .missingMember name) (build (rest.filterMap gives)))
    (hinside : ∀ member ∈ members, ∀ other, others.lookup member.1 = some other →
      Guards (read member.1) member.2 other) :
    Guards decode (.object members) (.object others) := by
  have hread : ∀ member ∈ members, ∃ found, Reads (read member.1) member.2 found :=
    fun member hmember => ⟨_, hreads member hmember⟩
  refine guards_object (.of_readRecord hdecode) hread hnames hinside fun edited fault hspoils => ?_
  cases hspoils with
  | @repeated before after member hmember hname =>
      refine (Collects.of_readRecord hdecode).refuses_repeated (fun value hvalue => ?_) hnames
        (hknown hname) hname
      rcases mem_inserted.mp hvalue with rfl | hvalue
      · exact hothers _ hmember
      · exact hread value hvalue
  | @missing before after member hname =>
      obtain ⟨hout, hnames⟩ := nodup_inserted.mp hnames
      exact refuses_record hdecode (fun value hvalue => hreads value (mem_inserted.mpr (.inr hvalue)))
        (distinct_of_nodup hnames) (hmissing member.1 (by simp) hname _ hout)

end Records

end Wiring
