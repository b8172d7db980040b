import Wiring.Proofs.Json.Union

/-!
# Values that are refused

A reader goes from left to right, so that it refuses an array or an object because of the
first part that it refuses, whatever stands behind it. It refuses a record besides because
of a known member that comes again: where it stands if it is read there, and at the end if
it is kept.
-/

namespace Wiring.Json

variable {α β γ : Type} {fault : Fault}

/-! ## Parts that are refused -/

section Parts

variable {read : Node → Except Refusal α} {value : Value}

theorem Refuses.map (h : Refuses read value fault) (f : α → β) :
    Refuses (fun node => (read node).map f) value fault :=
  fun node hnode => (h node hnode).map f

theorem Refuses.some (h : Refuses read value fault) (hvalue : value ≠ .null) :
    Refuses (readOptional read) value fault := by
  intro node hnode
  have hread := h node hnode
  cases hnode with
  | null => exact absurd rfl hvalue
  | _ => exact hread.map _

/-- An array is refused because of an element behind those that are read. -/
theorem refuses_list {before after : List Value}
    (hbefore : ∀ value ∈ before, ∃ result, Reads read value result)
    (h : Refuses read value fault) :
    Refuses (readList read) (.array (before ++ value :: after)) fault := by
  intro node hnode
  cases hnode with
  | @array start rest items _ hitems =>
      have hread : Refused (· = fault)
          (items.mapM fun item => settledAt item.behind (read item.value)) := by
        induction before generalizing items with
        | nil =>
            cases hitems with
            | cons hitem _ =>
                rw [List.mapM_cons]
                exact ((h _ hitem).settled _).bind _
        | cons first before ih =>
            cases hitems with
            | cons hitem hitems =>
                obtain ⟨result, hreads⟩ := hbefore first (by simp)
                rw [List.mapM_cons, hreads _ hitem]
                exact (ih (fun value hvalue => hbefore value (by simp [hvalue])) hitems).bind _
      exact hread.bind _

end Parts

/-! ## Objects whose members are collected -/

/-- What a reader does with an object begins with collecting its members. -/
def Collects (known : List String) (read : String → Node → Except Refusal (Option γ))
    (decode : Node → Except Refusal α) : Prop :=
  ∀ (start : List Char) (nodes : List (Member Node)) (tail : Tail) (why : Fault → Prop),
    Refused why (collect known read [] (nodes.map Member.entry)) →
      Refused why (decode (.object start nodes tail))

section Collecting

variable {known : List String} {decode : Node → Except Refusal α}
  {read : String → Node → Except Refusal (Option γ)} {before after : List (String × Value)}
  {member : String × Value}

theorem Collects.of_readRecord {build : List γ → Except Refusal α}
    (hdecode : ∀ start nodes tail,
      decode (.object start nodes tail) = readRecord known read build nodes tail) :
    Collects known read decode := by
  intro start nodes tail why hrefused
  rw [hdecode]
  exact hrefused.bind _

theorem Variants.collects (u : Variants α β) (room : Nat) :
    Collects [tagName] (u.readMember (room - 1)) (u.read room) :=
  fun _ _ _ _ hrefused => (hrefused.bind _).bind _

/-- The members in front of one that is refused are collected, those behind it do not
matter. -/
theorem refused_collect {seen : List String} {entries : List (Entry Node)}
    (hentries : List.Forall₂ (fun entry value => entry.name = .ok value.1 ∧
      entry.value.Spells value.2) entries (before ++ member :: after))
    (hbefore : ∀ value ∈ before, ∃ found, Reads (read value.1) value.2 found)
    (hmember : Refuses (read member.1) member.2 fault)
    (hnames : ((before ++ [member]).map Prod.fst).Nodup)
    (hseen : ∀ name ∈ seen, name ∉ (before ++ [member]).map Prod.fst) :
    Refused (· = fault) (collect known read seen entries) := by
  induction before generalizing seen entries with
  | nil =>
      cases hentries with
      | @cons entry _ entries _ hentry _ =>
          have hnew : ¬ (member.1 ∈ known ∧ member.1 ∈ seen) := fun ⟨_, hin⟩ =>
            hseen member.1 hin (by simp)
          exact Refused.collect entries hentry.1 hnew (hmember _ hentry.2)
  | cons first before ih =>
      cases hentries with
      | @cons entry _ entries _ hentry hentries =>
          have hnew : ¬ (first.1 ∈ known ∧ first.1 ∈ seen) := fun ⟨_, hin⟩ =>
            hseen first.1 hin (by simp)
          obtain ⟨found, hreads⟩ := hbefore first (by simp)
          obtain ⟨hfirst, hnames⟩ := List.nodup_cons.mp hnames
          rw [collect_cons entries hentry.1 hnew (hreads _ hentry.2)]
          refine (ih hentries (fun value hvalue => hbefore value (by simp [hvalue])) hnames ?_).map _
          rintro name hname hin
          rcases List.mem_cons.mp hname with rfl | hold
          · exact hfirst hin
          · exact hseen name hold (List.mem_cons_of_mem _ hin)

/-- An object is refused because of a member behind those that are read. -/
theorem Collects.refuses_member (h : Collects known read decode)
    (hbefore : ∀ value ∈ before, ∃ found, Reads (read value.1) value.2 found)
    (hmember : Refuses (read member.1) member.2 fault)
    (hnames : ((before ++ [member]).map Prod.fst).Nodup) :
    Refuses decode (.object (before ++ member :: after)) fault := by
  intro node hnode
  cases hnode with
  | object hnodeNames hnodeValues =>
      exact h _ _ _ _ (refused_collect (forall₂_entry hnodeNames hnodeValues fun _ _ _ => id)
        hbefore hmember hnames (by simp))

end Collecting

/-! ## Members that come again -/

section Repeated

variable {known : List String} {before after : List (String × Value)} {member : String × Value}

/-- Where only one name comes twice, the second member of that name is refused. -/
theorem refused_of_count {read : String → β → Except Refusal (Option γ)}
    {entries : List (Entry β)} {members : List (String × Value)} {name : String}
    {seen : List String}
    (hentries : List.Forall₂ (fun entry member => entry.name = .ok member.1 ∧
      ∃ found, read member.1 entry.value = .ok found) entries members)
    (hknown : name ∈ known) (hseen : seen.count name ≤ 1)
    (htwice : 2 ≤ (seen ++ members.map Prod.fst).count name)
    (honce : ∀ other, other ≠ name → (seen ++ members.map Prod.fst).count other ≤ 1) :
    Refused (· = .repeatedMember name) (collect known read seen entries) := by
  induction hentries generalizing seen with
  | nil =>
      rw [List.map_nil, List.append_nil] at htwice
      omega
  | @cons entry member entries members hentry _ ih =>
      obtain ⟨hname, found, hread⟩ := hentry
      have hcount : ∀ other, (member.1 :: seen ++ members.map Prod.fst).count other =
          (seen ++ (member :: members).map Prod.fst).count other := fun other =>
        (List.perm_middle.count_eq other).symm
      by_cases hagain : member.1 ∈ known ∧ member.1 ∈ seen
      · have hpositive := List.count_pos_iff.mpr hagain.2
        have hsame : member.1 = name := by
          by_contra hother
          have hone := honce member.1 hother
          rw [← hcount, List.cons_append, List.count_cons_self, List.count_append] at hone
          omega
        rw [collect, hname, ← hsame]
        change Refused _ (if member.1 ∈ known ∧ member.1 ∈ seen then _ else _)
        rw [if_pos hagain]
        exact ⟨_, rfl, rfl⟩
      · rw [collect_cons entries hname hagain hread]
        refine (ih ?_ (by rwa [hcount]) fun other hother => by
          rw [hcount]; exact honce other hother).map _
        by_cases hsame : member.1 = name
        · have hnew : name ∉ seen := fun hin => hagain (hsame ▸ ⟨hknown, hin⟩)
          rw [hsame, List.count_cons_self, List.count_eq_zero_of_not_mem hnew]
        · rwa [List.count_cons_of_ne hsame]

/-- A second member of a known name is refused wherever it is put in. -/
theorem refused_repeated {read : String → β → Except Refusal (Option γ)}
    {entries : List (Entry β)}
    (hentries : List.Forall₂ (fun entry member => entry.name = .ok member.1 ∧
      ∃ found, read member.1 entry.value = .ok found) entries (before ++ member :: after))
    (hnames : ((before ++ after).map Prod.fst).Nodup) (hknown : member.1 ∈ known)
    (hin : member.1 ∈ (before ++ after).map Prod.fst) :
    Refused (· = .repeatedMember member.1) (collect known read [] entries) := by
  have hcount : ∀ name, ([] ++ (before ++ member :: after).map Prod.fst).count name =
      (member.1 :: (before ++ after).map Prod.fst).count name := fun name =>
    (List.perm_middle.map Prod.fst).count_eq name
  have hpositive := List.count_pos_iff.mpr hin
  refine refused_of_count hentries hknown (by simp) ?_ fun other hother => ?_
  · rw [hcount, List.count_cons_self]
    omega
  · rw [hcount, List.count_cons_of_ne (Ne.symm hother)]
    exact List.nodup_iff_count_le_one.mp hnames other

theorem Collects.refuses_repeated {decode : Node → Except Refusal α}
    {read : String → Node → Except Refusal (Option γ)} (h : Collects known read decode)
    (hreads : ∀ value ∈ before ++ member :: after, ∃ found, Reads (read value.1) value.2 found)
    (hnames : ((before ++ after).map Prod.fst).Nodup) (hknown : member.1 ∈ known)
    (hin : member.1 ∈ (before ++ after).map Prod.fst) :
    Refuses decode (.object (before ++ member :: after)) (.repeatedMember member.1) := by
  intro node hnode
  cases hnode with
  | object hnodeNames hnodeValues =>
      have hread : ∀ value ∈ before ++ member :: after, ∀ node : Node, node.Spells value.2 →
          ∃ found, read value.1 node = .ok found := fun value hvalue node hnode =>
        (hreads value hvalue).imp fun _ hread => hread node hnode
      exact h _ _ _ _
        (refused_repeated (forall₂_entry hnodeNames hnodeValues hread) hnames hknown hin)

/-! ## Kept members that come again -/

variable {excluded : List String}

theorem map_fst_keptMembers (excluded : List String) (members : List (String × Value)) :
    (keptMembers excluded members).map Prod.fst =
      (members.map Prod.fst).filter (· ∉ excluded) := by
  induction members with
  | nil => rfl
  | cons member members ih =>
      by_cases hin : member.1 ∈ excluded <;> simpa [keptMembers, hin] using ih

theorem keptMembers_insert (hmember : member.1 ∉ excluded) :
    keptMembers excluded (before ++ member :: after) = keptMembers excluded before ++
      (member.1, member.2.stored) :: keptMembers excluded after := by
  simp [keptMembers, hmember]

/-- A second member of a known name is refused as well where the members were kept. -/
theorem refused_readFields {read : String → Value → Except Refusal (Option γ)}
    (hread : ∀ value ∈ before ++ member :: after,
      value.1 ∉ excluded → ∃ found, read value.1 value.2.stored = .ok found)
    (hnames : ((before ++ after).map Prod.fst).Nodup) (hknown : member.1 ∈ known)
    (hin : member.1 ∈ (before ++ after).map Prod.fst) (hmember : member.1 ∉ excluded) :
    Refused (· = .repeatedMember member.1)
      (Value.readFields known read (keptMembers excluded (before ++ member :: after))) := by
  have hkept : (keptMembers excluded before ++ keptMembers excluded after).map Prod.fst =
      ((before ++ after).map Prod.fst).filter (· ∉ excluded) := by
    rw [← map_fst_keptMembers]
    simp [keptMembers]
  have hentries : List.Forall₂ (fun entry kept => entry.name = .ok kept.1 ∧
      ∃ found, read kept.1 entry.value = .ok found)
      ((keptMembers excluded (before ++ member :: after)).map Value.entry)
      (keptMembers excluded before ++ (member.1, member.2.stored) :: keptMembers excluded after) := by
    rw [← keptMembers_insert hmember, List.forall₂_map_left_iff, List.forall₂_same]
    intro kept hkept
    obtain ⟨value, hvalue, hout, rfl⟩ := mem_keptMembers.mp hkept
    exact ⟨rfl, hread value hvalue hout⟩
  have hnodup := hnames.filter (· ∉ excluded)
  have hagain : member.1 ∈ ((before ++ after).map Prod.fst).filter (· ∉ excluded) := by
    simpa [hmember] using hin
  rw [← hkept] at hnodup hagain
  have hrefused := refused_repeated hentries hnodup hknown hagain
  exact hrefused

end Repeated

/-! ## Unions that name their variant twice or not at all -/

section Tagged

variable {u : Variants α β} {members : List (String × Value)} {room : Nat}

/-- A member that names the variant names a known one. -/
def Variants.Knows (u : Variants α β) (member : String × Value) : Prop :=
  member.1 = tagName →
    ∃ label variant, member.2 = .text label ∧ u.variants.lookup label = some variant

theorem Variants.Knows.exists_reads {member : String × Value} (h : u.Knows member)
    (hdepth : member.2.depth ≤ room) :
    ∃ found, Reads (u.readMember room member.1) member.2 found := by
  by_cases hname : member.1 = tagName
  · obtain ⟨label, variant, hlabel, hvariant⟩ := h hname
    refine ⟨some (.tag variant), fun node hnode => ?_⟩
    rw [hlabel] at hnode
    rw [readMember, if_pos hname, reads_readTag hvariant node hnode]
    rfl
  · refine ⟨some (.field member.1 member.2.stored), fun node hnode => ?_⟩
    rw [readMember, if_neg hname, reads_keep member.2 hdepth node hnode]
    rfl

theorem Variants.Knows.exists_readKeptMember {member : String × Value} (h : u.Knows member) :
    ∃ found, u.readKeptMember member.1 member.2.stored = .ok found := by
  rw [readKeptMember]
  by_cases hname : member.1 = tagName
  · obtain ⟨label, variant, hlabel, hvariant⟩ := h hname
    rw [if_pos hname, hlabel, Value.stored, variantOfValue, variantOf_eq hvariant]
    exact ⟨_, rfl⟩
  · exact ⟨_, if_neg hname⟩

theorem splitTag_untagged {δ : Type} (members : List δ) (name : δ → String) (value : δ → Value) :
    splitTag (members.filterMap fun member =>
      (some (.field (name member) (value member)) : Option (TaggedMember α))) =
        refuse (.missingMember tagName) := by
  have hnone : (members.filterMap fun member =>
      (some (.field (name member) (value member)) : Option (TaggedMember α))).findSome?
        TaggedMember.variant? = none := by
    rw [findSome?_filterMap, List.findSome?_eq_none_iff]
    exact fun _ _ => rfl
  rw [splitTag, required, hnone]
  rfl

theorem distinct_of_untagged (huntagged : tagName ∉ members.map Prod.fst) :
    Distinct [tagName] members := by
  refine List.pairwise_of_forall_mem_list fun first hfirst _ _ _ hname => huntagged ?_
  exact List.mem_map.mpr ⟨first, hfirst, List.mem_singleton.mp hname⟩

theorem Variants.refuses_untagged (hdepth : ∀ member ∈ members, member.2.depth ≤ room - 1)
    (huntagged : tagName ∉ members.map Prod.fst) :
    Refuses (u.read room) (.object members) (.missingMember tagName) := by
  have hreads : ∀ member ∈ members, Reads (u.readMember (room - 1) member.1) member.2
      (some (.field member.1 member.2.stored)) := by
    intro member hmember node hnode
    have hname : member.1 ≠ tagName := fun heq =>
      huntagged (List.mem_map.mpr ⟨member, hmember, heq⟩)
    rw [readMember, if_neg hname, reads_keep member.2 (hdepth member hmember) node hnode]
    rfl
  intro node hnode
  cases hnode with
  | object hnames hvalues =>
      rw [read, readRecord_eq splitTag hnames hvalues hreads (distinct_of_untagged huntagged),
        splitTag_untagged members Prod.fst fun member => member.2.stored]
      exact ⟨_, rfl, rfl⟩

theorem Variants.refused_untagged (u : Variants α β)
    (huntagged : tagName ∉ members.map Prod.fst) :
    Refused (· = .missingMember tagName) (u.readKept members) := by
  have hread : ∀ member ∈ members, u.readKeptMember member.1 member.2 =
      .ok (some (.field member.1 member.2)) := fun member hmember =>
    if_neg fun heq => huntagged (List.mem_map.mpr ⟨member, hmember, heq⟩)
  rw [readKept, readFields_eq hread (distinct_of_untagged huntagged)]
  change Refused _ (splitTag _ >>= _)
  rw [splitTag_untagged members Prod.fst Prod.snd]
  exact ⟨_, rfl, rfl⟩

end Tagged

/-! ## Whole texts -/

/-- The text of a value that is refused is refused because of the same fault. -/
theorem Refuses.parse_compact {read : Node → Except Refusal α} {value : Value}
    (h : Refuses read value fault) (hplain : value.isPlain = true) :
    Refused (· = fault) (parse read value.compact) := by
  obtain ⟨hspells, -⟩ := Node.scan_spells hplain (.compact value) fun _ _ => rfl
  exact (h _ hspells).bind _

end Wiring.Json
