import Wiring.Proofs.Disk.Walk
import Wiring.Proofs.Disk.Writing

/-!
# Making the directories of a path

Making the directories of a path changes nothing but that there are directories where
there was nothing, on the way on which the path leads. It goes well if, and only if, the
path leads to a directory afterwards, and it does so wherever nothing is in the way.
-/

namespace Wiring.Disk

/-! ## Disks with more directories -/

/-- Directories were made where nothing was; everything else is as it was. -/
structure Grows (before after : Disk) : Prop where
  get?_eq_or : ∀ location, after.get? location = before.get? location ∨
    before.get? location = none ∧ after.get? location = some .directory
  nextId_eq : after.nextId = before.nextId
  denial_eq : after.denial = before.denial

namespace Grows

variable {before middle after : Disk} {location target : Location} {name : String}

theorem refl (disk : Disk) : disk.Grows disk := ⟨fun _ => Or.inl rfl, rfl, rfl⟩

theorem get?_eq (h : before.Grows after) (hthere : before.get? location ≠ none) :
    after.get? location = before.get? location :=
  (h.get?_eq_or location).resolve_right fun hnew => hthere hnew.1

theorem trans (hfirst : before.Grows middle) (hsecond : middle.Grows after) :
    before.Grows after := by
  refine ⟨?_, hsecond.nextId_eq.trans hfirst.nextId_eq, hsecond.denial_eq.trans hfirst.denial_eq⟩
  intro location
  rcases hfirst.get?_eq_or location with hsame | ⟨hnone, hmade⟩
  · rw [← hsame]
    exact hsecond.get?_eq_or location
  · refine Or.inr ⟨hnone, ?_⟩
    rw [hsecond.get?_eq (by simp [hmade]), hmade]

theorem isDirectory (h : before.Grows after) (hdirectory : before.isDirectory location = true) :
    after.isDirectory location = true := by
  rw [isDirectory_iff] at hdirectory ⊢
  rw [h.get?_eq (by simp [hdirectory]), hdirectory]

theorem requireSearch (h : before.Grows after) (hsearch : before.requireSearch location = .ok ()) :
    after.requireSearch location = .ok () := by
  rw [requireSearch_eq_ok_iff] at hsearch ⊢
  rw [h.denial_eq]
  exact ⟨h.isDirectory hsearch.1, hsearch.2⟩

theorem look {found : Entry} (h : before.Grows after)
    (hlook : before.look location name = .ok (some found)) :
    after.look location name = .ok (some found) := by
  obtain ⟨hsearch, hshort⟩ := of_look_eq_ok hlook
  rw [look_eq hsearch hshort] at hlook
  have hfound := Except.ok.inj hlook
  rw [look_eq (h.requireSearch hsearch) hshort, h.get?_eq (by simp [hfound]), hfound]

/-- What leads somewhere still leads there. -/
theorem leads {bounds : Bounds} {links : Nat} {parts : List String} (h : before.Grows after)
    (hleads : before.Leads bounds links location parts target) :
    after.Leads bounds links location parts target := by
  induction hleads with
  | done links location => exact .done links location
  | here search _ ih => exact .here (h.requireSearch search) ih
  | above search goesUp _ ih => exact .above (h.requireSearch search) goesUp ih
  | entry ne_here ne_above looks not_link _ ih =>
      exact .entry ne_here ne_above (h.look looks) not_link ih
  | link ne_here ne_above looks starts _ ih => exact .link ne_here ne_above (h.look looks) starts ih

theorem walk {bounds : Bounds} {parts : List String} (h : before.Grows after)
    (hwalk : before.walk bounds false location parts = .ok target) :
    after.walk bounds false location parts = .ok target :=
  walk_eq_ok_iff.mpr (h.leads (walk_eq_ok_iff.mp hwalk))

/-- Where there was no link there is none. -/
theorem unlinked (h : before.Grows after) (hunlinked : before.Unlinked location) :
    after.Unlinked location := by
  rcases h.get?_eq_or location with hsame | ⟨_, hmade⟩
  · refine ⟨fun path => hsame ▸ hunlinked.not_link path, ?_⟩
    intro id content hfile
    have hsole := hunlinked.sole id content (hsame ▸ hfile)
    refine ⟨hfile, fun other content' hother => hsole.alone other content' ?_⟩
    rcases h.get?_eq_or other with hsame | ⟨_, hmade⟩
    · rw [← hsame, hother]
    · rw [hmade] at hother
      cases hother
  · refine ⟨?_, ?_⟩ <;> simp [hmade]

end Grows

theorem grows_putDirectory {disk : Disk} {place : Location} (hnone : disk.get? place = none) :
    disk.Grows (disk.putDirectory place) := by
  refine ⟨?_, rfl, rfl⟩
  intro location
  by_cases hlocation : location = place
  · subst hlocation
    exact Or.inr ⟨hnone, disk.get?_putDirectory_self location⟩
  · exact Or.inl (disk.get?_putDirectory_of_ne hlocation)

/-! ## What is made -/

/-- Directories were made where nothing was, each where a beginning of the steps leads;
everything else is as it was. -/
structure Makes (start : Location) (steps : List String) (before after : Disk) : Prop
    extends Grows before after where
  new : ∀ location, before.get? location = none → after.get? location ≠ none →
    ∃ beginning, beginning <+: steps ∧
      after.walk .anywhere false start beginning = .ok location

section Makes

variable {disk before middle after : Disk} {start : Location} {steps made : List String}
  {result : Except SystemFault Unit}

theorem Makes.refl (start : Location) (steps : List String) (disk : Disk) :
    disk.Makes start steps disk :=
  ⟨.refl disk, fun _ hnone hsome => absurd hnone hsome⟩

theorem Makes.trans (hfirst : before.Makes start steps middle)
    (hsecond : middle.Makes start steps after) : before.Makes start steps after := by
  refine ⟨hfirst.toGrows.trans hsecond.toGrows, ?_⟩
  intro location hnone hsome
  by_cases hmiddle : middle.get? location = none
  · exact hsecond.new location hmiddle hsome
  · obtain ⟨beginning, hbeginning, hwalk⟩ := hfirst.new location hnone hmiddle
    exact ⟨beginning, hbeginning, hsecond.toGrows.walk hwalk⟩

end Makes

section Path

variable {disk after : Disk} {start directory location : Location} {path : String}

theorem Path.steps_eq_filter (path : String) :
    Path.steps path = (Path.parts path).filter (· ≠ Path.here) := by
  unfold Path.steps Path.parts
  rw [List.filter_filter]
  congr 1
  funext piece
  simp [Path.isIdle, Bool.and_comm]

theorem leadsToDirectory_iff {made : List String} :
    disk.leadsToDirectory start made = true ↔
      ∃ location, disk.walk .anywhere false start made.reverse = .ok location ∧
        disk.isDirectory location = true := by
  unfold leadsToDirectory
  cases disk.walk .anywhere false start made.reverse <;> simp

end Path

/-! ## Where nothing is in the way -/

/-- There is a directory at every beginning of the parts. -/
def HasWay (disk : Disk) (start : Location) (parts : List String) : Prop :=
  ∀ beginning, beginning <+: parts → disk.isDirectory (beginning.reverse ++ start) = true

/-- Nothing is in the way of making directories for the parts: they are names, there is a
directory or nothing at every beginning of them, and it may be searched and made. -/
structure Makeable (disk : Disk) (start : Location) (parts : List String) : Prop where
  names : ∀ part ∈ parts,
    part ≠ Path.here ∧ part ≠ Path.above ∧ part.utf8ByteSize ≤ Path.longestPart
  starts : disk.isDirectory start = true
  way : ∀ beginning, beginning <+: parts →
    disk.get? (beginning.reverse ++ start) = none ∨
      disk.get? (beginning.reverse ++ start) = some .directory
  search : ∀ beginning, beginning <+: parts →
    disk.denial (.search (beginning.reverse ++ start)) = none
  make : ∀ beginning, beginning <+: parts →
    disk.denial (.makeDirectory (beginning.reverse ++ start)) = none

section Makeable

variable {disk after : Disk} {start : Location} {part : String} {parts rest : List String}

theorem hasWay_nil (h : disk.isDirectory start = true) : disk.HasWay start [] := by
  intro beginning hbeginning
  obtain rfl := List.prefix_nil.mp hbeginning
  exact h

theorem hasWay_cons_iff :
    disk.HasWay start (part :: parts) ↔
      disk.isDirectory start = true ∧ disk.HasWay (part :: start) parts := by
  constructor
  · intro h
    refine ⟨h [] (List.nil_prefix), ?_⟩
    intro beginning hbeginning
    have hmore := h (part :: beginning) (List.cons_prefix_cons.mpr ⟨rfl, hbeginning⟩)
    simpa using hmore
  · rintro ⟨hstart, hrest⟩ beginning hbeginning
    cases beginning with
    | nil => exact hstart
    | cons first beginning =>
        obtain ⟨rfl, hshorter⟩ := List.cons_prefix_cons.mp hbeginning
        simpa using hrest beginning hshorter

theorem HasWay.concat (h : disk.HasWay start rest.reverse)
    (hpart : disk.isDirectory (part :: (rest ++ start)) = true) :
    disk.HasWay start (part :: rest).reverse := by
  intro beginning hbeginning
  rw [List.reverse_cons, List.prefix_concat_iff] at hbeginning
  rcases hbeginning with rfl | hbeginning
  · simpa using hpart
  · exact h beginning hbeginning

theorem HasWay.grows (h : disk.HasWay start parts) (hgrows : disk.Grows after) :
    after.HasWay start parts :=
  fun beginning hbeginning => hgrows.isDirectory (h beginning hbeginning)

namespace Makeable

theorem beginning (h : disk.Makeable start parts) (hrest : rest <+: parts) :
    disk.Makeable start rest :=
  ⟨fun part hpart => h.names part (hrest.subset hpart), h.starts,
    fun beginning hbeginning => h.way beginning (hbeginning.trans hrest),
    fun beginning hbeginning => h.search beginning (hbeginning.trans hrest),
    fun beginning hbeginning => h.make beginning (hbeginning.trans hrest)⟩

theorem grows (h : disk.Makeable start parts) (hgrows : disk.Grows after) :
    after.Makeable start parts := by
  refine ⟨h.names, hgrows.isDirectory h.starts, ?_, hgrows.denial_eq ▸ h.search,
    hgrows.denial_eq ▸ h.make⟩
  intro beginning hbeginning
  rcases hgrows.get?_eq_or (beginning.reverse ++ start) with hsame | ⟨_, hmade⟩
  · rw [hsame]
    exact h.way beginning hbeginning
  · exact Or.inr hmade

theorem tail (h : disk.Makeable start (part :: parts))
    (hpart : disk.isDirectory (part :: start) = true) : disk.Makeable (part :: start) parts := by
  have hcons : ∀ {beginning}, beginning <+: parts → part :: beginning <+: part :: parts :=
    fun hbeginning => List.cons_prefix_cons.mpr ⟨rfl, hbeginning⟩
  refine ⟨fun other hother => h.names other (List.mem_cons_of_mem _ hother), hpart, ?_, ?_, ?_⟩
  · intro beginning hbeginning
    simpa using h.way _ (hcons hbeginning)
  · intro beginning hbeginning
    simpa using h.search _ (hcons hbeginning)
  · intro beginning hbeginning
    simpa using h.make _ (hcons hbeginning)

theorem requireSearch_eq (h : disk.Makeable start parts) (hway : disk.HasWay start parts) :
    disk.requireSearch (parts.reverse ++ start) = .ok () :=
  requireSearch_eq_ok_iff.mpr ⟨hway _ (List.prefix_refl _), h.search _ (List.prefix_refl _)⟩

/-- The next part is found to be a directory or nothing. -/
theorem walkLinks_cons_eq {bounds : Bounds} {links : Nat} (h : disk.Makeable start (part :: parts))
    (more : List String) :
    disk.walkLinks bounds false links start (part :: more) =
      if disk.isDirectory (part :: start) then
        disk.walkLinks bounds false links (part :: start) more
      else .error .notFound := by
  obtain ⟨hhere, habove, hshort⟩ := h.names part List.mem_cons_self
  have hsearch : disk.requireSearch start = .ok () :=
    (h.beginning List.nil_prefix).requireSearch_eq (hasWay_nil h.starts)
  have hway := h.way [part] (List.cons_prefix_cons.mpr ⟨rfl, List.nil_prefix⟩)
  simp only [walkLinks_cons, hsearch, hhere, habove, look_eq hsearch hshort, if_false, bind,
    Except.bind]
  rcases hway with hnone | hdirectory
  · replace hnone : disk.get? (part :: start) = none := hnone
    simp [isDirectory, hnone]
  · replace hdirectory : disk.get? (part :: start) = some .directory := hdirectory
    simp [isDirectory, hdirectory]

theorem walkLinks_append_eq (bounds : Bounds) (links : Nat) (h : disk.Makeable start parts)
    (hway : disk.HasWay start parts) (more : List String) :
    disk.walkLinks bounds false links start (parts ++ more) =
      disk.walkLinks bounds false links (parts.reverse ++ start) more := by
  induction parts generalizing start with
  | nil => rfl
  | cons part parts ih =>
      obtain ⟨_, hrest⟩ := hasWay_cons_iff.mp hway
      have hpart : disk.isDirectory (part :: start) = true := hrest [] List.nil_prefix
      rw [List.cons_append, h.walkLinks_cons_eq, if_pos hpart, ih (h.tail hpart) hrest]
      simp

theorem walkLinks_append_eq_error (bounds : Bounds) (links : Nat)
    (h : disk.Makeable start parts) (hway : ¬disk.HasWay start parts) (more : List String) :
    disk.walkLinks bounds false links start (parts ++ more) = .error .notFound := by
  induction parts generalizing start with
  | nil => exact absurd (hasWay_nil h.starts) hway
  | cons part parts ih =>
      rw [List.cons_append, h.walkLinks_cons_eq]
      split
      next hpart =>
        apply ih (h.tail hpart)
        intro hrest
        exact hway (hasWay_cons_iff.mpr ⟨h.starts, hrest⟩)
      next => rfl

theorem walk_eq (h : disk.Makeable start parts) (hway : disk.HasWay start parts) :
    disk.walk .anywhere false start parts = .ok (parts.reverse ++ start) := by
  have hwalk := h.walkLinks_append_eq .anywhere mostLinks hway []
  rwa [List.append_nil, walkLinks_nil] at hwalk

theorem makeDirectory_eq (h : disk.Makeable start (part :: rest).reverse)
    (hway : disk.HasWay start rest.reverse) :
    disk.makeDirectory start (part :: rest) =
      if disk.isDirectory (part :: (rest ++ start)) then .error .alreadyExists
      else .ok (disk.putDirectory (part :: (rest ++ start))) := by
  have hrest : rest.reverse <+: (part :: rest).reverse := by simp
  obtain ⟨hhere, habove, hshort⟩ := h.names part (by simp)
  have hwalk := (h.beginning hrest).walk_eq hway
  have hsearch := (h.beginning hrest).requireSearch_eq hway
  have hpart := h.way _ (List.prefix_refl _)
  have hmake := h.make _ (List.prefix_refl _)
  rw [List.reverse_reverse] at hwalk hsearch hpart hmake
  simp only [makeDirectory, hwalk, hsearch, look_eq hsearch hshort, hhere, habove, or_self,
    if_false, bind, Except.bind]
  rcases hpart with hnone | hdirectory
  · replace hnone : disk.get? (part :: (rest ++ start)) = none := hnone
    replace hmake : disk.ask (.makeDirectory (part :: (rest ++ start))) = .ok () :=
      ask_eq_ok_iff.mpr hmake
    simp [isDirectory, hnone, hmake, pure, Except.pure]
  · replace hdirectory : disk.get? (part :: (rest ++ start)) = some .directory := hdirectory
    simp [isDirectory, hdirectory]

theorem makeOrKeep (h : disk.Makeable start (part :: rest).reverse)
    (hway : disk.HasWay start rest.reverse) :
    ∃ after, disk.makeOrKeep start (part :: rest) = (.ok (), after) ∧ disk.Grows after ∧
      after.HasWay start (part :: rest).reverse := by
  rw [Disk.makeOrKeep, h.makeDirectory_eq hway]
  cases hpart : disk.isDirectory (part :: (rest ++ start)) with
  | true =>
      have hthere := hway.concat hpart
      have hleads : disk.leadsToDirectory start (part :: rest) = true :=
        leadsToDirectory_iff.mpr ⟨_, h.walk_eq hthere, hthere _ (List.prefix_refl _)⟩
      exact ⟨disk, by simp [hleads], .refl disk, hthere⟩
  | false =>
      have hnone : disk.get? (part :: (rest ++ start)) = none := by
        have hpart' := h.way _ (List.prefix_refl _)
        rw [List.reverse_reverse] at hpart'
        exact hpart'.resolve_right (isDirectory_eq_false_iff.mp hpart)
      have hgrows := grows_putDirectory hnone
      refine ⟨_, rfl, hgrows, (hway.grows hgrows).concat ?_⟩
      rw [isDirectory_iff, get?_putDirectory_self]

/-- Where the parents can be made, so can the directory. -/
theorem makeAfter {makeParents : Disk → Except SystemFault Unit × Disk}
    (h : disk.Makeable start (part :: rest).reverse)
    (hparents : ∃ middle, makeParents disk = (.ok (), middle) ∧ disk.Grows middle ∧
      middle.HasWay start rest.reverse) :
    ∃ after, makeAfter makeParents start (part :: rest) disk = (.ok (), after) ∧
      disk.Grows after ∧ after.HasWay start (part :: rest).reverse := by
  unfold Disk.makeAfter
  by_cases hway : disk.HasWay start rest.reverse
  · have hmake := h.makeDirectory_eq hway
    split
    next hmissing =>
      rw [hmissing] at hmake
      split at hmake <;> cases hmake
    next => exact h.makeOrKeep hway
  · have hmissing : disk.makeDirectory start (part :: rest) = .error .notFound := by
      have hrest : rest.reverse <+: (part :: rest).reverse := by simp
      have hwalk := (h.beginning hrest).walkLinks_append_eq_error .anywhere mostLinks hway []
      rw [List.append_nil] at hwalk
      simp only [Disk.makeDirectory, walk, hwalk]
      rfl
    obtain ⟨middle, hmade, hgrows, hway⟩ := hparents
    obtain ⟨after, hmake, hgrows', hway'⟩ := (h.grows hgrows).makeOrKeep hway
    exact ⟨after, by simp [hmissing, hmade, hmake], hgrows.trans hgrows', hway'⟩

theorem makeDirectories {made : List String} (h : disk.Makeable start made.reverse) :
    ∃ after, makeDirectories start made disk = (.ok (), after) ∧ disk.Grows after ∧
      after.HasWay start made.reverse := by
  induction made with
  | nil => exact ⟨disk, rfl, .refl disk, hasWay_nil h.starts⟩
  | cons part rest ih => exact h.makeAfter (ih (h.beginning (by simp)))

theorem makePath {directory : Location} {path : String}
    (h : disk.Makeable (startOf directory path) (Path.parts path)) :
    ∃ after, disk.makePath directory path = (.ok (), after) ∧
      after.HasWay (startOf directory path) (Path.parts path) := by
  have hsteps : Path.steps path = Path.parts path := by
    rw [Path.steps_eq_filter, List.filter_eq_self]
    intro part hpart
    simpa using (h.names part hpart).1
  unfold Disk.makePath
  rw [hsteps]
  generalize Path.parts path = parts at h ⊢
  obtain ⟨made, rfl⟩ : ∃ made : List String, parts = made.reverse :=
    ⟨parts.reverse, (List.reverse_reverse parts).symm⟩
  rw [List.reverse_reverse]
  cases made with
  | nil =>
      refine ⟨disk, ?_, hasWay_nil h.starts⟩
      have hleads : disk.leadsToDirectory (startOf directory path) [] = true :=
        leadsToDirectory_iff.mpr ⟨_, walkLinks_nil false, h.starts⟩
      simp [Disk.makeAfter, Disk.makeDirectory, Disk.makeOrKeep, hleads]
  | cons part rest =>
      rw [List.tail_cons]
      obtain ⟨after, hmake, _, hway⟩ := h.makeAfter (h.beginning (by simp)).makeDirectories
      exact ⟨after, hmake, hway⟩

section

variable {directory : Location} {path : String}
  (hpath : requirePath path = .ok ())
  (h : disk.Makeable (startOf directory path) (Path.parts path))

include hpath h

end

end Makeable

end Makeable

end Wiring.Disk
