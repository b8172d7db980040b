import Mathlib.Data.List.Basic
import Wiring.Disk.Staging

/-!
# Writing a file of a disk

Writing a file that has one name only changes nothing anywhere else. What an open file was
given is what was written of it and what is held back, whenever the one becomes the other
and nothing is denied.
-/

namespace Wiring

namespace Disk

variable {disk : Disk} {place : Location} {id : Nat} {content : ByteArray}

/-! ## Files by their numbers -/

theorem mem_entries_of_get?_eq_file (h : disk.get? place = some (.file id content)) :
    (place, .file id content) ∈ disk.entries := by
  cases place with
  | nil => cases h
  | cons name directory =>
      rw [get?_cons, List.lookup_eq_some_iff] at h
      obtain ⟨before, after, hsplit, _⟩ := h
      rw [hsplit]
      exact List.mem_append_right _ List.mem_cons_self

theorem id_lt_of_get?_eq_file (h : disk.get? place = some (.file id content)) :
    id < disk.nextId :=
  disk.ids_lt id (id_mem_fileIds (mem_entries_of_get?_eq_file h) rfl)

/-- A file is at a place and has no other name. -/
structure Sole (disk : Disk) (place : Location) (id : Nat) (content : ByteArray) : Prop where
  get?_eq : disk.get? place = some (.file id content)
  alone : ∀ other content', disk.get? other = some (.file id content') → other = place

theorem Sole.isDirectory_eq_false {id : Nat} {content : ByteArray}
    (h : disk.Sole place id content) : disk.isDirectory place = false := by
  rw [isDirectory, h.get?_eq]

/-- There is no link at a place, neither a symbolic one nor one of several names of a
file. -/
structure Unlinked (disk : Disk) (place : Location) : Prop where
  not_link : ∀ target, disk.get? place ≠ some (.link target)
  sole : ∀ id content, disk.get? place = some (.file id content) → disk.Sole place id content

theorem Unlinked.of_get?_eq_none (h : disk.get? place = none) : disk.Unlinked place := by
  refine ⟨?_, ?_⟩ <;> simp [h]

theorem get?_of_get?_modify {change : ByteArray → ByteArray} {id' : Nat} {content' : ByteArray}
    (h : (disk.modify id change).get? place = some (.file id' content')) :
    ∃ content, disk.get? place = some (.file id' content) := by
  rw [get?_modify] at h
  obtain ⟨entry, hentry, hmodified⟩ := Option.map_eq_some_iff.mp h
  cases entry with
  | directory | link _ => cases hmodified
  | file id content =>
      obtain ⟨rfl, _⟩ := Entry.file.inj hmodified
      exact ⟨content, hentry⟩

namespace Sole

theorem unlinked (h : disk.Sole place id content) : disk.Unlinked place := by
  refine ⟨by simp [h.get?_eq], ?_⟩
  intro id' content' hthere
  rw [h.get?_eq] at hthere
  obtain ⟨rfl, rfl⟩ := Entry.file.inj (Option.some.inj hthere)
  exact h

theorem modify (h : disk.Sole place id content) (change : ByteArray → ByteArray) :
    (disk.modify id change).Sole place id (change content) := by
  refine ⟨by simp [get?_modify, h.get?_eq, Entry.modify], ?_⟩
  intro other content' hother
  obtain ⟨content, hcontent⟩ := get?_of_get?_modify hother
  exact h.alone other content hcontent

/-- Changing a file that has one name only changes nothing at other places. -/
theorem get?_modify_of_ne {other : Location} (h : disk.Sole place id content)
    (hne : other ≠ place) (change : ByteArray → ByteArray) :
    (disk.modify id change).get? other = disk.get? other := by
  rw [get?_modify]
  cases hother : disk.get? other with
  | none => rfl
  | some entry =>
      cases entry with
      | directory | link _ => rfl
      | file id' content' =>
          have hid : id' ≠ id := by
            rintro rfl
            exact hne (h.alone other content' hother)
          simp [Entry.modify, hid]

end Sole

/-- A new file has one name only. -/
theorem sole_putFile (disk : Disk) (name : String) (directory : Location) (content : ByteArray) :
    (disk.putFile (name :: directory) content).Sole (name :: directory) disk.nextId content := by
  refine ⟨disk.get?_putFile_self name directory content, ?_⟩
  intro other content' hother
  by_contra hne
  rw [disk.get?_putFile_of_ne content hne] at hother
  exact Nat.lt_irrefl _ (id_lt_of_get?_eq_file hother)

/-! ## What stays as it is -/

/-- Wherever none of the places leads, two disks hold the same. -/
def SameOutside (places : List Location) (before after : Disk) : Prop :=
  ∀ location, (∀ place ∈ places, location.isBelow place = false) →
    after.get? location = before.get? location

namespace SameOutside

variable {places others : List Location} {before middle after : Disk}

theorem refl (places : List Location) (disk : Disk) : SameOutside places disk disk :=
  fun _ _ => rfl

theorem trans (hfirst : SameOutside places before middle)
    (hsecond : SameOutside places middle after) : SameOutside places before after := by
  intro location hlocation
  rw [hsecond location hlocation, hfirst location hlocation]

theorem mono (h : SameOutside places before after) (hsubset : places ⊆ others) :
    SameOutside others before after := by
  intro location hlocation
  apply h
  intro place hplace
  exact hlocation place (hsubset hplace)

theorem isDirectory_eq {location : Location} (h : SameOutside places before after)
    (hlocation : ∀ place ∈ places, location.isBelow place = false) :
    after.isDirectory location = before.isDirectory location := by
  rw [isDirectory, isDirectory, h location hlocation]

theorem of_ne (h : ∀ other, other ≠ place → after.get? other = before.get? other) :
    SameOutside [place] before after := by
  intro location hlocation
  apply h
  rintro rfl
  simpa using hlocation location List.mem_cons_self

end SameOutside

/-- Whether one of the places leads to a location. -/
def IsInside (places : List Location) (location : Location) : Prop :=
  ∃ place ∈ places, location.isBelow place = true

theorem not_isInside_iff {places : List Location} {location : Location} :
    ¬IsInside places location ↔ ∀ place ∈ places, location.isBelow place = false := by
  simp [IsInside]

/-- One disk came of another by changes to the places: nothing else was touched, and a file
at one of the places has been at one of them before or is new. The operating system denies
what it denied. -/
structure Confined (places : List Location) (before after : Disk) : Prop where
  same : SameOutside places before after
  origin : ∀ location id content, IsInside places location →
    after.get? location = some (.file id content) →
      (∃ location' content', IsInside places location' ∧
        before.get? location' = some (.file id content')) ∨ before.nextId ≤ id
  nextId_le : before.nextId ≤ after.nextId
  denial_eq : after.denial = before.denial

namespace Confined

variable {places others : List Location} {before middle after : Disk}

theorem refl (places : List Location) (disk : Disk) : Confined places disk disk :=
  ⟨.refl _ _, fun location _ content hinside h => Or.inl ⟨location, content, hinside, h⟩,
    Nat.le_refl _, rfl⟩

theorem trans (hfirst : Confined places before middle) (hsecond : Confined places middle after) :
    Confined places before after := by
  refine ⟨hfirst.same.trans hsecond.same, ?_, Nat.le_trans hfirst.nextId_le hsecond.nextId_le,
    hsecond.denial_eq.trans hfirst.denial_eq⟩
  intro location id content hinside h
  rcases hsecond.origin location id content hinside h with ⟨place, content', hplace, h⟩ | hnew
  · exact hfirst.origin place id content' hplace h
  · exact Or.inr (Nat.le_trans hfirst.nextId_le hnew)

theorem mono (h : Confined places before after) (hsubset : places ⊆ others) :
    Confined others before after := by
  have hinside : ∀ {location}, IsInside places location → IsInside others location := by
    rintro location ⟨place, hplace, hbelow⟩
    exact ⟨place, hsubset hplace, hbelow⟩
  refine ⟨h.same.mono hsubset, ?_, h.nextId_le, h.denial_eq⟩
  intro location id content hother hfile
  by_cases hlocation : IsInside places location
  · exact (h.origin location id content hlocation hfile).imp_left
      fun ⟨place, content', hplace, hfound⟩ => ⟨place, content', hinside hplace, hfound⟩
  · rw [h.same location (not_isInside_iff.mp hlocation)] at hfile
    exact Or.inl ⟨location, content, hother, hfile⟩

/-- Where every file has been where it is, or is new, changes to a place are confined to
it. -/
theorem of_ne (hsame : ∀ other, other ≠ place → after.get? other = before.get? other)
    (horigin : ∀ id content, after.get? place = some (.file id content) →
      (∃ content', before.get? place = some (.file id content')) ∨ before.nextId ≤ id)
    (hnext : before.nextId ≤ after.nextId) (hdenial : after.denial = before.denial) :
    Confined [place] before after := by
  refine ⟨.of_ne hsame, ?_, hnext, hdenial⟩
  intro location id content hinside hfile
  by_cases hlocation : location = place
  · subst hlocation
    exact (horigin id content hfile).imp_left fun ⟨content', h⟩ => ⟨location, content', hinside, h⟩
  · rw [hsame location hlocation] at hfile
    exact Or.inl ⟨location, content, hinside, hfile⟩

/-- What has no link and is not touched gets none: no file leaves its places or enters
them. -/
theorem unlinked (h : Confined places before after)
    (hplace : ∀ other ∈ places, place.isBelow other = false) (hunlinked : before.Unlinked place) :
    after.Unlinked place := by
  have hkept := h.same place hplace
  refine ⟨fun target => hkept ▸ hunlinked.not_link target, ?_⟩
  intro id content hfile
  have hsole := hunlinked.sole id content (hkept ▸ hfile)
  refine ⟨hfile, ?_⟩
  intro other content' hother
  by_cases hinside : IsInside places other
  · rcases h.origin other id content' hinside hother with ⟨location, found, hlocation, hfound⟩ | hnew
    · obtain rfl := hsole.alone location found hfound
      exact absurd hlocation (not_isInside_iff.mpr hplace)
    · exact absurd (id_lt_of_get?_eq_file hsole.get?_eq) (Nat.not_lt.mpr hnew)
  · rw [h.same other (not_isInside_iff.mp hinside)] at hother
    exact hsole.alone other content' hother

theorem requireSearch_eq {location : Location} (h : Confined places before after)
    (hlocation : ∀ place ∈ places, location.isBelow place = false) :
    after.requireSearch location = before.requireSearch location := by
  unfold requireSearch requireDirectory ask
  rw [h.same location hlocation, h.denial_eq]

end Confined

theorem confined_modify (h : disk.Sole place id content) (change : ByteArray → ByteArray) :
    Confined [place] disk (disk.modify id change) := by
  refine .of_ne (fun other hne => h.get?_modify_of_ne hne change) ?_ (Nat.le_refl _) rfl
  intro id' content' hfile
  exact Or.inl (get?_of_get?_modify hfile)

theorem confined_putFile (disk : Disk) (name : String) (directory : Location)
    (content : ByteArray) :
    Confined [name :: directory] disk (disk.putFile (name :: directory) content) := by
  refine .of_ne (fun other hne => disk.get?_putFile_of_ne content hne) ?_ (Nat.le_succ _) rfl
  intro id content' hfile
  rw [get?_putFile_self] at hfile
  obtain ⟨rfl, _⟩ := Entry.file.inj (Option.some.inj hfile)
  exact Or.inr (Nat.le_refl _)

theorem confined_erase (disk : Disk) (name : String) (directory : Location) :
    Confined [name :: directory] disk (disk.erase (name :: directory)) := by
  refine ⟨?_, ?_, Nat.le_refl _, rfl⟩
  · intro location hlocation
    exact disk.get?_erase_of_not_below (hlocation _ List.mem_cons_self)
  · rintro location id content ⟨place, hplace, hbelow⟩ hfile
    obtain rfl := List.mem_singleton.mp hplace
    have hne : location ≠ [] := by
      rintro rfl
      cases hfile
    rw [disk.get?_erase_of_below hne hbelow] at hfile
    cases hfile

/-- What moves between two places that lie apart comes from one of them. -/
theorem confined_move (disk : Disk) {source target : Location}
    (hsource : source.isBelow target = false) (htarget : target.isBelow source = false) :
    Confined [source, target] disk (disk.move source target) := by
  refine ⟨?_, ?_, by simp, by simp⟩
  · intro location hlocation
    exact disk.get?_move_of_not_below (hlocation source (by simp)) (hlocation target (by simp))
  · rintro location id content ⟨place, hplace, hbelow⟩ hfile
    have hends : place = source ∨ place = target := by simpa using hplace
    rcases hends with rfl | rfl
    · rw [disk.get?_move_of_below_source hsource htarget hbelow] at hfile
      cases hfile
    · obtain ⟨front, rfl⟩ := Location.isBelow_iff.mp hbelow
      rw [disk.get?_move_append hsource htarget front] at hfile
      exact Or.inl ⟨front ++ source, content, ⟨source, by simp,
        Location.isBelow_iff.mpr (List.suffix_append front source)⟩, hfile⟩

end Disk

/-! ## Writing a file -/

theorem overwrite_size (content bytes : ByteArray) :
    overwrite content content.size bytes = content ++ bytes := by
  have hgap : ByteArray.mk (Array.replicate (content.size - content.size) 0) = .empty := by
    rw [Nat.sub_self]
    rfl
  have hrest : content.extract (content.size + bytes.size) content.size = .empty := by
    rw [ByteArray.extract_eq_empty_iff]
    omega
  unfold overwrite
  rw [hgap, hrest, ByteArray.extract_zero_size, ByteArray.append_empty, ByteArray.append_empty]

namespace OpenFile

variable {file : OpenFile} {disk : Disk} {place : Location} {content given : ByteArray}

/-! ### Whatever is denied -/

/-- The file is at a place of the disk and has no other name. -/
def IsAt (file : OpenFile) (disk : Disk) (place : Location) : Prop :=
  ∃ content, disk.Sole place file.id content

/-- An open file and its disk after some of its bytes were written, or none. -/
def Steps (place : Location) (file : OpenFile) (disk : Disk) (later : OpenFile × Disk) : Prop :=
  later.1.id = file.id ∧ later.1.IsAt later.2 place ∧ disk.Confined [place] later.2

theorem IsAt.steps_refl (hat : file.IsAt disk place) : file.Steps place disk (file, disk) :=
  ⟨rfl, hat, .refl _ _⟩

theorem Steps.trans {later last : OpenFile × Disk} (hfirst : file.Steps place disk later)
    (hsecond : later.1.Steps place later.2 last) : file.Steps place disk last :=
  ⟨hsecond.1.trans hfirst.1, hsecond.2.1, hfirst.2.2.trans hsecond.2.2⟩

/-- What is held back can be replaced. -/
theorem Steps.hold {later : OpenFile × Disk} (h : file.Steps place disk later)
    (pending : ByteArray) : file.Steps place disk ({ later.1 with pending }, later.2) := h

theorem IsAt.put (hat : file.IsAt disk place) (bytes : ByteArray) :
    file.Steps place disk (file.put bytes disk) := by
  obtain ⟨content, hsole⟩ := hat
  exact ⟨rfl, ⟨_, hsole.modify _⟩, Disk.confined_modify hsole _⟩

theorem IsAt.write (hat : file.IsAt disk place) (bytes : ByteArray) :
    file.Steps place disk (file.write bytes disk).2 := by
  unfold OpenFile.write
  split
  · exact hat.steps_refl
  · split
    · exact hat.put bytes
    · exact hat.put _

theorem IsAt.drain (hat : file.IsAt disk place) : file.Steps place disk (file.drain disk).2 :=
  (hat.write file.pending).hold _

theorem IsAt.makeRoom (hat : file.IsAt disk place) (count : Nat) :
    file.Steps place disk (file.makeRoom count disk).2 := by
  unfold OpenFile.makeRoom
  split
  · exact hat.steps_refl
  · exact hat.drain

theorem IsAt.append (hat : file.IsAt disk place) (bytes : ByteArray) :
    file.Steps place disk (file.append bytes disk).2 := by
  have hroom := hat.makeRoom bytes.size
  unfold OpenFile.append
  generalize file.makeRoom bytes.size disk = roomed at hroom ⊢
  rcases roomed with ⟨answer, roomy, disk'⟩
  cases answer with
  | error fault => exact hroom
  | ok _ =>
      dsimp only
      split
      · exact hroom.hold _
      · exact hroom.trans (hroom.2.1.write bytes)

/-! ### Where nothing is denied -/

/-- The file is at a place of the disk, where everything written so far is. -/
structure Written (file : OpenFile) (disk : Disk) (place : Location) (content : ByteArray) :
    Prop where
  sole : disk.Sole place file.id content
  offset_eq : file.offset = content.size

theorem Written.isAt (h : file.Written disk place content) : file.IsAt disk place :=
  ⟨content, h.sole⟩

theorem pending_write (file : OpenFile) (bytes : ByteArray) (disk : Disk) :
    (file.write bytes disk).2.1.pending = file.pending := by
  unfold OpenFile.write
  split
  · rfl
  · split <;> rfl

theorem Written.write_of_ok (hwritten : file.Written disk place content) {bytes : ByteArray}
    (hok : (file.write bytes disk).1 = .ok ()) :
    (file.write bytes disk).2.1.Written (file.write bytes disk).2.2 place (content ++ bytes) := by
  unfold OpenFile.write at hok ⊢
  split
  next hempty =>
    have hbytes : bytes = .empty := ByteArray.size_eq_zero_iff.mp (beq_iff_eq.mp hempty)
    rw [hbytes, ByteArray.append_empty]
    exact hwritten
  next hnonempty =>
    rw [if_neg hnonempty] at hok
    cases hdenial : disk.denial (.write file.id file.offset bytes.size) with
    | some denial => simp [hdenial] at hok
    | none =>
        have hsole := hwritten.sole.modify fun content => overwrite content file.offset bytes
        rw [hwritten.offset_eq, overwrite_size] at hsole
        refine ⟨?_, ?_⟩
        · simp only [put, hwritten.offset_eq]
          exact hsole
        · simp only [put, hwritten.offset_eq, ByteArray.size_append]

/-- What the file was given so far is what is at its place and what is held back. -/
def Holds (file : OpenFile) (disk : Disk) (place : Location) (given : ByteArray) : Prop :=
  ∃ content, file.Written disk place content ∧ content ++ file.pending = given

theorem Holds.isAt (h : file.Holds disk place given) : file.IsAt disk place := by
  obtain ⟨content, hwritten, _⟩ := h
  exact hwritten.isAt

theorem Holds.drain_of_ok (hholds : file.Holds disk place given)
    (hok : (file.drain disk).1 = .ok ()) :
    (file.drain disk).2.1.Written (file.drain disk).2.2 place given ∧
      (file.drain disk).2.1.pending = .empty := by
  obtain ⟨content, hwritten, hgiven⟩ := hholds
  have hlater := hwritten.write_of_ok hok
  rw [hgiven] at hlater
  refine ⟨⟨hlater.sole, hlater.offset_eq⟩, ?_⟩
  -- as many bytes were written as were held back
  have hcount : (file.write file.pending disk).2.1.offset - file.offset = file.pending.size := by
    rw [hlater.offset_eq, hwritten.offset_eq, ← hgiven, ByteArray.size_append]
    omega
  simp only [OpenFile.drain, hcount, ByteArray.extract_eq_empty_iff]
  omega

theorem Written.holds (h : file.Written disk place content) (hpending : file.pending = .empty) :
    file.Holds disk place content :=
  ⟨content, h, by rw [hpending, ByteArray.append_empty]⟩

theorem Holds.makeRoom_of_ok (hholds : file.Holds disk place given) {count : Nat}
    (hok : (file.makeRoom count disk).1 = .ok ()) :
    (file.makeRoom count disk).2.1.Holds (file.makeRoom count disk).2.2 place given ∧
      (room ≤ count → (file.makeRoom count disk).2.1.pending = .empty) := by
  unfold OpenFile.makeRoom at hok ⊢
  split
  next hfits =>
    refine ⟨hholds, ?_⟩
    intro hfull
    have hsize : file.pending.size = 0 := by omega
    exact ByteArray.size_eq_zero_iff.mp hsize
  next htight =>
    rw [if_neg htight] at hok
    obtain ⟨hwritten, hempty⟩ := hholds.drain_of_ok hok
    exact ⟨hwritten.holds hempty, fun _ => hempty⟩

theorem Holds.append_of_ok (hholds : file.Holds disk place given) {bytes : ByteArray}
    (hok : (file.append bytes disk).1 = .ok ()) :
    (file.append bytes disk).2.1.Holds (file.append bytes disk).2.2 place (given ++ bytes) := by
  have hroom := @Holds.makeRoom_of_ok _ _ _ _ hholds bytes.size
  unfold OpenFile.append at hok ⊢
  generalize file.makeRoom bytes.size disk = roomed at hroom hok ⊢
  rcases roomed with ⟨answer, roomy, disk'⟩
  cases answer with
  | error fault => cases hok
  | ok _ =>
      obtain ⟨⟨content, hwritten, hgiven⟩, hempty⟩ := hroom rfl
      dsimp only at hwritten hgiven hempty hok ⊢
      split
      next hshort =>
        refine ⟨content, ⟨hwritten.sole, hwritten.offset_eq⟩, ?_⟩
        rw [← hgiven, ByteArray.append_assoc]
      next hlong =>
        rw [if_neg hlong] at hok
        -- what is written at once comes behind nothing that is held back
        have hnothing := hempty (Nat.not_lt.mp hlong)
        rw [hnothing, ByteArray.append_empty] at hgiven
        refine ⟨content ++ bytes, hwritten.write_of_ok hok, ?_⟩
        rw [pending_write, hnothing, ByteArray.append_empty, hgiven]

/-! ### What is answered -/

section Granted

variable (hwrite : ∀ offset count, disk.denial (.write file.id offset count) = none)
include hwrite

theorem write_eq_ok (bytes : ByteArray) : (file.write bytes disk).1 = .ok () := by
  unfold OpenFile.write
  rw [hwrite]
  split <;> rfl

theorem drain_eq_ok : (file.drain disk).1 = .ok () := write_eq_ok hwrite file.pending

theorem append_eq_ok (hat : file.IsAt disk place) (bytes : ByteArray) :
    (file.append bytes disk).1 = .ok () := by
  have hroom : (file.makeRoom bytes.size disk).1 = .ok () := by
    unfold OpenFile.makeRoom
    split
    · rfl
    · exact drain_eq_ok hwrite
  obtain ⟨hid, _, hconfined⟩ := hat.makeRoom bytes.size
  unfold OpenFile.append
  generalize file.makeRoom bytes.size disk = roomed at hroom hid hconfined ⊢
  rcases roomed with ⟨answer, roomy, disk'⟩
  obtain rfl : answer = .ok () := hroom
  dsimp only at hid hconfined ⊢
  split
  · rfl
  · apply write_eq_ok
    rw [hid, hconfined.denial_eq]
    exact hwrite

end Granted

end OpenFile

end Wiring
