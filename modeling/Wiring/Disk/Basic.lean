import Wiring.Disk.Path

/-!
# Disks

A disk holds directories, files and symbolic links. Every file has a number, which stays
with it when it is renamed, so that an open file can be written wherever it is, and even
when nothing leads to it any more. A file may have several names; all of them have its
number. The operating system may deny whatever it is asked for, be it for want of rights
or of room; what it denies is part of the disk.

Main statements: `get?_putFile_self`, `get?_putFile_of_ne`,
`get?_erase_of_not_below`, `get?_modify` and `get?_move_target` say what the
operations do to the entries. That all names of a file show one content is part of the
type.
-/

namespace Wiring

/-- Where something is: the names that lead to it from the root, the last one
first. -/
abbrev Location := List String

/-- Whether one location is another one or lies below it. -/
def Location.isBelow (location directory : Location) : Bool :=
  directory.isSuffixOf location

namespace Location

@[simp] theorem isBelow_self (location : Location) : location.isBelow location = true := by
  simp [isBelow]

theorem isBelow_iff {location directory : Location} :
    location.isBelow directory = true ↔ directory <:+ location := List.isSuffixOf_iff_suffix

theorem isBelow_sibling (name other : String) (directory : Location) :
    isBelow (name :: directory) (other :: directory) = decide (other = name) := by
  by_cases h : other = name
  · simp [h]
  · rw [decide_eq_false h]
    apply Bool.eq_false_iff.mpr
    intro hbelow
    have hlength : (other :: directory).length = (name :: directory).length := rfl
    have heq := (isBelow_iff.mp hbelow).eq_of_length hlength
    exact h (List.cons.inj heq).1

/-- What lies below one of two locations does not lie below the other, unless these do. -/
theorem not_below_of_apart {location source target : Location}
    (hsource : source.isBelow target = false) (htarget : target.isBelow source = false)
    (hbelow : location.isBelow source = true) : location.isBelow target = false := by
  apply Bool.eq_false_iff.mpr
  intro hother
  rcases List.suffix_or_suffix_of_suffix (isBelow_iff.mp hbelow) (isBelow_iff.mp hother) with h | h
  · rw [isBelow_iff.mpr h] at htarget
    cases htarget
  · rw [isBelow_iff.mpr h] at hsource
    cases hsource

theorem isBelow_cons_self (name : String) (directory : Location) :
    directory.isBelow (name :: directory) = false := by
  apply Bool.eq_false_iff.mpr
  intro hbelow
  have hlength := (isBelow_iff.mp hbelow).length_le
  exact Nat.not_succ_le_self _ hlength

end Location

/-- What a disk holds at a location. -/
inductive Entry where
  | directory
  /-- A file with its number. -/
  | file (id : Nat) (content : ByteArray)
  /-- A symbolic link with the path it stands for. -/
  | link (target : String)
deriving Inhabited

namespace Entry

/-- The number of a file. -/
def id? : Entry → Option Nat
  | file id _ => some id
  | directory | link _ => none

/-- If both are the same file, they have the same content. -/
def Agrees : Entry → Entry → Prop
  | file id content, file id' content' => id = id' → content = content'
  | _, _ => True

theorem agrees_of_ne {first second : Entry} (h : ∀ id, first.id? = some id → second.id? ≠ some id) :
    first.Agrees second := by
  cases first <;> cases second <;> try trivial
  intro heq
  exact absurd (congrArg some heq.symm) (h _ rfl)

/-- Changes the content of the file with a given number. -/
def modify (id : Nat) (change : ByteArray → ByteArray) : Entry → Entry
  | file id' content => file id' (if id' = id then change content else content)
  | directory => directory
  | link target => link target

@[simp]
theorem id?_modify (id : Nat) (change : ByteArray → ByteArray) (entry : Entry) :
    (entry.modify id change).id? = entry.id? := by
  cases entry <;> rfl

theorem Agrees.modify {first second : Entry} (h : first.Agrees second) (id : Nat)
    (change : ByteArray → ByteArray) : (first.modify id change).Agrees (second.modify id change) := by
  cases first <;> cases second <;> try trivial
  rintro rfl
  rw [h rfl]

end Entry

/-- The numbers of the files among entries. -/
def fileIds (entries : List (Location × Entry)) : List Nat :=
  entries.filterMap fun (_, entry) => entry.id?

/-- What the operating system is asked for. -/
inductive Request where
  /-- To look something up in a directory. -/
  | search (directory : Location)
  /-- To open a directory. -/
  | enter (directory : Location)
  /-- To hand out an open directory once more. -/
  | share (directory : Location)
  /-- To read a file. -/
  | read (file : Location)
  /-- To make a directory. -/
  | makeDirectory (place : Location)
  /-- To make a file and open it for writing. -/
  | makeFile (place : Location)
  /-- To open a file for writing. -/
  | replace (file : Location)
  | rename (source target : Location)
  | remove (file : Location)
  /-- To write so many bytes to the file with a number. -/
  | write (id offset count : Nat)
  /-- To wait until what was written is kept for good. -/
  | sync (id : Nat)
deriving DecidableEq, Repr

/-- How the operating system denies a request. -/
structure Denial where
  fault : SystemFault
  /-- How many of the bytes that were to be written were written all the same. -/
  written : Nat := 0
deriving DecidableEq, Repr, Inhabited

/-- Directories, files and links. The root is always a directory and has no entry. -/
structure Disk where
  /-- What is where; of two entries for one location the first one counts. -/
  entries : List (Location × Entry) := []
  /-- The number of the next new file. -/
  nextId : Nat := 0
  /-- What the operating system denies. -/
  denial : Request → Option Denial := fun _ => none
  /-- The numbers of new files are not in use. -/
  ids_lt : ∀ id ∈ fileIds entries, id < nextId := by simp [fileIds]
  /-- All names of a file show the same content. -/
  agrees : ∀ first ∈ entries, ∀ second ∈ entries, first.2.Agrees second.2 := by simp

namespace Disk

/-- The disk that holds nothing but the root, on a system that denies nothing. -/
def empty : Disk := {}

instance : Inhabited Disk := ⟨empty⟩

/-- What is at a location. -/
def get? (disk : Disk) : Location → Option Entry
  | [] => some .directory
  | location => disk.entries.lookup location

/-- Whether there is a directory at a location. -/
def isDirectory (disk : Disk) (location : Location) : Bool :=
  match disk.get? location with
  | some .directory => true
  | _ => false

/-- The content of the file at a location. -/
def content? (disk : Disk) (location : Location) : Option ByteArray :=
  match disk.get? location with
  | some (.file _ content) => some content
  | _ => none

/-- Whether a directory holds anything. -/
def isEmptyDirectory (disk : Disk) (location : Location) : Bool :=
  disk.entries.all fun (other, _) => other = location || !other.isBelow location

/-- Asks the operating system. -/
def ask (disk : Disk) (request : Request) : Except SystemFault Unit :=
  match disk.denial request with
  | none => .ok ()
  | some denial => .error denial.fault

/-! ## Operations -/

theorem fileIds_filter_sublist (keep : Location × Entry → Bool)
    (entries : List (Location × Entry)) :
    (fileIds (entries.filter keep)).Sublist (fileIds entries) :=
  List.filter_sublist.filterMap _

/-- Keeps some of the entries. -/
def filter (disk : Disk) (keep : Location × Entry → Bool) : Disk :=
  { entries := disk.entries.filter keep
    nextId := disk.nextId
    denial := disk.denial
    ids_lt := fun id h => disk.ids_lt id ((fileIds_filter_sublist keep _).subset h)
    agrees := fun first hfirst second hsecond =>
      disk.agrees first (List.mem_filter.mp hfirst).1 second (List.mem_filter.mp hsecond).1 }

/-- The disk without what is at a location or below it. -/
def erase (disk : Disk) (location : Location) : Disk :=
  disk.filter fun (other, _) => !other.isBelow location

/-- The disk with something that is no file and replaces what was there. -/
def put (disk : Disk) (location : Location) (entry : Entry) (hentry : entry.id? = none) : Disk :=
  let rest := disk.filter fun (other, _) => other ≠ location
  { entries := (location, entry) :: rest.entries
    nextId := rest.nextId
    denial := rest.denial
    ids_lt := by
      intro id h
      apply rest.ids_lt
      simpa [fileIds, hentry] using h
    agrees := by
      have hnone : ∀ other : Entry, entry.Agrees other ∧ other.Agrees entry := fun other =>
        ⟨Entry.agrees_of_ne fun id h => by simp [hentry] at h,
          Entry.agrees_of_ne fun id _ h => by simp [hentry] at h⟩
      intro first hfirst second hsecond
      rcases List.mem_cons.mp hfirst with rfl | hfirst
      · exact (hnone _).1
      · rcases List.mem_cons.mp hsecond with rfl | hsecond
        · exact (hnone _).2
        · exact rest.agrees first hfirst second hsecond }

/-- The disk with a new directory, which replaces what was there. -/
def putDirectory (disk : Disk) (location : Location) : Disk := disk.put location .directory rfl

/-- The disk with a new link, which replaces what was there. -/
def putLink (disk : Disk) (location : Location) (target : String) : Disk :=
  disk.put location (.link target) rfl

theorem id_mem_fileIds {entries : List (Location × Entry)} {item : Location × Entry} {id : Nat}
    (hmem : item ∈ entries) (hid : item.2.id? = some id) : id ∈ fileIds entries :=
  List.mem_filterMap.mpr ⟨item, hmem, hid⟩

/-- The disk with a new file, which replaces what was there and has the number
`disk.nextId`. -/
def putFile (disk : Disk) (location : Location) (content : ByteArray) : Disk :=
  let rest := disk.filter fun (other, _) => other ≠ location
  { entries := (location, .file rest.nextId content) :: rest.entries
    nextId := rest.nextId + 1
    denial := rest.denial
    ids_lt := by
      intro id h
      rcases List.mem_cons.1 h with rfl | h
      · exact Nat.lt_succ_self _
      · exact Nat.lt_succ_of_lt (rest.ids_lt id h)
    agrees := by
      have hnew : ∀ item ∈ rest.entries, item.2.id? ≠ some rest.nextId := fun item hmem hid =>
        Nat.lt_irrefl _ (rest.ids_lt _ (id_mem_fileIds hmem hid))
      intro first hfirst second hsecond
      rcases List.mem_cons.mp hfirst with rfl | hfirst
      · rcases List.mem_cons.mp hsecond with rfl | hsecond
        · exact fun _ => rfl
        · exact Entry.agrees_of_ne fun id hid => Option.some.inj hid ▸ hnew second hsecond
      · rcases List.mem_cons.mp hsecond with rfl | hsecond
        · exact Entry.agrees_of_ne fun id hid hid' =>
            hnew first hfirst (hid.trans hid'.symm)
        · exact rest.agrees first hfirst second hsecond }

/-- Changes the content of the file with a given number, wherever it is. -/
def modify (disk : Disk) (id : Nat) (change : ByteArray → ByteArray) : Disk :=
  { entries := disk.entries.map fun (location, entry) => (location, entry.modify id change)
    nextId := disk.nextId
    denial := disk.denial
    ids_lt := by
      simpa [fileIds, List.filterMap_map, Function.comp_def] using disk.ids_lt
    agrees := by
      intro first hfirst second hsecond
      obtain ⟨item, hitem, rfl⟩ := List.mem_map.mp hfirst
      obtain ⟨other, hother, rfl⟩ := List.mem_map.mp hsecond
      exact (disk.agrees item hitem other hother).modify id change }

/-- Where something below `source` is once that has become `target`. -/
def relocate (source target location : Location) : Location :=
  if location.isBelow source then
    location.take (location.length - source.length) ++ target
  else location

/-- Moves what is at one location, with all below it, to another one, where it
replaces what was there. -/
def move (disk : Disk) (source target : Location) : Disk :=
  if source = target then disk
  else
    let rest := disk.erase target
    { entries := rest.entries.map fun (location, entry) =>
        (relocate source target location, entry)
      nextId := rest.nextId
      denial := rest.denial
      ids_lt := by
        simpa [fileIds, List.filterMap_map, Function.comp_def] using rest.ids_lt
      agrees := by
        intro first hfirst second hsecond
        obtain ⟨item, hitem, rfl⟩ := List.mem_map.mp hfirst
        obtain ⟨other, hother, rfl⟩ := List.mem_map.mp hsecond
        exact rest.agrees item hitem other hother }

@[simp] theorem denial_move (disk : Disk) (source target : Location) :
    (disk.move source target).denial = disk.denial := by
  unfold move
  split <;> rfl

@[simp] theorem nextId_move (disk : Disk) (source target : Location) :
    (disk.move source target).nextId = disk.nextId := by
  unfold move
  split <;> rfl

/-! ## What the operations do to the entries -/

section Lookup

variable {α β : Type} [BEq α] [LawfulBEq α]

theorem lookup_filter {p : α → Bool} {key : α} (h : p key = true) (items : List (α × β)) :
    (items.filter fun item => p item.1).lookup key = items.lookup key := by
  induction items with
  | nil => rfl
  | cons item items ih =>
      obtain ⟨key', value⟩ := item
      by_cases hkey : key = key'
      · subst hkey
        simp [h]
      · have hne : (key == key') = false := by simpa using hkey
        by_cases hp : p key' = true
        · simp [hp, List.lookup_cons, hne, ih]
        · simp [hp, List.lookup_cons, hne, ih]

theorem lookup_map_snd {γ : Type} (change : β → γ) (key : α) (items : List (α × β)) :
    (items.map fun item => (item.1, change item.2)).lookup key =
      (items.lookup key).map change := by
  induction items with
  | nil => rfl
  | cons item items ih =>
      obtain ⟨key', value⟩ := item
      by_cases hkey : key = key'
      · subst hkey
        simp
      · have hne : (key == key') = false := by simpa using hkey
        simp [List.lookup_cons, hne, ih]

theorem lookup_filter_eq_none {p : α → Bool} {key : α} (h : p key = false)
    (items : List (α × β)) : (items.filter fun item => p item.1).lookup key = none := by
  rw [List.lookup_eq_none_iff]
  intro item hitem
  have hkept := (List.mem_filter.mp hitem).2
  rw [bne_iff_ne]
  rintro rfl
  rw [h] at hkept
  cases hkept

theorem lookup_map_fst {change : α → α} {key key' : α} {items : List (α × β)}
    (h : ∀ item ∈ items, change item.1 = key' ↔ item.1 = key) :
    (items.map fun item => (change item.1, item.2)).lookup key' = items.lookup key := by
  induction items with
  | nil => rfl
  | cons item items ih =>
      obtain ⟨hhead, htail⟩ := List.forall_mem_cons.mp h
      have hsame : (key' == change item.1) = (key == item.1) := by
        rw [Bool.eq_iff_iff, beq_iff_eq, beq_iff_eq, eq_comm, hhead, eq_comm]
      rw [List.map_cons, List.lookup_cons, List.lookup_cons, hsame, ih htail]

end Lookup

theorem get?_cons (disk : Disk) (name : String) (location : Location) :
    disk.get? (name :: location) = disk.entries.lookup (name :: location) := rfl

theorem get?_eq_lookup (disk : Disk) {location : Location} (h : location ≠ []) :
    disk.get? location = disk.entries.lookup location := by
  cases location with
  | nil => exact absurd rfl h
  | cons name rest => rfl

theorem get?_putDirectory_self (disk : Disk) (location : Location) :
    (disk.putDirectory location).get? location = some .directory := by
  cases location with
  | nil => rfl
  | cons name location => simp [get?_cons, putDirectory, put]

theorem get?_putDirectory_of_ne (disk : Disk) {location other : Location}
    (h : other ≠ location) :
    (disk.putDirectory location).get? other = disk.get? other := by
  cases other with
  | nil => rfl
  | cons name rest =>
      have hne : (name :: rest == location) = false := by simpa using h
      have hkeep : decide (name :: rest ≠ location) = true := by simpa using h
      simp only [get?_cons, putDirectory, put, filter, List.lookup_cons, hne]
      exact lookup_filter (p := fun key => decide (key ≠ location)) hkeep _

theorem get?_putFile_self (disk : Disk) (name : String) (location : Location)
    (content : ByteArray) :
    (disk.putFile (name :: location) content).get? (name :: location) =
      some (.file disk.nextId content) := by
  simp [get?_cons, putFile, filter]

theorem get?_putFile_of_ne (disk : Disk) {location other : Location} (content : ByteArray)
    (h : other ≠ location) :
    (disk.putFile location content).get? other = disk.get? other := by
  cases other with
  | nil => rfl
  | cons name rest =>
      have hne : (name :: rest == location) = false := by simpa using h
      have hkeep : decide (name :: rest ≠ location) = true := by simpa using h
      simp only [get?_cons, putFile, filter, List.lookup_cons, hne]
      exact lookup_filter (p := fun key => decide (key ≠ location)) hkeep _

theorem get?_erase_of_not_below (disk : Disk) {location other : Location}
    (h : other.isBelow location = false) :
    (disk.erase location).get? other = disk.get? other := by
  cases other with
  | nil => rfl
  | cons name rest =>
      simp only [get?_cons, erase, filter]
      exact lookup_filter (p := fun key => !Location.isBelow key location) (by simp [h]) _

theorem get?_erase_of_below (disk : Disk) {location other : Location} (hne : other ≠ [])
    (h : other.isBelow location = true) : (disk.erase location).get? other = none := by
  rw [get?_eq_lookup _ hne]
  exact lookup_filter_eq_none (p := fun key => !Location.isBelow key location) (by simp [h]) _

theorem get?_modify (disk : Disk) (id : Nat) (change : ByteArray → ByteArray)
    (location : Location) :
    (disk.modify id change).get? location =
      (disk.get? location).map (Entry.modify id change) := by
  cases location with
  | nil => rfl
  | cons name rest =>
      simp only [get?_cons, modify]
      exact lookup_map_snd _ _ _

/-! ### Moving -/

theorem relocate_of_not_below {source location : Location} (target : Location)
    (h : location.isBelow source = false) : relocate source target location = location := by
  simp [relocate, h]

theorem relocate_append (source target front : Location) :
    relocate source target (front ++ source) = front ++ target := by
  have hbelow : Location.isBelow (front ++ source) source = true :=
    Location.isBelow_iff.mpr (List.suffix_append front source)
  simp [relocate, hbelow]

/-- What is moved comes to be below the target. -/
theorem isBelow_relocate {source location : Location} (target : Location)
    (h : location.isBelow source = true) :
    (relocate source target location).isBelow target = true := by
  obtain ⟨front, rfl⟩ := Location.isBelow_iff.mp h
  rw [relocate_append]
  exact Location.isBelow_iff.mpr (List.suffix_append front target)

section Move

variable {source target : Location}

theorem get?_move (disk : Disk) (hne : source ≠ target) {place : Location} (hplace : place ≠ []) :
    (disk.move source target).get? place =
      ((disk.erase target).entries.map fun item =>
        (relocate source target item.1, item.2)).lookup place := by
  rw [get?_eq_lookup _ hplace]
  unfold move
  rw [if_neg hne]

theorem not_below_of_mem_erase {disk : Disk} {item : Location × Entry}
    (hitem : item ∈ (disk.erase target).entries) : item.1.isBelow target = false := by
  simpa using (List.mem_filter.mp hitem).2

section Apart

variable (disk : Disk) (hsource : source.isBelow target = false)
  (htarget : target.isBelow source = false)

include hsource htarget

theorem ne_nil_of_apart : source ≠ [] ∧ target ≠ [] ∧ source ≠ target := by
  refine ⟨?_, ?_, ?_⟩
  · rintro rfl
    simp [Location.isBelow] at htarget
  · rintro rfl
    simp [Location.isBelow] at hsource
  · rintro rfl
    simp at hsource

/-- What was below the source is below the target. -/
theorem get?_move_append (front : Location) :
    (disk.move source target).get? (front ++ target) = disk.get? (front ++ source) := by
  obtain ⟨hsourceNil, htargetNil, hne⟩ := ne_nil_of_apart hsource htarget
  have hbelow : Location.isBelow (front ++ source) source = true :=
    Location.isBelow_iff.mpr (List.suffix_append front source)
  rw [get?_move _ hne (by simp [htargetNil]),
    ← disk.get?_erase_of_not_below (Location.not_below_of_apart hsource htarget hbelow),
    get?_eq_lookup _ (by simp [hsourceNil])]
  apply lookup_map_fst
  intro item hitem
  have hkept := not_below_of_mem_erase hitem
  cases hitemBelow : item.1.isBelow source with
  | true =>
      obtain ⟨front', hfront⟩ := Location.isBelow_iff.mp hitemBelow
      rw [← hfront, relocate_append, List.append_left_inj, List.append_left_inj]
  | false =>
      rw [relocate_of_not_below _ hitemBelow]
      constructor
      · intro heq
        rw [heq, Location.isBelow_iff.mpr (List.suffix_append front target)] at hkept
        cases hkept
      · intro heq
        rw [heq, hbelow] at hitemBelow
        cases hitemBelow

/-- What was at the source is at the target. -/
theorem get?_move_target : (disk.move source target).get? target = disk.get? source :=
  disk.get?_move_append hsource htarget []

/-- Nothing is left at the source or below it. -/
theorem get?_move_of_below_source {location : Location} (h : location.isBelow source = true) :
    (disk.move source target).get? location = none := by
  obtain ⟨hsourceNil, _, hne⟩ := ne_nil_of_apart hsource htarget
  have hlocation : location ≠ [] := by
    rintro rfl
    exact hsourceNil (List.suffix_nil.mp (Location.isBelow_iff.mp h))
  rw [get?_move _ hne hlocation, List.lookup_eq_none_iff]
  intro moved hmoved
  obtain ⟨item, _, rfl⟩ := List.mem_map.mp hmoved
  rw [bne_iff_ne]
  intro heq
  change location = relocate source target item.1 at heq
  cases hbelow : item.1.isBelow source with
  | true =>
      have hmoved := isBelow_relocate target hbelow
      rw [← heq, Location.not_below_of_apart hsource htarget h] at hmoved
      cases hmoved
  | false =>
      rw [relocate_of_not_below _ hbelow] at heq
      rw [← heq, h] at hbelow
      cases hbelow

end Apart

theorem get?_move_of_not_below (disk : Disk) {other : Location}
    (hsource : other.isBelow source = false) (htarget : other.isBelow target = false) :
    (disk.move source target).get? other = disk.get? other := by
  by_cases hne : source = target
  · rw [move, if_pos hne]
  cases other with
  | nil => rfl
  | cons name rest =>
      rw [get?_move _ hne (List.cons_ne_nil _ _), ← disk.get?_erase_of_not_below htarget,
        get?_cons]
      apply lookup_map_fst
      intro item hitem
      cases hbelow : item.1.isBelow source with
      | true =>
          -- neither what is moved nor where it goes is the other location
          have hmoved := isBelow_relocate target hbelow
          constructor
          · intro heq
            rw [heq, htarget] at hmoved
            cases hmoved
          · intro heq
            rw [heq, hsource] at hbelow
            cases hbelow
      | false => rw [relocate_of_not_below _ hbelow]

end Move

end Disk

end Wiring
