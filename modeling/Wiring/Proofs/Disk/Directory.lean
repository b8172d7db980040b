import Mathlib.Data.List.Basic
import Wiring.Disk.Staging
import Wiring.Proofs.Text.Search

/-!
# Names within a directory

A plain name leads to the entry of a directory that has this name. What creating,
removing and renaming do under plain names is then a matter of these entries alone.
-/

namespace Wiring

namespace Path

/-- A name that leads to an entry of a directory and to nothing else. -/
structure IsPlain (name : String) : Prop where
  ne_empty : name ≠ ""
  ne_here : name ≠ here
  ne_above : name ≠ above
  separator_not_mem : separator ∉ name.toList
  zero_not_mem : '\x00' ∉ name.toList

namespace IsPlain

variable {name : String}

theorem toList_ne_nil (hname : IsPlain name) : name.toList ≠ [] := by
  intro hnil
  exact hname.ne_empty (String.toList_inj.mp hnil)

theorem parts_eq (hname : IsPlain name) : parts name = [name] := by
  unfold parts pieces
  rw [Text.splitAll_of_avoids (Text.avoids_of_not_mem hname.separator_not_mem)]
  simp [hname.ne_empty]

theorem isAbsolute_eq_false (hname : IsPlain name) : isAbsolute name = false := by
  simp only [isAbsolute, decide_eq_false_iff_not]
  intro hhead
  exact hname.separator_not_mem (List.mem_of_head? hhead)

theorem namesDirectory_eq_false (hname : IsPlain name) : namesDirectory name = false := by
  simp only [namesDirectory, decide_eq_false_iff_not]
  intro hlast
  exact hname.separator_not_mem (List.mem_of_getLast? hlast)

theorem hasZero_eq_false (hname : IsPlain name) : hasZero name = false := by
  simp only [hasZero, List.any_eq_false, decide_eq_true_eq]
  rintro c hc rfl
  exact hname.zero_not_mem hc

theorem dropSeparators_eq (hname : IsPlain name) : dropSeparators name = name := by
  have hkept : (name.toList.reverse.dropWhile (· = separator)).reverse = name.toList := by
    cases hlast : name.toList.reverse with
    | nil => exact absurd (List.reverse_eq_nil_iff.mp hlast) hname.toList_ne_nil
    | cons c rest =>
        have hc : c ≠ separator := by
          rintro rfl
          apply hname.separator_not_mem
          rw [← List.mem_reverse, hlast]
          exact List.mem_cons_self
        rw [List.dropWhile_cons_of_neg (by simpa using hc), ← hlast, List.reverse_reverse]
  unfold dropSeparators
  simp only [hkept]
  split
  next hnil => exact absurd hnil hname.toList_ne_nil
  next => exact String.ofList_toList

end IsPlain

end Path

/-! ## Names of staging files -/

theorem toList_stagingName (fileName : String) :
    (stagingName fileName).toList = '.' :: (fileName.toList ++ ".partial".toList) := by
  simp [stagingName]

theorem stagingName_ne (fileName : String) : stagingName fileName ≠ fileName := by
  intro heq
  have hlength := congrArg (fun name => name.toList.length) heq
  simp only [toList_stagingName, List.length_cons, List.length_append] at hlength
  omega

theorem stagingName_injective : Function.Injective stagingName := by
  intro first second heq
  have hchars := congrArg String.toList heq
  rw [toList_stagingName, toList_stagingName, List.cons.injEq, List.append_left_inj] at hchars
  exact String.toList_inj.mp hchars.2

theorem Path.IsPlain.stagingName {fileName : String} (hname : IsPlain fileName) :
    IsPlain (stagingName fileName) := by
  have hlong : ∀ short : String, short.toList.length ≤ 8 → Wiring.stagingName fileName ≠ short := by
    rintro short hshort rfl
    have hpartial : ".partial".toList.length = 8 := rfl
    rw [toList_stagingName, List.length_cons, List.length_append] at hshort
    omega
  refine ⟨hlong _ (by decide), hlong _ (by decide), hlong _ (by decide), ?_, ?_⟩
  · simpa [toList_stagingName, separator] using hname.separator_not_mem
  · simpa [toList_stagingName] using hname.zero_not_mem

/-! ## Files under plain names -/

namespace Disk

variable {disk : Disk} {base : Location} {name : String}

theorem isDirectory_iff {location : Location} :
    disk.isDirectory location = true ↔ disk.get? location = some .directory := by
  unfold isDirectory
  split <;> simp_all

theorem isDirectory_eq_false_iff {location : Location} :
    disk.isDirectory location = false ↔ disk.get? location ≠ some .directory := by
  rw [← Bool.not_eq_true, isDirectory_iff]

theorem requireDirectory_eq_ok_iff :
    disk.requireDirectory base = .ok () ↔ disk.isDirectory base = true := by
  rw [isDirectory_iff]
  unfold requireDirectory
  split <;> simp_all

theorem ask_eq_ok_iff {request : Request} :
    disk.ask request = .ok () ↔ disk.denial request = none := by
  unfold ask
  cases disk.denial request <;> simp

theorem requireSearch_eq_ok_iff :
    disk.requireSearch base = .ok () ↔
      disk.isDirectory base = true ∧ disk.denial (.search base) = none := by
  rw [← requireDirectory_eq_ok_iff, ← ask_eq_ok_iff]
  unfold requireSearch
  cases disk.requireDirectory base <;> simp [bind, Except.bind]

theorem requireName_eq (hshort : name.utf8ByteSize ≤ Path.longestPart) :
    requireName name = .ok () := by
  rw [requireName, if_neg (Nat.not_lt.mpr hshort)]

/-- Under a name of a directory is found what is there. -/
theorem look_eq (hsearch : disk.requireSearch base = .ok ())
    (hshort : name.utf8ByteSize ≤ Path.longestPart) :
    disk.look base name = .ok (disk.get? (name :: base)) := by
  simp only [look, hsearch, requireName_eq hshort]
  rfl

theorem of_look_eq_ok {found : Option Entry} (hlook : disk.look base name = .ok found) :
    disk.requireSearch base = .ok () ∧ name.utf8ByteSize ≤ Path.longestPart := by
  unfold look at hlook
  cases hsearch : disk.requireSearch base with
  | error fault => simp [hsearch, bind, Except.bind] at hlook
  | ok _ =>
      refine ⟨rfl, Nat.not_lt.mp fun hlong => ?_⟩
      simp [hsearch, requireName, hlong, bind, Except.bind] at hlook

theorem locate_eq (hname : Path.IsPlain name) :
    disk.locate base name =
      if Path.tooLong ≤ name.utf8ByteSize then .error .nameTooLong
      else (disk.requireDirectory base).map fun _ => (base, some name) := by
  have hlast : lastName? name = some name := by
    simp [lastName?, hname.parts_eq, hname.ne_here, hname.ne_above, hname.namesDirectory_eq_false]
  have hnonempty : name.isEmpty = false := by
    simpa using hname.ne_empty
  have hwalk : disk.walk (.within base) false base [] = .ok base := rfl
  unfold locate requirePathWithin
  simp only [hname.hasZero_eq_false, hnonempty, hname.isAbsolute_eq_false, hlast, hname.parts_eq,
    Bool.false_eq_true, if_false, Option.isSome_some, if_true, List.dropLast_singleton]
  split
  · rfl
  · simp only [bind, Except.bind, hwalk]
    cases disk.requireDirectory base <;> rfl

theorem locate_of_isDirectory (hbase : disk.isDirectory base = true) (hname : Path.IsPlain name)
    (hshort : name.utf8ByteSize ≤ Path.longestPart) :
    disk.locate base name = .ok (base, some name) := by
  have hfits : ¬Path.tooLong ≤ name.utf8ByteSize := by
    have hlimits : Path.longestPart < Path.tooLong := by decide
    omega
  rw [locate_eq hname, if_neg hfits, requireDirectory_eq_ok_iff.mpr hbase]
  rfl

/-- Where a plain name leads that is no link. -/
theorem walk_eq {bounds : Bounds} {mayMiss : Bool} (hname : Path.IsPlain name)
    (hlook : disk.look base name = .ok (disk.get? (name :: base)))
    (hlink : ∀ target, disk.get? (name :: base) ≠ some (.link target)) :
    disk.walk bounds mayMiss base [name] =
      if (disk.get? (name :: base)).isSome ∨ mayMiss then .ok (name :: base)
      else .error .notFound := by
  have hsearch := (of_look_eq_ok hlook).1
  change disk.walkParts bounds mayMiss _ base [name] = _
  unfold walkParts
  simp only [hsearch, hlook, hname.ne_here, hname.ne_above, if_false, bind, Except.bind]
  cases hfound : disk.get? (name :: base) with
  | none => cases mayMiss <;> simp
  | some entry =>
      cases entry with
      | link target => exact absurd hfound (hlink target)
      | directory | file _ _ => rfl

theorem create_eq (hsearch : disk.requireSearch base = .ok ()) (hname : Path.IsPlain name)
    (hshort : name.utf8ByteSize ≤ Path.longestPart)
    (hlink : ∀ target, disk.get? (name :: base) ≠ some (.link target)) :
    disk.create base name =
      match disk.get? (name :: base) with
      | some (.file id _) =>
          (disk.ask (.replace (name :: base))).map fun _ => (id, disk.modify id fun _ => .empty)
      | some .directory | some (.link _) => .error .isDirectory
      | none =>
          (disk.ask (.makeFile (name :: base))).map fun _ =>
            (disk.nextId, disk.putFile (name :: base) .empty) := by
  have hbase := (requireSearch_eq_ok_iff.mp hsearch).1
  have hplace : disk.locateFile base true name = .ok (name :: base) := by
    simp only [locateFile, locate_of_isDirectory hbase hname hshort, hname.parts_eq,
      walk_eq hname (look_eq hsearch hshort) hlink, or_true, if_true, bind, Except.bind]
  simp only [create, hplace, bind, Except.bind]
  cases hfound : disk.get? (name :: base) with
  | none => cases disk.ask (.makeFile (name :: base)) <;> rfl
  | some entry =>
      cases entry with
      | directory => rfl
      | link target => exact absurd hfound (hlink target)
      | file id content => cases disk.ask (.replace (name :: base)) <;> rfl

theorem remove_eq (hsearch : disk.requireSearch base = .ok ()) (hname : Path.IsPlain name)
    (hshort : name.utf8ByteSize ≤ Path.longestPart) :
    disk.remove base name =
      match disk.get? (name :: base) with
      | some (.file ..) | some (.link _) =>
          (disk.ask (.remove (name :: base))).map fun _ => disk.erase (name :: base)
      | some .directory => .error .isDirectory
      | none => .error .notFound := by
  have hbase := (requireSearch_eq_ok_iff.mp hsearch).1
  simp only [remove, locate_of_isDirectory hbase hname hshort, bind, Except.bind,
    look_eq hsearch hshort]
  cases disk.get? (name :: base) with
  | none => rfl
  | some entry =>
      cases entry with
      | directory => rfl
      | link _ | file _ _ => cases disk.ask (.remove (name :: base)) <;> rfl

theorem requireReplaceable_file (source target : Location) (id : Nat) (content : ByteArray) :
    disk.requireReplaceable source target (.file id content) (disk.get? target) =
      if disk.isDirectory target then .error .isDirectory else .ok () := by
  cases hdirectory : disk.isDirectory target with
  | true => simp [isDirectory_iff.mp hdirectory, requireReplaceable]
  | false =>
      have hother := isDirectory_eq_false_iff.mp hdirectory
      unfold requireReplaceable
      split <;> simp_all

/-- A file with one name only takes any name of its directory that no directory has, unless
the operating system denies it. -/
theorem rename_eq {source target : String} {id : Nat} {content : ByteArray}
    (hsearch : disk.requireSearch base = .ok ())
    (hsource : Path.IsPlain source) (hsourceShort : source.utf8ByteSize ≤ Path.longestPart)
    (htarget : Path.IsPlain target) (htargetShort : target.utf8ByteSize ≤ Path.longestPart)
    (hfile : disk.get? (source :: base) = some (.file id content))
    (hother : ∀ content', disk.get? (target :: base) ≠ some (.file id content')) :
    disk.rename base source target =
      if disk.isDirectory (target :: base) then .error .isDirectory
      else (disk.ask (.rename (source :: base) (target :: base))).map fun _ =>
        disk.move (source :: base) (target :: base) := by
  have hbase := (requireSearch_eq_ok_iff.mp hsearch).1
  have hsame : isSameFile (.file id content) (disk.get? (target :: base)) = false := by
    cases hfound : disk.get? (target :: base) with
    | none => rfl
    | some entry =>
        cases entry with
        | directory | link _ => rfl
        | file id' content' =>
            simp only [isSameFile, decide_eq_false_iff_not]
            rintro rfl
            exact hother content' hfound
  simp only [rename, hsource.dropSeparators_eq, htarget.dropSeparators_eq,
    locate_of_isDirectory hbase hsource hsourceShort,
    locate_of_isDirectory hbase htarget htargetShort, bind, Except.bind,
    look_eq hsearch hsourceShort, look_eq hsearch htargetShort, hfile, requireReplaceable_file,
    hsame]
  cases disk.isDirectory (target :: base) with
  | true => rfl
  | false => cases disk.ask (.rename (source :: base) (target :: base)) <;> rfl

end Disk

end Wiring
