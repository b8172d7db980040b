import Wiring.Proofs.Json.Record
import Wiring.Settings.Codec

/-!
# Settings are read in any arrangement

Every setting has a default, so that any of them may be left out where it holds it.
-/

namespace Wiring

open Json

theorem Capacity.reads (capacity : Capacity) :
    Reads Capacity.decode (.natural capacity.rows) capacity := by
  intro node hnode
  cases hnode with
  | number hread =>
      rw [Number.stored_natural] at hread
      have hrows : Capacity.ofNat? capacity.rows = some capacity :=
        Capacity.ofNat?_eq_some_iff.mpr rfl
      simp [Capacity.decode, hread, bind, Except.bind, hrows, pure, Except.pure]

namespace Settings

/-- The members of settings. -/
def slots (settings : Settings) : List Slot :=
  let standard : Settings := {}
  [.may "rows_per_routine" (· = .natural settings.capacity.rows)
      (settings.capacity = standard.capacity),
    .may "generated_package" (· = .text settings.generatedPackage)
      (settings.generatedPackage = standard.generatedPackage),
    .may "out_dir" (· = .text settings.outDir) (settings.outDir = standard.outDir),
    .may "default_module_file" (· = .text settings.defaultFile)
      (settings.defaultFile = standard.defaultFile)]

/-- What the slots of settings contribute. -/
def fields (settings : Settings) : List (String × Member) :=
  [("rows_per_routine", .capacity settings.capacity),
    ("generated_package", .generatedPackage settings.generatedPackage),
    ("out_dir", .outDir settings.outDir), ("default_module_file", .defaultFile settings.defaultFile)]

/-- What is collected from the members of settings. -/
def found (settings : Settings) (members : List (String × Value)) : List Member :=
  members.filterMap (contribution settings.fields fun _ => none)

theorem readMember_of_not_mem {name : String} (hname : name ∉ memberNames) (node : Node) :
    readMember name node = node.skip.map fun _ => none := by
  unfold readMember
  split <;> simp_all [memberNames]

theorem gather_found {settings : Settings} {members : List (String × Value)}
    (h : Arranged settings.slots members) : gather (settings.found members) = settings := by
  let standard : Settings := {}
  have hcapacity : optional standard.capacity Member.capacity? (settings.found members) =
      settings.capacity :=
    h.optional_eq "rows_per_routine" rfl (by simp [fields, Member.capacity?]) (fun _ => rfl)
      (by simp [slots, standard])
  have hpackage : optional standard.generatedPackage Member.generatedPackage?
      (settings.found members) = settings.generatedPackage :=
    h.optional_eq "generated_package" rfl (by simp [fields, Member.generatedPackage?])
      (fun _ => rfl) (by simp [slots, standard])
  have houtDir : optional standard.outDir Member.outDir? (settings.found members) =
      settings.outDir :=
    h.optional_eq "out_dir" rfl (by simp [fields, Member.outDir?]) (fun _ => rfl)
      (by simp [slots, standard])
  have hdefaultFile : optional standard.defaultFile Member.defaultFile?
      (settings.found members) = settings.defaultFile :=
    h.optional_eq "default_module_file" rfl (by simp [fields, Member.defaultFile?])
      (fun _ => rfl) (by simp [slots, standard])
  rw [gather, hcapacity, hpackage, houtDir, hdefaultFile]

/-- Settings are read from a record of their members. -/
theorem reads {settings : Settings} {value : Value} (h : IsRecord settings.slots value) :
    Reads Settings.decode value settings := by
  obtain ⟨members, rfl, h⟩ := h
  refine reads_record (fun _ _ _ => rfl)
    (h.reads_members settings.fields (fun _ => none) (by simp [slots])
      (fun _ => depth_le_membersDepth) ?_ ?_)
    (h.distinct (by simp [slots]) (by simp [slots, memberNames]))
    (congrArg Except.ok (gather_found h))
  · refine .cons ⟨rfl, ?_⟩ (.cons ⟨rfl, ?_⟩ (.cons ⟨rfl, ?_⟩ (.cons ⟨rfl, ?_⟩ .nil))) <;>
      rintro _ rfl -
    · exact settings.capacity.reads.map _
    · exact (reads_text .text _).map _
    · exact (reads_text .path _).map _
    · exact (reads_text .text _).map _
  · exact fun name value hname _ => reads_skipped (readMember_of_not_mem hname) value

end Settings

end Wiring
