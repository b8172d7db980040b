import Wiring.Proofs.Disk.Directory

/-!
# Where paths lead

Following the parts of a path is told apart by what the next part is: nothing, a dot, two
dots, an entry, or a link in whose place its own path is followed. What leads somewhere
still leads there when directories were made elsewhere, and so does a beginning of it.
-/

namespace Wiring.Disk

/-- The parts lead from one location to another one through at most so many links. -/
inductive Leads (disk : Disk) (bounds : Bounds) : Nat → Location → List String → Location → Prop
  | done (links : Nat) (location : Location) : Leads disk bounds links location [] location
  | here {links : Nat} {location target : Location} {parts : List String}
      (search : disk.requireSearch location = .ok ())
      (rest : Leads disk bounds links location parts target) :
      Leads disk bounds links location (Path.here :: parts) target
  | above {links : Nat} {location up target : Location} {parts : List String}
      (search : disk.requireSearch location = .ok ())
      (goesUp : bounds.above location = .ok up)
      (rest : Leads disk bounds links up parts target) :
      Leads disk bounds links location (Path.above :: parts) target
  | entry {links : Nat} {location target : Location} {part : String} {parts : List String}
      {entry : Entry} (ne_here : part ≠ Path.here) (ne_above : part ≠ Path.above)
      (looks : disk.look location part = .ok (some entry))
      (not_link : ∀ path, entry ≠ .link path)
      (rest : Leads disk bounds links (part :: location) parts target) :
      Leads disk bounds links location (part :: parts) target
  | link {links : Nat} {location start target : Location} {part path : String}
      {parts : List String} (ne_here : part ≠ Path.here) (ne_above : part ≠ Path.above)
      (looks : disk.look location part = .ok (some (.link path)))
      (starts : bounds.start location path = .ok start)
      (rest : Leads disk bounds links start (Path.stages path ++ parts) target) :
      Leads disk bounds (links + 1) location (part :: parts) target

section

variable {disk : Disk} {bounds : Bounds} {links : Nat} {location target : Location}
  {part : String} {parts : List String}

@[simp]
theorem walkLinks_nil (mayMiss : Bool) :
    disk.walkLinks bounds mayMiss links location [] = .ok location := by
  cases links <;> rfl

/-- The next part of a path that must not miss anything. -/
theorem walkLinks_cons :
    disk.walkLinks bounds false links location (part :: parts) = (do
      disk.requireSearch location
      if part = Path.here then disk.walkLinks bounds false links location parts
      else if part = Path.above then
        disk.walkLinks bounds false links (← bounds.above location) parts
      else
        match ← disk.look location part with
        | some (.link path) => do
            let start ← bounds.start location path
            match links with
            | 0 => .error .tooManyLinks
            | links + 1 => disk.walkLinks bounds false links start (Path.stages path ++ parts)
        | some .directory | some (.file ..) =>
            disk.walkLinks bounds false links (part :: location) parts
        | none => .error .notFound) := by
  cases links <;> rfl

/-- What is followed to its end leads there. -/
theorem leads_of_walkLinks_eq_ok
    (h : disk.walkLinks bounds false links location parts = .ok target) :
    disk.Leads bounds links location parts target := by
  -- a link costs one of the links, any other part one of the parts
  induction links using Nat.strongRecOn generalizing location parts with
  | ind links ihLinks =>
  induction parts generalizing location with
  | nil =>
      obtain rfl : location = target := by simpa using h
      exact .done links location
  | cons part parts ih =>
      rw [walkLinks_cons, bind_eq_ok_iff] at h
      obtain ⟨_, hsearch, hpart⟩ := h
      by_cases hhere : part = Path.here
      · rw [if_pos hhere] at hpart
        subst hhere
        exact .here hsearch (ih hpart)
      rw [if_neg hhere] at hpart
      by_cases habove : part = Path.above
      · rw [if_pos habove] at hpart
        subst habove
        obtain ⟨up, hup, hrest⟩ := bind_eq_ok_iff.mp hpart
        exact .above hsearch hup (ih hrest)
      rw [if_neg habove] at hpart
      obtain ⟨found, hlook, hfound⟩ := bind_eq_ok_iff.mp hpart
      cases found with
      | none => cases hfound
      | some entry =>
          cases entry with
          | directory => exact .entry hhere habove hlook (by simp) (ih hfound)
          | file id content => exact .entry hhere habove hlook (by simp) (ih hfound)
          | link path =>
              obtain ⟨start, hstart, hrest⟩ := bind_eq_ok_iff.mp hfound
              cases links with
              | zero => cases hrest
              | succ links =>
                  exact .link hhere habove hlook hstart (ihLinks links (Nat.lt_succ_self links) hrest)

theorem Leads.walkLinks_eq (h : disk.Leads bounds links location parts target) :
    disk.walkLinks bounds false links location parts = .ok target := by
  induction h with
  | done links location => exact walkLinks_nil false
  | here search rest ih => simp [walkLinks_cons, search, ih, bind, Except.bind]
  | above search goesUp rest ih =>
      have hne : Path.above ≠ Path.here := by decide
      simp [walkLinks_cons, search, goesUp, hne, ih, bind, Except.bind]
  | @entry _ _ _ _ _ found ne_here ne_above looks not_link rest ih =>
      have hsearch := (of_look_eq_ok looks).1
      cases found with
      | link path => exact absurd rfl (not_link path)
      | directory | file _ _ =>
          simp [walkLinks_cons, hsearch, ne_here, ne_above, looks, ih, bind, Except.bind]
  | link ne_here ne_above looks starts rest ih =>
      have hsearch := (of_look_eq_ok looks).1
      simp [walkLinks_cons, hsearch, ne_here, ne_above, looks, starts, ih, bind, Except.bind]

/-- Walking and leading are one. -/
theorem walk_eq_ok_iff :
    disk.walk bounds false location parts = .ok target ↔
      disk.Leads bounds mostLinks location parts target :=
  ⟨leads_of_walkLinks_eq_ok, Leads.walkLinks_eq⟩

namespace Leads

/-- A beginning of what leads somewhere leads somewhere, and the rest leads on from
there. -/
theorem split {first second : List String}
    (h : disk.Leads bounds links location (first ++ second) target) :
    ∃ middle fewer, fewer ≤ links ∧ disk.Leads bounds links location first middle ∧
      disk.Leads bounds fewer middle second target := by
  generalize hparts : first ++ second = parts at h
  induction h generalizing first with
  | done links location =>
      obtain ⟨rfl, rfl⟩ := List.append_eq_nil_iff.mp hparts
      exact ⟨location, links, Nat.le_refl _, .done links location, .done links location⟩
  | here search rest ih =>
      rcases List.append_eq_cons_iff.mp hparts with ⟨rfl, rfl⟩ | ⟨first, rfl, rfl⟩
      · exact ⟨_, _, Nat.le_refl _, .done _ _, .here search rest⟩
      · obtain ⟨middle, fewer, hfewer, hfirst, hsecond⟩ := ih rfl
        exact ⟨middle, fewer, hfewer, .here search hfirst, hsecond⟩
  | above search goesUp rest ih =>
      rcases List.append_eq_cons_iff.mp hparts with ⟨rfl, rfl⟩ | ⟨first, rfl, rfl⟩
      · exact ⟨_, _, Nat.le_refl _, .done _ _, .above search goesUp rest⟩
      · obtain ⟨middle, fewer, hfewer, hfirst, hsecond⟩ := ih rfl
        exact ⟨middle, fewer, hfewer, .above search goesUp hfirst, hsecond⟩
  | entry ne_here ne_above looks not_link rest ih =>
      rcases List.append_eq_cons_iff.mp hparts with ⟨rfl, rfl⟩ | ⟨first, rfl, rfl⟩
      · exact ⟨_, _, Nat.le_refl _, .done _ _, .entry ne_here ne_above looks not_link rest⟩
      · obtain ⟨middle, fewer, hfewer, hfirst, hsecond⟩ := ih rfl
        exact ⟨middle, fewer, hfewer, .entry ne_here ne_above looks not_link hfirst, hsecond⟩
  | link ne_here ne_above looks starts rest ih =>
      rcases List.append_eq_cons_iff.mp hparts with ⟨rfl, rfl⟩ | ⟨first, rfl, rfl⟩
      · exact ⟨_, _, Nat.le_refl _, .done _ _, .link ne_here ne_above looks starts rest⟩
      · obtain ⟨middle, fewer, hfewer, hfirst, hsecond⟩ := ih (List.append_assoc _ _ _)
        exact ⟨middle, fewer, Nat.le_succ_of_le hfewer, .link ne_here ne_above looks starts hfirst,
          hsecond⟩

/-- A part behind what leads somewhere leads to what is there under its name. -/
theorem concat {last : String} {found : Entry}
    (h : disk.Leads bounds links location parts target) (hhere : last ≠ Path.here)
    (habove : last ≠ Path.above) (hlook : disk.look target last = .ok (some found))
    (hlink : ∀ path, found ≠ .link path) :
    disk.Leads bounds links location (parts ++ [last]) (last :: target) := by
  induction h with
  | done links location => exact .entry hhere habove hlook hlink (.done _ _)
  | here search rest ih => exact .here search (ih hlook)
  | above search goesUp rest ih => exact .above search goesUp (ih hlook)
  | entry ne_here ne_above looks not_link rest ih =>
      exact .entry ne_here ne_above looks not_link (ih hlook)
  | link ne_here ne_above looks starts rest ih =>
      have hrest := ih hlook
      rw [List.append_assoc] at hrest
      exact .link ne_here ne_above looks starts hrest

/-- Whatever follows is looked up in a directory. -/
theorem requireSearch (h : disk.Leads bounds links location parts target) (hparts : parts ≠ []) :
    disk.requireSearch location = .ok () := by
  cases h with
  | done => exact absurd rfl hparts
  | here search _ => exact search
  | above search _ _ => exact search
  | entry _ _ looks _ _ => exact (of_look_eq_ok looks).1
  | link _ _ looks _ _ => exact (of_look_eq_ok looks).1

end Leads

end

end Wiring.Disk
