/-!
# Events and faults

What a run reports while it works: a level, a message, and named values as text. And what
can go wrong when text is delivered or a file is touched; the faults of the operating
system carry its own wording and number.
-/

namespace Wiring

/-! ## Log events -/

/-- How much an event matters. -/
inductive Level where
  /-- Of interest when looking for a problem. -/
  | debug
  /-- A step that went well. -/
  | info
  /-- A step that failed. -/
  | warn
  /-- What was asked for as a whole failed. -/
  | error
deriving DecidableEq, Repr, Inhabited

/-- One report. -/
structure Event where
  /-- How much it matters. -/
  level : Level
  /-- What happened. -/
  message : String
  /-- The values that belong to it. -/
  fields : List (String × String)
deriving DecidableEq, Repr, Inhabited

/-! ## Faults of sinks and files -/

/-- Why a sink or the file system refused. -/
inductive SystemFault where
  /-- There is nothing under that name. -/
  | notFound
  /-- There is something under that name already. -/
  | alreadyExists
  /-- A part of the path is no directory. -/
  | notDirectory
  /-- The path names a directory. -/
  | isDirectory
  /-- The path names something in use. -/
  | busy
  /-- The path names a directory that holds something. -/
  | notEmpty
  /-- The path cannot be a path. -/
  | invalidArgument
  /-- A part of the path, or the whole path, is too long. -/
  | nameTooLong
  /-- The path leads through more links than are followed. -/
  | tooManyLinks
  /-- Whoever asks has not the right to. -/
  | denied
  /-- The path leaves the directory it should stay in. -/
  | outside
  /-- The path contains a character that ends it. -/
  | zeroInName
  /-- The file does not hold text. -/
  | notText
  /-- The metadata path names no file. -/
  | noFileName
  /-- The sink was released before. -/
  | released
  /-- The sink was closed before. -/
  | closed
  /-- Any other reason, in its own words. -/
  | other (text : String)
deriving DecidableEq, Repr, Inhabited

/-- The wording of a fault. -/
def SystemFault.message : SystemFault → String
  | notFound => "No such file or directory (os error 2)"
  | alreadyExists => "File exists (os error 17)"
  | notDirectory => "Not a directory (os error 20)"
  | isDirectory => "Is a directory (os error 21)"
  | busy => "Device or resource busy (os error 16)"
  | notEmpty => "Directory not empty (os error 39)"
  | invalidArgument => "Invalid argument (os error 22)"
  | nameTooLong => "File name too long (os error 36)"
  | tooManyLinks => "Too many levels of symbolic links (os error 40)"
  | denied => "Permission denied (os error 13)"
  | outside => "a path led outside of the filesystem"
  | zeroInName => "file name contained an unexpected NUL byte"
  | notText => "stream did not contain valid UTF-8"
  | noFileName => "metadata path has no file name"
  | released => "sink already released"
  | closed => "sink already closed"
  | other text => text

/-! ## Steps that may fail -/

theorem bind_eq_ok_iff {ε α β : Type} {first : Except ε α} {second : α → Except ε β} {result : β} :
    first >>= second = .ok result ↔ ∃ value, first = .ok value ∧ second value = .ok result := by
  cases first with
  | error fault => simp [bind, Except.bind]
  | ok value => simp [bind, Except.bind]

theorem eq_ok_of_toOption {ε α : Type} {result : Except ε α} {value : α}
    (h : result.toOption = some value) : result = .ok value := by
  cases result with
  | error fault => cases h
  | ok found => exact congrArg Except.ok (Option.some.inj h)

end Wiring
