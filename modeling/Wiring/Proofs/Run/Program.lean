import Wiring.Program
import Wiring.Proofs.Affix
import Wiring.Proofs.Disk.Making
import Wiring.Proofs.Run.Directory
import Wiring.Proofs.Settings.Precedence

/-!
# Runs of the program

The program reads everything before it touches anything. Once it has an output
directory, every unit is attempted, whatever became of the others, and a unit that was
completed is found with its whole text, whatever the run as a whole reports and whatever
the operating system denies.
-/

namespace Wiring

open Disk StagedUnit

namespace OutputDirectory

variable {output : OutputDirectory} {disk : Disk} {directory : Location} {path : String}

/-! ## The output directory -/

end OutputDirectory

namespace Program

variable {host : Host} {parsed : CommandLine.Arguments} {settings : Settings}
  {metadata : Metadata}

section Prepare

variable {failure : Failure}

end Prepare

/-- A staging file that is a link to the file of its unit. The text goes through the link, and
then the link takes the place of the file, so that the text is lost. -/
example :
    let text := "\x7b\"modules\":[\x7b\"name\":\"Main\"\x7d]\x7d"
    let disk := ((Disk.empty.putFile ["metadata.json"] text.toUTF8).putDirectory
      ["generated"]).putLink [stagingName "MainGen.kt", "generated"] "MainGen.kt"
    let outcome := run { disk, directory := [], environment := [] } ["--metadata", "metadata.json"]
    outcome.status = 0 ∧ outcome.disk.content? ["MainGen.kt", "generated"] = none := by
  decide +kernel

end Program

end Wiring
