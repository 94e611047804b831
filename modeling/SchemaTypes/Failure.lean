import SchemaTypes.TypeTree.Basic

/-! # Failures

The reasons for which a run can fail, and what the user is told of each. Building types from schemas
is not among them: it always has a result.
-/

namespace SchemaTypes

inductive FileFault where
  | notFound
  | alreadyExists
  | notDirectory
  | isDirectory
  | nameTooLong
  | nulInName
  | tooManyLinks
  | notText
  /-- Anything else, in the words of the system. -/
  | other (words : String)
deriving DecidableEq

def FileFault.message : FileFault → String
  | notFound => "No such file or directory (os error 2)"
  | alreadyExists => "File exists (os error 17)"
  | notDirectory => "Not a directory (os error 20)"
  | isDirectory => "Is a directory (os error 21)"
  | nameTooLong => "File name too long (os error 36)"
  | nulInName => "file name contained an unexpected NUL byte"
  | tooManyLinks => "Too many levels of symbolic links (os error 40)"
  | notText => "stream did not contain valid UTF-8"
  | other words => words

inductive SettingsFault where
  | unreadable (fault : FileFault)
  /-- Not TOML, or a setting has a value of the wrong type. -/
  | malformed
deriving DecidableEq

inductive DocumentFault where
  | unreadable (fault : FileFault)
  /-- The source is an address on the network. -/
  | remote
  | notJson
  | notYaml
deriving DecidableEq

inductive VersionFault where
  | notMapping
  /-- There is no version; the flag tells that there is one of the format before. -/
  | missing (outdated : Bool)
  | unsupported (version : String)
  | notText
deriving DecidableEq

inductive Failure where
  | noInput
  | noOutput
  | workingDirectory (fault : FileFault)
  | settings (path : String) (fault : SettingsFault)
  | document (source : String) (fault : DocumentFault)
  | version (source : String) (fault : VersionFault)
  | primitive (name : String)
  | output (path : String) (fault : FileFault)
deriving DecidableEq

def SettingsFault.message : SettingsFault → String
  | unreadable fault => fault.message
  | malformed => "invalid TOML"

def DocumentFault.message (source : String) : DocumentFault → String
  | unreadable fault => "cannot read " ++ source ++ ": " ++ fault.message
  | remote => "cannot fetch " ++ source ++ ": built without the \u0060fetch\u0060 feature"
  | notJson => source ++ ": invalid JSON"
  | notYaml => source ++ ": invalid YAML"

def VersionFault.message : VersionFault → String
  | notMapping => "document root must be a mapping"
  | missing false => "missing 'openapi' key"
  | missing true => "missing 'openapi' key (Swagger 2.0 documents are not supported)"
  | unsupported version => "unsupported OpenAPI version " ++ version ++ ", expected 3.x"
  | notText => "'openapi' must be a version string"

namespace Failure

def message : Failure → String
  | noInput => "configuration error: input path is required"
  | noOutput => "configuration error: output path is required"
  | workingDirectory fault => "cannot determine working directory: " ++ fault.message
  | settings path fault => "failed to read config file " ++ path ++ ": " ++ fault.message
  | document source fault => "failed to parse OpenAPI document: " ++ fault.message source
  | version source fault => "invalid OpenAPI document: " ++ source ++ ": " ++ fault.message
  | primitive name =>
    "invalid primitive type: " ++ name ++ ". Valid types: " ++
      ", ".intercalate (Primitive.all.map Primitive.text)
  | output path fault => "failed to write " ++ path ++ ": " ++ fault.message

end Failure

def Primitive.named (name : String) : Except Failure Primitive :=
  match Primitive.ofText? name with
  | some primitive => .ok primitive
  | none => .error (.primitive name)

end SchemaTypes
