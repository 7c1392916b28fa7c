import Cadence.Text.Case
import Cadence.Validation.Field

/-!
# Build information

Name, version and platform of a build, as the program shows them.
-/

namespace Cadence

open Document Validation

structure BuildInfo where
  name : String := "TimeTools"
  version : String
  runtimeVersion : String
  platform : String
  deriving DecidableEq

namespace BuildInfo

def fullVersion (b : BuildInfo) : String :=
  b.name ++ " v" ++ b.version

def systemInfo (b : BuildInfo) : String :=
  "Python " ++ b.runtimeVersion ++ ", OS: " ++ b.platform

def check (fields : List (Value × Value)) : Checked BuildInfo :=
  (Checked.both (Field.optional fields "name" "TimeTools" Field.text) <|
    .both (Field.required fields "version" Field.text) <|
    .both (Field.required fields "python_version" Field.text)
      (Field.required fields "platform" Field.text)).map
    fun (name, version, runtimeVersion, platform) => { name, version, runtimeVersion, platform }

/-- A build never changes once it is made. -/
def assign (_ : BuildInfo) (field : String) : Checked BuildInfo :=
  .under (.name field) (.fail .frozen)

def unknownVersion : String := "0.0.0+unknown"

/-- Runs of hyphens, underscores and points in a name are one hyphen, and case does not count. -/
private def normalName : List Char → List Char
  | [] => []
  | c :: cs =>
    let rest := normalName cs
    if c = '-' ∨ c = '_' ∨ c = '.' then
      (if rest.head? = some '-' then rest else '-' :: rest)
    else c :: rest

/-- The versions of the distributions that are known to be installed. -/
def installed : List (String × String) := [("timetools", "1.0.0")]

def versionOf (distribution : String) : String :=
  (installed.lookup (String.ofList (normalName (Text.lower distribution.toList)))).getD
    unknownVersion

end BuildInfo

end Cadence
