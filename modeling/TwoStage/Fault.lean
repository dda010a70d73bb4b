import TwoStage.Decimal.Numeral

/-!
# Faults of a declaration

What can be wrong with a declaration that has the right type. Every fault says in words what is
wrong and what would mend it.
-/

namespace TwoStage

open Decimal

inductive KeyHalf
  | publicKey
  | privateKey
deriving DecidableEq, Repr

/-- What the fields of a half are named by. -/
def KeyHalf.stem : KeyHalf → String
  | .publicKey  => "pubkey"
  | .privateKey => "privkey"

/-- The field for a path to the half. -/
def KeyHalf.fileField (h : KeyHalf) : String := h.stem ++ "_file"

/-- The field for the half itself. -/
def KeyHalf.textField (h : KeyHalf) : String := h.stem ++ "_text"

/-- The places of storage that have a name of their own. -/
def storageCategories : List String := ["app", "data", "workspace"]

/-- What is wrong with a declaration. -/
inductive Fault
  | noBaseStage
  | noBaseImage
  | unknownCategory (name : String)
  | severalEntryPoints (count : Nat)
  | noContainerPort (entry : String)
  | noAssignment (entry : String)
  | badVariableName (name : String)
  | valueNotScalar
  | badUserName (name : String)
  | twoSources (user : String) (half : KeyHalf)
  | noLoginMethod (user : String)
  | noUsers
  | uncheckedHostPath
  | noHome
  | templateNotMapping
  | noBuildValue
deriving DecidableEq, Repr

namespace Fault

def message : Fault → String
  | .noBaseStage              => "the base stage is missing"
  | .noBaseImage              => "the base stage needs a base image"
  | .unknownCategory name     => "'" ++ name ++ "' is not a storage category"
  | .severalEntryPoints count => natText count ++ " entry points declared"
  | .noContainerPort entry    => "port mapping '" ++ entry ++ "' has no container port"
  | .noAssignment entry       => "'" ++ entry ++ "' is not a KEY=VALUE assignment"
  | .badVariableName name     => "'" ++ name ++ "' is not a valid environment variable name"
  | .valueNotScalar           => "environment values must be scalars"
  | .badUserName name         => "'" ++ name ++ "' is not a valid user name"
  | .twoSources user half     =>
    "user '" ++ user ++ "' sets both " ++ half.fileField ++ " and " ++ half.textField
  | .noLoginMethod user       =>
    "user '" ++ user ++ "' has no password, public key or private key"
  | .noUsers                  => "ssh is enabled but declares no users"
  | .uncheckedHostPath        =>
    "host path uses a compose-time marker, which cannot be checked against the project directory"
  | .noHome                   => "cannot resolve ~ without HOME"
  | .templateNotMapping       => "the compose template is not a mapping"
  | .noBuildValue             =>
    "the rendered compose file lacks a value needed to build the stage"

def help : Fault → String
  | .noBaseStage          => "Add a stage_1 section with at least image.base"
  | .noBaseImage          => "Set stage_1.image.base, e.g. ubuntu:24.04"
  | .unknownCategory _    =>
    "Storage categories are " ++ ", ".intercalate storageCategories ++
      "; declare other volumes under mount"
  | .severalEntryPoints _ => "A stage can have at most one on_entry script"
  | .noContainerPort _    => "Write port mappings as HOST:CONTAINER or CONTAINER"
  | .noAssignment _       => "Write environment entries as KEY=VALUE"
  | .badVariableName _    => "Variable names must match [A-Za-z_][A-Za-z0-9_]*"
  | .valueNotScalar       => "Quote the value or flatten it into a string"
  | .badUserName _        =>
    "User names start with a letter or underscore and contain only letters, digits, " ++
      "'_', '.' and '-'"
  | .twoSources _ half    => "Keep only one of " ++ half.fileField ++ " and " ++ half.textField
  | .noLoginMethod _      =>
    "Set a password, or one of pubkey_file, pubkey_text, privkey_file, privkey_text"
  | .noUsers              =>
    "Add at least one user under ssh.users or set ssh.enable to false"
  | .uncheckedHostPath    => "Use a literal path or configure without --strict-host-paths"
  | .noHome               => "Use an absolute host path"
  | .templateNotMapping   => "The template must be a YAML mapping with an x-cfg section"
  | .noBuildValue         => "Check image.base and image.output of both stages"

end Fault

end TwoStage
