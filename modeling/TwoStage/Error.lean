import TwoStage.Fault
import TwoStage.FieldPath
import TwoStage.Marker
import TwoStage.Path
import TwoStage.Yaml.Decode
import TwoStage.Yaml.Reader

/-!
# Errors

Every way in which a document fails to be compiled. An error names the place in the document that
has to be mended, and has a code, a message and, mostly, advice.
-/

namespace TwoStage

open Yaml

/-- Why a text has no typed value. -/
inductive DocumentError
  | unreadable (cause : ReadError)
  | illTyped (cause : DecodeError)
deriving Repr

/-- The wording of the errors that are not about a place in the text. -/
def DocumentError.message? : DocumentError → Option String
  | .unreadable cause => cause.message?
  | .illTyped cause   => some cause.message

/-- A field that some kind of storage cannot do without. -/
inductive StorageField
  | volumeName
  | hostPath
  | destination
deriving DecidableEq, Repr

def StorageField.name : StorageField → String
  | .volumeName  => "volume_name"
  | .hostPath    => "host_path"
  | .destination => "dst_path"

/-- The kind of storage that needs the field. -/
def StorageField.neededBy : StorageField → String
  | .volumeName  => "manual-volume"
  | .hostPath    => "host"
  | .destination => "mount"

/-- Where a text goes that compose never sees. -/
inductive Bakery
  | entryPoint
  | buildScript
  | lifecycleScript
  | bakedEnvironment
  | keyMaterial
deriving DecidableEq, Repr

/-- Why the text is not interpolated. -/
def Bakery.reason : Bakery → String
  | .entryPoint       =>
    "entry point paths and arguments are written to files read by the container"
  | .buildScript      => "build scripts run while the image is built, outside of compose"
  | .lifecycleScript  => "lifecycle scripts are written into generated wrapper scripts"
  | .bakedEnvironment => "bake_environment writes the value into the image"
  | .keyMaterial      => "key material is read and copied at configure time"

/-- Why a text is not taken for a private key. -/
inductive KeyError
  | malformed
  | notRsa
deriving DecidableEq, Repr

/-- The reason in words; faults inside an encoding are not told apart. -/
def KeyError.reason : KeyError → String
  | .malformed => "..."
  | .notRsa    => "only RSA keys are supported in PKCS#8 form"

/-- Why a document is not compiled. `unwritable` is a compose file that cannot be written. -/
inductive Error
  | notFoundInTree (start : Path)
  | invalidDocument (cause : DocumentError)
  | readFailed (file : Path)
  | writeFailed (file : Path)
  | schema (path : String) (fault : Fault)
  | malformedMarker (path : String) (cause : MarkerError)
  | unresolvedVariable (path name : String)
  | markerNotAllowed (path name : String) (bakery : Bakery)
  | markerInSingleArtifact (path name : String)
  | keyFileNotFound (user : String) (half : KeyHalf) (file : Path)
  | invalidPrivateKey (user : String) (cause : KeyError)
  | keyGeneration (user reason : String)
  | missingField (path : String) (field : StorageField)
  | hostPathEscapes (path : String) (host boundary : Path)
  | imageMountNotAllowed (path : String)
  | templateReference (path reference : String)
  | templateCycle (chain : List String)
  | unwritable
deriving Repr

namespace Error

def name : Error → String
  | .notFoundInTree _         => "not_found_in_tree"
  | .invalidDocument _        => "invalid_yaml"
  | .readFailed _             => "read_failed"
  | .writeFailed _            => "write_failed"
  | .schema ..                => "schema"
  | .malformedMarker ..       => "malformed_marker"
  | .unresolvedVariable ..    => "unresolved_variable"
  | .markerNotAllowed ..      => "compose_marker_not_allowed"
  | .markerInSingleArtifact ..  => "compose_marker_single_artifact"
  | .keyFileNotFound ..       => "key_file_not_found"
  | .invalidPrivateKey ..     => "invalid_private_key"
  | .keyGeneration ..         => "key_generation"
  | .missingField ..          => "missing_field"
  | .hostPathEscapes ..       => "host_path_escapes"
  | .imageMountNotAllowed _   => "image_mount_not_allowed"
  | .templateReference ..     => "template_reference"
  | .templateCycle _          => "template_cycle"
  | .unwritable               => "serialize_failed"

def code (e : Error) : String := "stagecraft::" ++ e.name

/-- The error in words; a fault of the text itself has none. -/
def message? : Error → Option String
  | .notFoundInTree start =>
    some ("No stagecraft.yaml found in " ++ start.shown ++ " or any parent directory")
  | .invalidDocument cause =>
    cause.message?.map fun m => "Invalid configuration document: " ++ m
  | .readFailed file => some ("Failed to read file: " ++ file.shown)
  | .writeFailed file => some ("Failed to write artifact: " ++ file.shown)
  | .schema path fault => some ("Invalid configuration at " ++ path ++ ": " ++ fault.message)
  | .malformedMarker path cause =>
    some ("Malformed variable marker at " ++ FieldPath.shown path ++ ": " ++ cause.message)
  | .unresolvedVariable path name =>
    some ("Unresolved variable " ++ Round.wrap .config name ++ " at " ++ FieldPath.shown path)
  | .markerNotAllowed path name bakery =>
    some ("Compose-time marker " ++ Round.wrap .compose name ++ " is not allowed at " ++ path ++
      ": " ++ bakery.reason)
  | .markerInSingleArtifact path name =>
    some ("Compose-time marker " ++ Round.wrap .compose name ++ " at " ++ path ++
      " cannot be used in single-artifact mode")
  | .keyFileNotFound user _ file =>
    some ("Key file for user '" ++ user ++ "' not found: " ++ file.shown)
  | .invalidPrivateKey user cause =>
    some ("Private key for user '" ++ user ++ "' could not be parsed: " ++ cause.reason)
  | .keyGeneration user reason =>
    some ("Failed to generate a key pair for user '" ++ user ++ "': " ++ reason)
  | .missingField path field =>
    some ("Storage declaration " ++ path ++ " is missing '" ++ field.name ++ "'")
  | .hostPathEscapes path host boundary =>
    some ("Host path " ++ host.shown ++ " at " ++ path ++ " escapes the project directory " ++
      boundary.shown)
  | .imageMountNotAllowed path => some ("Storage type 'image' is not allowed at " ++ path)
  | .templateReference path reference =>
    some ("Unknown template reference '" ++ reference ++ "' at " ++ path)
  | .templateCycle chain =>
    some ("Circular template reference: " ++ " -> ".intercalate chain)
  | .unwritable => some "Failed to serialize compose file"

/-- Advice on how to mend the document. -/
def help? : Error → Option String
  | .notFoundInTree _ => some "Create one with 'stagecraft init' or point at it with -f"
  | .invalidDocument _ => some "Check YAML syntax and that every field has the expected type"
  | .readFailed _ => none
  | .writeFailed _ => none
  | .schema _ fault => some fault.help
  | .malformedMarker .. =>
    some ("Markers look like " ++ Round.wrap .config "NAME" ++ ", " ++
      Round.wrap .config "NAME:-default" ++ ", " ++ Round.wrap .compose "NAME" ++ " or " ++
      Round.wrap .compose "NAME:-default" ++ ", where NAME matches [A-Za-z_][A-Za-z0-9_]*")
  | .unresolvedVariable _ name =>
    some ("Set the environment variable " ++ name ++
      " before configuring, give it a default with " ++ Round.wrap .config (name ++ ":-value") ++
      ", or use compose-time passthrough syntax " ++ Round.wrap .compose name ++
      " to let the compose runtime resolve it")
  | .markerNotAllowed _ name _ =>
    some ("This value is baked into a generated file and is never interpolated by compose. " ++
      "Use config-time syntax " ++ Round.wrap .config name ++
      " instead, or read the variable at runtime")
  | .markerInSingleArtifact _ name =>
    some ("The single-artifact output bypasses compose interpolation. Replace the marker with " ++
      Round.wrap .config name ++ " or configure without --single-artifact")
  | .keyFileNotFound _ half _ =>
    some ("Check the path in " ++ half.fileField ++
      "; '~' searches the ssh directory for id_rsa, id_dsa, id_ecdsa and id_ed25519")
  | .invalidPrivateKey .. =>
    some "Supply an OpenSSH-format key; convert older keys with 'ssh-keygen -p -f <key>'"
  | .keyGeneration .. => none
  | .missingField _ field =>
    some ("A " ++ field.neededBy ++ " declaration requires '" ++ field.name ++ "' to be set")
  | .hostPathEscapes .. =>
    some ("Use a path inside the project directory or configure without --strict-host-paths")
  | .imageMountNotAllowed _ =>
    some ("'image' storage is only valid for the stage storage categories app, data and workspace")
  | .templateReference .. => none
  | .templateCycle _ => none
  | .unwritable => none

end Error

/-- The outcome of a step of the compiler. -/
abbrev Outcome := Except Error

end TwoStage
