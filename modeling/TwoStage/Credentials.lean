import TwoStage.Context
import TwoStage.Generator
import TwoStage.Merge

/-!
# The keys of users

Every user of the SSH settings in effect gets files for the keys that let in. A public key and a
private key are looked up independently of each other; the public half of a private key is let in as
well. A user with neither gets a new pair, unless a pair of an earlier run is still there.
-/

namespace TwoStage

/-- Where the files of a project are seen in its images. -/
def containerRoot : String := "/stagecraft"

/-- The directory of generated files in the directory of a stage. -/
def generatedName : String := "generated"

def Stage.generatedDir (stage : Stage) : Path := (Path.ofString stage.label).child generatedName

/-- Where a key was found. -/
inductive KeyOrigin
  | text
  | file (path : Path)
  | discovered (path : Path)
  | derived (origin : KeyOrigin)
  | generated
  | reused (path : Path)
deriving DecidableEq, Repr

/-- A file with a key, by its path in the project. -/
structure KeyFile where
  path : Path
  contents : String
  origin : KeyOrigin
deriving DecidableEq, Repr

def Component.text : Component → String
  | .root    => "/"
  | .current => "."
  | .parent  => ".."
  | .name s  => String.ofList s

/-- Where a path of the project is seen in an image. -/
def Path.inContainer (p : Path) : String :=
  containerRoot ++ String.join (p.components.map fun c => "/" ++ c.text)

/-- A user with the files of all keys. -/
structure KeyedUser where
  name : String
  password? : Option String
  uid? : Option Nat
  gid? : Option Nat
  /-- The keys that let in. -/
  authorized : List KeyFile
  /-- The private key that is installed in the image. -/
  privateKey? : Option KeyFile
  /-- The private half of a new pair, which stays on the host. -/
  hostKey? : Option KeyFile
deriving DecidableEq, Repr

def KeyedUser.files (u : KeyedUser) : List KeyFile :=
  u.authorized ++ u.privateKey?.toList ++ u.hostKey?.toList

/-- The users with their keys, and the comments for which new pairs were asked. -/
structure Credentials where
  users : List KeyedUser
  requests : List String
deriving DecidableEq, Repr

namespace Credentials

/-! ### Reading -/

/-- The names of key files that are looked for, in this order. -/
def discoveryNames : List String := ["id_rsa", "id_dsa", "id_ecdsa", "id_ed25519"]

/-- The path that asks to look for a key file. -/
def discoveryToken : String := "~"

/-- A key found, and where. -/
abbrev Found := String × KeyOrigin

/-- The text of a key on a line of its own. -/
def tidy (text : String) : String := Key.withLineFeed (Text.trim text)

/-- The text of a file that is there. -/
def readFile (ctx : Context) (path : Path) : Outcome String :=
  (ctx.files.readText path).mapError fun _ => .readFailed path

/-- The tidy text of a file. -/
def readTidy (ctx : Context) (path : Path) (origin : KeyOrigin) : Outcome Found := do
  return (tidy (← readFile ctx path), origin)

/-- The directory in which key files are looked for. -/
def discoveryDir (ctx : Context) (user : String) (half : KeyHalf) : Outcome Path :=
  match ctx.sshDir? with
  | some dir => .ok dir
  | none     => .error (.keyFileNotFound user half (Path.ofString "~/.ssh"))

/-- The file that a path in the document means. -/
def existingFile (ctx : Context) (user raw : String) (half : KeyHalf) : Outcome Path :=
  match ctx.userPath? raw with
  | none      => .error (.keyFileNotFound user half (Path.ofString raw))
  | some path =>
    if ctx.files.hasFile path then .ok path else .error (.keyFileNotFound user half path)

/-- The public half of the first private key that is not encrypted. -/
def deriveFirst (ctx : Context) (user : String) : List Path → Outcome (Option Found)
  | []            => .ok none
  | path :: paths =>
    if ctx.files.hasFile path then do
      match ← Key.derive user (← readFile ctx path) with
      | some key => return some (key, .derived (.discovered path))
      | none     => deriveFirst ctx user paths
    else deriveFirst ctx user paths

/-- Look for a public key, or else for a private key to take its public half. -/
def discoverPublic (ctx : Context) (user : String) : Outcome Found := do
  let dir ← discoveryDir ctx user .publicKey
  let candidates := discoveryNames.map fun name => dir.child (name ++ ".pub")
  match candidates.find? ctx.files.hasFile with
  | some path => readTidy ctx path (.discovered path)
  | none      =>
    match ← deriveFirst ctx user (discoveryNames.map dir.child) with
    | some found => return found
    | none       => throw (.keyFileNotFound user .publicKey (dir.child "id_*.pub"))

/-- Look for a private key. -/
def discoverPrivate (ctx : Context) (user : String) : Outcome Found := do
  let dir ← discoveryDir ctx user .privateKey
  match (discoveryNames.map dir.child).find? ctx.files.hasFile with
  | some path => readTidy ctx path (.discovered path)
  | none      => throw (.keyFileNotFound user .privateKey (dir.child "id_*"))

/-- Look for one half of a key. -/
def discover (ctx : Context) (user : String) : KeyHalf → Outcome Found
  | .publicKey  => discoverPublic ctx user
  | .privateKey => discoverPrivate ctx user

/-- The key that a source gives, if it gives one. -/
def readSource (ctx : Context) (user : String) (half : KeyHalf) :
    KeySource → Outcome (Option Found)
  | .absent   => .ok none
  | .text key => .ok (some (tidy key, .text))
  | .file raw =>
    if raw = discoveryToken then (discover ctx user half).map some
    else do
      let path ← existingFile ctx user raw half
      return some (← readTidy ctx path (.file path))

/-! ### New pairs -/

def generatedKeyName : String := "generated_ed25519"

/-- A pair of an earlier run, if it can still be read. -/
def stored? (ctx : Context) (path : Path) : Option KeyPair :=
  match ctx.files.readText path with
  | .ok text => (Key.storedHalf? text).map fun publicText => ⟨text, publicText⟩
  | .error _ => none

/-- A pair for a user without keys, where it comes from, and the comment for which it was asked. -/
def freshPair (ctx : Context) (generator : Generator) (path : Path) (user comment : String) :
    Outcome (KeyPair × KeyOrigin × List String) :=
  match stored? ctx path with
  | some pair => .ok (pair, .reused path, [])
  | none      =>
    match generator comment with
    | .ok pair      => .ok (pair, .generated, [comment])
    | .error reason => .error (.keyGeneration user reason)

/-! ### Users -/

def keyDir (stage : Stage) (user : String) : Path := (stage.generatedDir.child "ssh").child user

/-- Where a new private key of an earlier run would be. -/
def storedPath (ctx : Context) (stage : Stage) (user : String) : Path :=
  (ctx.projectDir.join (keyDir stage user)).child generatedKeyName

/-- The file for the public key that a source gives. -/
def publicFile (ctx : Context) (dir : Path) (u : User) : Outcome (List KeyFile) := do
  match ← readSource ctx u.name .publicKey u.publicKey with
  | none                    => return []
  | some (contents, origin) => return [⟨dir.child "pubkey.pub", contents, origin⟩]

/-- The files for the private key that a source gives: its public half, and itself. -/
def privateFiles (ctx : Context) (dir : Path) (u : User) :
    Outcome (List KeyFile × Option KeyFile) := do
  match ← readSource ctx u.name .privateKey u.privateKey with
  | none                    => return ([], none)
  | some (contents, origin) =>
    let half := (← Key.derive u.name contents).map fun key =>
      (⟨dir.child "privkey.pub", key, .derived origin⟩ : KeyFile)
    return (half.toList, some ⟨dir.child "privkey", contents, origin⟩)

/-- The files for a new pair, and the comment for which it was asked. -/
def freshFiles (ctx : Context) (generator : Generator) (stage : Stage) (dir : Path) (u : User) :
    Outcome (List KeyFile × Option KeyFile × List String) := do
  if !(u.publicKey.isAbsent && u.privateKey.isAbsent) then return ([], none, [])
  let (pair, origin, requests) ←
    freshPair ctx generator (storedPath ctx stage u.name) u.name (u.name ++ "@" ++ stage.label)
  return ([⟨dir.child (generatedKeyName ++ ".pub"), pair.publicText, origin⟩],
    some ⟨dir.child generatedKeyName, pair.privateText, origin⟩, requests)

/-- The files of one user, and the comment for which a pair was asked. -/
def resolveUser (ctx : Context) (generator : Generator) (stage : Stage) (u : User) :
    Outcome (KeyedUser × List String) := do
  let dir := keyDir stage u.name
  let given ← publicFile ctx dir u
  let (half, privateKey?) ← privateFiles ctx dir u
  let (fresh, hostKey?, requests) ← freshFiles ctx generator stage dir u
  return (⟨u.name, u.password?, u.uid?, u.gid?, given ++ half ++ fresh, privateKey?, hostKey?⟩,
    requests)

/-- The files of one user, who has to have a way to log in. -/
def checkAndResolve (ctx : Context) (generator : Generator) (stage : Stage) (u : User) :
    Outcome (KeyedUser × List String) :=
  if u.hasLoginMethod then resolveUser ctx generator stage u
  else
    .error (.schema (FieldPath.below (FieldPath.below (stage.path "ssh") "users") u.name)
      (.noLoginMethod u.name))

/-- The files of all users, in the order of the document. -/
def resolve (ctx : Context) (generator : Generator) (ssh : InstalledSsh) : Outcome Credentials := do
  let resolved ← ssh.settings.users.mapM (checkAndResolve ctx generator ssh.stage)
  return ⟨resolved.map Prod.fst, resolved.flatMap Prod.snd⟩

/-- The users before the first one whose keys cannot be resolved. -/
def reached (ctx : Context) (generator : Generator) (stage : Stage) : List User → List KeyedUser
  | []      => []
  | u :: us =>
    match checkAndResolve ctx generator stage u with
    | .ok (keyed, _) => keyed :: reached ctx generator stage us
    | .error _       => []

end Credentials

/-- The private key of the user is encrypted, so that its public half is not known. -/
def KeyedUser.hasEncryptedKey (u : KeyedUser) : Bool :=
  u.privateKey?.any fun key => !u.authorized.any fun half => half.origin = .derived key.origin

end TwoStage
