import TwoStage.Error
import TwoStage.Port

/-!
# Access by SSH

The SSH section of a stage: the port of the server and the users who may log in. A user logs in by
a password or by keys, which are given as files or as text; a section that is enabled has a user.
-/

namespace TwoStage

open Yaml Decimal

def maxPort : Nat := Nat.pow 2 16 - 1

/-- The largest number of a user or a group. -/
def maxId : Nat := Nat.pow 2 32 - 1

def natTree (n : Nat) : Tree := .int n

/-! ### As a document writes it -/

/-- A user as a document writes it. -/
structure UserSection where
  password? : Option String
  publicFile? : Option String
  publicText? : Option String
  privateFile? : Option String
  privateText? : Option String
  uid? : Option Nat
  gid? : Option Nat
deriving DecidableEq, Repr

namespace UserSection

def empty : UserSection := ⟨none, none, none, none, none, none, none⟩

def fields : List (Decode.Field UserSection) :=
  let text (name : String) (set : Option String → UserSection → UserSection) :=
    Decode.field name (Decode.optional Decode.text) set
  let number (name : String) (set : Option Nat → UserSection → UserSection) :=
    Decode.field name (Decode.optional (Decode.numeric maxId)) set
  [ text "password" fun v u => { u with password? := v },
    text "pubkey_file" fun v u => { u with publicFile? := v },
    text "pubkey_text" fun v u => { u with publicText? := v },
    text "privkey_file" fun v u => { u with privateFile? := v },
    text "privkey_text" fun v u => { u with privateText? := v },
    number "uid" fun v u => { u with uid? := v },
    number "gid" fun v u => { u with gid? := v } ]

def decode : Tree → Decoded UserSection :=
  Decode.record "SshUserSpec" true fields [] empty

def toTree (u : UserSection) : Tree :=
  .record (
    Tree.fieldIf "password" (u.password?.map .text) ++
    Tree.fieldIf "pubkey_file" (u.publicFile?.map .text) ++
    Tree.fieldIf "pubkey_text" (u.publicText?.map .text) ++
    Tree.fieldIf "privkey_file" (u.privateFile?.map .text) ++
    Tree.fieldIf "privkey_text" (u.privateText?.map .text) ++
    Tree.fieldIf "uid" (u.uid?.map natTree) ++
    Tree.fieldIf "gid" (u.gid?.map natTree))

end UserSection

/-- The SSH section as a document writes it. -/
structure SshSection where
  enabled : Bool
  port : Nat
  hostPort? : Option Nat
  users : OrderedMap String UserSection
deriving DecidableEq, Repr

namespace SshSection

/-- The port of a server that has none of its own. -/
def standardPort : Nat := 22

/-- A section without any field is enabled. -/
def empty : SshSection := ⟨true, standardPort, none, .empty⟩

def fields : List (Decode.Field SshSection) :=
  [ Decode.field "enable" Decode.boolean fun v s => { s with enabled := v },
    Decode.field "port" (Decode.numeric maxPort) fun v s => { s with port := v },
    Decode.field "host_port" (Decode.optional (Decode.numeric maxPort))
      fun v s => { s with hostPort? := v },
    Decode.field "users" (Decode.entries UserSection.decode) fun v s => { s with users := v } ]

def decode : Tree → Decoded SshSection := Decode.record "SshConfig" true fields [] empty

def toTree (s : SshSection) : Tree :=
  .record (
    [("enable", .bool s.enabled), ("port", natTree s.port)] ++
    Tree.fieldIf "host_port" (s.hostPort?.map natTree) ++
    Tree.fieldIf "users"
      (if s.users.isEmpty then none
      else some (.record (s.users.entries.map fun (name, u) => (name, u.toTree)))))

end SshSection

/-! ### Checked -/

/-- Where a key comes from. -/
inductive KeySource
  | file (path : String)
  | text (key : String)
  | absent
deriving DecidableEq, Repr

namespace KeySource

def isAbsent : KeySource → Bool
  | .absent => true
  | _       => false

/-- At most one of a file and a text. -/
def ofPair? : Option String → Option String → Option KeySource
  | some _,    some _   => none
  | some path, none     => some (.file path)
  | none,      some key => some (.text key)
  | none,      none     => some .absent

def toTree : KeySource → Tree
  | .file path => .tagged "file" (.text path)
  | .text key  => .tagged "text" (.text key)
  | .absent    => .text "absent"

end KeySource

/-- A user who can log in. -/
structure User where
  name : String
  password? : Option String
  publicKey : KeySource
  privateKey : KeySource
  uid? : Option Nat
  gid? : Option Nat
deriving DecidableEq, Repr

/-- A user's name starts with a letter or an underscore and goes on with letters, digits,
underscores, dots and dashes. -/
def isUserName : List Char → Bool
  | []      => false
  | c :: cs =>
    (c.isAlpha || c == '_') &&
      cs.all fun c => c.isAlphanum || c == '_' || c == '.' || c == '-'

namespace User

/-- There is a password or a key. -/
def hasLoginMethod (u : User) : Bool :=
  u.password?.isSome || !u.publicKey.isAbsent || !u.privateKey.isAbsent

def source (u : User) : KeyHalf → KeySource
  | .publicKey  => u.publicKey
  | .privateKey => u.privateKey

def ofSection (path name : String) (s : UserSection) : Outcome User := do
  if !isUserName name.toList then throw (.schema path (.badUserName name))
  let source (half : KeyHalf) (file text : Option String) : Outcome KeySource :=
    match KeySource.ofPair? file text with
    | some source => .ok source
    | none        => .error (.schema path (.twoSources name half))
  let publicKey ← source .publicKey s.publicFile? s.publicText?
  let privateKey ← source .privateKey s.privateFile? s.privateText?
  let user : User := ⟨name, s.password?, publicKey, privateKey, s.uid?, s.gid?⟩
  if user.hasLoginMethod then return user
  else throw (.schema path (.noLoginMethod name))

def toTree (u : User) : Tree :=
  .record (
    [("name", .text u.name)] ++
    Tree.fieldIf "password" (u.password?.map .text) ++
    [("pubkey", u.publicKey.toTree), ("privkey", u.privateKey.toTree)] ++
    Tree.fieldIf "uid" (u.uid?.map natTree) ++
    Tree.fieldIf "gid" (u.gid?.map natTree))

end User

structure Ssh where
  enabled : Bool
  port : Nat
  hostPort? : Option Nat
  users : List User
deriving DecidableEq, Repr

namespace Ssh

def ofSection (path : String) (s : SshSection) : Outcome Ssh := do
  let usersPath := FieldPath.below path "users"
  let users ← s.users.entries.mapM fun (name, u) =>
    User.ofSection (FieldPath.below usersPath name) name u
  if s.enabled && users.isEmpty then throw (.schema usersPath .noUsers)
  return ⟨s.enabled, s.port, s.hostPort?, users⟩

/-- The port that an enabled section publishes. -/
def portMapping (s : Ssh) : Option String :=
  if s.enabled then Port.mapping (s.hostPort?.map natText) (some (natText s.port)) else none

def treeFields (s : Ssh) : List (String × Tree) :=
  [("enable", .bool s.enabled), ("port", natTree s.port)] ++
    Tree.fieldIf "host_port" (s.hostPort?.map natTree) ++
    [("users", .sequence (s.users.map User.toTree))]

def toTree (s : Ssh) : Tree := .record s.treeFields

end Ssh

end TwoStage
