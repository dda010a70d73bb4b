import TwoStage.Command.Needs

/-!
# The program

What a command looks at is taken from the machine, the command is carried out on that, and the files
that it has changed are written back.
-/

namespace TwoStage.Program

def textOf (place : Location) : String := (Path.ofLocation place).text

/-- The place without links that a path leads to, if it leads anywhere. -/
def realPlace? (place : Location) : IO (Option Location) := do
  match ← (IO.FS.realPath (textOf place)).toBaseIO with
  | .ok real => return some (((Path.ofString (toString real)).segments).filter (· ≠ []))
  | .error _ => return none

/-- A file or a directory. No command asks for the permissions of a file. -/
def nodeAt (place : Location) : IO FileNode := do
  match ← (IO.FS.readBinFile (textOf place)).toBaseIO with
  | .ok contents => return .file contents 0
  | .error _     => return .directory Files.directoryMode

/-- Take note of a place and of the directories above it. -/
def inspect (fs : Files) (place : Location) : IO Files := do
  let mut fs := fs
  for above in (List.range place.length).map place.take do
    if (fs.node? above).isNone then
      fs := fs.put above (.directory Files.directoryMode)
  if (fs.node? place).isNone then
    fs := fs.put place (← nodeAt place)
  return fs

/-- Take note of what is along a path. -/
def follow (fs : Files) (origin : Location) (steps : List Step) : IO Files := do
  let mut fs := fs
  let mut place := origin
  for step in steps do
    match step with
    | .stay      => pure ()
    | .up        => place := place.dropLast
    | .down name =>
      let next := place ++ [name]
      match ← realPlace? next with
      | none      => return fs
      | some real =>
        if real ≠ next && (fs.node? next).isNone then
          fs := fs.put next (.link (Path.ofLocation real))
        fs ← inspect fs real
        place := real
  return fs

/-- Take note of what a command needs. -/
def gather (host : Host) (needs : Needs) : IO Host := do
  let mut files := host.files
  for path in needs.paths do
    files ← follow files (files.start path) path.steps
  let mut vars := host.vars
  for name in needs.names do
    if (vars.lookup name).isNone then
      if let some value ← IO.getEnv name then
        vars := (name, value) :: vars
  return { host with files, vars }

/-- The rights that permissions give to one of three groups. -/
def rightsOf (mode shift : Nat) : IO.AccessRight where
  read      := (mode >>> shift) &&& 4 ≠ 0
  write     := (mode >>> shift) &&& 2 ≠ 0
  execution := (mode >>> shift) &&& 1 ≠ 0

def writeFile (place : Location) (contents : ByteArray) (mode : Nat) : IO Unit := do
  let path := textOf place
  let fresh := path ++ ".stagecraft-new"
  IO.FS.writeBinFile fresh ByteArray.empty
  IO.setAccessRights fresh ⟨rightsOf mode 6, rightsOf mode 3, rightsOf mode 0⟩
  IO.FS.writeBinFile fresh contents
  IO.FS.rename fresh path

/-- Write back what has changed. -/
def writeBack (before after : Files) : IO Unit := do
  for (place, node) in after.entries do
    if before.node? place ≠ some node then
      match node with
      | .directory _        => IO.FS.createDirAll (textOf place)
      | .file contents mode => writeFile place contents mode
      | .link _             => pure ()

/-- How often new needs can turn up: the document, its variables, its keys, its artifacts. -/
def rounds : Nat := 5

/-- Carry out a command line. -/
def run (words : List String) : IO UInt32 := do
  let here := (Path.ofString (toString (← IO.currentDir))).segments.filter (· ≠ [])
  let secret ← IO.getRandomBytes 32
  let start : Host :=
    { vars := []
      files := ← inspect ⟨[], here⟩ here
      generator := Generator.ofSecret secret.toList
      terminal := ← (← IO.getStdout).isTty }
  let mut host := start
  for _ in List.range rounds do
    host ← gather host (Needs.ofArguments host words)
  let ending := Command.runArguments host words
  writeBack host.files ending.files
  IO.print ending.printed
  IO.eprint ending.told
  return UInt32.ofNat ending.code

end TwoStage.Program

def main (args : List String) : IO UInt32 := TwoStage.Program.run args
