import DiskKeys.Command.Agent

/-! # The program

    The program runs the command that its arguments name.  What the command
    may look at is loaded into a file tree, the command runs on the tree,
    and what it changed there is changed in the file system: so all that is
    decided is decided by definitions that know no file system.  Notices and
    sockets are not loaded.  Of the agent the program only tells whether it
    can start. -/

namespace DiskKeys.Program

/-! ## What a command looks at -/

/-- The paths that a command reads. -/
def inputs : FileCommand → List Path
  | .split blob _ _ => [blob]
  | .combine bootKey rootKey _ => [bootKey, rootKey]
  | .extract archive _ => [archive]
  | .list archive _ => [archive]
  | .pack _ inputs => inputs

/-- The directories in which a command writes. -/
def homes : FileCommand → List Path
  | .split _ bootKey rootKey => [FileTree.homeOf bootKey, FileTree.homeOf rootKey]
  | .combine _ _ output => [FileTree.homeOf output]
  | .extract _ dir => [dir]
  | .list _ _ => []
  | .pack output _ => [FileTree.homeOf output]

/-! ## Between the file system and a tree -/

/-- A location as the system spells it. -/
def spelling (loc : Location) : String :=
  (Path.mk (loc.flatMap (Path.slash :: ·))).display

/-- The bytes of a file. -/
def contents (loc : Location) : IO Bytes := do
  return (← IO.FS.readBinFile (spelling loc)).toList

/-- What is at a location, and the names in it if it is a directory. -/
def look (loc : Location) (read : Location → IO Bytes) : IO (Option (Node × List Name)) := do
  let found := (← IO.currentDir) / spelling loc
  if ← found.isDir then
    let names := (← found.readDir).toList.map fun entry => Text.Utf8.encode entry.fileName
    return some (.directory, names)
  else if ← found.pathExists then return some (.file FileTree.plainMode (← read loc), [])
  else return none

/-- Loads what is at a location. -/
def loadNode (t : FileTree) (loc : Location) (read : Location → IO Bytes) : IO FileTree := do
  match ← look loc read with
  | some (node, _) => return t.put loc node
  | none => return t

/-- Loads what a path leads to, and what is on the way. -/
def load (t : FileTree) (p : Path) : IO FileTree := do
  let mut t := t
  let mut loc := t.origin p
  for name in p.steps do
    loc :=
      if name = Path.here then loc
      else if name = Path.above then loc.dropLast
      else loc ++ [name]
    t ← loadNode t loc contents
  return t

/-- Loads a directory with what is in it; the files there count as
    empty. -/
def loadHome (t : FileTree) (p : Path) : IO FileTree := do
  let t ← load t p
  match t.resolve p with
  | .ok (loc, .directory) =>
      match ← look loc contents with
      | some (_, names) =>
          let missing := (names.map fun name => loc ++ [name]).filter fun loc =>
            (t.node? loc).isNone
          missing.foldlM (fun t loc => loadNode t loc fun _ => return []) t
      | none => return t
  | _ => return t

/-- The tree with the working directory and nothing else. -/
def start : IO FileTree := do
  let cwd := (Path.ofString (← IO.currentDir).toString).steps
  let above := (List.range cwd.length).map fun n => (cwd.take (n + 1), Node.directory)
  return ⟨above, cwd⟩

/-- Gives a secret its place by a rename, so that what was there is whole
    until then. -/
def saveSecret (t : FileTree) (loc : Location) (secret : Bytes) : IO Unit := do
  let home := loc.dropLast
  match t.freshName? home with
  | none => throw (.userError Fault.noFreshName.message)
  | some name =>
      let draft := spelling (home ++ [name])
      let handle ← IO.FS.Handle.mk draft .writeNew
      try
        IO.setAccessRights draft ⟨⟨true, true, false⟩, {}, {}⟩
        handle.write ⟨secret.toArray⟩
        handle.flush
        IO.setAccessRights draft ⟨⟨true, false, false⟩, {}, {}⟩
        IO.FS.rename draft (spelling loc)
      catch e =>
        IO.FS.removeFile draft
        throw e

/-- Changes the file system as a tree has been changed, directories
    first. -/
def save (before after : FileTree) : IO Unit := do
  let changed := after.entries.filter fun e => before.node? e.1 ≠ some e.2
  for (loc, node) in changed.mergeSort fun x y => x.1.length ≤ y.1.length do
    match node with
    | .directory => IO.FS.createDir (spelling loc)
    | .file _ secret => saveSecret after loc secret
    | .socket _ => return

/-! ## Saying what happened -/

/-- The name of a log level. -/
def levelName : LogLevel → String
  | .error => "ERROR"
  | .warn => "WARN"
  | .info => "INFO"
  | .debug => "DEBUG"

/-- Writes a log line, unless it is only for those who ask for it. -/
def tell (line : LogLine) : IO Unit := do
  if line.level.isShown then IO.eprintln s!"[{levelName line.level}] {line.text}"

/-- Writes why a command failed. -/
def complain : List String → IO Unit
  | [] => return
  | failure :: causes => do
      IO.eprintln s!"Error: {failure}"
      unless causes.isEmpty do IO.eprintln "\nCaused by:"
      for cause in causes do IO.eprintln s!"    {cause}"

/-- How the program is called. -/
def usageText : String :=
  "usage: cvm-unlock split --boot-key PATH --root-key PATH BLOB\n" ++
  "       cvm-unlock combine --boot-key PATH --root-key PATH OUT\n" ++
  "       cvm-unlock extract ARCHIVE (DIR | --list)\n" ++
  "       cvm-unlock pack OUT FILE...\n" ++
  "       cvm-unlock password-agent BOOT-KEY ROOT-KEY [--config PATH]\n"

/-- What is wrong with a command line. -/
def usageMessage : UsageError → String
  | .displayHelp => "help was asked for"
  | .displayVersion => "the version was asked for"
  | .noArguments => "a command is missing"
  | .invalidCommand => "there is no such command"
  | .missingArgument => "an argument is missing"
  | .unknownArgument => "an argument is not known"
  | .invalidValue => "a value is missing or empty"
  | .repeatedArgument => "an option comes twice"
  | .unneededValue => "a flag takes no value"

/-! ## Running -/

/-- Answers a command line that is not run. -/
def reject (e : UsageError) : IO UInt32 := do
  match e with
  | .displayHelp => IO.print usageText
  | .displayVersion => IO.print versionText
  | e =>
      IO.eprintln s!"error: {usageMessage e}"
      IO.eprint usageText
  return .ofNat e.exitStatus

/-- Runs a command on files. -/
def runFiles (command : FileCommand) : IO UInt32 := do
  let t ← (inputs command).foldlM load (← start)
  let t ← (homes command).foldlM loadHome t
  -- what the device fails at shows when the tree is saved
  let o := command.run t fun _ => none
  save t o.tree
  IO.print o.stdout
  o.log.forM tell
  match o.result with
  | .ok () => return 0
  | .error e =>
      complain e.chain
      return 1

/-- Tells whether the agent can start. -/
def runAgent (bootKey rootKey : Path) (config : Option Path) : IO UInt32 := do
  let t ← config.toList.foldlM load (← start)
  let t ← match t.settingsAt config with
    | .ok settings => load t settings.askDir
    | .error _ => pure t
  (t.startRemarks bootKey rootKey config).forM tell
  let around := Surroundings.ofWorld ⟨t, [], (← IO.monoMsNow) * 1000⟩
  match around.startAgent bootKey rootKey config with
  | .error e => complain e.chain
  | .ok _ => complain ["password agent could not start", "no notices and sockets on this system"]
  return 1

/-- Runs the command that arguments name; what the system refuses beyond
    the faults of a file tree is reported in its own words. -/
def run (args : List String) : IO UInt32 := do
  let config := (← IO.getEnv "CVM_UNLOCK_CONFIG").map Text.Utf8.encode
  try
    match CommandLine.parse config (args.map Text.Utf8.encode) with
    | .error e => reject e
    | .ok (.files command) => runFiles command
    | .ok (.passwordAgent bootKey rootKey config) => runAgent bootKey rootKey config
  catch e =>
    complain [e.toString]
    return 1

end DiskKeys.Program

/-- Runs the command that the arguments name. -/
def main (args : List String) : IO UInt32 :=
  DiskKeys.Program.run args
