import DiskKeys.Files.Path
import DiskKeys.Files.Fault

/-! # File trees

    A file tree is what a file system holds: a node for every location
    below the root.  A location is the list of names that lead to it from
    the root.  `node?` is the view of a tree; putting, erasing and moving
    nodes are described by what they do to it.

    A path is walked one step at a time, from the root or from the working
    directory, and every directory on the way must be there.  All
    operations on paths are built from `walk`, so they refuse the same
    paths for the same reasons. -/

namespace DiskKeys

/-- The names that lead from the root to a node. -/
abbrev Location := List Name

/-- What is at a location. -/
inductive Node where
  | directory
  /-- A file with its permission bits. -/
  | file (mode : Nat) (contents : Bytes)
  /-- The address of a socket. -/
  | socket (id : Nat)
  deriving DecidableEq, Repr

/-- The nodes of a file system.  The root is a directory and has no entry
    of its own. -/
structure FileTree where
  entries : List (Location × Node)
  /-- Where paths start that are not absolute. -/
  cwd : Location
  deriving DecidableEq, Repr

namespace FileTree

/-- A tree with nothing below the root. -/
def empty : FileTree := ⟨[], []⟩

/-- What is at a location. -/
def node? (t : FileTree) (loc : Location) : Option Node :=
  if loc = [] then some .directory else t.entries.lookup loc

/-- Removes what is at a location. -/
def erase (t : FileTree) (loc : Location) : FileTree :=
  { t with entries := t.entries.filter fun e => e.1 != loc }

/-- Puts a node at a location. -/
def put (t : FileTree) (loc : Location) (node : Node) : FileTree :=
  { t with entries := (loc, node) :: (t.erase loc).entries }

/-- The location that takes the place of `loc` when what is at `src` moves
    to `dst`. -/
def moved (src dst loc : Location) : Location :=
  if src.isPrefixOf loc then dst ++ loc.drop src.length else loc

/-- Moves what is at `src`, and all that is below it, to `dst`. -/
def move (t : FileTree) (src dst : Location) : FileTree :=
  ⟨(t.erase dst).entries.map fun e => (moved src dst e.1, e.2), moved src dst t.cwd⟩

/-- The names in a directory. -/
def names (t : FileTree) (dir : Location) : List Name :=
  t.entries.filterMap fun e => if e.1.dropLast = dir then e.1.getLast? else none

/-! ## Walking paths -/

/-- The longest name that a directory takes. -/
def maxNameSize : Nat := 255

/-- The size at which a path is too long. -/
def maxPathSize : Nat := 4096

/-- Refuses paths that are never looked up. -/
def checkPath (p : Path) : Except Fault Unit :=
  if p.bytes.contains 0 then .error .nulInFileName
  else if p.bytes.isEmpty then .error .noEntry
  else if maxPathSize ≤ p.bytes.length then .error .nameTooLong
  else .ok ()

/-- The location of a name in a directory; the name must be one that a
    directory takes. -/
def child (t : FileTree) (dir : Location) (name : Name) : Except Fault Location :=
  if t.node? dir ≠ some .directory then .error .notDirectory
  else if name = Path.here then .ok dir
  else if name = Path.above then .ok dir.dropLast
  else if maxNameSize < name.length then .error .nameTooLong
  else .ok (dir ++ [name])

/-- Where a step from a location leads; something must be there. -/
def walkStep (t : FileTree) (loc : Location) (name : Name) : Except Fault Location := do
  let next ← t.child loc name
  if (t.node? next).isNone then throw .noEntry
  return next

/-- Where steps lead, one after the other. -/
def walk (t : FileTree) (loc : Location) (names : List Name) : Except Fault Location :=
  names.foldlM t.walkStep loc

/-- Where walking a path starts. -/
def origin (t : FileTree) (p : Path) : Location :=
  if p.isAbsolute then [] else t.cwd

/-- The location and node that a path names. -/
def resolve (t : FileTree) (p : Path) : Except Fault (Location × Node) := do
  checkPath p
  let loc ← t.walk (t.origin p) p.steps
  match t.node? loc with
  | none => throw .noEntry
  | some node =>
      if p.endsInSlash ∧ node ≠ .directory then throw .notDirectory
      return (loc, node)

/-- What the last step of a path names in its directory. -/
inductive LastStep where
  /-- A name in a directory. -/
  | name (dir : Location) (name : Name)
  /-- The directory itself, the one above it, or the root. -/
  | dots

/-- Walks all but the last step of a path. -/
def resolveParent (t : FileTree) (p : Path) : Except Fault LastStep := do
  checkPath p
  match p.steps.getLast? with
  | none => return .dots
  | some last =>
      let dir ← t.walk (t.origin p) p.steps.dropLast
      if t.node? dir ≠ some .directory then throw .notDirectory
      if last = Path.here ∨ last = Path.above then return .dots
      return .name dir last

/-- Whether a path names a directory. -/
def isDirectory (t : FileTree) (p : Path) : Bool :=
  match t.resolve p with
  | .ok (_, .directory) => true
  | _ => false

/-! ## Reading -/

/-- Whether the owner may read a file. -/
def ownerMayRead (mode : Nat) : Bool :=
  mode / 0o400 % 2 == 1

/-- Opens a file or directory, only to see whether that can be done. -/
def probe (t : FileTree) (p : Path) : Except Fault Unit := do
  match ← t.resolve p with
  | (_, .file mode _) => if ownerMayRead mode then return () else throw .permissionDenied
  | (_, .directory) => return ()
  | (_, .socket _) => throw .noDevice

/-- The contents of a file. -/
def read (t : FileTree) (p : Path) : Except Fault Bytes := do
  match ← t.resolve p with
  | (_, .file mode contents) =>
      if ownerMayRead mode then return contents else throw .permissionDenied
  | (_, .directory) => throw .isDirectory
  | (_, .socket _) => throw .noDevice

/-- The contents of a file that holds text. -/
def readText (t : FileTree) (p : Path) : Except Fault String := do
  match Text.Utf8.decode? (← t.read p) with
  | some text => return text
  | none => throw .notText

/-- The names in a directory that a path names. -/
def list (t : FileTree) (p : Path) : Except Fault (List Name) := do
  match ← t.resolve p with
  | (loc, .directory) => return t.names loc
  | _ => throw .notDirectory

/-! ## Changing -/

/-- The permission bits of a file that is written without more ado. -/
def plainMode : Nat := 0o644

/-- Whether the owner may write a file. -/
def ownerMayWrite (mode : Nat) : Bool :=
  mode / 0o200 % 2 == 1

/-- Writes a file: a new one gets plain permissions, one that is there is
    overwritten in place. -/
def write (t : FileTree) (p : Path) (contents : Bytes) : Except Fault (FileTree × Location) := do
  match ← t.resolveParent p with
  | .dots => throw .isDirectory
  | .name dir name =>
      let loc ← t.child dir name
      match t.node? loc with
      | some .directory => throw .isDirectory
      | some (.socket _) => throw .noDevice
      | some (.file mode _) =>
          if p.endsInSlash then throw .notDirectory
          if !ownerMayWrite mode then throw .permissionDenied
          return (t.put loc (.file mode contents), loc)
      | none =>
          if p.endsInSlash then throw .isDirectory
          return (t.put loc (.file plainMode contents), loc)

/-- Makes a directory. -/
def makeDirectory (t : FileTree) (p : Path) : Except Fault FileTree := do
  match ← t.resolveParent p with
  | .dots => throw .alreadyExists
  | .name dir name =>
      let loc ← t.child dir name
      if (t.node? loc).isSome then throw .alreadyExists
      return t.put loc .directory

/-- Makes a directory, unless the device refuses it. -/
def tryDirectory (t : FileTree) (refused : Path → Option Fault) (p : Path) :
    Except Fault FileTree := do
  let t ← t.makeDirectory p
  match refused p with
  | some fault => throw fault
  | none => return t

/-- Makes a directory and those above it that are missing; `above` are the
    paths above it, nearest first.  The tree is the one afterwards, also
    when a directory could not be made. -/
def makeDirectoriesFrom (t : FileTree) (refused : Path → Option Fault) (p : Path) :
    (above : List Path) → Except Fault Unit × FileTree
  | [] => attempt fun e => if e = .noEntry then (.error .noRoot, t) else settle t e
  | parent :: above => attempt fun e =>
      if e = .noEntry then
        match makeDirectoriesFrom t refused parent above with
        | (.error e, t') => (.error e, t')
        | (.ok (), t') =>
            match t'.tryDirectory refused p with
            | .ok t'' => (.ok (), t'')
            | .error e => settle t' e
      else settle t e
where
  /-- Makes the directory, or goes on with the reason why it could not. -/
  attempt (failed : Fault → Except Fault Unit × FileTree) : Except Fault Unit × FileTree :=
    if p.bytes.isEmpty then (.ok (), t)
    else match t.tryDirectory refused p with
      | .ok t' => (.ok (), t')
      | .error e => failed e
  /-- A directory that is there already need not be made. -/
  settle (t : FileTree) (e : Fault) : Except Fault Unit × FileTree :=
    (if t.isDirectory p then .ok () else .error e, t)

/-- Makes a directory and those above it that are missing, as far as the
    device does not refuse them. -/
def makeDirectories (t : FileTree) (refused : Path → Option Fault) (p : Path) :
    Except Fault Unit × FileTree :=
  t.makeDirectoriesFrom refused p p.ancestors

/-- Removes a file or the address of a socket. -/
def remove (t : FileTree) (p : Path) : Except Fault (FileTree × Location) := do
  match ← t.resolveParent p with
  | .dots => throw .isDirectory
  | .name dir name =>
      let loc ← t.child dir name
      match t.node? loc with
      | none => throw .noEntry
      | some .directory => throw .isDirectory
      | some _ =>
          if p.endsInSlash then throw .notDirectory
          return (t.erase loc, loc)

/-- Removes an empty directory. -/
def removeDirectory (t : FileTree) (p : Path) : Except Fault (FileTree × Location) := do
  match ← t.resolveParent p with
  | .dots => throw .invalidArgument
  | .name dir name =>
      let loc ← t.child dir name
      match t.node? loc with
      | none => throw .noEntry
      | some .directory =>
          if !(t.names loc).isEmpty then throw .directoryNotEmpty
          return (t.erase loc, loc)
      | some _ => throw .notDirectory

/-- Where the node at `src` lands when it is renamed to a path, or why it
    cannot be.  A directory replaces only an empty directory, and anything
    else only what is no directory.  A new path with a zero byte in it is
    called an invalid argument. -/
def renameTarget (t : FileTree) (src : Location) (p : Path) (srcInSlash : Bool) :
    Except Fault Location := do
  if p.bytes.contains 0 then throw .invalidArgument
  match ← t.resolveParent p with
  | .dots => throw .busy
  | .name dir name =>
      let dst ← t.child dir name
      match t.node? src with
      | none => throw .noEntry
      | some .directory =>
          if src.isPrefixOf dir then throw .invalidArgument
          if dst ≠ src ∧ dst.isPrefixOf src then throw .directoryNotEmpty
          match t.node? dst with
          | none => return dst
          | some .directory =>
              if dst ≠ src ∧ !(t.names dst).isEmpty then throw .directoryNotEmpty
              return dst
          | some _ => throw .notDirectory
      | some _ =>
          if srcInSlash ∨ p.endsInSlash then throw .notDirectory
          if dst ≠ src ∧ dst.isPrefixOf src then throw .directoryNotEmpty
          if t.node? dst = some .directory then throw .isDirectory
          return dst

/-- Renames the node at `src` to a path; what was there is replaced. -/
def renameNode (t : FileTree) (src : Location) (p : Path) (srcInSlash : Bool) :
    Except Fault (FileTree × Location) := do
  let dst ← t.renameTarget src p srcInSlash
  return (if dst = src then t else t.move src dst, dst)

/-- What a rename did. -/
structure Renamed where
  tree : FileTree
  src : Location
  dst : Location

/-- Renames what one path names to another. -/
def rename (t : FileTree) (old new : Path) : Except Fault Renamed := do
  match ← t.resolveParent old with
  | .dots => throw .busy
  | .name dir name =>
      let src ← t.child dir name
      let (tree, dst) ← t.renameNode src new old.endsInSlash
      return ⟨tree, src, dst⟩

/-! ## Laws of the view -/

@[simp] theorem node?_root (t : FileTree) : t.node? [] = some .directory := rfl

theorem lookup_filter_ne (loc loc' : Location) :
    ∀ entries : List (Location × Node),
      (entries.filter fun e => e.1 != loc).lookup loc'
        = if loc' = loc then none else entries.lookup loc' := by
  intro entries
  induction entries with
  | nil => simp
  | cons e rest ih =>
      obtain ⟨l, n⟩ := e
      by_cases hl : l = loc
      · subst hl
        by_cases hl' : loc' = l
        · simp [hl'] at ih ⊢
          exact ih
        · have hne : (loc' == l) = false := by simpa using hl'
          simp only [List.filter_cons, bne_self_eq_false, Bool.false_eq_true, if_false]
          rw [ih, List.lookup_cons, hne]
      · have hkeep : (l != loc) = true := by simpa using hl
        simp only [List.filter_cons, hkeep, if_true, List.lookup_cons]
        by_cases hl' : loc' = l
        · subst hl'
          simp [hl]
        · have hne : (loc' == l) = false := by simpa using hl'
          rw [hne]
          exact ih

/-- Erasing takes away one location and nothing else. -/
theorem node?_erase (t : FileTree) (loc loc' : Location) (h : loc' ≠ []) :
    (t.erase loc).node? loc' = if loc' = loc then none else t.node? loc' := by
  simp only [node?, h, if_false, erase]
  exact lookup_filter_ne loc loc' t.entries

/-- Putting changes one location and nothing else. -/
theorem node?_put (t : FileTree) (loc loc' : Location) (node : Node) (h : loc' ≠ []) :
    (t.put loc node).node? loc' = if loc' = loc then some node else t.node? loc' := by
  simp only [node?, h, if_false, put, List.lookup_cons]
  by_cases hl : loc' = loc
  · simp [hl]
  · have hne : (loc' == loc) = false := by simpa using hl
    rw [hne, if_neg hl]
    have := lookup_filter_ne loc loc' t.entries
    rw [if_neg hl] at this
    exact this

end FileTree

end DiskKeys
