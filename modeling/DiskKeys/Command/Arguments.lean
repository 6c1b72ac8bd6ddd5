import DiskKeys.Command.Files

/-! # The command line

    A command line names a command and gives its arguments: paths in a
    fixed order, options with a value, and flags.  Arguments are judged
    from left to right.  The value of an option or the paths of a position
    wait until it is clear that no more of them follow; only then are they
    taken, so that a later argument that cannot be read at all is reported
    before them.  What is missing is reported last. -/

namespace DiskKeys

/-- A command. -/
inductive Command where
  | files (command : FileCommand)
  /-- Answers requests until it is ended. -/
  | passwordAgent (bootKey rootKey : Path) (config : Option Path)
  deriving DecidableEq, Repr

/-- Why a command line is not run. -/
inductive UsageError where
  /-- Help was asked for. -/
  | displayHelp
  /-- The version was asked for. -/
  | displayVersion
  /-- Nothing was asked for. -/
  | noArguments
  | invalidCommand
  | missingArgument
  | unknownArgument
  /-- An option without value, or an empty path. -/
  | invalidValue
  /-- An option or a flag that comes twice. -/
  | repeatedArgument
  /-- A flag with a value. -/
  | unneededValue
  deriving DecidableEq, Repr

/-- The status with which a command line ends that is not run. -/
def UsageError.exitStatus : UsageError → Nat
  | displayHelp => 0
  | displayVersion => 0
  | _ => 2

namespace CommandLine

/-- What arguments are for. -/
inductive Slot where
  | blob
  | bootKey
  | rootKey
  | output
  | archive
  | dir
  | inputs
  | list
  | config
  | help
  deriving DecidableEq, Repr

/-- An option or a flag. -/
structure Switch where
  slot : Slot
  long : String
  short : Option Char
  takesValue : Bool

/-- The commands by name. -/
inductive Verb where
  | split
  | combine
  | extract
  | pack
  | passwordAgent
  deriving DecidableEq, Repr

namespace Verb

/-- The name of a command. -/
def label : Verb → String
  | split => "split"
  | combine => "combine"
  | extract => "extract"
  | pack => "pack"
  | passwordAgent => "password-agent"

/-- The command with a name. -/
def ofLabel? (word : Bytes) : Option Verb :=
  [split, combine, extract, pack, passwordAgent].find? fun v =>
    Text.Utf8.encode v.label == word

/-- What the paths of a command are for, in order. -/
def positions : Verb → List Slot
  | split => [.blob]
  | combine => [.output]
  | extract => [.archive, .dir]
  | pack => [.output, .inputs]
  | passwordAgent => [.bootKey, .rootKey]

/-- The options and flags of a command. -/
def switches (v : Verb) : List Switch :=
  own ++ [⟨.help, "help", some 'h', false⟩]
where
  /-- Those that not every command has. -/
  own : List Switch :=
    match v with
    | split | combine => [⟨.bootKey, "boot-key", none, true⟩, ⟨.rootKey, "root-key", none, true⟩]
    | extract => [⟨.list, "list", some 'l', false⟩]
    | pack => []
    | passwordAgent => [⟨.config, "config", some 'c', true⟩]

end Verb

/-- Whether a position takes any number of paths. -/
def isMany (slot : Slot) : Bool :=
  slot = .inputs

/-! ## Reading arguments -/

/-- What has been read of a command line. -/
structure State where
  /-- What was given for each slot, last first. -/
  given : List (Slot × List Path)
  /-- What may still grow: a slot with its values so far. -/
  pending : Option (Slot × List Bytes)
  /-- Whether an option waits for its value. -/
  awaiting : Bool
  /-- The positions that have not been filled. -/
  positions : List Slot
  /-- Whether all that follows are paths. -/
  escaped : Bool

namespace State

/-- The state before the first argument. -/
def start (v : Verb) : State :=
  ⟨[], none, false, v.positions, false⟩

/-- What was given for a slot. -/
def values? (s : State) (slot : Slot) : Option (List Path) :=
  s.given.lookup slot

/-- Notes the values of a slot, none of which may be empty. -/
def note (s : State) (slot : Slot) (values : List Bytes) : Except UsageError State :=
  if values.any List.isEmpty then .error .invalidValue
  else .ok { s with given := (slot, values.map Path.mk) :: s.given }

/-- Takes the values of a slot, of which there must be one, and which must
    not come twice. -/
def take (s : State) (slot : Slot) (values : List Bytes) : Except UsageError State :=
  if values.isEmpty then .error .invalidValue
  else if (s.values? slot).isSome then .error .repeatedArgument
  else s.note slot values

/-- Takes what was pending. -/
def settle (s : State) : Except UsageError State :=
  match s.pending with
  | some (slot, values) => { s with pending := none }.take slot values
  | none => .ok s

/-- Takes the value of an option that comes with it. -/
def takeAttached (s : State) (slot : Slot) (value : Bytes) : Except UsageError State := do
  let s ← s.settle
  { s with awaiting := false }.take slot [value]

/-- Waits for the value of an option. -/
def await (s : State) (slot : Slot) : Except UsageError State := do
  let s ← s.settle
  return { s with pending := some (slot, []), awaiting := true }

/-- Takes a flag. -/
def takeFlag (s : State) (slot : Slot) : Except UsageError State := do
  let s ← s.settle
  if slot = .help then throw .displayHelp
  if (s.values? slot).isSome then throw .repeatedArgument
  return { s with given := (slot, []) :: s.given, awaiting := false }

/-- Takes a path for the next position. -/
def takePath (s : State) (value : Bytes) : Except UsageError State :=
  match s.positions with
  | [] => .error .unknownArgument
  | slot :: rest =>
      match s.pending with
      | some (pending, values) =>
          if pending = slot then .ok { s with pending := some (slot, values ++ [value]) }
          else add slot rest
      | none => add slot rest
where
  /-- The first path for a position; what was pending is complete. -/
  add (slot : Slot) (rest : List Slot) : Except UsageError State := do
    let s ← s.settle
    return { s with
      pending := some (slot, [value])
      positions := if isMany slot then s.positions else rest }

end State

/-- The byte for a hyphen. -/
def hyphen : UInt8 := 0x2d

/-- The byte for an equals sign. -/
def equals : UInt8 := 0x3d

/-- Reads an argument behind two hyphens: a name, and a value behind an
    equals sign. -/
def readLong (v : Verb) (s : State) (text : Bytes) : Except UsageError State :=
  let name := text.takeWhile (· ≠ equals)
  let value := (text.dropWhile (· ≠ equals)).tail?
  match v.switches.find? fun w => Text.Utf8.encode w.long == name with
  | none => .error .unknownArgument
  | some w =>
      match w.takesValue, value with
      | true, some value => s.takeAttached w.slot value
      | true, none => s.await w.slot
      | false, some _ => .error .unneededValue
      | false, none => s.takeFlag w.slot

/-- Reads the letters behind a single hyphen; what follows the letter of an
    option is its value. -/
def readShort (v : Verb) (s : State) : Bytes → Except UsageError State
  | [] => .ok s
  | letter :: rest =>
      match v.switches.find? fun w => w.short.any fun c => c.toNat == letter.toNat with
      | none => .error .unknownArgument
      | some w =>
          if w.takesValue then
            match rest with
            | [] => s.await w.slot
            | c :: value => s.takeAttached w.slot (if c = equals then value else rest)
          else do readShort v (← s.takeFlag w.slot) rest

/-- Reads an argument. -/
def readArgument (v : Verb) (s : State) (arg : Bytes) : Except UsageError State :=
  if s.escaped then s.takePath arg
  else match arg with
    | [a, b] =>
        if a = hyphen ∧ b = hyphen then .ok { s with escaped := true }
        else readUnescaped
    | _ => readUnescaped
where
  /-- Reads an argument that may be an option. -/
  readUnescaped : Except UsageError State :=
    match arg with
    | a :: b :: rest =>
        if a = hyphen ∧ b = hyphen then readLong v s rest
        else if a = hyphen then readShort v s (b :: rest)
        else readValue
    | _ => readValue
  /-- Reads the value of an option, or a path. -/
  readValue : Except UsageError State :=
    match s.awaiting, s.pending with
    | true, some (slot, values) =>
        .ok { s with pending := some (slot, values ++ [arg]), awaiting := false }
    | _, _ => s.takePath arg

/-- Reads the arguments of a command.  A missing path to settings may come
    from outside of the command line. -/
def readArguments (v : Verb) (config : Option Bytes) (args : List Bytes) :
    Except UsageError State := do
  let s ← args.foldlM (readArgument v) (.start v)
  let s ← s.settle
  match config with
  | some value =>
      if v = .passwordAgent ∧ (s.values? .config).isNone then s.note .config [value]
      else return s
  | none => return s

/-! ## Commands -/

/-- The only path for a slot. -/
def onlyPath (s : State) (slot : Slot) : Except UsageError Path :=
  match s.values? slot with
  | some (path :: _) => .ok path
  | _ => .error .missingArgument

/-- The command that arguments make up. -/
def command (v : Verb) (s : State) : Except UsageError Command := do
  match v with
  | .split =>
      return .files (.split (← onlyPath s .blob) (← onlyPath s .bootKey) (← onlyPath s .rootKey))
  | .combine =>
      return .files
        (.combine (← onlyPath s .bootKey) (← onlyPath s .rootKey) (← onlyPath s .output))
  | .extract =>
      let archive ← onlyPath s .archive
      if (s.values? .list).isSome then
        return .files (.list archive ((s.values? .dir).bind List.head?))
      return .files (.extract archive (← onlyPath s .dir))
  | .pack =>
      let output ← onlyPath s .output
      match s.values? .inputs with
      | some inputs => return .files (.pack output inputs)
      | none => throw .missingArgument
  | .passwordAgent =>
      return .passwordAgent (← onlyPath s .bootKey) (← onlyPath s .rootKey)
        ((s.values? .config).bind List.head?)

/-- The name under which help is asked for. -/
def helpWord : Bytes := Text.Utf8.encode "help"

/-- Whether a word is the name of a command. -/
def isCommand (word : Bytes) : Bool :=
  word == helpWord || (Verb.ofLabel? word).isSome

/-- What comes of asking for help with commands. -/
def askHelp : List Bytes → UsageError
  | [] => .displayHelp
  | [word] => if isCommand word then .displayHelp else .invalidCommand
  | _ => .invalidCommand

/-- What comes of an argument that names no command. -/
def refuse : Bytes → UsageError
  | a :: b :: rest =>
      if a = hyphen ∧ b = hyphen then
        let name := rest.takeWhile (· ≠ equals)
        if name ≠ helpWord ∧ name ≠ Text.Utf8.encode "version" then .unknownArgument
        else if name.length < rest.length then .unneededValue
        else if name = helpWord then .displayHelp
        else .displayVersion
      else if a = hyphen then
        if b.toNat = 'h'.toNat then .displayHelp
        else if b.toNat = 'V'.toNat then .displayVersion
        else .unknownArgument
      else .invalidCommand
  | _ => .invalidCommand

/-- The command that a command line asks for.  `config` is the path to
    settings that counts if the command line gives none. -/
def parse (config : Option Bytes) : List Bytes → Except UsageError Command
  | [] => .error .noArguments
  | word :: args =>
      match Verb.ofLabel? word with
      | some v => do command v (← readArguments v config args)
      | none =>
          if word = helpWord then .error (askHelp args)
          else if word = [hyphen, hyphen] then
            match args with
            | [] => .error .noArguments
            | next :: _ =>
                .error (if isCommand next then .unknownArgument else .invalidCommand)
          else .error (refuse word)

end CommandLine

end DiskKeys
