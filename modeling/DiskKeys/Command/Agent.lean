import DiskKeys.Agent.Watching
import DiskKeys.Command.Arguments
import DiskKeys.Settings.Reading

/-! # Starting the agent

    The agent is started with the settings in a file, or with the standard
    ones, and then answers requests for good: nothing but a failure to
    start ends it. -/

namespace DiskKeys

/-- Why the agent could not be started. -/
inductive StartError where
  | settings (cause : SettingsError)
  | agent (cause : AgentError)
  deriving DecidableEq, Repr

/-- The chain for settings that could not be loaded. -/
def SettingsError.chain (e : SettingsError) : List String :=
  e.message :: match e with
    | .unreadable _ fault => [fault.message]
    | .invalid cause => [cause.message]

/-- The chain for a failure of the agent. -/
def AgentError.chain (e : AgentError) : List String :=
  match e with
  | .watch _ fault => [e.message, fault.message]
  | .readRequest _ fault => [e.message, fault.message]
  | .malformed cause => [e.message, cause.message]
  | .keyFile cause => cause.chain
  | .reply _ fault => [e.message, fault.message]
  | .expired _ => [e.message]

/-- The chain for an agent that did not start. -/
def StartError.chain : StartError → List String
  | .settings cause => cause.chain
  | .agent cause => "password agent could not start" :: cause.chain

/-- The settings that a path leads to, or the standard ones. -/
def FileTree.settingsAt (t : FileTree) : Option Path → Except SettingsError Settings
  | some path => t.loadSettings path
  | none => .ok .standard

/-- The remarks on an agent that is to be started, and on settings that have
    been loaded for it. -/
def FileTree.startRemarks (t : FileTree) (bootKey rootKey : Path) (config : Option Path) :
    List LogLine :=
  commandRemark (Text.record "PasswordAgent" [("boot_key", bootKey.quoted),
    ("root_key", rootKey.quoted), ("config", Text.optional Path.quoted config)]) ::
  match config with
  | none => []
  | some path =>
      match t.loadSettings path with
      | .ok settings => [.debug s!"loaded {settings.summary} from {path.display}"]
      | .error _ => []

/-- Starts an agent with the given key files. -/
def Surroundings.startAgent (s : Surroundings) (bootKey rootKey : Path) (config : Option Path) :
    Except StartError (Surroundings × Agent × Report) := do
  let settings ← (s.world.tree.settingsAt config).mapError .settings
  ((Agent.fresh settings bootKey rootKey).watch s).mapError .agent

/-- The text that gives the version of the program. -/
def versionText : String := "cvm-unlock 0.1.0\n"

end DiskKeys
