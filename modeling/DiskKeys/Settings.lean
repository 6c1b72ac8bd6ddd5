import DiskKeys.Files.Path

/-! # Settings of the agent -/

namespace DiskKeys

/-- How the agent is set up. -/
structure Settings where
  /-- The directory that is watched for requests. -/
  askDir : Path := .ofString "/run/systemd/ask-password"
  /-- How the names of requests start. -/
  requestPrefix : String := "ask."
  /-- What the message of a request for the boot key contains. -/
  bootMarker : String := "boot"
  /-- The longest single wait for notices. -/
  pollTimeoutMs : Nat := 1000
  /-- Whether requests are answered that were there before the agent. -/
  answerExisting : Bool := false
  /-- Whether a request is refused when its key cannot be read. -/
  sendNegativeAck : Bool := false
  deriving DecidableEq, Repr

namespace Settings

/-- The settings of an agent that was told nothing. -/
def standard : Settings := {}

/-- A line about the settings. -/
def summary (s : Settings) : String :=
  Text.record "AgentConfig" [
    ("ask_dir", s.askDir.quoted),
    ("request_prefix", Text.quoted s.requestPrefix),
    ("boot_marker", Text.quoted s.bootMarker),
    ("poll_timeout_ms", toString s.pollTimeoutMs),
    ("answer_existing", toString s.answerExisting),
    ("send_negative_ack", toString s.sendNegativeAck)]

/-- The longest single wait, in whole seconds and milliseconds. -/
def pollTimeout (s : Settings) : Nat × Nat :=
  (s.pollTimeoutMs / 1000, s.pollTimeoutMs % 1000)

end Settings

end DiskKeys
