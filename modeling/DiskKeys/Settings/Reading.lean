import DiskKeys.Files.Tree
import DiskKeys.Settings
import DiskKeys.Text.Quoted
import DiskKeys.Yaml.Document

/-! # Reading settings

    Settings are a YAML mapping in which each setting comes at most once
    and nothing else comes at all; what is not said keeps its standard
    value.  The entries are judged in order, and the first that does not
    fit is reported, even if the text is broken further on. -/

namespace DiskKeys

namespace Settings

/-- The names of the settings. -/
inductive Key where
  | askDir
  | requestPrefix
  | bootMarker
  | pollTimeoutMs
  | answerExisting
  | sendNegativeAck
  deriving DecidableEq, Repr

/-- The word for a setting. -/
def Key.label : Key → String
  | askDir => "ask_dir"
  | requestPrefix => "request_prefix"
  | bootMarker => "boot_marker"
  | pollTimeoutMs => "poll_timeout_ms"
  | answerExisting => "answer_existing"
  | sendNegativeAck => "send_negative_ack"

/-- All settings. -/
def Key.all : List Key :=
  [askDir, requestPrefix, bootMarker, pollTimeoutMs, answerExisting, sendNegativeAck]

/-- The setting that a word stands for. -/
def Key.ofLabel? (word : String) : Option Key :=
  all.find? (·.label == word)

/-- What may stand somewhere. -/
inductive Wanted where
  | settings
  | key
  | path
  | text
  | number
  | bool
  deriving DecidableEq, Repr

/-- The words for what may stand somewhere. -/
def Wanted.label : Wanted → String
  | settings => "struct AgentConfig"
  | key => "field identifier"
  | path => "path string"
  | text => "a string"
  | number => "u64"
  | bool => "a boolean"

/-- Why a part of a document is not what may stand there. -/
inductive Misfit where
  | wrongType (found : Yaml.Meaning) (wanted : Wanted)
  /-- The text does not fit its tag. -/
  | wrongValue (text : List Char) (tag : Yaml.CoreTag)
  | unknownKey (word : String)
  | duplicateKey (key : Key)
  deriving DecidableEq, Repr

/-- The words for what was found. -/
def describe : Yaml.Meaning → String
  | .null => "unit value"
  | .bool b => s!"boolean \x60{b}\x60"
  | .integer n wide =>
      let width := if !wide then "" else if n < 0 then " as i128" else " as u128"
      s!"integer \x60{n}\x60" ++ width
  | .number n => s!"floating point \x60{n.toText}\x60"
  | .text text => "string " ++ Text.quoted (.ofList text)
  | .sequence => "sequence"
  | .mapping => "map"

/-- The text that reports what does not fit. -/
def Misfit.message : Misfit → String
  | wrongType found wanted => s!"invalid type: {describe found}, expected {wanted.label}"
  | wrongValue text tag =>
      s!"invalid value: {describe (.text text)}, expected {tag.expected}"
  | unknownKey word =>
      let labels := Key.all.map fun key => s!"\x60{key.label}\x60"
      s!"unknown field \x60{word}\x60, expected one of " ++ String.intercalate ", " labels
  | duplicateKey key => s!"duplicate field \x60{key.label}\x60"

/-- Why a text holds no settings. -/
inductive ParseError where
  /-- It is not YAML. -/
  | malformed (fault : Yaml.Fault)
  | incomplete
  | manyDocuments
  /-- A part does not fit; `entry` is the word for the entry it is in. -/
  | misfit (entry : Option String) (cause : Misfit) (mark : Yaml.Mark)
  deriving DecidableEq, Repr

/-- The text that reports the failure. -/
def ParseError.message : ParseError → String
  | malformed fault => fault.message
  | incomplete => "EOF while parsing a value"
  | manyDocuments =>
      "deserializing from YAML containing more than one document is not supported"
  | misfit entry cause mark =>
      (match entry with
        | some word => word ++ ": "
        | none => "") ++ cause.message ++ mark.suffix

/-! ## Parts of a document -/

/-- The failure to find what may stand in a place. -/
def misfitOf (entry : Option String) (wanted : Wanted) (node : Yaml.Node) (mark : Yaml.Mark) :
    ParseError :=
  match node with
  | .scalar s =>
      match s.meaning with
      | .ok m => .misfit entry (.wrongType m wanted) mark
      | .error tag => .misfit entry (.wrongValue s.text tag) mark
  | .sequenceStart => .misfit entry (.wrongType .sequence wanted) mark
  | .mappingStart => .misfit entry (.wrongType .mapping wanted) mark
  | _ => .incomplete

/-- The failure to find anything where the document ends too early. -/
def endOf (d : Yaml.Document) : ParseError :=
  match d.fault with
  | some fault => .malformed fault
  | none => .incomplete

/-- The node that a node stands for. -/
def settle (d : Yaml.Document) : Yaml.Node × Yaml.Mark → Except ParseError (Yaml.Node × Yaml.Mark)
  | (.aliasOf number, _) =>
      match (d.anchored.lookup number).bind (d.nodes[·]?) with
      | some target => .ok target
      | none => .error .incomplete
  | node => .ok node

/-- The text of a scalar, whatever it means. -/
def readText (d : Yaml.Document) (entry : Option String) (wanted : Wanted)
    (node : Yaml.Node × Yaml.Mark) : Except ParseError (String × Yaml.Mark) := do
  match ← settle d node with
  | (.scalar s, mark) => return (.ofList s.text, mark)
  | (node, mark) => throw (misfitOf entry wanted node mark)

/-- The value of a scalar of a kind. -/
def readValue {α : Type} (d : Yaml.Document) (entry : Option String) (wanted : Wanted)
    (tag : Yaml.CoreTag) (value? : List Char → Option α) (node : Yaml.Node × Yaml.Mark) :
    Except ParseError α := do
  let (node, mark) ← settle d node
  let value := match node with
    | .scalar s => if s.isFor tag then value? s.text else none
    | _ => none
  match value with
  | some v => return v
  | none => throw (misfitOf entry wanted node mark)

/-- The largest number that a setting takes. -/
def maxNumber : Nat := UInt64.size - 1

/-- The settings with one of them replaced by what a node says. -/
def set (s : Settings) (d : Yaml.Document) (entry : String) (key : Key)
    (node : Yaml.Node × Yaml.Mark) : Except ParseError Settings := do
  let entry := some entry
  match key with
  | .askDir => return { s with askDir := .ofString (← readText d entry .path node).1 }
  | .requestPrefix => return { s with requestPrefix := (← readText d entry .text node).1 }
  | .bootMarker => return { s with bootMarker := (← readText d entry .text node).1 }
  | .pollTimeoutMs =>
      let n ← readValue d entry .number .int (Yaml.unsigned? maxNumber) node
      return { s with pollTimeoutMs := n }
  | .answerExisting =>
      return { s with answerExisting := ← readValue d entry .bool .bool Yaml.bool? node }
  | .sendNegativeAck =>
      return { s with sendNegativeAck := ← readValue d entry .bool .bool Yaml.bool? node }

/-- The word by which messages name the entry of a key: the key itself, or
    a question mark if it is an alias. -/
def entryWord (word : String) : Yaml.Node → String
  | .aliasOf _ => "?"
  | _ => word

/-- The settings that the entries of a mapping make of others; `seen` are
    the keys that have come. -/
def readEntries (d : Yaml.Document) (start : Yaml.Mark) :
    List (Yaml.Node × Yaml.Mark) → (seen : List Key) → Settings → Except ParseError Settings
  | [], _, _ => .error (endOf d)
  | (.mappingEnd, _) :: _, _, s => .ok s
  | key :: rest, seen, s => do
      let (word, mark) ← readText d none .key key
      match Key.ofLabel? word with
      | none => throw (.misfit none (.unknownKey word) mark)
      | some k =>
          if seen.contains k then throw (.misfit none (.duplicateKey k) start)
          match rest with
          | [] => throw (endOf d)
          | value :: rest =>
              let s ← s.set d (entryWord word key.1) k value
              readEntries d start rest (k :: seen) s

/-- The settings that the root of a document gives. -/
def ofRoot (d : Yaml.Document) : Except ParseError Settings :=
  match d.nodes.toList with
  | [] => .error (endOf d)
  | (.nothing, _) :: _ => .ok .standard
  | (.mappingStart, start) :: entries => readEntries d start entries [] .standard
  | (.scalar s, mark) :: _ =>
      if s.text.isEmpty && s.style = .plain then .ok .standard
      else .error (misfitOf none .settings (.scalar s) mark)
  | (node, mark) :: _ => .error (misfitOf none .settings node mark)

/-- The settings that a YAML text gives. -/
def parse (text : String) : Except ParseError Settings := do
  let d := Yaml.Document.ofText text
  let s ← ofRoot d
  if let some fault := d.fault then throw (.malformed fault)
  if d.hasMore then throw .manyDocuments
  return s

end Settings

/-- Why settings could not be loaded. -/
inductive SettingsError where
  | unreadable (path : Path) (fault : Fault)
  | invalid (cause : Settings.ParseError)
  deriving DecidableEq, Repr

/-- The text that reports the failure. -/
def SettingsError.message : SettingsError → String
  | .unreadable path fault => s!"failed to read config {path.display}: {fault.message}"
  | .invalid cause => s!"invalid config: {cause.message}"

/-- The settings in a file. -/
def FileTree.loadSettings (t : FileTree) (p : Path) : Except SettingsError Settings := do
  let text ← (t.readText p).mapError (.unreadable p)
  (Settings.parse text).mapError .invalid

end DiskKeys
