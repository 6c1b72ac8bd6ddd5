/-! # Faults of YAML texts

    A fault says what is wrong and where, and, where that helps, what was
    being read when it was found. -/

namespace DiskKeys.Yaml

/-- A place in a text, counted from zero. -/
structure Mark where
  /-- How many bytes come before. -/
  index : Nat
  line : Nat
  column : Nat
  deriving DecidableEq, Repr

namespace Mark

/-- The start of a text. -/
def start : Mark := ⟨0, 0, 0⟩

/-- The place `n` characters further on the same line, which take `size`
    bytes. -/
def forward (m : Mark) (n size : Nat) : Mark :=
  { m with index := m.index + size, column := m.column + n }

/-- The start of the next line, behind a line break of `n` bytes. -/
def nextLine (m : Mark) (n : Nat) : Mark :=
  ⟨m.index + n, m.line + 1, 0⟩

/-- A place that is known only by how much comes before. -/
def position (n : Nat) : Mark :=
  ⟨n, 0, 0⟩

/-- The place as messages give it; the very start goes without saying. -/
def suffix (m : Mark) : String :=
  if m.line == 0 && m.column == 0 then
    if m.index == 0 then "" else s!" at position {m.index}"
  else s!" at line {m.line + 1} column {m.column + 1}"

end Mark

/-- What is wrong with a text. -/
inductive Problem where
  | controlCharacter
  | noKeyIndicator
  | entryNotAllowed
  | keyNotAllowed
  | valueNotAllowed
  | noToken
  | unknownDirective
  | noLineEnd
  | noDirectiveName
  | badDirectiveName
  | noVersionDot
  | longVersion
  | noVersion
  | noSpace
  | noSpaceOrLineEnd
  | noAnchorName
  | noTagEnd
  | noBang
  | noTagUri
  | noEscapedOctet
  | badLeadingOctet
  | badTrailingOctet
  | zeroIndentation
  | tabInIndentation
  | documentIndicator
  | endOfStream
  | unknownEscape
  | noHexNumber
  | badCodePoint
  | unexpectedColon
  | tabInPlain
  | noDocumentStart
  | undefinedHandle
  | noNode
  | noEntry
  | noKey
  | noSequenceEnd
  | noMappingEnd
  | duplicateVersion
  | incompatibleVersion
  | duplicateHandle
  | unknownAnchor
  deriving DecidableEq, Repr

/-- The words for a problem. -/
def Problem.message : Problem → String
  | controlCharacter => "control characters are not allowed"
  | noKeyIndicator => "could not find expected ':'"
  | entryNotAllowed => "block sequence entries are not allowed in this context"
  | keyNotAllowed => "mapping keys are not allowed in this context"
  | valueNotAllowed => "mapping values are not allowed in this context"
  | noToken => "found character that cannot start any token"
  | unknownDirective => "found unknown directive name"
  | noLineEnd => "did not find expected comment or line break"
  | noDirectiveName => "could not find expected directive name"
  | badDirectiveName => "found unexpected non-alphabetical character"
  | noVersionDot => "did not find expected digit or '.' character"
  | longVersion => "found extremely long version number"
  | noVersion => "did not find expected version number"
  | noSpace => "did not find expected whitespace"
  | noSpaceOrLineEnd => "did not find expected whitespace or line break"
  | noAnchorName => "did not find expected alphabetic or numeric character"
  | noTagEnd => "did not find the expected '>'"
  | noBang => "did not find expected '!'"
  | noTagUri => "did not find expected tag URI"
  | noEscapedOctet => "did not find URI escaped octet"
  | badLeadingOctet => "found an incorrect leading UTF-8 octet"
  | badTrailingOctet => "found an incorrect trailing UTF-8 octet"
  | zeroIndentation => "found an indentation indicator equal to 0"
  | tabInIndentation => "found a tab character where an indentation space is expected"
  | documentIndicator => "found unexpected document indicator"
  | endOfStream => "found unexpected end of stream"
  | unknownEscape => "found unknown escape character"
  | noHexNumber => "did not find expected hexadecimal number"
  | badCodePoint => "found invalid Unicode character escape code"
  | unexpectedColon => "found unexpected ':'"
  | tabInPlain => "found a tab character that violates indentation"
  | noDocumentStart => "did not find expected <document start>"
  | undefinedHandle => "found undefined tag handle"
  | noNode => "did not find expected node content"
  | noEntry => "did not find expected '-' indicator"
  | noKey => "did not find expected key"
  | noSequenceEnd => "did not find expected ',' or ']'"
  | noMappingEnd => "did not find expected ',' or '\x7d'"
  | duplicateVersion => "found duplicate %YAML directive"
  | incompatibleVersion => "found incompatible YAML document"
  | duplicateHandle => "found duplicate %TAG directive"
  | unknownAnchor => "unknown anchor"

/-- What was being read when a problem was found. -/
inductive Activity where
  | simpleKey
  | nextToken
  | directive
  | versionDirective
  | tagDirective
  | tagDirectiveStart
  | tagDirectiveHandle
  | tagDirectiveUri
  | anchor
  | aliasName
  | tag
  | tagUri
  | blockScalar
  | quotedScalar
  | quotedEscape
  | plainScalar
  | node
  | blockNode
  | flowNode
  | blockCollection
  | blockMapping
  | flowSequence
  | flowMapping
  deriving DecidableEq, Repr

/-- The words for an activity. -/
def Activity.message : Activity → String
  | simpleKey => "while scanning a simple key"
  | nextToken => "while scanning for the next token"
  | directive => "while scanning a directive"
  | versionDirective => "while scanning a %YAML directive"
  | tagDirective => "while scanning a %TAG directive"
  | tagDirectiveStart => "while scanning a tag directive"
  | tagDirectiveHandle => "while parsing a tag directive"
  | tagDirectiveUri => "while parsing a %TAG directive"
  | anchor => "while scanning an anchor"
  | aliasName => "while scanning an alias"
  | tag => "while scanning a tag"
  | tagUri => "while parsing a tag"
  | blockScalar => "while scanning a block scalar"
  | quotedScalar => "while scanning a quoted scalar"
  | quotedEscape => "while parsing a quoted scalar"
  | plainScalar => "while scanning a plain scalar"
  | node => "while parsing a node"
  | blockNode => "while parsing a block node"
  | flowNode => "while parsing a flow node"
  | blockCollection => "while parsing a block collection"
  | blockMapping => "while parsing a block mapping"
  | flowSequence => "while parsing a flow sequence"
  | flowMapping => "while parsing a flow mapping"

/-- A problem, the place where it was found, and what was being read and
    since where. -/
structure Fault where
  problem : Problem
  mark : Mark
  activity : Option (Activity × Mark)
  deriving DecidableEq, Repr

/-- The text that reports the fault.  The start of the activity is given
    only if it is another place. -/
def Fault.message (f : Fault) : String :=
  f.problem.message ++ f.mark.suffix ++
    match f.activity with
    | none => ""
    | some (activity, since) =>
        ", " ++ activity.message ++
          if since.line == f.mark.line && since.column == f.mark.column then ""
          else since.suffix

end DiskKeys.Yaml
