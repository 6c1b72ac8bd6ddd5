import DiskKeys.Yaml.Token.Scalar

/-! # Directives, anchors and tags

    The marks that come before a document or a node. -/

namespace DiskKeys.Yaml

/-! ## Tags -/

/-- Whether a character may stand in a tag; in a verbatim one three more
    may. -/
def isUriChar (verbatim : Bool) (c : Char) : Bool :=
  isNameChar c || ";/?:@&=+$.%!~*'()".toList.contains c
    || (verbatim && (c == ',' || c == '[' || c == ']'))

/-- How many octets a character has that starts with an octet. -/
def octetCount? (octet : Nat) : Option Nat :=
  if octet < 0x80 then some 1
  else if octet < 0xc0 then none
  else if octet < 0xe0 then some 2
  else if octet < 0xf0 then some 3
  else if octet < 0xf8 then some 4
  else none

/-- The octet that an escape spells. -/
def escapedOctet? (s : Source) : Option Nat :=
  if s.nextIs '%' then hexNumber? 2 (s.rest.drop 1) else none

/-- The escaped octet that must come next. -/
def readOctet (activity : Activity) (since : Mark) (s : Source) : Except Fault Nat := do
  s.reach 3
  match escapedOctet? s with
  | none => throw (s.fault .noEscapedOctet activity since)
  | some octet => return octet

/-- Reads the escaped octets that continue a character. -/
def readContinuations (activity : Activity) (since : Mark) :
    (count : Nat) → Source → Except Fault (List Char × Source)
  | 0, s => .ok ([], s)
  | count + 1, s => do
      let octet ← readOctet activity since s
      if octet < 0x80 || 0xc0 ≤ octet then
        throw (s.fault .badTrailingOctet activity since)
      let (octets, s) ← readContinuations activity since count (s.skip 3)
      return (.ofNat octet :: octets, s)

/-- Reads the escaped octets of one character. -/
def readOctets (activity : Activity) (since : Mark) (s : Source) :
    Except Fault (List Char × Source) := do
  let octet ← readOctet activity since s
  match octetCount? octet with
  | none => throw (s.fault .badLeadingOctet activity since)
  | some count =>
      let (octets, s) ← readContinuations activity since (count - 1) (s.skip 3)
      return (.ofNat octet :: octets, s)

/-- Reads the characters of a tag as long as they may stand in it; `text`
    are those that have been read, last first. -/
def readUriChars (verbatim : Bool) (activity : Activity) (since : Mark) :
    (fuel : Nat) → List Char → Source → Except Fault (List Char × Source)
  | 0, text, s => .ok (text.reverse, s)
  | fuel + 1, text, s => do
      s.reach 1
      match s.next with
      | none => return (text.reverse, s)
      | some c =>
          if !isUriChar verbatim c then return (text.reverse, s)
          else if c == '%' then
            let (octets, s) ← readOctets activity since s
            readUriChars verbatim activity since fuel (octets.reverse ++ text) s
          else readUriChars verbatim activity since fuel (c :: text) (s.skip 1)

/-- Reads the part of a tag behind `head`, of which the first character is
    left out.  There must be a head or something to read.  An octet of zero
    ends what counts. -/
def readUri (verbatim : Bool) (activity : Activity) (since : Mark) (head : List Char)
    (s : Source) : Except Fault (List Char × Source) := do
  let (text, after) ← readUriChars verbatim activity since (s.size + 1) [] s
  if head.isEmpty && after.mark.index == s.mark.index then
    throw (after.fault .noTagUri activity since)
  return ((head.drop 1 ++ text).takeWhile (· != '\x00'), after)

/-- Reads the handle of a tag, between exclamation marks; in a directive
    the second one may be missing only from the shortest handle. -/
def readHandle (inDirective : Bool) (since : Mark) (s : Source) :
    Except Fault (List Char × Source) := do
  s.reach 1
  if !s.nextIs '!' then
    throw (s.fault .noBang (if inDirective then .tagDirectiveStart else .tag) since)
  let (name, after) ← (s.skip 1).span isNameChar
  if after.nextIs '!' then return ('!' :: name ++ ['!'], after.skip 1)
  if inDirective && !name.isEmpty then
    throw (after.fault .noBang .tagDirectiveHandle since)
  return ('!' :: name, after)

/-- Reads the tag that comes next. -/
def readTag (inFlow : Bool) (s : Source) : Except Fault (TokenKind × Source) := do
  let since := s.mark
  s.reach 2
  let (kind, s) ← parts since
  s.reach 1
  if (inFlow && s.nextIs ',') || endsWord s.next then return (kind, s)
  throw (s.fault .noSpaceOrLineEnd .tag since)
where
  /-- The handle and the suffix. -/
  parts (since : Mark) : Except Fault (TokenKind × Source) := do
    if s.ahead 1 == some '<' then
      let (suffix, s) ← readUri true .tagUri since [] (s.skip 2)
      if !s.nextIs '>' then throw (s.fault .noTagEnd .tag since)
      return (.tag [] suffix, s.skip 1)
    let (handle, s) ← readHandle false since s
    if 2 ≤ handle.length && handle.getLast? == some '!' then
      let (suffix, s) ← readUri false .tagUri since [] s
      return (.tag handle suffix, s)
    let (suffix, s) ← readUri false .tagUri since handle s
    if suffix.isEmpty then return (.tag [] ['!'], s)
    return (.tag ['!'] suffix, s)

/-! ## Anchors and aliases -/

/-- Whether an anchor may end before what comes next. -/
def endsAnchor : Option Char → Bool
  | some c => endsWord (some c) || "?:,]\x7d%@\x60".toList.contains c
  | none => true

/-- Reads the anchor or alias that comes next. -/
def readAnchor (activity : Activity) (kind : List Char → TokenKind) (s : Source) :
    Except Fault (TokenKind × Source) := do
  let (name, after) ← (s.skip 1).span isNameChar
  if name.isEmpty || !endsAnchor after.next then
    throw (after.fault .noAnchorName activity s.mark)
  return (kind name, after)

/-! ## Directives -/

/-- The most digits that a version number has. -/
def maxVersionDigits : Nat := 9

/-- Reads one number of a version. -/
def readVersionNumber (since : Mark) (s : Source) : Except Fault (Nat × Source) := do
  if maxVersionDigits < (s.rest.takeWhile Char.isDigit).length then
    throw ((s.skip maxVersionDigits).fault .longVersion .versionDirective since)
  let (digits, after) ← s.span Char.isDigit
  if digits.isEmpty then throw (s.fault .noVersion .versionDirective since)
  return (digits.foldl (fun n c => 10 * n + (c.toNat - 48)) 0, after)

/-- Reads the version of the language. -/
def readVersion (since : Mark) (s : Source) : Except Fault (TokenKind × Source) := do
  let (major, s) ← readVersionNumber since (← s.skipWhile isBlank)
  if !s.nextIs '.' then throw (s.fault .noVersionDot .versionDirective since)
  let (minor, s) ← readVersionNumber since (s.skip 1)
  return (.versionDirective major minor, s)

/-- Reads a handle and what it stands for. -/
def readHandleMeaning (since : Mark) (s : Source) : Except Fault (TokenKind × Source) := do
  let (handle, s) ← readHandle true since (← s.skipWhile isBlank)
  s.reach 1
  if !s.next.any isBlank then throw (s.fault .noSpace .tagDirective since)
  let (head, s) ← readUri true .tagDirectiveUri since [] (← s.skipWhile isBlank)
  if !endsWord s.next then throw (s.fault .noSpaceOrLineEnd .tagDirective since)
  return (.tagDirective handle head, s)

/-- Reads the directive that comes next: the token, the place where it
    ends, and the source on the next line. -/
def readDirective (s : Source) : Except Fault (TokenKind × Mark × Source) := do
  let since := s.mark
  let (name, after) ← (s.skip 1).span isNameChar
  if name.isEmpty then throw (after.fault .noDirectiveName .directive since)
  if !endsWord after.next then throw (after.fault .badDirectiveName .directive since)
  let (kind, after) ←
    if name == "YAML".toList then readVersion since after
    else if name == "TAG".toList then readHandleMeaning since after
    else throw (after.fault .unknownDirective .directive since)
  return (kind, after.mark, ← endLine .directive since after)

end DiskKeys.Yaml
