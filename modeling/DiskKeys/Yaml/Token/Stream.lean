import DiskKeys.Yaml.Token.Property

/-! # The stream of tokens

    Tokens are handed out one by one.  A scalar may turn out to be the key
    of a mapping only when a colon follows it, so a token is held back as
    long as it may still be such a simple key: then the marks that open the
    mapping and the key are put in front of it.  Indentation opens and
    closes blocks, except between brackets. -/

namespace DiskKeys.Yaml

/-- A place at which a simple key may have started. -/
structure SimpleKey where
  /-- Whether nothing but a key may stand there. -/
  required : Bool
  /-- The number of its token in the stream. -/
  token : Nat
  mark : Mark

/-- A stream of tokens in the middle of its text. -/
structure TokenStream where
  source : Source
  /-- The tokens that have been found but not handed out. -/
  queue : List Token
  /-- How many tokens have been handed out. -/
  taken : Nat
  started : Bool
  /-- The columns of the open blocks, innermost first. -/
  indents : List Nat
  keyAllowed : Bool
  /-- The possible simple key of each level of brackets, innermost first;
      the last is that of no brackets. -/
  keys : List (Option SimpleKey)

namespace TokenStream

/-- The stream at the start of a text. -/
def ofSource (source : Source) : TokenStream :=
  ⟨source, [], 0, false, [], true, [none]⟩

/-- Whether the source is between brackets. -/
def inFlow (t : TokenStream) : Bool :=
  1 < t.keys.length

/-- The column of the innermost block, and -1 outside of blocks. -/
def indent (t : TokenStream) : Int :=
  match t.indents with
  | column :: _ => column
  | [] => -1

/-- The place of the next character. -/
def mark (t : TokenStream) : Mark :=
  t.source.mark

/-- Appends a token. -/
def push (t : TokenStream) (token : Token) : TokenStream :=
  { t with queue := t.queue ++ [token] }

/-- Puts a token in front of the one that has a number. -/
def insert (t : TokenStream) (number : Nat) (token : Token) : TokenStream :=
  { t with queue := t.queue.insertIdx (number - t.taken) token }

/-- Appends a token of `n` characters that come next. -/
def pushNext (t : TokenStream) (kind : TokenKind) (n : Nat) : TokenStream :=
  let after := t.source.skip n
  { t.push ⟨kind, t.mark, after.mark⟩ with source := after }

/-! ## Simple keys -/

/-- The longest simple key. -/
def maxKeySize : Nat := 1024

/-- Gives up a possible key. -/
def dropKey (t : TokenStream) : Option SimpleKey → Except Fault (Option SimpleKey)
  | some key =>
      if key.required then .error (t.source.fault .noKeyIndicator .simpleKey key.mark)
      else .ok none
  | none => .ok none

/-- Whether a possible key is too long or not on this line. -/
def isStale (t : TokenStream) (key : SimpleKey) : Bool :=
  key.mark.line < t.mark.line || key.mark.index + maxKeySize < t.mark.index

/-- Gives up the stale keys, if there are any. -/
def dropStaleKeys (t : TokenStream) : Except Fault TokenStream :=
  if t.keys.any (·.any t.isStale) then do
    let keys ← t.keys.mapM fun key? =>
      if key?.any t.isStale then t.dropKey key? else .ok key?
    return { t with keys }
  else .ok t

/-- Gives up the possible key between the innermost brackets. -/
def removeKey (t : TokenStream) : Except Fault TokenStream :=
  match t.keys with
  | key? :: rest => do return { t with keys := (← t.dropKey key?) :: rest }
  | [] => .ok t

/-- Notes that a key may start here, if one may. -/
def saveKey (t : TokenStream) : Except Fault TokenStream :=
  if t.keyAllowed then do
    let t ← t.removeKey
    let required := !t.inFlow && t.indent == (t.mark.column : Int)
    let key : SimpleKey := ⟨required, t.taken + t.queue.length, t.mark⟩
    return { t with keys := some key :: t.keys.drop 1 }
  else .ok t

/-- Says whether a key may start next. -/
def allowKey (t : TokenStream) (allowed : Bool) : TokenStream :=
  { t with keyAllowed := allowed }

/-! ## Blocks -/

/-- Opens a block at a column that is further in; its token goes to the end
    of the queue, or in front of the token with a number. -/
def openBlock (t : TokenStream) (column : Nat) (before : Option Nat) (kind : TokenKind)
    (mark : Mark) : TokenStream :=
  if t.inFlow || (column : Int) ≤ t.indent then t
  else
    let t := { t with indents := column :: t.indents }
    match before with
    | some number => t.insert number ⟨kind, mark, mark⟩
    | none => t.push ⟨kind, mark, mark⟩

/-- Closes the blocks that are further in than a column. -/
def closeBlocks (t : TokenStream) (column : Int) : TokenStream :=
  if t.inFlow then t
  else
    let closed := t.indents.takeWhile fun (c : Nat) => column < c
    let ends := closed.map fun _ => (⟨.blockEnd, t.mark, t.mark⟩ : Token)
    { t with queue := t.queue ++ ends, indents := t.indents.drop closed.length }

/-! ## Finding tokens -/

/-- Passes over white space, comments and empty lines. -/
def skipToToken (t : TokenStream) : (fuel : Nat) → Except Fault TokenStream
  | 0 => .ok t
  | fuel + 1 => do
      let s := t.source
      let s := if s.mark.column == 0 && s.nextIs '\uFEFF' then s.skip 1 else s
      let tabs := t.inFlow || !t.keyAllowed
      let s ← s.skipWhile fun c => c == ' ' || (tabs && c == '\t')
      let s ← s.skipComment
      if !s.next.any isBreak then return { t with source := s }
      let (_, s) ← s.takeBreak
      skipToToken { t with source := s, keyAllowed := t.keyAllowed || !t.inFlow } fuel

/-- Ends the stream. -/
def findStreamEnd (t : TokenStream) : Except Fault TokenStream := do
  let m := t.mark
  let end' := if m.column == 0 then m else ⟨m.index, m.line + 1, 0⟩
  let t ← ({ t with source := { t.source with mark := end' } }.closeBlocks (-1)).removeKey
  return (t.allowKey false).pushNext .streamEnd 0

/-- Leaves all blocks in front of a directive or a document mark. -/
def leaveBlocks (t : TokenStream) : Except Fault TokenStream := do
  return (← (t.closeBlocks (-1)).removeKey).allowKey false

/-- Finds a directive. -/
def findDirective (t : TokenStream) : Except Fault TokenStream := do
  let t ← t.leaveBlocks
  let (kind, stop, source) ← readDirective t.source
  return { t.push ⟨kind, t.mark, stop⟩ with source }

/-- Finds the mark that starts or ends a document. -/
def findDocumentMark (t : TokenStream) (kind : TokenKind) : Except Fault TokenStream := do
  return (← t.leaveBlocks).pushNext kind 3

/-- Finds an opening bracket. -/
def findOpening (t : TokenStream) (kind : TokenKind) : Except Fault TokenStream := do
  let t ← t.saveKey
  return ({ t with keys := none :: t.keys }.allowKey true).pushNext kind 1

/-- Finds a closing bracket. -/
def findClosing (t : TokenStream) (kind : TokenKind) : Except Fault TokenStream := do
  let t ← t.removeKey
  let keys := if t.inFlow then t.keys.drop 1 else t.keys
  return ({ t with keys }.allowKey false).pushNext kind 1

/-- Finds a comma between brackets. -/
def findFlowEntry (t : TokenStream) : Except Fault TokenStream := do
  return ((← t.removeKey).allowKey true).pushNext .flowEntry 1

/-- Opens a block here, for which a key must be allowed. -/
def openBlockHere (t : TokenStream) (kind : TokenKind) (problem : Problem) :
    Except Fault TokenStream :=
  if t.inFlow then .ok t
  else if t.keyAllowed then .ok (t.openBlock t.mark.column none kind t.mark)
  else .error ⟨problem, t.mark, none⟩

/-- Finds a dash. -/
def findBlockEntry (t : TokenStream) : Except Fault TokenStream := do
  let t ← t.openBlockHere .blockSequenceStart .entryNotAllowed
  return ((← t.removeKey).allowKey true).pushNext .blockEntry 1

/-- Finds a question mark. -/
def findKey (t : TokenStream) : Except Fault TokenStream := do
  let t ← t.openBlockHere .blockMappingStart .keyNotAllowed
  let t ← t.removeKey
  return (t.allowKey (!t.inFlow)).pushNext .key 1

/-- Finds a colon; what may be a simple key turns out to be one. -/
def findValue (t : TokenStream) : Except Fault TokenStream :=
  match t.keys with
  | some key :: rest =>
      let t := t.insert key.token ⟨.key, key.mark, key.mark⟩
      let t := t.openBlock key.mark.column (some key.token) .blockMappingStart key.mark
      .ok (({ t with keys := none :: rest }.allowKey false).pushNext .value 1)
  | _ => do
      let t ← t.openBlockHere .blockMappingStart .valueNotAllowed
      return (t.allowKey (!t.inFlow)).pushNext .value 1

/-- Finds an anchor, an alias or a tag. -/
def findProperty (t : TokenStream) (read : Source → Except Fault (TokenKind × Source)) :
    Except Fault TokenStream := do
  let t := (← t.saveKey).allowKey false
  let (kind, source) ← read t.source
  return { t.push ⟨kind, t.mark, source.mark⟩ with source }

/-- Finds a block scalar. -/
def findBlockScalar (t : TokenStream) (style : ScalarStyle) : Except Fault TokenStream := do
  let t := (← t.removeKey).allowKey true
  let (text, stop, source) ←
    readBlock (style = .literal) t.indent t.mark (t.source.skip 1)
  return { t.push ⟨.scalar style text, t.mark, stop⟩ with source }

/-- Finds a quoted scalar. -/
def findQuoted (t : TokenStream) (style : ScalarStyle) (quote : Char) :
    Except Fault TokenStream := do
  let t := (← t.saveKey).allowKey false
  let s := t.source.skip 1
  let (text, source) ← readQuoted quote t.mark (s.size + 2) [] s
  return { t.push ⟨.scalar style text, t.mark, source.mark⟩ with source }

/-- Finds a plain scalar. -/
def findPlain (t : TokenStream) : Except Fault TokenStream := do
  let t := (← t.saveKey).allowKey false
  let s := t.source
  let p ← readPlain t.inFlow (t.indent + 1).toNat s.mark (s.size + 1)
    ⟨[], s.mark, false, s⟩ (.empty false)
  return { t.push ⟨.scalar .plain p.text, s.mark, p.stop⟩ with
    source := p.source, keyAllowed := p.brokenAfter }

/-- Whether a plain scalar may start with the next character. -/
def startsPlain (t : TokenStream) (c : Char) : Bool :=
  !(endsWord (some c) || "-?:,[]\x7b\x7d#&*!|>'\"%@\x60".toList.contains c)
    || (c == '-' && !(t.source.ahead 1).any isBlank)
    || (!t.inFlow && (c == '?' || c == ':') && !endsWord (t.source.ahead 1))

/-- Finds the next token, and with it those that it opens or closes. -/
def find (t : TokenStream) : Except Fault TokenStream := do
  t.source.reach 1
  if !t.started then return { t with started := true }.pushNext .streamStart 0
  let t ← t.skipToToken (t.source.size + 1)
  let t ← t.dropStaleKeys
  let t := t.closeBlocks t.mark.column
  let s := t.source
  s.reach 4
  let indicates := t.inFlow || endsWord (s.ahead 1)
  match s.next with
  | none => t.findStreamEnd
  | some c =>
      if c == '%' && s.mark.column == 0 then t.findDirective
      else if s.atIndicator '-' then t.findDocumentMark .documentStart
      else if s.atIndicator '.' then t.findDocumentMark .documentEnd
      else if c == '[' then t.findOpening .flowSequenceStart
      else if c == '\x7b' then t.findOpening .flowMappingStart
      else if c == ']' then t.findClosing .flowSequenceEnd
      else if c == '\x7d' then t.findClosing .flowMappingEnd
      else if c == ',' then t.findFlowEntry
      else if c == '-' && endsWord (s.ahead 1) then t.findBlockEntry
      else if c == '?' && indicates then t.findKey
      else if c == ':' && indicates then t.findValue
      else if c == '*' then t.findProperty (readAnchor .aliasName .aliasName)
      else if c == '&' then t.findProperty (readAnchor .anchor .anchor)
      else if c == '!' then t.findProperty (readTag t.inFlow)
      else if c == '|' && !t.inFlow then t.findBlockScalar .literal
      else if c == '>' && !t.inFlow then t.findBlockScalar .folded
      else if c == '\'' then t.findQuoted .singleQuoted c
      else if c == '"' then t.findQuoted .doubleQuoted c
      else if t.startsPlain c then t.findPlain
      else .error (s.fault .noToken .nextToken s.mark)

/-- Finds tokens until the first one in the queue is no possible key. -/
def findEnough : (fuel : Nat) → TokenStream → Except Fault TokenStream
  | 0, t => .ok t
  | fuel + 1, t =>
      if t.queue.isEmpty then do findEnough fuel (← t.find)
      else do
        let t ← t.dropStaleKeys
        if t.keys.any fun key? => key?.any (·.token == t.taken) then
          findEnough fuel (← t.find)
        else return t

/-- The next token, which stays in the stream.  Behind the end of the
    stream there is only its end. -/
def peek (t : TokenStream) : Except Fault (Token × TokenStream) := do
  let t ← findEnough (t.source.size + 3) t
  return (t.queue.headD ⟨.streamEnd, t.mark, t.mark⟩, t)

/-- Hands out the next token. -/
def skip (t : TokenStream) : TokenStream :=
  { t with queue := t.queue.drop 1, taken := t.taken + 1 }

end TokenStream

end DiskKeys.Yaml
