import DiskKeys.Yaml.Meaning
import DiskKeys.Yaml.Token.Stream

/-! # Events

    A document is a sequence of events: scalars, aliases, and the starts and
    ends of collections.  Events are read one document at a time, and what
    was read before a fault is kept, because a document can be judged by
    its beginning. -/

namespace DiskKeys.Yaml

/-- A part of a document.  Anchors name the nodes that aliases stand for. -/
inductive Event where
  | aliasOf (name : List Char)
  | scalar (anchor : Option (List Char)) (node : Scalar)
  | sequenceStart (anchor : Option (List Char))
  | sequenceEnd
  | mappingStart (anchor : Option (List Char))
  | mappingEnd
  deriving DecidableEq, Repr

/-- The state of reading events. -/
structure EventReader where
  tokens : TokenStream
  /-- The events of the document so far, with the places where they
      start. -/
  events : Array (Event × Mark)
  /-- What the handles of tags stand for. -/
  handles : List (List Char × List Char)

/-- Reading that may break off; what was read so far stays. -/
abbrev Reading := ExceptT Fault (StateM EventReader)

namespace EventReader

/-- Looks at the next token. -/
def peek : Reading Token := do
  match (← get).tokens.peek with
  | .ok (token, tokens) =>
      modify fun r => { r with tokens }
      return token
  | .error fault => throw fault

/-- Passes over a token that has been looked at. -/
def skip : Reading Unit :=
  modify fun r => { r with tokens := r.tokens.skip }

/-- Adds an event. -/
def emit (event : Event) (mark : Mark) : Reading Unit :=
  modify fun r => { r with events := r.events.push (event, mark) }

/-- Adds the scalar that stands for a node that is not there. -/
def emitEmpty (mark : Mark) : Reading Unit :=
  emit (.scalar none ⟨none, .plain, []⟩) mark

/-! ## Directives -/

/-- The handles that need not be declared. -/
def standardHandles : List (List Char × List Char) :=
  [(['!'], ['!']), (['!', '!'], "tag:yaml.org,2002:".toList)]

/-- Reads directives; `versioned` says whether one has given a version. -/
def readDirectives : (fuel : Nat) → (versioned : Bool) → Reading Unit
  | 0, _ => return ()
  | fuel + 1, versioned => do
      let token ← peek
      match token.kind with
      | .versionDirective major minor =>
          if versioned then throw ⟨.duplicateVersion, token.start, none⟩
          if major != 1 || (minor != 1 && minor != 2) then
            throw ⟨.incompatibleVersion, token.start, none⟩
          skip
          readDirectives fuel true
      | .tagDirective handle head =>
          if ((← get).handles.lookup handle).isSome then
            throw ⟨.duplicateHandle, token.start, none⟩
          modify fun r => { r with handles := r.handles ++ [(handle, head)] }
          skip
          readDirectives fuel versioned
      | _ => return ()

/-- The full tag for a handle and a suffix. -/
def expandTag (handle suffix : List Char) (since mark : Mark) : Reading (List Char) := do
  if handle.isEmpty then return suffix
  match ((← get).handles ++ standardHandles).lookup handle with
  | some head => return head ++ suffix
  | none => throw ⟨.undefinedHandle, mark, some (.node, since)⟩

/-! ## Nodes -/

/-- The anchor and tag of a node. -/
structure Properties where
  anchor : Option (List Char)
  tag : Option (List Char)
  /-- Where they start, if there are any. -/
  start : Option Mark

/-- Reads the anchor and the tag of a node, which come in either order. -/
def readProperties : Reading Properties := do
  let first ← peek
  match first.kind with
  | .anchor name =>
      skip
      let second ← peek
      match second.kind with
      | .tag handle suffix =>
          skip
          let _ ← peek
          let tag ← expandTag handle suffix first.start second.start
          return ⟨some name, some tag, some first.start⟩
      | _ => return ⟨some name, none, some first.start⟩
  | .tag handle suffix =>
      skip
      let second ← peek
      match second.kind with
      | .anchor name =>
          skip
          let _ ← peek
          let tag ← expandTag handle suffix first.start first.start
          return ⟨some name, some tag, some first.start⟩
      | _ =>
          let tag ← expandTag handle suffix first.start first.start
          return ⟨none, some tag, some first.start⟩
  | _ => return ⟨none, none, none⟩

/-- Which collections a node may be. -/
inductive Context where
  /-- Between brackets only other brackets may be opened. -/
  | flow
  | block
  /-- The entry of a block mapping may also be a sequence that is not
      indented. -/
  | blockEntry
  deriving DecidableEq, Repr

/-- The scalar that a token and properties make.  A lone exclamation mark
    is no tag. -/
def scalarOf (p : Properties) (style : ScalarStyle) (text : List Char) : Scalar :=
  ⟨if p.tag == some ['!'] then none else p.tag, style, text⟩

/-- The fuel of a part of what is being read. -/
abbrev Fuel := Nat

mutual

/-- Reads a node. -/
def readNode (context : Context) : Fuel → Reading Unit
  | 0 => return ()
  | fuel + 1 => do
      let first ← peek
      match first.kind with
      | .aliasName name =>
          skip
          emit (.aliasOf name) first.start
      | _ =>
          let p ← readProperties
          let token ← peek
          let mark := p.start.getD token.start
          match token.kind with
          | .scalar style text =>
              skip
              emit (.scalar p.anchor (scalarOf p style text)) mark
          | .flowSequenceStart =>
              emit (.sequenceStart p.anchor) mark
              skip
              readFlowSequence token.start true fuel
          | .flowMappingStart =>
              emit (.mappingStart p.anchor) mark
              skip
              readFlowMapping token.start true fuel
          | .blockSequenceStart =>
              if context = .flow then readNothing context p mark token
              else
                emit (.sequenceStart p.anchor) mark
                skip
                readBlockSequence token.start fuel
          | .blockMappingStart =>
              if context = .flow then readNothing context p mark token
              else
                emit (.mappingStart p.anchor) mark
                skip
                readBlockMapping token.start fuel
          | .blockEntry =>
              if context = .blockEntry then
                emit (.sequenceStart p.anchor) mark
                readIndentlessSequence fuel
              else readNothing context p mark token
          | _ => readNothing context p mark token

/-- A node of which only the properties are there. -/
def readNothing (context : Context) (p : Properties) (mark : Mark) (token : Token) :
    Reading Unit :=
  if p.start.isSome then emit (.scalar p.anchor ⟨p.tag, .plain, []⟩) mark
  else
    throw ⟨.noNode, token.start,
      some (if context = .flow then .flowNode else .blockNode, mark)⟩

/-- Reads the entries of a block sequence. -/
def readBlockSequence (since : Mark) : Fuel → Reading Unit
  | 0 => return ()
  | fuel + 1 => do
      let token ← peek
      match token.kind with
      | .blockEntry =>
          skip
          match (← peek).kind with
          | .blockEntry | .blockEnd => emitEmpty token.stop
          | _ => readNode .block fuel
          readBlockSequence since fuel
      | .blockEnd =>
          emit .sequenceEnd token.start
          skip
      | _ => throw ⟨.noEntry, token.start, some (.blockCollection, since)⟩

/-- Reads the entries of a block sequence that is not indented. -/
def readIndentlessSequence : Fuel → Reading Unit
  | 0 => return ()
  | fuel + 1 => do
      let token ← peek
      match token.kind with
      | .blockEntry =>
          skip
          match (← peek).kind with
          | .blockEntry | .key | .value | .blockEnd => emitEmpty token.stop
          | _ => readNode .block fuel
          readIndentlessSequence fuel
      | _ => emit .sequenceEnd token.start

/-- Reads the entries of a block mapping. -/
def readBlockMapping (since : Mark) : Fuel → Reading Unit
  | 0 => return ()
  | fuel + 1 => do
      let token ← peek
      match token.kind with
      | .key =>
          skip
          match (← peek).kind with
          | .key | .value | .blockEnd => emitEmpty token.stop
          | _ => readNode .blockEntry fuel
          readBlockValue fuel
          readBlockMapping since fuel
      | .blockEnd =>
          emit .mappingEnd token.start
          skip
      | _ => throw ⟨.noKey, token.start, some (.blockMapping, since)⟩

/-- Reads the value of an entry of a block mapping. -/
def readBlockValue : Fuel → Reading Unit
  | 0 => return ()
  | fuel + 1 => do
      let token ← peek
      match token.kind with
      | .value =>
          skip
          match (← peek).kind with
          | .key | .value | .blockEnd => emitEmpty token.stop
          | _ => readNode .blockEntry fuel
      | _ => emitEmpty token.start

/-- Reads the entries of a sequence between brackets. -/
def readFlowSequence (since : Mark) (first : Bool) : Fuel → Reading Unit
  | 0 => return ()
  | fuel + 1 => do
      let token ← nextEntry .flowSequenceEnd first ⟨.noSequenceEnd, since, some (.flowSequence, since)⟩
      match token.kind with
      | .flowSequenceEnd =>
          emit .sequenceEnd token.start
          skip
      | .key =>
          emit (.mappingStart none) token.start
          skip
          readFlowPair fuel
          readFlowSequence since false fuel
      | _ =>
          readNode .flow fuel
          readFlowSequence since false fuel

/-- The first token of an entry between brackets, behind the comma that
    must come before all entries but the first. -/
def nextEntry (close : TokenKind) (first : Bool) (fault : Fault) : Reading Token := do
  let token ← peek
  if token.kind = close || first then return token
  if token.kind ≠ .flowEntry then throw { fault with mark := token.start }
  skip
  peek

/-- Reads the only entry of a mapping that is an entry of a sequence. -/
def readFlowPair : Fuel → Reading Unit
  | 0 => return ()
  | fuel + 1 => do
      let token ← peek
      match token.kind with
      | .value | .flowEntry | .flowSequenceEnd =>
          skip
          emitEmpty token.stop
      | _ => readNode .flow fuel
      readFlowValue .flowSequenceEnd fuel
      emit .mappingEnd (← peek).start

/-- Reads the value of an entry between brackets. -/
def readFlowValue (close : TokenKind) : Fuel → Reading Unit
  | 0 => return ()
  | fuel + 1 => do
      let token ← peek
      if token.kind = .value then
        skip
        let token ← peek
        if token.kind = .flowEntry || token.kind = close then emitEmpty token.start
        else readNode .flow fuel
      else emitEmpty token.start

/-- Reads the entries of a mapping between brackets. -/
def readFlowMapping (since : Mark) (first : Bool) : Fuel → Reading Unit
  | 0 => return ()
  | fuel + 1 => do
      let token ← nextEntry .flowMappingEnd first ⟨.noMappingEnd, since, some (.flowMapping, since)⟩
      match token.kind with
      | .flowMappingEnd =>
          emit .mappingEnd token.start
          skip
      | .key =>
          skip
          let token ← peek
          match token.kind with
          | .value | .flowEntry | .flowMappingEnd => emitEmpty token.start
          | _ => readNode .flow fuel
          readFlowValue .flowMappingEnd fuel
          readFlowMapping since false fuel
      | _ =>
          readNode .flow fuel
          emitEmpty (← peek).start
          readFlowMapping since false fuel

end

/-! ## Documents -/

/-- Passes over marks that end a document. -/
def skipDocumentEnds : (fuel : Nat) → Reading Unit
  | 0 => return ()
  | fuel + 1 => do
      if (← peek).kind = .documentEnd then
        skip
        skipDocumentEnds fuel

/-- Reads up to the content of the next document, if there is one, and says
    whether its start is marked.  Only the first document may start without
    a mark. -/
def startDocument (first : Bool) (fuel : Nat) : Reading (Option Bool) := do
  if !first then skipDocumentEnds fuel
  let token ← peek
  match token.kind with
  | .streamEnd => return none
  | .versionDirective .. | .tagDirective .. | .documentStart =>
      readDirectives fuel false
      let token ← peek
      if token.kind ≠ .documentStart then throw ⟨.noDocumentStart, token.start, none⟩
      skip
      return some true
  | _ =>
      if first then return some false
      throw ⟨.noDocumentStart, token.start, none⟩

/-- Reads the content of a document. -/
def readContent (marked : Bool) (fuel : Nat) : Reading Unit := do
  if !marked then readNode .block fuel
  else
    let token ← peek
    match token.kind with
    | .versionDirective .. | .tagDirective .. | .documentStart | .documentEnd | .streamEnd =>
        emitEmpty token.start
    | _ => readNode .block fuel

/-- Reads the end of a document. -/
def endDocument : Reading Unit := do
  if (← peek).kind = .documentEnd then skip
  modify fun r => { r with handles := [] }

/-- Reads the first document; the answer is whether there is one. -/
def readFirst (fuel : Nat) : Reading Bool := do
  let _ ← peek
  skip
  match ← startDocument true fuel with
  | none => return false
  | some marked =>
      readContent marked fuel
      endDocument
      return true

/-- Whether anything comes after the first document. -/
def hasMore (fuel : Nat) : Reading Bool := do
  return (← startDocument false fuel).isSome

/-- A reader at the start of a text. -/
def ofSource (source : Source) : EventReader :=
  ⟨.ofSource source, #[], []⟩

/-- More steps than reading a text takes. -/
def fuelFor (source : Source) : Nat :=
  8 * source.size + 64

end EventReader

end DiskKeys.Yaml
