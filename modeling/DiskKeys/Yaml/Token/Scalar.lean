import DiskKeys.Yaml.Token.Basic

/-! # Scalars

    The text of a scalar in each of its five styles.  In all but the
    literal style lines are folded: a single break becomes a space, and of
    several breaks the first is left out. -/

namespace DiskKeys.Yaml

/-! ## White space between runs of text -/

/-- The white space between two runs of text. -/
structure Gap where
  /-- The blanks before the first line break, last first. -/
  blanks : List Char
  /-- Whether there is a line break; one that is escaped is not kept. -/
  broken : Bool
  /-- The first line break. -/
  firstBreak : List Char
  /-- The line breaks after it, last first. -/
  laterBreaks : List Char

namespace Gap

/-- No white space yet, behind an escaped line break or not. -/
def empty (broken : Bool) : Gap := ⟨[], broken, [], []⟩

/-- What stands for the white space in the folded text. -/
def text (g : Gap) : List Char :=
  if g.broken then
    if g.firstBreak == ['\n'] then
      if g.laterBreaks.isEmpty then [' '] else g.laterBreaks.reverse
    else g.firstBreak ++ g.laterBreaks.reverse
  else g.blanks.reverse

/-- Reads white space.  Behind a line break there must be no tab before
    the column `margin`. -/
def read (margin : Nat) (tabFault : Source → Fault) :
    (fuel : Nat) → Gap → Source → Except Fault (Gap × Source)
  | 0, g, s => .ok (g, s)
  | fuel + 1, g, s => do
      s.reach 1
      match s.next with
      | none => return (g, s)
      | some c =>
          if isBlank c then
            if g.broken then
              if s.mark.column < margin && c == '\t' then throw (tabFault s)
              read margin tabFault fuel g (s.skip 1)
            else read margin tabFault fuel { g with blanks := c :: g.blanks } (s.skip 1)
          else if isBreak c then
            let (lineBreak, s) ← s.takeBreak
            if g.broken then
              read margin tabFault fuel { g with laterBreaks := lineBreak ++ g.laterBreaks } s
            else
              read margin tabFault fuel
                { g with broken := true, blanks := [], firstBreak := lineBreak } s
          else return (g, s)

end Gap

/-! ## Plain scalars -/

/-- The flow indicators. -/
def isFlowIndicator (c : Char) : Bool :=
  c == ',' || c == '[' || c == ']' || c == '\x7b' || c == '\x7d'

/-- How many characters of a plain scalar come up to the next white space
    or end of the scalar, `n` of which have been counted, and whether the
    run ends at a colon that must not be there. -/
def plainRun (inFlow : Bool) (n : Nat) : List Char → Nat × Bool
  | [] => (n, false)
  | c :: rest =>
      let stuck := rest.head?.any fun d => isFlowIndicator d || d == '?'
      if endsWord (some c) then (n, false)
      else if inFlow && c == ':' && stuck then (n, true)
      else if c == ':' && endsWord rest.head? then (n, false)
      else if inFlow && isFlowIndicator c then (n, false)
      else plainRun inFlow (n + 1) rest

/-- A plain scalar in the middle of its text. -/
structure PlainScalar where
  /-- The runs of text and what stands for the white space between them,
      last first. -/
  runs : List (List Char)
  /-- The place where the last run ends. -/
  stop : Mark
  /-- Whether a line break was passed behind it. -/
  brokenAfter : Bool
  source : Source

/-- The text that has been read. -/
def PlainScalar.text (p : PlainScalar) : List Char :=
  p.runs.reverse.flatten

/-- Reads a plain scalar, of which `p` has been read. -/
def readPlain (inFlow : Bool) (margin : Nat) (since : Mark) :
    (fuel : Nat) → (p : PlainScalar) → (gap : Gap) → Except Fault PlainScalar
  | 0, p, _ => .ok p
  | fuel + 1, p, gap => do
      let s := p.source
      s.reach 4
      if s.atDocumentIndicator || s.nextIs '#' then return p
      let (n, bad) := plainRun inFlow 0 s.rest
      let after := s.skip n
      after.reach 2
      if bad then throw (after.fault .unexpectedColon .plainScalar since)
      if n == 0 then return p
      let p : PlainScalar :=
        ⟨s.rest.take n :: gap.text :: p.runs, after.mark, false, after⟩
      if after.next.isNone || !endsWord after.next then return p
      let (gap, s) ← Gap.read margin (·.fault .tabInPlain .plainScalar since)
        (after.size + 1) (.empty false) after
      let p := { p with brokenAfter := gap.broken, source := s }
      if !inFlow && s.mark.column < margin then return p
      readPlain inFlow margin since fuel p gap

/-! ## Quoted scalars -/

/-- What an escape stands for: a character, or a number with so many
    hexadecimal digits. -/
def escape? : Char → Option (Char ⊕ Nat)
  | '0' => some (.inl '\x00')
  | 'a' => some (.inl '\x07')
  | 'b' => some (.inl '\x08')
  | 't' => some (.inl '\t')
  | '\t' => some (.inl '\t')
  | 'n' => some (.inl '\n')
  | 'v' => some (.inl '\x0b')
  | 'f' => some (.inl '\x0c')
  | 'r' => some (.inl '\r')
  | 'e' => some (.inl '\x1b')
  | ' ' => some (.inl ' ')
  | '"' => some (.inl '"')
  | '/' => some (.inl '/')
  | '\\' => some (.inl '\\')
  | 'N' => some (.inl '\x85')
  | '_' => some (.inl '\xa0')
  | 'L' => some (.inl '\u2028')
  | 'P' => some (.inl '\u2029')
  | 'x' => some (.inr 2)
  | 'u' => some (.inr 4)
  | 'U' => some (.inr 8)
  | _ => none

/-- The value of a hexadecimal digit. -/
def hexDigit? (c : Char) : Option Nat :=
  if '0' ≤ c ∧ c ≤ '9' then some (c.toNat - 48)
  else if 'a' ≤ c ∧ c ≤ 'f' then some (c.toNat - 87)
  else if 'A' ≤ c ∧ c ≤ 'F' then some (c.toNat - 55)
  else none

/-- The number that exactly `n` hexadecimal digits spell. -/
def hexNumber? (n : Nat) (text : List Char) : Option Nat :=
  let digits := text.take n
  if digits.length < n then none
  else digits.foldl (fun acc c => do return 16 * (← acc) + (← hexDigit? c)) (some 0)

/-- The character with a number, if there is one. -/
def charOf? (n : Nat) : Option Char :=
  if n.isValidChar then some (.ofNat n) else none

/-- Reads the escape that comes next. -/
def readEscape (since : Mark) (s : Source) : Except Fault (Char × Source) :=
  match (s.ahead 1).bind escape? with
  | none => .error (s.fault .unknownEscape .quotedEscape since)
  | some (.inl c) => .ok (c, s.skip 2)
  | some (.inr size) => do
      let s := s.skip 2
      s.reach size
      match hexNumber? size s.rest with
      | none => throw (s.fault .noHexNumber .quotedEscape since)
      | some n =>
          match charOf? n with
          | none => throw (s.fault .badCodePoint .quotedEscape since)
          | some c => return (c, s.skip size)

/-- A run of text between white space: its characters, whether it ends in
    an escaped line break, and the source after it. -/
structure QuotedRun where
  text : List Char
  broken : Bool
  source : Source

/-- Reads a run of a quoted scalar, up to white space or the quote that
    closes the scalar; `text` is what has been read, last first. -/
def readQuotedRun (quote : Char) (since : Mark) :
    (fuel : Nat) → List Char → Source → Except Fault QuotedRun
  | 0, text, s => .ok ⟨text.reverse, false, s⟩
  | fuel + 1, text, s => do
      s.reach 2
      match s.next with
      | none => return ⟨text.reverse, false, s⟩
      | some c =>
          if endsWord (some c) then return ⟨text.reverse, false, s⟩
          else if c == '\'' && quote == '\'' && s.ahead 1 == some '\'' then
            readQuotedRun quote since fuel ('\'' :: text) (s.skip 2)
          else if c == quote then return ⟨text.reverse, false, s⟩
          else if c == '\\' && quote == '"' then
            if (s.ahead 1).any isBreak then
              return ⟨text.reverse, true, (← (s.skip 1).takeBreak).2⟩
            else
              let (c, s) ← readEscape since s
              readQuotedRun quote since fuel (c :: text) s
          else readQuotedRun quote since fuel (c :: text) (s.skip 1)

/-- Reads a quoted scalar from behind its opening quote to behind the
    closing one; `runs` are the runs of text that have been read and what
    stands for the white space between them, last first. -/
def readQuoted (quote : Char) (since : Mark) :
    (fuel : Nat) → List (List Char) → Source → Except Fault (List Char × Source)
  | 0, _, s => .error (s.fault .endOfStream .quotedScalar since)
  | fuel + 1, runs, s => do
      s.reach 4
      if s.atDocumentIndicator then
        throw (s.fault .documentIndicator .quotedScalar since)
      if s.next.isNone then throw (s.fault .endOfStream .quotedScalar since)
      let run ← readQuotedRun quote since (s.size + 1) [] s
      run.source.reach 1
      if run.source.nextIs quote then
        return ((run.text :: runs).reverse.flatten, run.source.skip 1)
      let (gap, s) ← Gap.read 0 (·.fault .tabInPlain .quotedScalar since)
        (s.size + 1) (.empty run.broken) run.source
      readQuoted quote since fuel (gap.text :: run.text :: runs) s

/-! ## Block scalars -/

/-- What becomes of the line breaks at the end of a block scalar. -/
inductive Chomping where
  /-- None is kept. -/
  | strip
  /-- The first is kept. -/
  | clip
  /-- All are kept. -/
  | keep
  deriving DecidableEq, Repr

/-- The head of a block scalar: how it ends, and how far it is indented, if
    that is said. -/
structure BlockHead where
  chomping : Chomping
  increment : Option Nat

/-- The chomping indicator that comes next, if any. -/
def readChomping (s : Source) : Option (Chomping × Source) :=
  if s.nextIs '+' then some (.keep, s.skip 1)
  else if s.nextIs '-' then some (.strip, s.skip 1)
  else none

/-- The indentation indicator that comes next, if any. -/
def readIncrement (since : Mark) (s : Source) : Except Fault (Option Nat × Source) :=
  match s.next with
  | some c =>
      if c == '0' then .error (s.fault .zeroIndentation .blockScalar since)
      else if c.isDigit then .ok (some (c.toNat - 48), s.skip 1)
      else .ok (none, s)
  | none => .ok (none, s)

/-- Reads the indicators of a block scalar, which come in either order. -/
def readBlockHead (since : Mark) (s : Source) : Except Fault (BlockHead × Source) := do
  s.reach 1
  match readChomping s with
  | some (chomping, s) =>
      s.reach 1
      let (increment, s) ← readIncrement since s
      return (⟨chomping, increment⟩, s)
  | none =>
      let (increment, s) ← readIncrement since s
      s.reach 1
      if increment.isNone then return (⟨.clip, none⟩, s)
      match readChomping s with
      | some (chomping, s) => return (⟨chomping, increment⟩, s)
      | none => return (⟨.clip, increment⟩, s)

/-- Passes over blanks and a comment to the end of a line, and over the
    line break. -/
def endLine (activity : Activity) (since : Mark) (s : Source) : Except Fault Source := do
  let s ← (← s.skipWhile isBlank).skipComment
  if !endsLine s.next then throw (s.fault .noLineEnd activity since)
  return (← s.takeBreak).2

/-- The empty lines between two lines of text. -/
structure BlockGap where
  /-- Their breaks, last first. -/
  breaks : List Char
  /-- The widest indentation seen. -/
  widest : Nat
  /-- The end of the last break. -/
  stop : Mark
  source : Source

/-- Reads indentation and empty lines; without a known indentation all
    spaces belong to it. -/
def readBlockGap (indent : Option Nat) (since : Mark) :
    (fuel : Nat) → BlockGap → Except Fault BlockGap
  | 0, g => .ok g
  | fuel + 1, g => do
      let s := g.source
      let spaces := (s.rest.takeWhile (· == ' ')).length
      let s := s.skip (match indent with
        | none => spaces
        | some n => min spaces (n - s.mark.column))
      s.reach 1
      let g := { g with widest := max g.widest s.mark.column, source := s }
      let indenting := match indent with
        | none => true
        | some n => s.mark.column < n
      if indenting && s.nextIs '\t' then
        throw (s.fault .tabInIndentation .blockScalar since)
      if !s.next.any isBreak then return g
      let (lineBreak, s) ← s.takeBreak
      readBlockGap indent since fuel
        { g with breaks := lineBreak ++ g.breaks, stop := s.mark, source := s }

/-- The text of a block scalar while it is read. -/
structure BlockText where
  /-- The lines and what stands between them, last first. -/
  lines : List (List Char)
  /-- The break of the last line that was read. -/
  lastBreak : List Char
  /-- Whether that line starts with a blank. -/
  startsBlank : Bool
  gap : BlockGap

/-- Reads the lines of a block scalar. -/
def readBlockLines (literal : Bool) (indent : Nat) (since : Mark) :
    (fuel : Nat) → BlockText → Except Fault BlockText
  | 0, t => .ok t
  | fuel + 1, t => do
      let s := t.gap.source
      if s.mark.column != indent || s.next.isNone then return t
      let blank := s.next.any isBlank
      let folds := !literal && t.lastBreak == ['\n'] && !t.startsBlank && !blank
      let joint :=
        if folds then if t.gap.breaks.isEmpty then [' '] else []
        else t.lastBreak
      let (line, s) ← s.span (!isBreak ·)
      let (lastBreak, s) ← s.takeBreak
      let gap ← readBlockGap (some indent) since (s.size + 1) ⟨[], 0, s.mark, s⟩
      readBlockLines literal indent since fuel
        ⟨line :: t.gap.breaks.reverse :: joint :: t.lines, lastBreak, blank, gap⟩

/-- Reads a block scalar from behind its first indicator, in a block that
    is indented by `parent`: its text, its end, and the source after it. -/
def readBlock (literal : Bool) (parent : Int) (since : Mark) (s : Source) :
    Except Fault (List Char × Mark × Source) := do
  let (head, s) ← readBlockHead since s
  let s ← endLine .blockScalar since s
  let indent := head.increment.map fun n => (max parent 0).toNat + n
  let gap ← readBlockGap indent since (s.size + 1) ⟨[], 0, s.mark, s⟩
  let indent := indent.getD (max (max gap.widest (parent + 1).toNat) 1)
  let t ← readBlockLines literal indent since (s.size + 1) ⟨[], [], false, gap⟩
  let tail := match head.chomping with
    | .strip => []
    | .clip => t.lastBreak
    | .keep => t.lastBreak ++ t.gap.breaks.reverse
  return ((tail :: t.lines).reverse.flatten, t.gap.stop, t.gap.source)

end DiskKeys.Yaml
