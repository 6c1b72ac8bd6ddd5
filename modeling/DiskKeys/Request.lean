import DiskKeys.Files.Path
import DiskKeys.Log
import DiskKeys.Text.Blank
import DiskKeys.Text.Decimal
import DiskKeys.Text.Occurs

/-! # Password requests

    A request is a text file of which only one section counts: the lines
    after the first line `[Ask]` up to the next line that starts with a
    bracket.  In it, `key=value` lines with a known key are fields; all
    else says nothing.  A request names exactly one socket.  Of any other
    field the last one counts, and a number that cannot be read is as good
    as missing, so that only the section and the socket decide whether a
    request is accepted; it is remarked on in the log. -/

namespace DiskKeys

/-- Why a text is no request. -/
inductive RequestError where
  | missingSection
  | missingSocket
  | duplicateSocket
  deriving DecidableEq, Repr

namespace Request

/-- The line that opens the section. -/
def sectionHeader : String := "[Ask]"

/-- The keys of the fields. -/
inductive Key where
  | message
  | socket
  | notAfter
  | pid
  deriving DecidableEq, Repr

/-- The word for a key in a request. -/
def Key.label : Key → String
  | .message => "Message"
  | .socket => "Socket"
  | .notAfter => "NotAfter"
  | .pid => "PID"

/-- The key that a word stands for. -/
def Key.ofLabel? (word : List Char) : Option Key :=
  [Key.message, .socket, .notAfter, .pid].find? fun key => word == key.label.toList

/-- A line that counts. -/
structure Field where
  key : Key
  value : List Char
  deriving DecidableEq, Repr

/-- The field that a line holds: what is before the first equals sign is
    its key, what is after it the value. -/
def Field.ofLine? (line : List Char) : Option Field :=
  match line.dropWhile (· ≠ '=') with
  | [] => none
  | _ :: value =>
      (Key.ofLabel? (Text.trim (line.takeWhile (· ≠ '=')))).map fun key =>
        ⟨key, Text.trim value⟩

/-- The lines of the section, if there is one. -/
def sectionLines? (lines : List (List Char)) : Option (List (List Char)) :=
  match lines.dropWhile (· ≠ sectionHeader.toList) with
  | [] => none
  | _ :: rest => some (rest.takeWhile fun line => line.head? ≠ some '[')

/-- The values of the fields with a key, in order. -/
def valuesOf (key : Key) (fields : List Field) : List (List Char) :=
  (fields.filter (·.key = key)).map (·.value)

end Request

/-- The text that reports the failure. -/
def RequestError.message : RequestError → String
  | .missingSection => s!"no {Request.sectionHeader} section in request"
  | .missingSocket => "request has no Socket= field"
  | .duplicateSocket => "request has more than one Socket= field"

/-- A request for a password. -/
structure Request where
  /-- The name of the file that holds the request. -/
  id : String
  message : String
  /-- Where the answer goes. -/
  socket : Path
  /-- When the request expires, in microseconds. -/
  notAfter : Option Nat
  /-- The process that asks. -/
  pid : Option Nat
  /-- Whether the boot key is wanted. -/
  isBoot : Bool
  deriving DecidableEq, Repr

namespace Request

/-- The largest deadline. -/
def maxDeadline : Nat := UInt64.size - 1

/-- The largest process number. -/
def maxPid : Nat := UInt32.size - 1

/-- The deadline that the last of the values gives; zero stands for none. -/
def deadline? (values : List (List Char)) : Option Nat :=
  (values.getLast?.bind (Text.decimal? maxDeadline)).filter (· ≠ 0)

/-- The process number that the last of the values gives. -/
def pid? (values : List (List Char)) : Option Nat :=
  values.getLast?.bind (Text.decimal? maxPid)

/-- The request that fields make up. -/
def ofFields (id : String) (marker : String) (fields : List Field) :
    Except RequestError Request :=
  match valuesOf .socket fields with
  | [] => .error .missingSocket
  | [socket] =>
      let message := (valuesOf .message fields).getLastD []
      .ok {
        id
        message := .ofList message
        socket := .ofString (.ofList socket)
        notAfter := deadline? (valuesOf .notAfter fields)
        pid := pid? (valuesOf .pid fields)
        isBoot := Text.occurs marker.toList message }
  | _ => .error .duplicateSocket

/-- Reads a request; it asks for the boot key if its message contains the
    marker. -/
def parse (id : String) (contents : String) (marker : String) : Except RequestError Request :=
  match sectionLines? (Text.trimmedLines contents.toList) with
  | none => .error .missingSection
  | some lines => ofFields id marker (lines.filterMap Field.ofLine?)

/-! ## Remarks -/

/-- The largest number that the value of a field can be, if it is one. -/
def Key.largest? : Key → Option Nat
  | .notAfter => some maxDeadline
  | .pid => some maxPid
  | .message | .socket => none

/-- The remark on a number that cannot be read. -/
def Field.remark? (f : Field) : Option LogLine :=
  match f.key.largest? with
  | some largest =>
      if (Text.decimal? largest f.value).isSome then none
      else some (.debug s!"ignoring unparseable {f.key.label}={Text.quoted (.ofList f.value)}")
  | none => none

/-- The fields that are looked at: a second socket ends the reading. -/
def lookedAt (fields : List Field) : List Field :=
  let before := fields.takeWhile (·.key ≠ .socket)
  match fields.dropWhile (·.key ≠ .socket) with
  | [] => before
  | socket :: rest => before ++ socket :: rest.takeWhile (·.key ≠ .socket)

/-- The remarks on what a text holds, when it is read as a request. -/
def remarks (contents : String) : List LogLine :=
  match sectionLines? (Text.trimmedLines contents.toList) with
  | none => []
  | some lines => (lookedAt (lines.filterMap Field.ofLine?)).filterMap Field.remark?

/-- Whether the deadline has come. -/
def isExpired (r : Request) (now : Nat) : Bool :=
  match r.notAfter with
  | some deadline => deadline ≤ now
  | none => false

end Request

end DiskKeys
