import DiskKeys.Files.Path

/-! # Notices about a watched directory

    What happens in a watched directory is queued as events.  An event
    equal to the last one in the queue merges with it, if that is the rule;
    a full queue takes one more event that says so, and then nothing until
    it is read.  A read hands out the longest run of events that fits in a
    buffer.  Of the events, only an overflow and those with a name that is
    text mean something to the agent. -/

namespace DiskKeys

/-- What an event is about. -/
inductive EventKind where
  /-- A file that was open for writing has been closed. -/
  | written
  /-- Something has been moved in. -/
  | movedIn (directory : Bool)
  /-- The watch is over, for what it watched is gone. -/
  | ended
  /-- The queue was full. -/
  | overflow
  deriving DecidableEq, Repr

/-- An entry of the queue. -/
structure Event where
  kind : EventKind
  /-- The name in the watched directory; none if the event is about what is
      watched itself. -/
  name : Option Name
  deriving DecidableEq, Repr

/-- What an event means to the agent. -/
inductive Notice where
  | changed (name : String)
  | overflow
  deriving DecidableEq, Repr

namespace Event

/-- The bytes of an event without its name. -/
def headerSize : Nat := 16

/-- The bytes that an event takes in a buffer: the name is closed by a zero
    byte and filled up to a multiple of the header. -/
def size (e : Event) : Nat :=
  match e.name with
  | none => headerSize
  | some name => headerSize + (name.length + headerSize) / headerSize * headerSize

/-- Whether a new event merges with the one queued last. -/
def mergesWith (new last : Event) : Bool :=
  new == last && last.kind != .ended

/-- What an event means. -/
def notice? (e : Event) : Option Notice :=
  if e.kind = .overflow then some .overflow
  else (e.name.bind Text.Utf8.decode?).map .changed

end Event

/-- How events are queued. -/
structure QueueRules where
  /-- How many events a queue takes before it overflows. -/
  limit : Nat := 16384
  /-- Whether an event merges with the one queued last if they are equal. -/
  merging : Bool := true
  deriving DecidableEq, Repr

/-- Events that have not been read, in the order in which they came. -/
structure EventQueue where
  events : Array Event
  deriving DecidableEq, Repr

namespace EventQueue

/-- A queue without events. -/
def empty : EventQueue := ⟨#[]⟩

/-- The event that says that others are missing. -/
def overflowed : Event := ⟨.overflow, none⟩

/-- Queues an event, unless it merges with the last one or is lost. -/
def push (rules : QueueRules) (q : EventQueue) (e : Event) : EventQueue :=
  if rules.limit ≤ q.events.size then
    if q.events.contains overflowed then q else ⟨q.events.push overflowed⟩
  else match q.events.back? with
    | some last => if rules.merging && e.mergesWith last then q else ⟨q.events.push e⟩
    | none => ⟨q.events.push e⟩

/-! ## Reading -/

/-- The size of the buffer that a read fills. -/
def bufferSize : Nat := 4096

/-- Splits events into the longest run that fits in `room` bytes and the
    rest. -/
def fitting : (room : Nat) → List Event → List Event × List Event
  | _, [] => ([], [])
  | room, e :: rest =>
      if e.size ≤ room then
        let (now, later) := fitting (room - e.size) rest
        (e :: now, later)
      else ([], e :: rest)

/-- A read loses nothing and keeps the order. -/
theorem fitting_append (room : Nat) (events : List Event) :
    (fitting room events).1 ++ (fitting room events).2 = events := by
  induction events generalizing room with
  | nil => rfl
  | cons e rest ih =>
      rw [fitting]
      by_cases h : e.size ≤ room
      · simp only [h, if_true, List.cons_append, ih]
      · simp [h]

/-- The notices that reading yields, and the events that stay behind.
    Reading goes on until a batch holds no notice. -/
def drainEvents (events : List Event) : List Notice × List Event :=
  let batch := fitting bufferSize events
  let notices := batch.1.filterMap Event.notice?
  if notices = [] then ([], batch.2)
  else
    let more := drainEvents batch.2
    (notices ++ more.1, more.2)
termination_by events.length
decreasing_by
  rename_i h
  have hlen := congrArg List.length (fitting_append bufferSize events)
  rw [List.length_append] at hlen
  have hpos : 0 < (fitting bufferSize events).1.length := by
    rcases hb : (fitting bufferSize events).1 with _ | ⟨e, rest⟩
    · exact absurd (by rw [show notices = [] from by simp [notices, batch, hb]]) h
    · simp
  show (fitting bufferSize events).2.length < events.length
  omega

/-- Reads the notices of a queue. -/
def drain (q : EventQueue) : List Notice × EventQueue :=
  let (notices, later) := drainEvents q.events.toList
  (notices, ⟨later.toArray⟩)

end EventQueue

end DiskKeys
