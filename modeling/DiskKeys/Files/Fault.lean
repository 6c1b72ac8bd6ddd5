/-! # Faults

    Why the file system, a socket or a byte stream refused what it was
    asked.  Most faults have a number by which the system knows them; the
    others are found before the system is asked. -/

namespace DiskKeys

/-- Why an operation on files or sockets failed. -/
inductive Fault where
  | noEntry
  | noDevice
  | permissionDenied
  | busy
  | alreadyExists
  | notDirectory
  | isDirectory
  | invalidArgument
  | nameTooLong
  | directoryNotEmpty
  | messageTooLong
  | addressInUse
  | connectionRefused
  /-- Bytes that should be text are not. -/
  | notText
  /-- The name of a file holds a zero byte. -/
  | nulInFileName
  /-- The path of a socket holds a zero byte. -/
  | nulInSocketPath
  /-- The path of a directory to watch holds a zero byte. -/
  | nulInWatchedPath
  /-- The path of a socket does not fit in an address. -/
  | socketPathTooLong
  /-- A directory and all that are above it are missing. -/
  | noRoot
  /-- Every name that was tried for a new file is taken. -/
  | noFreshName
  /-- The device failed, for a reason that lies in no file, such as having no
      room left. -/
  | device (text : String)
  deriving DecidableEq, Repr

namespace Fault

/-- The text of a fault that the system numbers. -/
def numbered (text : String) (number : Nat) : String :=
  s!"{text} (os error {number})"

/-- The text that reports the fault. -/
def message : Fault → String
  | noEntry => numbered "No such file or directory" 2
  | noDevice => numbered "No such device or address" 6
  | permissionDenied => numbered "Permission denied" 13
  | busy => numbered "Device or resource busy" 16
  | alreadyExists => numbered "File exists" 17
  | notDirectory => numbered "Not a directory" 20
  | isDirectory => numbered "Is a directory" 21
  | invalidArgument => numbered "Invalid argument" 22
  | nameTooLong => numbered "File name too long" 36
  | directoryNotEmpty => numbered "Directory not empty" 39
  | messageTooLong => numbered "Message too long" 90
  | addressInUse => numbered "Address already in use" 98
  | connectionRefused => numbered "Connection refused" 111
  | notText => "stream did not contain valid UTF-8"
  | nulInFileName => "file name contained an unexpected NUL byte"
  | nulInSocketPath => "paths must not contain interior null bytes"
  | nulInWatchedPath => "data provided contains a nul byte"
  | socketPathTooLong => "path must be shorter than SUN_LEN"
  | noRoot => "failed to create whole tree"
  | noFreshName => "too many temporary files exist"
  | device text => text

end Fault

end DiskKeys
