import Garage.Format.Display
import Garage.Format.Inspect

/-!
# Output errors

Why an output did not take what it was given: an error has a kind, a text, and for a fault of the
system the system's code.

* `ErrorKind`: the kinds, each with a name and a text.
* `SystemFault`: the faults of the system that are known, each with a code, a kind and a text.
* `IoError`: an error of an output.
-/

namespace Garage

open Format

inductive ErrorKind where
  | notFound
  | permissionDenied
  | connectionRefused
  | connectionReset
  | hostUnreachable
  | networkUnreachable
  | connectionAborted
  | notConnected
  | addrInUse
  | addrNotAvailable
  | networkDown
  | brokenPipe
  | alreadyExists
  | wouldBlock
  | notADirectory
  | isADirectory
  | directoryNotEmpty
  | readOnlyFilesystem
  | staleNetworkFileHandle
  | invalidInput
  | invalidData
  | timedOut
  | writeZero
  | storageFull
  | notSeekable
  | quotaExceeded
  | fileTooLarge
  | resourceBusy
  | interrupted
  | unsupported
  | unexpectedEof
  | outOfMemory
  | other
  /-- Only the system reports this kind. -/
  | inputOutputError
  /-- Only the system reports this kind. -/
  | uncategorized
  deriving DecidableEq, Repr

namespace ErrorKind

def name : ErrorKind → String
  | notFound => "NotFound"
  | permissionDenied => "PermissionDenied"
  | connectionRefused => "ConnectionRefused"
  | connectionReset => "ConnectionReset"
  | hostUnreachable => "HostUnreachable"
  | networkUnreachable => "NetworkUnreachable"
  | connectionAborted => "ConnectionAborted"
  | notConnected => "NotConnected"
  | addrInUse => "AddrInUse"
  | addrNotAvailable => "AddrNotAvailable"
  | networkDown => "NetworkDown"
  | brokenPipe => "BrokenPipe"
  | alreadyExists => "AlreadyExists"
  | wouldBlock => "WouldBlock"
  | notADirectory => "NotADirectory"
  | isADirectory => "IsADirectory"
  | directoryNotEmpty => "DirectoryNotEmpty"
  | readOnlyFilesystem => "ReadOnlyFilesystem"
  | staleNetworkFileHandle => "StaleNetworkFileHandle"
  | invalidInput => "InvalidInput"
  | invalidData => "InvalidData"
  | timedOut => "TimedOut"
  | writeZero => "WriteZero"
  | storageFull => "StorageFull"
  | notSeekable => "NotSeekable"
  | quotaExceeded => "QuotaExceeded"
  | fileTooLarge => "FileTooLarge"
  | resourceBusy => "ResourceBusy"
  | interrupted => "Interrupted"
  | unsupported => "Unsupported"
  | unexpectedEof => "UnexpectedEof"
  | outOfMemory => "OutOfMemory"
  | other => "Other"
  | inputOutputError => "InputOutputError"
  | uncategorized => "Uncategorized"

def text : ErrorKind → String
  | notFound => "entity not found"
  | permissionDenied => "permission denied"
  | connectionRefused => "connection refused"
  | connectionReset => "connection reset"
  | hostUnreachable => "host unreachable"
  | networkUnreachable => "network unreachable"
  | connectionAborted => "connection aborted"
  | notConnected => "not connected"
  | addrInUse => "address in use"
  | addrNotAvailable => "address not available"
  | networkDown => "network down"
  | brokenPipe => "broken pipe"
  | alreadyExists => "entity already exists"
  | wouldBlock => "operation would block"
  | notADirectory => "not a directory"
  | isADirectory => "is a directory"
  | directoryNotEmpty => "directory not empty"
  | readOnlyFilesystem => "read-only filesystem or storage medium"
  | staleNetworkFileHandle => "stale network file handle"
  | invalidInput => "invalid input parameter"
  | invalidData => "invalid data"
  | timedOut => "timed out"
  | writeZero => "write zero"
  | storageFull => "no storage space"
  | notSeekable => "seek on unseekable file"
  | quotaExceeded => "quota exceeded"
  | fileTooLarge => "file too large"
  | resourceBusy => "resource busy"
  | interrupted => "operation interrupted"
  | unsupported => "unsupported"
  | unexpectedEof => "unexpected end of file"
  | outOfMemory => "out of memory"
  | other => "other error"
  | inputOutputError => "input/output error"
  | uncategorized => "uncategorized error"

def named : List ErrorKind :=
  [notFound, permissionDenied, connectionRefused, connectionReset, hostUnreachable,
   networkUnreachable, connectionAborted, notConnected, addrInUse, addrNotAvailable, networkDown,
   brokenPipe, alreadyExists, wouldBlock, notADirectory, isADirectory, directoryNotEmpty,
   readOnlyFilesystem, staleNetworkFileHandle, invalidInput, invalidData, timedOut, writeZero,
   storageFull, notSeekable, quotaExceeded, fileTooLarge, resourceBusy, interrupted, unsupported,
   unexpectedEof, outOfMemory, other]

/-- The kind of a name. The kinds that only the system reports have no name to be given by. -/
def ofName? (s : String) : Option ErrorKind :=
  named.find? (·.name == s)

end ErrorKind

inductive SystemFault where
  | notPermitted
  | noSuchFile
  | inputOutput
  | badDescriptor
  | tryAgain
  | noMemory
  | accessDenied
  | fileExists
  | notADirectory
  | isADirectory
  | invalidArgument
  | fileTooLarge
  | noSpace
  | readOnly
  | brokenPipe
  | connectionReset
  | timedOut
  | connectionRefused
  | quotaExceeded
  deriving DecidableEq, Repr

namespace SystemFault

def code : SystemFault → Int32
  | notPermitted => 1
  | noSuchFile => 2
  | inputOutput => 5
  | badDescriptor => 9
  | tryAgain => 11
  | noMemory => 12
  | accessDenied => 13
  | fileExists => 17
  | notADirectory => 20
  | isADirectory => 21
  | invalidArgument => 22
  | fileTooLarge => 27
  | noSpace => 28
  | readOnly => 30
  | brokenPipe => 32
  | connectionReset => 104
  | timedOut => 110
  | connectionRefused => 111
  | quotaExceeded => 122

def kind : SystemFault → ErrorKind
  | notPermitted => .permissionDenied
  | noSuchFile => .notFound
  | inputOutput => .inputOutputError
  | badDescriptor => .uncategorized
  | tryAgain => .wouldBlock
  | noMemory => .outOfMemory
  | accessDenied => .permissionDenied
  | fileExists => .alreadyExists
  | notADirectory => .notADirectory
  | isADirectory => .isADirectory
  | invalidArgument => .invalidInput
  | fileTooLarge => .fileTooLarge
  | noSpace => .storageFull
  | readOnly => .readOnlyFilesystem
  | brokenPipe => .brokenPipe
  | connectionReset => .connectionReset
  | timedOut => .timedOut
  | connectionRefused => .connectionRefused
  | quotaExceeded => .quotaExceeded

def text : SystemFault → String
  | notPermitted => "Operation not permitted"
  | noSuchFile => "No such file or directory"
  | inputOutput => "Input/output error"
  | badDescriptor => "Bad file descriptor"
  | tryAgain => "Resource temporarily unavailable"
  | noMemory => "Cannot allocate memory"
  | accessDenied => "Permission denied"
  | fileExists => "File exists"
  | notADirectory => "Not a directory"
  | isADirectory => "Is a directory"
  | invalidArgument => "Invalid argument"
  | fileTooLarge => "File too large"
  | noSpace => "No space left on device"
  | readOnly => "Read-only file system"
  | brokenPipe => "Broken pipe"
  | connectionReset => "Connection reset by peer"
  | timedOut => "Connection timed out"
  | connectionRefused => "Connection refused"
  | quotaExceeded => "Disk quota exceeded"

def all : List SystemFault :=
  [notPermitted, noSuchFile, inputOutput, badDescriptor, tryAgain, noMemory, accessDenied,
   fileExists, notADirectory, isADirectory, invalidArgument, fileTooLarge, noSpace, readOnly,
   brokenPipe, connectionReset, timedOut, connectionRefused, quotaExceeded]

def ofCode? (code : Int) : Option SystemFault :=
  all.find? (·.code.toInt == code)

end SystemFault

inductive IoError where
  /-- An error with a message of its own. -/
  | custom (kind : ErrorKind) (message : String)
  /-- An error that is nothing but its kind. -/
  | bare (kind : ErrorKind)
  | os (fault : SystemFault)
  /-- The output took nothing of what was left to write. -/
  | shortWrite
  deriving DecidableEq, Repr

namespace IoError

/-- What a write ends with when the output takes nothing. -/
def shortWriteMessage : String := "failed to write whole buffer"

def kind : IoError → ErrorKind
  | custom kind _ => kind
  | bare kind => kind
  | os fault => fault.kind
  | shortWrite => .writeZero

/-- The system's code, if the system reported the error. -/
def osCode? : IoError → Option Int32
  | os fault => some fault.code
  | _ => none

/-- The message of a `custom` error and that of `shortWrite` are texts like any other and follow the
spec of the place. The texts of `bare` and `os` have placeholders of their own. -/
instance : Display IoError where
  fragments spec error := match error with
    | custom _ message => Display.fragments spec message
    | bare kind => [kind.text.toList]
    | os fault =>
      [fault.text.toList, " (os error ".toList] ++ Display.fragments .plain fault.code ++ [[')']]
    | shortWrite => Display.fragments spec shortWriteMessage

instance : Inspect IoError where
  doc number error := match error with
    | custom kind message => .record "Custom"
      [("kind", .word kind.name.toList), ("error", .quoted message)]
    | bare kind => .tuple "Kind" (.word kind.name.toList)
    | os fault => .record "Os"
      [("code", .word (number fault.code)), ("kind", .word fault.kind.name.toList),
       ("message", .quoted fault.text)]
    | shortWrite => .record "Error"
      [("kind", .word ErrorKind.writeZero.name.toList), ("message", .quoted shortWriteMessage)]

end IoError

end Garage
