/-!
# Faults of system calls

The kinds of failure a read, a write or a connection attempt can report, the system's numbers for
them, and the two classes the protocol distinguishes: a time-out, after which the peer may still
answer, and a disconnection, after which it cannot.
-/

namespace LoopbackLock

/-- A kind of input or output failure. -/
inductive FaultKind
  | notFound | permissionDenied | connectionRefused | connectionReset | hostUnreachable
  | networkUnreachable | connectionAborted | notConnected | addrInUse | addrNotAvailable
  | networkDown | brokenPipe | alreadyExists | wouldBlock | notADirectory | isADirectory
  | directoryNotEmpty | readOnlyFilesystem | filesystemLoop | staleNetworkFileHandle
  | invalidInput | invalidData | timedOut | writeZero | storageFull | notSeekable
  | quotaExceeded | fileTooLarge | resourceBusy | executableFileBusy | deadlock
  | crossesDevices | tooManyLinks | invalidFilename | argumentListTooLong | interrupted
  | unsupported | unexpectedEof | outOfMemory | inProgress | other | uncategorized
  deriving DecidableEq, Repr

namespace FaultKind

/-- All kinds. -/
def all : List FaultKind :=
  [notFound, permissionDenied, connectionRefused, connectionReset, hostUnreachable,
    networkUnreachable, connectionAborted, notConnected, addrInUse, addrNotAvailable,
    networkDown, brokenPipe, alreadyExists, wouldBlock, notADirectory, isADirectory,
    directoryNotEmpty, readOnlyFilesystem, filesystemLoop, staleNetworkFileHandle,
    invalidInput, invalidData, timedOut, writeZero, storageFull, notSeekable,
    quotaExceeded, fileTooLarge, resourceBusy, executableFileBusy, deadlock,
    crossesDevices, tooManyLinks, invalidFilename, argumentListTooLong, interrupted,
    unsupported, unexpectedEof, outOfMemory, inProgress, other, uncategorized]

/-- The name of a kind. -/
def name : FaultKind → String
  | notFound => "NotFound"
  | permissionDenied => "PermissionDenied"
  | connectionRefused => "ConnectionRefused"
  | connectionReset => "ConnectionReset"
  | hostUnreachable => "HostUnreachable"
  | networkUnreachable => "NetworkUnreachable"
  | connectionAborted => "ConnectionAborted"
  | notConnected => "NotConnected"
  | addrInUse => "AddrInUse"
  | addrNotAvailable => "AddrNotAvailable"
  | networkDown => "NetworkDown"
  | brokenPipe => "BrokenPipe"
  | alreadyExists => "AlreadyExists"
  | wouldBlock => "WouldBlock"
  | notADirectory => "NotADirectory"
  | isADirectory => "IsADirectory"
  | directoryNotEmpty => "DirectoryNotEmpty"
  | readOnlyFilesystem => "ReadOnlyFilesystem"
  | filesystemLoop => "FilesystemLoop"
  | staleNetworkFileHandle => "StaleNetworkFileHandle"
  | invalidInput => "InvalidInput"
  | invalidData => "InvalidData"
  | timedOut => "TimedOut"
  | writeZero => "WriteZero"
  | storageFull => "StorageFull"
  | notSeekable => "NotSeekable"
  | quotaExceeded => "QuotaExceeded"
  | fileTooLarge => "FileTooLarge"
  | resourceBusy => "ResourceBusy"
  | executableFileBusy => "ExecutableFileBusy"
  | deadlock => "Deadlock"
  | crossesDevices => "CrossesDevices"
  | tooManyLinks => "TooManyLinks"
  | invalidFilename => "InvalidFilename"
  | argumentListTooLong => "ArgumentListTooLong"
  | interrupted => "Interrupted"
  | unsupported => "Unsupported"
  | unexpectedEof => "UnexpectedEof"
  | outOfMemory => "OutOfMemory"
  | inProgress => "InProgress"
  | other => "Other"
  | uncategorized => "Uncategorized"

/-- The kind of a name. -/
def ofName? (s : String) : Option FaultKind := all.find? (·.name = s)

/-- The kind of a system error number, as the Linux system numbers them. -/
def ofErrno : Int → FaultKind
  | 1 | 13 => permissionDenied
  | 2 => notFound
  | 4 => interrupted
  | 7 => argumentListTooLong
  | 11 => wouldBlock
  | 12 => outOfMemory
  | 16 => resourceBusy
  | 17 => alreadyExists
  | 18 => crossesDevices
  | 20 => notADirectory
  | 21 => isADirectory
  | 22 => invalidInput
  | 26 => executableFileBusy
  | 27 => fileTooLarge
  | 28 => storageFull
  | 29 => notSeekable
  | 30 => readOnlyFilesystem
  | 31 => tooManyLinks
  | 32 => brokenPipe
  | 35 => deadlock
  | 36 => invalidFilename
  | 38 | 95 => unsupported
  | 39 => directoryNotEmpty
  | 40 => filesystemLoop
  | 98 => addrInUse
  | 99 => addrNotAvailable
  | 100 => networkDown
  | 101 => networkUnreachable
  | 103 => connectionAborted
  | 104 => connectionReset
  | 107 => notConnected
  | 110 => timedOut
  | 111 => connectionRefused
  | 113 => hostUnreachable
  | 115 => inProgress
  | 116 => staleNetworkFileHandle
  | 122 => quotaExceeded
  | _ => uncategorized

/-- A read that ran out of time reports one of these two kinds. -/
def isTimeout : FaultKind → Bool
  | wouldBlock | timedOut => true
  | _ => false

/-- The peer went away. -/
def isDisconnect : FaultKind → Bool
  | connectionRefused | connectionReset | connectionAborted | brokenPipe | notConnected
  | unexpectedEof => true
  | _ => false

/-- Each kind is found by its name. -/
theorem ofName?_name (k : FaultKind) : ofName? k.name = some k := by
  cases k <;> decide

end FaultKind

/-- A failure: its kind, and the text that describes it. -/
structure Fault where
  kind : FaultKind
  text : String
  deriving DecidableEq, Repr

namespace Fault

/-- The failure of a system call, from its description and its number. -/
def system (description : String) (errno : Nat) : Fault :=
  ⟨.ofErrno errno, s!"{description} (os error {errno})"⟩

/-- Nothing of that name exists. -/
def noSuchFile : Fault := system "No such file or directory" 2

/-- A path goes on behind a file. -/
def notADirectory : Fault := system "Not a directory" 20

/-- A directory was to be read as a file. -/
def isADirectory : Fault := system "Is a directory" 21

/-- What is asked for makes no sense. -/
def invalidArgument : Fault := system "Invalid argument" 22

/-- A name or a path is longer than the system takes. -/
def nameTooLong : Fault := system "File name too long" 36

/-- Another listener has the address. -/
def addressInUse : Fault := system "Address already in use" 98

/-- The address is not one of this machine. -/
def addressNotAvailable : Fault := system "Cannot assign requested address" 99

/-- No route leads to the address. -/
def networkUnreachable : Fault := system "Network is unreachable" 101

/-- The peer reset the connection. -/
def connectionReset : Fault := system "Connection reset by peer" 104

/-- Nobody listens at the address. -/
def connectionRefused : Fault := system "Connection refused" 111

/-- The peer does not read any more. -/
def brokenPipe : Fault := system "Broken pipe" 32

/-- The connection is no longer one. -/
def notConnected : Fault := system "Transport endpoint is not connected" 107

/-- A read found nothing within its time. -/
def wouldBlock : Fault := system "Resource temporarily unavailable" 11

/-- A connection was not made within its time. -/
def connectionTimedOut : Fault := ⟨.timedOut, "connection timed out"⟩

/-- A write took nothing. -/
def writeZero : Fault := ⟨.writeZero, "failed to write whole buffer"⟩

/-- A time-out of zero cannot be set. -/
def zeroTimeout : Fault := ⟨.invalidInput, "cannot set a 0 duration timeout"⟩

end Fault

end LoopbackLock
