/-! Kinds of faults and the wider kinds they belong to. Cancellation and the end of the whole
program are not ordinary, and no handler of the client stops them. The widest kind holds more than
faults. -/

namespace EditorClient

inductive FaultKind where
  | object
  | any
  | ordinary
  | client
  | configuration
  | installation
  | transportConnect
  | sessionStart
  | cancelled
  | keyboardInterrupt
  | systemExit
  | generatorExit
  | os
  | blockingIo
  | childProcess
  | connection
  | brokenPipe
  | connectionAborted
  | connectionRefused
  | connectionReset
  | fileExists
  | fileNotFound
  | interrupted
  | isADirectory
  | notADirectory
  | permission
  | processLookup
  | timeout
  | missingAttribute
  | index
  | key
  | runtime
  | type
  | value
  | unicode
  | missingObject
  | limitReached
  | other (label : String)
deriving DecidableEq, Repr

namespace FaultKind

def label : FaultKind → String
  | object => "object"
  | any => "BaseException"
  | ordinary => "Exception"
  | client => "MfdlsClientError"
  | configuration => "ConfigurationError"
  | installation => "InstallationError"
  | transportConnect => "TransportConnectError"
  | sessionStart => "SessionStartError"
  | cancelled => "CancelledError"
  | keyboardInterrupt => "KeyboardInterrupt"
  | systemExit => "SystemExit"
  | generatorExit => "GeneratorExit"
  | os => "OSError"
  | blockingIo => "BlockingIOError"
  | childProcess => "ChildProcessError"
  | connection => "ConnectionError"
  | brokenPipe => "BrokenPipeError"
  | connectionAborted => "ConnectionAbortedError"
  | connectionRefused => "ConnectionRefusedError"
  | connectionReset => "ConnectionResetError"
  | fileExists => "FileExistsError"
  | fileNotFound => "FileNotFoundError"
  | interrupted => "InterruptedError"
  | isADirectory => "IsADirectoryError"
  | notADirectory => "NotADirectoryError"
  | permission => "PermissionError"
  | processLookup => "ProcessLookupError"
  | timeout => "TimeoutError"
  | missingAttribute => "AttributeError"
  | index => "IndexError"
  | key => "KeyError"
  | runtime => "RuntimeError"
  | type => "TypeError"
  | value => "ValueError"
  | unicode => "UnicodeError"
  | missingObject => "NoSuchObject"
  | limitReached => "LimitReached"
  | other label => label

/-- The kinds that have a label of their own. -/
def labelled : List FaultKind :=
  [object, any, ordinary, client, configuration, installation, transportConnect, sessionStart,
   cancelled, keyboardInterrupt, systemExit, generatorExit, os, blockingIo, childProcess, connection,
   brokenPipe, connectionAborted, connectionRefused, connectionReset, fileExists, fileNotFound,
   interrupted, isADirectory, notADirectory, permission, processLookup, timeout, missingAttribute,
   index, key, runtime, type, value, unicode]

/-- Faults of the operating system have two older labels. -/
def ofLabel (s : String) : FaultKind :=
  if s = "IOError" ∨ s = "EnvironmentError" then os
  else (labelled.find? fun k => k.label == s).getD (other s)

/-- The ordinary kinds around a kind without a constructor of its own, nearest first. -/
def around : String → List FaultKind
  | "ModuleNotFoundError" => [other "ImportError"]
  | "ZeroDivisionError" | "OverflowError" | "FloatingPointError" => [other "ArithmeticError"]
  | "RecursionError" | "NotImplementedError" => [runtime]
  | "UnboundLocalError" => [other "NameError"]
  | "IndentationError" => [other "SyntaxError"]
  | "TabError" => [other "IndentationError", other "SyntaxError"]
  | "UnicodeDecodeError" | "UnicodeEncodeError" | "UnicodeTranslateError" => [unicode, value]
  | "BytesWarning" | "DeprecationWarning" | "EncodingWarning" | "FutureWarning" | "ImportWarning"
  | "PendingDeprecationWarning" | "ResourceWarning" | "RuntimeWarning" | "SyntaxWarning"
  | "UnicodeWarning" | "UserWarning" => [other "Warning"]
  | _ => []

/-- The wider kinds, nearest first. -/
def wider : FaultKind → List FaultKind
  | object | missingObject | limitReached => []
  | any => [object]
  | ordinary | cancelled | keyboardInterrupt | systemExit | generatorExit => [any, object]
  | configuration | installation | transportConnect | sessionStart =>
    [client, ordinary, any, object]
  | blockingIo | childProcess | connection | fileExists | fileNotFound | interrupted | isADirectory
  | notADirectory | permission | processLookup | timeout => [os, ordinary, any, object]
  | brokenPipe | connectionAborted | connectionRefused | connectionReset =>
    [connection, os, ordinary, any, object]
  | index | key => [other "LookupError", ordinary, any, object]
  | unicode => [value, ordinary, any, object]
  | client | os | missingAttribute | runtime | type | value => [ordinary, any, object]
  | other label => around label ++ [ordinary, any, object]

def isA (k base : FaultKind) : Bool := k == base || k.wider.contains base

def isOrdinary (k : FaultKind) : Bool := k.isA ordinary

def isOs (k : FaultKind) : Bool := k.isA os

theorem isOrdinary_of_isOs {k : FaultKind} (h : k.isOs = true) : k.isOrdinary = true := by
  cases k <;> simp_all [isOs, isOrdinary, isA, wider]

theorem not_os_mem_around (label : String) : os ∉ around label := by
  unfold around
  split <;> simp

theorem not_configuration_of_isOs {k : FaultKind} (h : k.isOs = true) :
    k.isA configuration = false := by
  cases k with
  | other label => simp [isOs, isA, wider, not_os_mem_around] at h
  | _ => simp_all [isOs, isA, wider]

/-- The kind that an operating system fault of no special kind has because of its number. -/
def ofErrorNumber (n : Int) : FaultKind :=
  if n = 1 ∨ n = 13 then permission
  else if n = 2 then fileNotFound
  else if n = 3 then processLookup
  else if n = 4 then interrupted
  else if n = 10 then childProcess
  else if n = 11 ∨ n = 114 ∨ n = 115 then blockingIo
  else if n = 17 then fileExists
  else if n = 20 then notADirectory
  else if n = 21 then isADirectory
  else if n = 32 ∨ n = 108 then brokenPipe
  else if n = 103 then connectionAborted
  else if n = 104 then connectionReset
  else if n = 110 then timeout
  else if n = 111 then connectionRefused
  else os

end FaultKind

end EditorClient
