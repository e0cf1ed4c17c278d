/-!
# Refusals of the system

Why the system refuses to do something with a file, with the name of each reason and the words in
which the system reports it.
-/

namespace WorkerGen

/-- Why the system refuses a request. -/
inductive IoFault where
  | notFound
  | notADirectory
  | alreadyExists
  | isADirectory
  | directoryNotEmpty
  /-- A name or path that is too long. -/
  | invalidFilename
  | resourceBusy
  | invalidInput
  /-- A NUL character in a path or argument. -/
  | nulCharacter
  /-- Bytes that are no text. -/
  | invalidData
  /-- Too many links on the way. -/
  | filesystemLoop
  | permissionDenied
deriving DecidableEq, Inhabited, Repr

namespace IoFault

/-- The name of a reason. -/
def name : IoFault → String
  | .notFound => "NotFound"
  | .notADirectory => "NotADirectory"
  | .alreadyExists => "AlreadyExists"
  | .isADirectory => "IsADirectory"
  | .directoryNotEmpty => "DirectoryNotEmpty"
  | .invalidFilename => "InvalidFilename"
  | .resourceBusy => "ResourceBusy"
  | .invalidInput | .nulCharacter => "InvalidInput"
  | .invalidData => "InvalidData"
  | .filesystemLoop => "FilesystemLoop"
  | .permissionDenied => "PermissionDenied"

/-- The words for a reason. -/
def message : IoFault → String
  | .notFound => "No such file or directory (os error 2)"
  | .notADirectory => "Not a directory (os error 20)"
  | .alreadyExists => "File exists (os error 17)"
  | .isADirectory => "Is a directory (os error 21)"
  | .directoryNotEmpty => "Directory not empty (os error 39)"
  | .invalidFilename => "File name too long (os error 36)"
  | .resourceBusy => "Device or resource busy (os error 16)"
  | .invalidInput => "Invalid argument (os error 22)"
  | .nulCharacter => "file name contained an unexpected NUL byte"
  | .invalidData => "stream did not contain valid UTF-8"
  | .filesystemLoop => "Too many levels of symbolic links (os error 40)"
  | .permissionDenied => "Permission denied (os error 13)"

end IoFault

end WorkerGen
