/-!
# Errors of files and streams

`IoError` lists the ways in which an operation on a file or a stream fails and `IoError.message`
words them. The system's own errors carry their number.
-/

namespace LogRouter

/-- Why an operation on a file or a stream failed. -/
inductive IoError where
  /-- There is no such entry. -/
  | notFound
  /-- The device is in use. -/
  | busy
  /-- There is an entry already. -/
  | alreadyExists
  /-- A part of the path is not a directory. -/
  | notADirectory
  /-- A file was expected and a directory found. -/
  | isADirectory
  /-- The operation makes no sense for this file. -/
  | invalidArgument
  /-- The device is full. -/
  | storageFull
  /-- A name or a path is too long. -/
  | nameTooLong
  /-- The directory has entries. -/
  | directoryNotEmpty
  /-- The path holds a NUL character. -/
  | nulInPath
  /-- The path is empty. -/
  | emptyPath
  /-- The bytes are not UTF-8. -/
  | invalidText
  /-- A single write is longer than a file may become. -/
  | writeTooLong (length limit : Nat)
  /-- No file is open. -/
  | notOpen
  /-- The other end has gone, for the stated reason. -/
  | brokenPipe (reason : String)
  /-- Something else went wrong. -/
  | other (reason : String)
  deriving DecidableEq, Repr

/-- The wording of an error. -/
def IoError.message : IoError → String
  | notFound => "No such file or directory (os error 2)"
  | busy => "Device or resource busy (os error 16)"
  | alreadyExists => "File exists (os error 17)"
  | notADirectory => "Not a directory (os error 20)"
  | isADirectory => "Is a directory (os error 21)"
  | invalidArgument => "Invalid argument (os error 22)"
  | storageFull => "No space left on device (os error 28)"
  | nameTooLong => "File name too long (os error 36)"
  | directoryNotEmpty => "Directory not empty (os error 39)"
  | nulInPath => "file name contained an unexpected NUL byte"
  | emptyPath => "cannot make an empty path absolute"
  | invalidText => "stream did not contain valid UTF-8"
  | writeTooLong length limit =>
    "write length " ++ toString length ++ " exceeds maximum file size " ++ toString limit
  | notOpen => "log file is not open"
  | brokenPipe reason => reason
  | other reason => reason

end LogRouter
