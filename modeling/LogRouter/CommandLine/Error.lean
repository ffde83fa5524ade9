import LogRouter.Settings.Error
import LogRouter.Sink.Error

/-!
# Errors of commands

`CommandError` lists why a command fails; `CommandError.report` is what is said about it: the error
and the errors behind it, with numbers if there are several.
-/

namespace LogRouter.CommandLine

/-- Why a command fails. -/
inductive CommandError where
  /-- The configuration is refused. -/
  | load (path : String) (cause : SettingsError)
  /-- The sink cannot be built. -/
  | build (cause : SinkError)
  /-- The sink cannot be closed after it was shown. -/
  | release (cause : SinkError)
  /-- Rules were discarded that must not be. -/
  | ignoredEntries (count : Nat)
  /-- A line of the input is not UTF-8. -/
  | unreadableInput
  | flush (cause : SinkError)
  | close (cause : SinkError)
  /-- Records reached no destination. -/
  | undelivered (count : Nat)
  deriving DecidableEq, Repr

namespace CommandError

/-- The wording of an error. -/
def message : CommandError → String
  | load path _ => "failed to load " ++ path
  | build _ => "failed to build log sink"
  | release cause => cause.message
  | ignoredEntries count =>
    toString count ++ " level_destinations entr" ++ (if count = 1 then "y" else "ies") ++ " ignored"
  | unreadableInput => "failed to read stdin"
  | flush _ => "failed to flush log sink"
  | close _ => "failed to close log sink"
  | undelivered count => toString count ++ " records reached no destination"

/-- The wordings of the errors behind an error. -/
def causes : CommandError → List String
  | load _ cause => cause.message :: cause.causes
  | build cause | flush cause | close cause => cause.message :: cause.causes
  | release cause => cause.causes
  | unreadableInput => [IoError.message .invalidText]
  | ignoredEntries _ | undelivered _ => []

/-- A text whose first line stands behind `first` and every other line behind `other`. -/
def indented (first other : List Char) (s : List Char) : List Char :=
  first ++ s.flatMap fun c => if c = '\n' then '\n' :: other else [c]

/-- A number, right-aligned in five places, with a colon. -/
def numbered (n : Nat) : List Char :=
  let digits := Nat.toDigits 10 n
  List.replicate (5 - digits.length) ' ' ++ (digits ++ [':', ' '])

/-- The lines about the errors behind an error, with the numbers from `n` on. -/
def causeLines (n : Nat) : List String → List Char
  | [] => []
  | cause :: rest =>
    '\n' :: (indented (numbered n) (List.replicate 7 ' ') cause.toList ++ causeLines (n + 1) rest)

/-- What is said about an error. -/
def report (e : CommandError) : List Char :=
  let behind :=
    match e.causes with
    | [] => []
    | [cause] =>
      "\n\nCaused by:\n".toList ++
        indented (List.replicate 4 ' ') (List.replicate 4 ' ') cause.toList
    | causes => "\n\nCaused by:".toList ++ causeLines 0 causes
  "Error: ".toList ++ (e.message.toList ++ (behind ++ ['\n']))

end CommandError

end LogRouter.CommandLine
