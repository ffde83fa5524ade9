import LogRouter.CommandLine.Check
import LogRouter.CommandLine.Help
import LogRouter.CommandLine.Pipe
import LogRouter.Settings.Load
import LogRouter.Sink.Build
import LogRouter.Sink.DiagnosticFilter

/-!
# Sessions

A session is one run of the program on a host.

* `Session.prepare`: loads the configuration and builds the sink.
* `Session.check`: shows the routes of the sink. `Session.runCommand`: that, or what is done with the lines of
  an input.
* `Session.run`: everything from the arguments to the exit code.
-/

namespace LogRouter.CommandLine

namespace Session

/-- Writes a text to a standard stream of the host. -/
def say (stream : Stream) (text : List Char) (fleet : Fleet) : Fleet :=
  { fleet with host := fleet.host.print stream (Utf8.encode text) }

/-- Gives a warning, if the filter lets it through. -/
def warn (filter : String) (fleet : Fleet) (d : Diagnostic) : Fleet :=
  if d.isShown filter then say .stderr (d.line fleet.now) fleet else fleet

/-- Sets the clock, after the sweeps that were asked for have run. -/
def tick (time : Instant) (fleet : Fleet) : Fleet :=
  let fleet := fleet.maintain
  { fleet with
    now := time
    host := { fleet.host with fs := { fleet.host.fs with now := time.total } } }

/-- The writers of the program, as what the lines of an input go to. -/
def pipeHost (filter : String) : PipeHost Fleet where
  outlet := { Fleet.outlet with report := fun report fleet => warn filter fleet (.ofReport report) }
  tick := tick

/-- Loads the configuration and builds the sink. -/
def prepare (zone : Zone) (invocation : Invocation) (fleet : Fleet) :
    Except CommandError (Settings × Sink) × Fleet :=
  match Settings.load fleet.host.fs (Path.ofString invocation.config) with
  | .error e => (.error (.load invocation.config e), fleet)
  | .ok settings =>
    let fleet := settings.warnings.foldl (warn invocation.logLevel) fleet
    match Sink.build settings (.empty zone settings.rotation) fleet with
    | (.error e, _, fleet) => (.error (.build e), fleet)
    | (.ok sink, _, fleet) => (.ok (settings, sink), fleet)

/-- Shows the routes of the sink and closes it. -/
def check (strict : Bool) (settings : Settings) (sink : Sink) (fleet : Fleet) :
    Except CommandError Unit × Fleet :=
  let fleet := say .stdout (sink.overview settings.effectiveMode).toList fleet
  match sink.close Fleet.outlet fleet with
  | (.error e, _, fleet) => (.error (.release e), fleet)
  | (.ok _, _, fleet) => (strictness strict sink.table, fleet)

/-- Runs a command, where `lines` are the lines of standard input with their instants. -/
def runCommand (zone : Zone) (invocation : Invocation) (lines : List (Instant × Bytes))
    (fleet : Fleet) : Except CommandError Unit × Fleet :=
  match prepare zone invocation fleet with
  | (.error e, fleet) => (.error e, fleet)
  | (.ok (settings, sink), fleet) =>
    match invocation.command with
    | .check strict => check strict settings sink fleet
    | .pipe level target =>
      Pipe.run (pipeHost invocation.logLevel) ⟨level, target⟩ (.start sink fleet) lines

/-- The exit code of a result, which is reported if it is an error. Sweeps that are left run at the
end. -/
def conclude (result : Except CommandError Unit × Fleet) : Nat × Fleet :=
  match result with
  | (.ok _, fleet) => (0, fleet.maintain)
  | (.error e, fleet) => (1, say .stderr e.report fleet.maintain)

/-- Answers a request other than the run of a command, with an exit code. -/
def answer? (request : Request) (fleet : Fleet) : Option (Nat × Fleet) :=
  match request with
  | .help topic => some (0, say .stdout topic.text.toList fleet)
  | .version => some (0, say .stdout versionText.toList fleet)
  | .misuse => some (2, say .stderr misuseText.toList fleet)
  | .run _ => none

/-- Runs the program, and returns its exit code. -/
def run (zone : Zone) (arguments : List String) (lines : List (Instant × Bytes))
    (fleet : Fleet) : Nat × Fleet :=
  match Request.ofArguments arguments with
  | .run invocation => conclude (runCommand zone invocation lines fleet)
  | request => (answer? request fleet).getD (0, fleet)

end Session

end LogRouter.CommandLine
