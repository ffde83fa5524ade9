import LogRouter.Level.Severity

/-!
# Arguments

* `Request`: what the arguments ask for: help, the version, a run of a command, or nothing that can
  be understood.
* `Request.ofArguments`: reads the arguments from left to right.

The options `--config` and `--log-level` may stand in front of the command and behind it; the one
behind it counts. Within one of these places an option is given once only. A value that stands in
an argument of its own is examined when the next option comes or the arguments end; whatever asks
for help in between is answered first.
-/

namespace LogRouter.CommandLine

/-- A command with its own options. -/
inductive Command where
  /-- Shows the routes of a configuration. -/
  | check (strict : Bool)
  /-- Logs the lines of standard input. -/
  | pipe (level : Severity) (target : String)
  deriving DecidableEq, Repr

/-- A run of a command. -/
structure Invocation where
  config : String
  logLevel : String
  command : Command
  deriving DecidableEq, Repr

/-- What help can be asked about. -/
inductive Topic where
  | program
  | check
  | pipe
  | help
  deriving DecidableEq, Repr

/-- What the arguments ask for. -/
inductive Request where
  | help (topic : Topic)
  | version
  /-- The arguments make no sense. -/
  | misuse
  | run (invocation : Invocation)
  deriving DecidableEq, Repr

/-- An option with a value. -/
inductive ValueOption where
  | config
  | logLevel
  | level
  | target
  deriving DecidableEq, Repr

/-- An option. -/
inductive Known where
  | value (option : ValueOption)
  | help
  | version
  | strict
  deriving DecidableEq, Repr

/-- The options with long names at a place. -/
def longNames : Topic → List (String × Known)
  | .program => shared ++ [("version", .version)]
  | .check => ("strict", .strict) :: shared
  | .pipe => ("level", .value .level) :: ("target", .value .target) :: shared
  | .help => []
where
  /-- The options that are known everywhere. -/
  shared : List (String × Known) :=
    [("config", .value .config), ("log-level", .value .logLevel), ("help", .help)]

/-- The options with short names at a place. -/
def shortNames : Topic → List (Char × Known)
  | .program => [('c', .value .config), ('h', .help), ('V', .version)]
  | .check | .pipe => [('c', .value .config), ('h', .help)]
  | .help => []

/-- What was given at one place. -/
structure Given where
  values : List (ValueOption × String)
  strict : Bool
  /-- The last option, as long as its value is missing or was not examined. -/
  pending : Option (ValueOption × Option String)
  deriving DecidableEq, Repr

namespace Given

/-- Nothing was given. -/
def nothing : Given := ⟨[], false, none⟩

/-- The value of an option. -/
def value? (g : Given) (option : ValueOption) : Option String :=
  (g.values.find? fun (o, _) => o == option).map (·.2)

/-- The option takes the value. -/
def isAcceptable (option : ValueOption) (v : String) : Bool :=
  match option with
  | .config => !v.isEmpty
  | .level => (Severity.ofName? v).isSome
  | .logLevel | .target => true

/-- Takes the value of an option. -/
def accept (g : Given) (option : ValueOption) (v : String) : Except Request Given :=
  if (g.value? option).isSome || !isAcceptable option v then .error .misuse
  else .ok { g with values := g.values ++ [(option, v)] }

/-- Examines the value of the last option. -/
def settle (g : Given) : Except Request Given :=
  match g.pending with
  | none => .ok g
  | some (_, none) => .error .misuse
  | some (option, some v) => ({ g with pending := none } : Given).accept option v

/-- Takes an option, with the value that is attached to it. -/
def take (place : Topic) (g : Given) (known : Known) (attached : Option String) :
    Except Request Given := do
  match known, attached with
  | .value option, some v => (← g.settle).accept option v
  | .value option, none => return { ← g.settle with pending := some (option, none) }
  | _, some _ => .error .misuse
  | .help, none =>
    let _ ← g.settle
    .error (.help place)
  | .version, none =>
    let _ ← g.settle
    .error .version
  | .strict, none =>
    let g ← g.settle
    if g.strict then .error .misuse else return { g with strict := true }

/-- Takes options with short names that stand together. What follows an option with a value is the
value. -/
def takeShort (place : Topic) (g : Given) : List Char → Except Request Given
  | [] => .ok g
  | c :: rest =>
    match (shortNames place).find? fun (name, _) => name == c with
    | none => .error .misuse
    | some (_, .value option) =>
      match rest with
      | [] => g.take place (.value option) none
      | '=' :: v => g.take place (.value option) (some (String.ofList v))
      | v => g.take place (.value option) (some (String.ofList v))
    | some (_, known) =>
      match g.take place known none with
      | .error request => .error request
      | .ok g => takeShort place g rest

/-- Takes an option with a long name, behind its dashes. -/
def takeLong (place : Topic) (g : Given) (s : List Char) : Except Request Given :=
  let name := String.ofList (s.takeWhile (· ≠ '='))
  let attached :=
    match s.dropWhile (· ≠ '=') with
    | _ :: v => some (String.ofList v)
    | [] => none
  match (longNames place).find? fun (n, _) => n == name with
  | none => .error .misuse
  | some (_, known) => g.take place known attached

/-- Takes an argument that is no option: the value of the last option. -/
def takePlain (g : Given) (v : String) : Except Request Given :=
  match g.pending with
  | some (option, none) => .ok { g with pending := some (option, some v) }
  | _ => .error .misuse

/-- The last option has no value yet. -/
def isWaiting (g : Given) : Bool :=
  match g.pending with
  | some (_, none) => true
  | _ => false

end Given

/-- The names of the commands. -/
def commandNames : List String := ["check", "pipe", "help"]

/-- Reads the arguments at a place up to the name of a command, which only the program has; returns
the name with the arguments behind it. -/
def readArguments (place : Topic) (g : Given) :
    List String → Except Request (Given × Option (String × List String))
  | [] => .ok (g, none)
  | argument :: rest =>
    if place = .program ∧ ¬ g.isWaiting ∧ argument ∈ commandNames then
      .ok (g, some (argument, rest))
    else
      match argument.toList with
      | ['-', '-'] => if rest.isEmpty then .ok (g, none) else .error .misuse
      | '-' :: '-' :: s =>
        match g.takeLong place s with
        | .error request => .error request
        | .ok g => readArguments place g rest
      | '-' :: c :: s =>
        match g.takeShort place (c :: s) with
        | .error request => .error request
        | .ok g => readArguments place g rest
      | _ =>
        match g.takePlain argument with
        | .error request => .error request
        | .ok g => readArguments place g rest

/-- The topic that the names behind the command `help` lead to. -/
def topic? : List String → Option Topic
  | [] => some .program
  | ["check"] => some .check
  | ["pipe"] => some .pipe
  | ["help"] => some .help
  | _ => none

namespace Invocation

/-- The configuration that is used unless another one is asked for. -/
def usualConfig : String := "configs/scribe.toml"

/-- The run of a command, from what was given in front of it and behind it. -/
def ofGiven (outer inner : Given) (command : Command) : Invocation where
  config := ((inner.value? .config).orElse fun _ => outer.value? .config).getD usualConfig
  logLevel := ((inner.value? .logLevel).orElse fun _ => outer.value? .logLevel).getD "warn"
  command := command

end Invocation

/-- Reads the arguments of a command, behind those that were given in front of it. -/
def readCommand (outer : Given) (place : Topic) (arguments : List String)
    (command : Given → Command) : Except Request Invocation := do
  let (inner, _) ← readArguments place .nothing arguments
  let inner ← inner.settle
  let outer ← outer.settle
  return .ofGiven outer inner (command inner)

/-- The severity of lines without one, from the options of the command `pipe`. -/
def Given.pipeLevel (g : Given) : Severity :=
  ((g.value? .level).bind Severity.ofName?).getD .info

/-- What the arguments ask for. -/
def Request.ofArguments (arguments : List String) : Request :=
  match readArguments .program .nothing arguments with
  | .error request => request
  | .ok (outer, some ("check", rest)) =>
    answer (readCommand outer .check rest fun g => .check g.strict)
  | .ok (outer, some ("pipe", rest)) =>
    answer (readCommand outer .pipe rest fun g =>
      .pipe g.pipeLevel ((g.value? .target).getD "stdin"))
  | .ok (_, some (_, names)) =>
    match topic? names with
    | some topic => .help topic
    | none => .misuse
  | .ok (_, none) => .misuse
where
  /-- The request that the reading of a command ends in. -/
  answer : Except Request Invocation → Request
  | .ok invocation => .run invocation
  | .error request => request

end LogRouter.CommandLine
