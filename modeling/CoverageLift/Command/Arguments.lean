import CoverageLift.Files
import CoverageLift.Text.Split

/-!
# Arguments of the command line

A command has options and positional arguments. An argument that begins with a dash and goes on is an
option, up to an argument of two dashes, after which all arguments are positional. An option that
takes a value takes the rest of its argument, after an equals sign if its name is long, or else the
argument that follows, whatever that looks like.

The first argument names the command; what follows is read by the rules of that command.
-/

namespace CoverageLift.Command

/-- Why arguments cannot be used. -/
inductive UsageError
  | noCommand
  | unknownCommand (name : Text)
  | unknownOption (arg : Text)
  | missingValue (arg : Text)
  | unexpectedValue (arg : Text)
  | missingArgument (name : Text)
  | extraArgument (arg : Text)
  /-- An argument that is a path is no name of a file. -/
  | badPath (arg : Text)
  /-- The value of `--map` is not of the form `GENERATED=MAPFILE`. -/
  | badMap (value : Text)
  /-- Neither the arguments nor the settings name a report. -/
  | noReport
  deriving DecidableEq

/-! ### Options -/

/-- The options of a command by their names. -/
structure OptionTable (ο : Type) where
  /-- The options that take a value. -/
  valued : List (Text × ο)
  /-- The options that take none. -/
  flags : List (Text × ο)

/-- An argument, or an option together with its value. -/
inductive Item (ο : Type)
  | positional (t : Text)
  | option (o : ο) (value : Text)
  | flag (o : ο)
  deriving DecidableEq

/-- What a single argument says about an option. -/
inductive OptionText (ο : Type)
  /-- The option with its value, or without one that it could take. -/
  | whole (item : Item ο)
  /-- The value of the option is the argument that follows. -/
  | head (o : ο)

/-- Two dashes, which introduce a long name and end the options. -/
def longDash : Text := "--"

/-- Whether an argument is in the place of an option. -/
def isOption (arg : Text) : Bool := arg.head? = some (.char '-') && arg.length > 1

namespace OptionTable

variable {ο : Type} (table : OptionTable ο)

/-- An option by its long name, with the value after the equals sign if there is one. -/
def readLong (arg name : Text) (value? : Option Text) : Except UsageError (OptionText ο) :=
  match table.valued.lookup name, table.flags.lookup name, value? with
  | some o, _, some value => .ok (.whole (.option o value))
  | some o, _, none => .ok (.head o)
  | none, some o, none => .ok (.whole (.flag o))
  | none, some _, some _ => .error (.unexpectedValue arg)
  | none, none, _ => .error (.unknownOption arg)

/-- An option by its short name, a dash and one code point, with the value that follows them. -/
def readShort (arg : Text) : Except UsageError (OptionText ο) :=
  match table.valued.lookup (arg.take 2), arg.drop 2 with
  | some o, [] => .ok (.head o)
  | some o, value => .ok (.whole (.option o value))
  | none, _ => .error (.unknownOption arg)

/-- What an argument in the place of an option says. -/
def read (arg : Text) : Except UsageError (OptionText ο) :=
  if Text.startsWith longDash arg then
    match Text.cutFirst? (.char '=') arg with
    | some (name, value) => table.readLong arg name (some value)
    | none => table.readLong arg arg none
  else table.readShort arg

/-- The items that arguments stand for. -/
def items : List Text → Except UsageError (List (Item ο))
  | [] => .ok []
  | arg :: rest =>
    if arg = longDash then .ok (rest.map .positional)
    else if !isOption arg then (items rest).map (.positional arg :: ·)
    else
      match table.read arg, rest with
      | .error error, _ => .error error
      | .ok (.whole item), rest => (items rest).map (item :: ·)
      | .ok (.head _), [] => .error (.missingValue arg)
      | .ok (.head o), value :: rest => (items rest).map (.option o value :: ·)

end OptionTable

section
variable {ο : Type}

/-- The positional arguments. -/
def positionals (items : List (Item ο)) : List Text :=
  items.filterMap fun
    | .positional t => some t
    | _ => none

variable [DecidableEq ο]

/-- The values of an option, in order. -/
def valuesOf (o : ο) (items : List (Item ο)) : List Text :=
  items.filterMap fun
    | .option p value => if p = o then some value else none
    | _ => none

/-- The last value of an option. -/
def lastValue? (o : ο) (items : List (Item ο)) : Option Text := (valuesOf o items).getLast?

/-- Whether a flag is among the items. -/
def hasFlag (o : ο) (items : List (Item ο)) : Bool := items.contains (.flag o)

end

/-- The path that an argument names. -/
def pathOf (t : Text) : Except UsageError FilePath :=
  if (nameFault? t).isSome then .error (.badPath t) else .ok (FilePath.ofText t)

/-- The path that an argument names, if there is one. -/
def pathOf? : Option Text → Except UsageError (Option FilePath)
  | none => .ok none
  | some t => (pathOf t).map some

/-- There are no more than `n` positional arguments. -/
def atMost (n : Nat) (args : List Text) : Except UsageError Unit :=
  match args.drop n with
  | [] => .ok ()
  | arg :: _ => .error (.extraArgument arg)

/-! ### The commands -/

/-- What the command `remap` is asked for. -/
structure RemapRequest where
  report : Option FilePath
  /-- Where to write the remapped report. -/
  output : Option FilePath
  /-- The settings file as it was given. -/
  config : Text
  /-- Maps of single files, in the form `GENERATED=MAPFILE`. -/
  maps : List Text
  /-- Whether the maps of other files are looked for. -/
  discover : Bool
  deriving DecidableEq

/-- What the command `sources` is asked for. -/
structure SourcesRequest where
  generated : FilePath
  /-- The file of the map, which is looked for otherwise. -/
  map : Option FilePath
  deriving DecidableEq

/-- What the program is asked for. -/
inductive Request
  | help
  | remap (request : RemapRequest)
  | sources (request : SourcesRequest)
  deriving DecidableEq

/-- The options of `remap`. -/
inductive RemapOption
  | output
  | config
  | map
  | discover (wanted : Bool)
  | help
  deriving DecidableEq

/-- The options of `sources`. -/
inductive SourcesOption
  | map
  | help
  deriving DecidableEq

/-- The name of the settings file that need not be there. -/
def defaultConfig : Text := "remapcov.yaml"

/-- The names of the options of `remap`. -/
def remapTable : OptionTable RemapOption where
  valued := [("--output", .output), ("-o", .output), ("--config", .config), ("-c", .config),
    ("--map", .map)]
  flags := [("--discover", .discover true), ("--no-discover", .discover false), ("--help", .help)]

/-- The names of the options of `sources`. -/
def sourcesTable : OptionTable SourcesOption where
  valued := [("--map", .map)]
  flags := [("--help", .help)]

/-- Whether discovery is wanted: the last of its flags counts, and without one it is. -/
def discoverWanted (items : List (Item RemapOption)) : Bool :=
  let flags := items.filterMap fun
    | .flag (.discover wanted) => some wanted
    | _ => none
  flags.getLast?.getD true

/-- The request that the arguments of `remap` stand for. -/
def remapRequest (items : List (Item RemapOption)) : Except UsageError RemapRequest := do
  let output ← pathOf? (lastValue? .output items)
  let report ← pathOf? (positionals items).head?
  atMost 1 (positionals items)
  return {
    report, output
    config := (lastValue? .config items).getD defaultConfig
    maps := valuesOf .map items
    discover := discoverWanted items }

/-- The request that the arguments of `sources` stand for. -/
def sourcesRequest (items : List (Item SourcesOption)) : Except UsageError SourcesRequest := do
  let map ← pathOf? (lastValue? .map items)
  match ← pathOf? (positionals items).head? with
  | none => .error (.missingArgument "GENERATED")
  | some generated =>
    atMost 1 (positionals items)
    return { generated, map }

/-- Reads the arguments of a command and makes a request of them, unless help is asked for. -/
def requestOf {ο ρ : Type} [DecidableEq ο] (table : OptionTable ο) (help : ο) (make : ρ → Request)
    (read : List (Item ο) → Except UsageError ρ) (args : List Text) :
    Except UsageError Request := do
  let items ← table.items args
  if hasFlag help items then return .help
  return make (← read items)

/-- The request that a command with arguments stands for. -/
def Request.ofCommand (name : Text) (args : List Text) : Except UsageError Request :=
  if name = Text.ofString "remap" then
    requestOf remapTable .help Request.remap remapRequest args
  else if name = Text.ofString "sources" then
    requestOf sourcesTable .help Request.sources sourcesRequest args
  else .error (.unknownCommand name)

/-- The request that the arguments of the program stand for. Two dashes may stand in front. -/
def Request.ofArguments (args : List Text) : Except UsageError Request :=
  match args with
  | [] => .error .noCommand
  | first :: rest =>
    if first = longDash then
      match rest with
      | [] => .error .noCommand
      | name :: args => ofCommand name args
    else if first = Text.ofString "--help" then .ok .help
    else if isOption first then .error (.unknownOption first)
    else ofCommand first rest

end CoverageLift.Command
