/-!
# Arguments of the tools

Short options can be put together behind one dash, and a value follows its option in the same
argument or in the next one. Options of the program itself stand before the command, except those
that are known everywhere.
-/

namespace ParseView.Tools

inductive Command where
  /-- Print the table of attributes, write it, or check the one that is there. -/
  | ariaTable (output : Option String) (check : Bool)
  /-- Check the schema of configurations, or write it. -/
  | schema (output : Option String)
deriving DecidableEq, Repr

/-- What the arguments ask for. -/
inductive Request where
  | run (command : Command)
  | version
  | help
  /-- The arguments make no sense. -/
  | misuse
deriving DecidableEq, Repr

/-- The options given so far. -/
structure Given where
  output : Option String := none
  check : Bool := false
deriving DecidableEq, Repr

/-- An option of a command; more output is asked for with `verbose`, at every place. -/
inductive Flag where
  | verbose
  | help
  | version
  | output
  | check
deriving DecidableEq, Repr

/-- The flags of a place: of the program, or of a command. -/
structure Place where
  short : Char → Option Flag
  long : String → Option Flag

def programPlace : Place where
  short
    | 'v' => some .verbose
    | 'h' => some .help
    | 'V' => some .version
    | _ => none
  long
    | "verbose" => some .verbose
    | "help" => some .help
    | "version" => some .version
    | _ => none

def schemaPlace : Place where
  short
    | 'v' => some .verbose
    | 'h' => some .help
    | 'o' => some .output
    | _ => none
  long
    | "verbose" => some .verbose
    | "help" => some .help
    | "output" => some .output
    | _ => none

def tablePlace : Place where
  short := schemaPlace.short
  long
    | "check" => some .check
    | name => schemaPlace.long name

/-- What an argument says. -/
inductive Reading where
  /-- Go on with these options. -/
  | given (given : Given)
  /-- The next argument is the value of the output option. -/
  | needsValue (given : Given)
  | ends (request : Request)
deriving DecidableEq, Repr

/-- Takes a value for the output, which can be given once and must not be empty. -/
def takeOutput (given : Given) (value : List Char) : Reading :=
  if given.output.isSome ∨ value.isEmpty then .ends .misuse
  else .given { given with output := some (String.ofList value) }

/-- Takes a flag that has no value. -/
def takeFlag (given : Given) : Flag → Reading
  | .verbose => .given given
  | .help => .ends .help
  | .version => .ends .version
  | .check => if given.check then .ends .misuse else .given { given with check := true }
  | .output => .needsValue given

/-- Reads short options behind their dash. What stands behind the output option is its value. -/
def readShort (place : Place) (given : Given) : List Char → Reading
  | [] => .given given
  | c :: rest =>
    match place.short c with
    | none => .ends .misuse
    | some .output =>
      match rest with
      | [] => .needsValue given
      | '=' :: value => takeOutput given value
      | value => takeOutput given value
    | some flag =>
      match takeFlag given flag with
      | .given given => readShort place given rest
      | reading => reading

/-- Reads a long option behind its dashes. Only the output option has a value. -/
def readLong (place : Place) (given : Given) (s : List Char) : Reading :=
  let name := s.takeWhile (· ≠ '=')
  match place.long (String.ofList name), s.dropWhile (· ≠ '=') with
  | some .output, _ :: value => takeOutput given value
  | some flag, [] => takeFlag given flag
  | _, _ => .ends .misuse

/-- Does an argument begin an option? -/
def isOption (argument : String) : Bool :=
  match argument.toList with
  | '-' :: _ :: _ => true
  | _ => false

def readOption (place : Place) (given : Given) (argument : String) : Reading :=
  match argument.toList with
  | '-' :: '-' :: name => readLong place given name
  | '-' :: letters => readShort place given letters
  | _ => .ends .misuse

/-- Reads the arguments behind the name of a command. Two dashes alone end the options, and nothing
may follow them. -/
def readCommand (place : Place) (finish : Given → Command) (given : Given) :
    List String → Request
  | [] => .run (finish given)
  | "--" :: rest => if rest.isEmpty then .run (finish given) else .misuse
  | argument :: rest =>
    if !isOption argument then .misuse
    else
      match readOption place given argument with
      | .given given => readCommand place finish given rest
      | .ends request => request
      | .needsValue given =>
        match rest with
        | [] => .misuse
        | value :: rest =>
          if isOption value then .misuse
          else
            match takeOutput given value.toList with
            | .given given => readCommand place finish given rest
            | _ => .misuse

/-- The names that help can be asked for. -/
def isHelpTopic : List String → Bool
  | [] | ["aria-table"] | ["schema"] | ["help"] => true
  | _ => false

/-- Reads the arguments of the program. -/
def readArguments : List String → Request
  | [] => .misuse
  | "aria-table" :: rest =>
    readCommand tablePlace (fun given => .ariaTable given.output given.check) {} rest
  | "schema" :: rest => readCommand schemaPlace (fun given => .schema given.output) {} rest
  | "help" :: rest => if isHelpTopic rest then .help else .misuse
  | "--" :: _ => .misuse
  | argument :: rest =>
    if isOption argument then
      match readOption programPlace {} argument with
      | .given _ => readArguments rest
      | .ends request => request
      | .needsValue _ => .misuse
    else .misuse

end ParseView.Tools
