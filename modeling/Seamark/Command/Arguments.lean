import Seamark.Decimal.Reading

/-!
# Arguments

The command takes a light's notation and a few options. An option may be shortened as long as it is
the only one that starts like this, and takes its value as the next argument or after an equals sign;
two dashes after the equals sign stand for no value. The letter of the help option may be repeated. An
argument that looks like a negative number or has a space in it is no option; after two dashes none
is.
-/

namespace Seamark.Command

/-- What the command is asked to do. -/
structure Arguments where
  /-- The notation of a light. -/
  code : Option String := none
  /-- The file of a configuration. -/
  config : Option String := none
  /-- The file of a catalogue. -/
  catalog : Option String := none
  /-- For how many seconds to play. -/
  play : Option Float := none
  /-- The report is for other programs. -/
  json : Bool := false

/-- Why there is nothing to do. -/
inductive Refusal where
  /-- The arguments are wrong. -/
  | misuse
  /-- Only help is asked for. -/
  | help
deriving DecidableEq, Repr

/-- The options. -/
inductive Flag where
  /-- Shows help. -/
  | help
  /-- Names the file of a configuration. -/
  | config
  /-- Names the file of a catalogue. -/
  | catalog
  /-- Gives the seconds to play. -/
  | play
  /-- Asks for a report for other programs. -/
  | json
deriving DecidableEq, Repr

namespace Flag

/-- The spellings of the options. -/
def spellings : List (String × Flag) :=
  [("-h", help), ("--help", help), ("--config", config), ("--catalog", catalog), ("--play", play),
   ("--json", json)]

/-- The option takes a value. -/
def takesValue : Flag → Bool
  | config | catalog | play => true
  | help | json => false

end Flag

/-- What an argument is. -/
inductive Kind where
  /-- A value: of the option before it, or the notation of a light. -/
  | value
  /-- An option, perhaps with its value. -/
  | flag (flag : Flag) (value : Option String)
  /-- The letter of the help option with further letters after it. -/
  | letters (more : List Char)
  /-- Something that looks like an option and is none. -/
  | unknown
  /-- Two dashes: only values follow. -/
  | separator
deriving DecidableEq, Repr

/-- Cuts a text at its first equals sign. -/
def cutAtEquals (cs : List Char) : String × Option String :=
  match cs.dropWhile (· ≠ '=') with
  | _ :: value => (String.ofList (cs.takeWhile (· ≠ '=')), some (String.ofList value))
  | [] => (String.ofList cs, none)

/-- A text that starts with a dash and looks like a negative number: digits, or perhaps digits, a
point and digits. -/
def isNegativeNumber (cs : List Char) : Bool :=
  let cs := if cs.getLast? = some '\n' then cs.dropLast else cs
  match cs with
  | '-' :: body =>
    match body.dropWhile Text.isDigit with
    | [] => !body.isEmpty
    | '.' :: fraction => !fraction.isEmpty && fraction.all Text.isDigit
    | _ => false
  | _ => false

/-- What an argument is that starts with a dash and goes on. -/
def dashKind (cs : List Char) : Except Refusal Kind :=
  let (name, value) := cutAtEquals cs
  let otherwise : Kind := if isNegativeNumber cs || cs.contains ' ' then .value else .unknown
  match Flag.spellings.find? (·.1 = String.ofList cs), cs with
  | some (_, flag), _ => .ok (.flag flag none)
  | none, '-' :: '-' :: _ =>
    match Flag.spellings.find? (·.1 = name), value with
    | some (_, flag), some value => .ok (.flag flag (some value))
    | _, _ =>
      match Flag.spellings.filter fun entry => name.toList.isPrefixOf entry.1.toList with
      | [] => .ok otherwise
      | [(_, flag)] => .ok (.flag flag value)
      | _ => .error .misuse
  | none, '-' :: 'h' :: '=' :: more => .ok (.letters more)
  | none, '-' :: 'h' :: more => .ok (.letters more)
  | none, _ => .ok otherwise

/-- What an argument is. -/
def kindOf (arg : String) : Except Refusal Kind :=
  match arg.toList with
  | [] => .ok .value
  | ['-'] => .ok .value
  | ['-', '-'] => .ok .separator
  | '-' :: rest => dashKind ('-' :: rest)
  | _ => .ok .value

/-- The arguments with what they are; after two dashes only values follow. -/
def classify : List String → Except Refusal (List (String × Kind))
  | [] => .ok []
  | arg :: args => do
    match ← kindOf arg with
    | .separator => return (arg, .separator) :: args.map fun a => (a, Kind.value)
    | kind => return (arg, kind) :: (← classify args)

/-- Where reading the arguments stands. -/
structure Progress where
  /-- What was read so far. -/
  result : Arguments := {}
  /-- There was an argument that means nothing. -/
  extra : Bool := false

/-- The value that an option is given; none for two dashes. -/
def givenValue (value : String) : Option String :=
  if value = "--" then none else some value

/-- The number of seconds that an option is given; none for two dashes. -/
def givenSeconds (value : String) : Except Refusal (Option Float) :=
  match givenValue value with
  | none => .ok none
  | some value =>
    match Decimal.readFloat? value with
    | some seconds => .ok (some seconds)
    | none => .error .misuse

/-- Takes in an option with its value. -/
def Progress.takeFlag (p : Progress) : Flag → Option String → Except Refusal Progress
  | .help, none => .error .help
  | .json, none => .ok { p with result := { p.result with json := true } }
  | .config, some value => .ok { p with result := { p.result with config := givenValue value } }
  | .catalog, some value => .ok { p with result := { p.result with catalog := givenValue value } }
  | .play, some value => do
    return { p with result := { p.result with play := ← givenSeconds value } }
  | _, _ => .error .misuse

/-- What comes of the help option with further letters after it: help, if each is the letter of help
again. -/
def takeLetters (letters : List Char) : Refusal :=
  if letters.isEmpty || letters.any (· ≠ 'h') then .misuse else .help

/-- Takes in a value that belongs to no option: the notation, if there is none yet. -/
def Progress.takeValue (p : Progress) (arg : String) : Progress :=
  if p.result.code.isSome then { p with extra := true }
  else { p with result := { p.result with code := some arg } }

/-- Reads classified arguments. Two dashes may stand before the notation, or be the last argument
right after it. -/
def readFrom (p : Progress) : List (String × Kind) → Except Refusal Progress
  | [] => .ok p
  | [(arg, .value), (_, .separator)] => .ok (p.takeValue arg)
  | (arg, .value) :: rest => readFrom (p.takeValue arg) rest
  | (_, .unknown) :: rest => readFrom { p with extra := true } rest
  | (_, .letters letters) :: _ => .error (takeLetters letters)
  | (_, .flag flag (some value)) :: rest => do readFrom (← p.takeFlag flag (some value)) rest
  | (_, .flag flag none) :: rest =>
    if flag.takesValue then
      match rest with
      | (value, .value) :: rest => do readFrom (← p.takeFlag flag (some value)) rest
      | _ => .error .misuse
    else do readFrom (← p.takeFlag flag none) rest
  | (_, .separator) :: rest =>
    if p.result.code.isSome then .ok { p with extra := true }
    else .ok ((rest.map (·.1)).foldl Progress.takeValue p)

/-- Reads the arguments of the command. -/
def Arguments.read (args : List String) : Except Refusal Arguments := do
  let p ← readFrom {} (← classify args)
  if p.extra then throw .misuse
  return p.result

end Seamark.Command
