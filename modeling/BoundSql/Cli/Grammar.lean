import BoundSql.Text.Split

/-!
# Grammars of command lines

A command line is words. A word that starts with two dashes names an option by its long name, a word
that starts with one dash names options by letters, and the others are places in order: values that
are known by where they stand. The word of two dashes alone ends the options. What a command allows
is data, and one reader serves every command.

## Main definitions

* `BoundSql.Cli.OptionRule`, `BoundSql.Cli.CommandRule` — what a command allows.
* `BoundSql.Cli.UsageError` — why words are no use of a command.
* `BoundSql.Cli.Given` — the options and places that words give.
* `BoundSql.Cli.CommandRule.read` — what words give, up to the name of a subcommand.
* `BoundSql.Cli.CommandRule.finish` — checks what has to be given.
-/

namespace BoundSql.Cli

/-! ## Rules -/

/-- What an option takes and does. -/
inductive OptionKind where
  /-- It takes nothing and is given once. -/
  | flag
  /-- It takes nothing, and how often it is given counts. -/
  | counter
  /-- It takes a text and is given once. -/
  | text
  /-- It takes a number of 64 bits and is given once. -/
  | number
  /-- It takes a text and may be given again. -/
  | texts
  /-- It takes texts with commas between them and may be given again. -/
  | list
  /-- It asks for help. -/
  | help
  /-- It asks for the version. -/
  | version
deriving DecidableEq, Repr

/-- An option. -/
structure OptionRule where
  /-- The name behind two dashes. -/
  name : String
  /-- The letter behind one dash, if there is one. -/
  letter? : Option Char
  /-- What the option takes and does. -/
  kind : OptionKind
deriving DecidableEq, Repr

/-- Whether an option takes a value. -/
def OptionKind.takesValue : OptionKind → Bool
  | .text | .number | .texts | .list => true
  | .flag | .counter | .help | .version => false

/-- Whether an option may be given only once. -/
def OptionKind.isSingle : OptionKind → Bool
  | .flag | .text | .number => true
  | .counter | .texts | .list | .help | .version => false

/-- A command. -/
structure CommandRule where
  /-- The name of the command, then its other names. -/
  names : List String
  /-- The options. -/
  options : List OptionRule := []
  /-- The names of the places, all of which have to be given. -/
  places : List String := []
  /-- The options that have to be given. -/
  required : List String := []
  /-- Options and what each of them needs. -/
  needs : List (String × String) := []
  /-- Whether words that give nothing ask for help. -/
  helpIfEmpty : Bool := false
  /-- The names of the subcommands. -/
  subcommands : List String := []
deriving DecidableEq, Repr

/-- Why words are no use of a command. -/
inductive UsageError where
  /-- There is no such option, or no place for a word. -/
  | unknownArgument
  /-- There is no such subcommand. -/
  | unknownCommand
  /-- There is no subcommand. -/
  | missingCommand
  /-- Something that has to be given is not. -/
  | missingArgument
  /-- An option is without its value. -/
  | missingValue
  /-- A value is no number of 64 bits. -/
  | invalidNumber
  /-- An option is given again. -/
  | repeatedOption
  /-- An option has a value that it does not take. -/
  | unexpectedValue
  /-- The words ask for help. -/
  | helpRequested
  /-- The words ask for the version. -/
  | versionRequested
  /-- The words give nothing. -/
  | nothingGiven
deriving DecidableEq, Repr

/-! ## What is given -/

/-- Options and places, with their values, in the order they were given. -/
abbrev Given := List (String × List String)

namespace Given

/-- Whether a name is given. -/
def has (given : Given) (name : String) : Bool := given.any (·.1 = name)

/-- How often a name is given. -/
def count (given : Given) (name : String) : Nat := given.countP (·.1 = name)

/-- The values of a name, in order. -/
def values (given : Given) (name : String) : List String :=
  (given.filter (·.1 = name)).flatMap Prod.snd

/-- The first value of a name. -/
def value? (given : Given) (name : String) : Option String := (given.values name).head?

end Given

/-! ## Words -/

/-- The number of 64 bits that a text writes, a plus sign being allowed in front. -/
def numberOfText? (text : String) : Option Nat :=
  let digits := match text.toList with
    | '+' :: digits => digits
    | digits => digits
  let value := digits.foldl (fun n c => 10 * n + (c.toNat - '0'.toNat)) 0
  if !digits.isEmpty && digits.all Char.isDigit && value < Nat.pow 2 64 then some value else none

/-- A word by its shape. -/
inductive Word where
  /-- Two dashes alone. -/
  | separator
  /-- A long name, with the value behind an equals sign if there is one. -/
  | long (name : String) (value? : Option String)
  /-- Letters behind one dash. -/
  | letters (letters : List Char)
  /-- Anything else. -/
  | plain
deriving DecidableEq, Repr

/-- The shape of a word. -/
def Word.ofText (text : String) : Word :=
  match text.toList with
  | ['-', '-'] => .separator
  | '-' :: '-' :: rest =>
    let name := String.ofList (rest.takeWhile (· ≠ '='))
    match rest.dropWhile (· ≠ '=') with
    | [] => .long name none
    | _ :: value => .long name (some (String.ofList value))
  | '-' :: c :: rest => .letters (c :: rest)
  | _ => .plain

/-! ## Reading -/

/-- How far the reading of words has come. -/
structure Reading where
  /-- What is given so far. -/
  given : Given := []
  /-- The option given last, if it is not taken in yet, and its value if it has one. -/
  pending? : Option (OptionRule × Option String) := none
  /-- The places that are still free. -/
  places : List String
  /-- Whether the options have ended. -/
  optionsEnded : Bool := false
deriving DecidableEq, Repr

namespace Reading

/-- Whether the next word is the value of an option. -/
def awaitsValue (reading : Reading) : Bool :=
  match reading.pending? with
  | some (_, none) => true
  | _ => false

/-- Adds what is given. -/
def add (reading : Reading) (name : String) (values : List String) : Reading :=
  { reading with given := reading.given ++ [(name, values)] }

/-- The values that a value of an option stands for. -/
def valuesOf (kind : OptionKind) (value : String) : Except UsageError (List String) :=
  match kind with
  | .number => if (numberOfText? value).isSome then .ok [value] else .error .invalidNumber
  | .list => .ok (Text.split ',' value)
  | _ => .ok [value]

/-- Takes in an option. That it has its value is checked first, then that it is new, then the
value. -/
def take (reading : Reading) (rule : OptionRule) (value? : Option String) :
    Except UsageError Reading := do
  if rule.kind = .help then
    throw .helpRequested
  if rule.kind = .version then
    throw .versionRequested
  if rule.kind.takesValue && value?.isNone then
    throw .missingValue
  if rule.kind.isSingle && reading.given.has rule.name then
    throw .repeatedOption
  match value? with
  | none => return reading.add rule.name []
  | some value => return reading.add rule.name (← valuesOf rule.kind value)

/-- Takes in the option given last. -/
def settle (reading : Reading) : Except UsageError Reading :=
  match reading.pending? with
  | none => .ok reading
  | some (rule, value?) => { reading with pending? := none }.take rule value?

/-- Takes in an option behind the one given last. -/
def takeNext (reading : Reading) (rule : OptionRule) (value? : Option String) :
    Except UsageError Reading := do
  (← reading.settle).take rule value?

/-- Waits for the value of an option. -/
def await (reading : Reading) (rule : OptionRule) : Except UsageError Reading := do
  return { (← reading.settle) with pending? := some (rule, none) }

/-- Gives a word to the option that waits for its value. -/
def giveValue (reading : Reading) (word : String) : Reading :=
  { reading with pending? := reading.pending?.map fun (rule, _) => (rule, some word) }

/-- Reads a long name. -/
def readLong (rules : List OptionRule) (reading : Reading) (name : String)
    (value? : Option String) : Except UsageError Reading :=
  match rules.find? (·.name = name) with
  | none => .error .unknownArgument
  | some rule =>
    match rule.kind.takesValue, value? with
    | true, some value => reading.takeNext rule (some value)
    | true, none => reading.await rule
    | false, some _ => .error .unexpectedValue
    | false, none => reading.takeNext rule none

/-- Reads letters. The letters behind one that takes a value are its value; an equals sign in front
of them does not belong to it. -/
def readLetters (rules : List OptionRule) (reading : Reading) :
    List Char → Except UsageError Reading
  | [] => .ok reading
  | c :: rest =>
    match rules.find? (·.letter? = some c) with
    | none => .error .unknownArgument
    | some rule =>
      if rule.kind.takesValue then
        match rest with
        | [] => reading.await rule
        | '=' :: value => reading.takeNext rule (some (String.ofList value))
        | value => reading.takeNext rule (some (String.ofList value))
      else do
        readLetters rules (← reading.takeNext rule none) rest

/-- Puts a word in the next free place. The option given last is taken in first; what is wrong with
it does not matter if there is no place. -/
def fillPlace (command : CommandRule) (reading : Reading) (word : String) :
    Except UsageError Reading :=
  match reading.places with
  | place :: places => do
    return { (← reading.settle).add place [word] with places }
  | [] =>
    if command.subcommands.isEmpty then .error .unknownArgument
    else if reading.optionsEnded && word ∈ command.subcommands then .error .unknownArgument
    else .error .unknownCommand

/-- Reads a word that is no subcommand. -/
def readWord (command : CommandRule) (reading : Reading) (word : String) :
    Except UsageError Reading :=
  if reading.optionsEnded then reading.fillPlace command word
  else
    match Word.ofText word with
    | .separator => .ok { reading with optionsEnded := true }
    | .long name value? => reading.readLong command.options name value?
    | .letters letters => reading.readLetters command.options letters
    | .plain =>
      if reading.awaitsValue then .ok (reading.giveValue word)
      else reading.fillPlace command word

end Reading

namespace CommandRule

/-- Reads words up to the name of a subcommand: the reading, and the name with the words behind
it. -/
def readFrom (command : CommandRule) (reading : Reading) :
    List String → Except UsageError (Reading × Option (String × List String))
  | [] => .ok (reading, none)
  | word :: rest =>
    if !reading.optionsEnded && !reading.awaitsValue && word ∈ command.subcommands then
      .ok (reading, some (word, rest))
    else do
      readFrom command (← reading.readWord command word) rest

/-- Reads words up to the name of a subcommand. -/
def read (command : CommandRule) (words : List String) :
    Except UsageError (Reading × Option (String × List String)) :=
  command.readFrom { places := command.places } words

/-- Whether everything that has to be given is given. -/
def isComplete (command : CommandRule) (given : Given) : Bool :=
  (command.places ++ command.required).all given.has &&
    command.needs.all fun (name, needed) => !given.has name || given.has needed

/-- What is given in the end, if it is everything that has to be given. `hasSubcommand` says whether
a subcommand is given. -/
def finish (command : CommandRule) (reading : Reading) (hasSubcommand : Bool) :
    Except UsageError Given := do
  let given := (← reading.settle).given
  if !hasSubcommand then
    if command.helpIfEmpty && given.isEmpty then
      throw .nothingGiven
    if !command.subcommands.isEmpty then
      throw .missingCommand
  if !command.isComplete given then
    throw .missingArgument
  return given

end CommandRule

end BoundSql.Cli
