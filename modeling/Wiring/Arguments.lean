import Wiring.Report

/-!
# Command-line arguments

A line is a list of options around one command, which may have options of its own. Options can
stand before the command or after it; where both give one, the one after the command counts. A
short option may be followed by others in the same word, and its value may be attached, with or
without an equals sign; the value of a long option is attached with an equals sign. A value that
is a word of its own is looked at only when the next option comes or the line ends.
-/
namespace Wiring

inductive UsageError where
  | nothingAsked
  | missingCommand
  | helpAsked
  | versionAsked
  | unknownCommand
  | unknownArgument
  | missingValue
  | badValue
  | repeatedOption
  | uselessValue
  deriving DecidableEq, Repr

/-- What the program is asked to do. -/
structure Arguments where
  verbosity : Nat := 0
  scenario : Option String := none
  json : Bool := false
  command : Command
  deriving DecidableEq, Repr

inductive OptionName where
  | verbose
  | scenario
  | json
  | help
  | version
  | messages
  | maxRounds
  deriving DecidableEq, Repr

namespace OptionName

def takesValue : OptionName → Bool
  | .scenario | .messages | .maxRounds => true
  | _ => false

end OptionName

/-- The ways an option can be written at one level of the line. -/
structure Spelling where
  name : OptionName
  short : Option Char
  long : String

def commonOptions : List Spelling :=
  [ ⟨.verbose, some 'v', "verbose"⟩, ⟨.scenario, some 's', "scenario"⟩,
    ⟨.json, none, "json"⟩, ⟨.help, some 'h', "help"⟩ ]

/-- The options before a command. -/
def topOptions : List Spelling := commonOptions ++ [⟨.version, some 'V', "version"⟩]

/-- The options after the run command. -/
def runOptions : List Spelling :=
  commonOptions ++ [⟨.messages, some 'm', "messages"⟩, ⟨.maxRounds, none, "max-rounds"⟩]

/-- What the options of one level say. -/
structure Given where
  verbose : Option Nat := none
  scenario : Option String := none
  json : Bool := false
  messages : Option Nat := none
  maxRounds : Option Nat := none
  deriving DecidableEq, Repr

/-! ## Values -/

/-- The number written by decimal digits. -/
def decimal? (digits : List Char) : Option Nat :=
  if digits.isEmpty || !digits.all Char.isDigit then none
  else some (digits.foldl (fun n d => 10 * n + (d.toNat - 48)) 0)

/-- A number with an optional plus sign, below a limit. -/
def unsigned? (limit : Nat) (text : String) : Option Nat := do
  let cs := text.toList
  let n ← decimal? (if cs.head? = some '+' then cs.tail else cs)
  if n < limit then return n else none

/-- As `unsigned?` within 32 bits, where zero may also have a minus sign. -/
def messageCount? (text : String) : Option Nat :=
  match text.toList with
  | '-' :: digits => do if (← decimal? digits) = 0 then return 0 else none
  | _ => unsigned? UInt32.size text

/-- Takes an option with its value into account. -/
def Given.set (g : Given) (name : OptionName) (value : String) : Except UsageError Given :=
  match name with
  | .scenario =>
    if g.scenario.isSome then .error .repeatedOption
    else if value.isEmpty then .error .missingValue
    else .ok { g with scenario := some value }
  | .messages =>
    if g.messages.isSome then .error .repeatedOption
    else match messageCount? value with
      | some n => .ok { g with messages := some n }
      | none => .error .badValue
  | .maxRounds =>
    if g.maxRounds.isSome then .error .repeatedOption
    else match unsigned? UInt64.size value with
      | some n => .ok { g with maxRounds := some n }
      | none => .error .badValue
  | _ => .ok g

/-- Takes an option without a value into account. Verbosity counts up to 255. -/
def Given.flag (g : Given) : OptionName → Except UsageError Given
  | .verbose => .ok { g with verbose := some (min 255 (g.verbose.getD 0 + 1)) }
  | .json => if g.json then .error .repeatedOption else .ok { g with json := true }
  | .help => .error .helpAsked
  | .version => .error .versionAsked
  | _ => .error .missingValue

/-! ## Reading a level -/

/-- An option whose value was still to come, with the value if it has come. -/
abbrev Awaited := Option (OptionName × Option String)

/-- Where the reading of a level stands. -/
structure Reading where
  given : Given := {}
  awaited : Awaited := none
  deriving Repr

/-- Takes the option that was waiting for its value into account. -/
def Reading.resolve (r : Reading) : Except UsageError Given :=
  match r.awaited with
  | none => .ok r.given
  | some (_, none) => .error .missingValue
  | some (name, some value) => r.given.set name value

/-- An option with a value attached to it. -/
def Reading.attach (r : Reading) (name : OptionName) (value : String) :
    Except UsageError Reading := do
  return { given := ← (← r.resolve).set name value }

/-- An option whose value is the next word. -/
def Reading.await (r : Reading) (name : OptionName) : Except UsageError Reading := do
  return { given := ← r.resolve, awaited := some (name, none) }

def Reading.flag (r : Reading) (name : OptionName) : Except UsageError Reading := do
  return { given := ← (← r.resolve).flag name }

/-- The characters of a word after its dash: options without a value, perhaps followed by one with
its value. -/
def Reading.shorts (options : List Spelling) (r : Reading) : List Char → Except UsageError Reading
  | [] => .ok r
  | c :: cs =>
    match options.find? fun o => o.short == some c with
    | none => .error .unknownArgument
    | some o =>
      if o.name.takesValue then
        match cs with
        | [] => r.await o.name
        | '=' :: value => r.attach o.name (String.ofList value)
        | value => r.attach o.name (String.ofList value)
      else do shorts options (← r.flag o.name) cs

/-- The name of a long option and what follows its first equals sign. -/
def splitLong (cs : List Char) : String × Option String :=
  let name := String.ofList (cs.takeWhile (· != '='))
  match cs.dropWhile (· != '=') with
  | [] => (name, none)
  | _ :: value => (name, some (String.ofList value))

/-- A long option without its dashes. -/
def Reading.long (options : List Spelling) (r : Reading) (cs : List Char) :
    Except UsageError Reading :=
  let (name, value) := splitLong cs
  match options.find? fun o => o.long == name with
  | none => .error .unknownArgument
  | some o =>
    match o.name.takesValue, value with
    | true, some value => r.attach o.name value
    | true, none => r.await o.name
    | false, some _ => .error .uselessValue
    | false, none => r.flag o.name

/-- What a word of the line is, by its first characters. -/
inductive Word where
  | escape
  | long (cs : List Char)
  | short (cs : List Char)
  | plain (text : String)

def Word.of (text : String) : Word :=
  match text.toList with
  | ['-', '-'] => .escape
  | '-' :: '-' :: cs => .long cs
  | '-' :: c :: cs => .short (c :: cs)
  | _ => .plain text

/-- Reads the words after a command; there are only options. -/
def readOptions (options : List Spelling) (r : Reading) : List String →
    Except UsageError Given
  | [] => r.resolve
  | word :: words =>
    match Word.of word with
    | .escape => if words.isEmpty then r.resolve else .error .unknownArgument
    | .long cs => do readOptions options (← r.long options cs) words
    | .short cs => do readOptions options (← r.shorts options cs) words
    | .plain text =>
      match r.awaited with
      | some (name, none) => readOptions options { r with awaited := some (name, some text) } words
      | _ => .error .unknownArgument

/-! ## Reading a line -/

inductive CommandName where
  | run
  | select
  | help
  deriving DecidableEq, Repr

def CommandName.of? : String → Option CommandName
  | "run" => some .run
  | "select" => some .select
  | "help" => some .help
  | _ => none

/-- Help is given for one command at most. -/
def readHelp : List String → UsageError
  | [] => .helpAsked
  | [word] => if (CommandName.of? word).isSome then .helpAsked else .unknownCommand
  | _ => .unknownCommand

/-- The options after the command win; counts and switches of the front stand where there are
none behind. -/
def Given.combine (front back : Given) (command : Command) : Arguments where
  verbosity := (back.verbose.or front.verbose).getD 0
  scenario := back.scenario.or front.scenario
  json := back.json || front.json
  command := command

/-- Reads the words after a command, then makes up the front. -/
def readCommand (front : Reading) (name : CommandName) (words : List String) :
    Except UsageError Arguments :=
  match name with
  | .help => .error (readHelp words)
  | .select => do
    let back ← readOptions commonOptions {} words
    return (← front.resolve).combine back .select
  | .run => do
    let back ← readOptions runOptions {} words
    return (← front.resolve).combine back
      (.run (back.messages.getD 8) (back.maxRounds.getD 1000))

/-- The line ended before a command. -/
def missingCommand (front : Reading) : Except UsageError Arguments := do
  let given ← front.resolve
  throw (if given = {} then .nothingAsked else .missingCommand)

/-- Reads a line up to its command. -/
def readLine (r : Reading) : List String → Except UsageError Arguments
  | [] => missingCommand r
  | word :: words =>
    match r.awaited, Word.of word with
    | some (name, none), .plain text =>
      readLine { r with awaited := some (name, some text) } words
    | _, .plain text =>
      match CommandName.of? text with
      | some name => readCommand r name words
      | none => .error .unknownCommand
    | _, .escape =>
      match words with
      | [] => missingCommand r
      | next :: _ =>
        .error (if (CommandName.of? next).isSome then .unknownArgument else .unknownCommand)
    | _, .long cs => do readLine (← r.long topOptions cs) words
    | _, .short cs => do readLine (← r.shorts topOptions cs) words

/-- The arguments that the words of a line mean. -/
def Arguments.parse (words : List String) : Except UsageError Arguments := readLine {} words

end Wiring
