import HostWatch.Text.Digit

/-!
# The command line

Options may be shortened as long as it stays clear which is meant, and a value may follow after `=`
or as the next word. There are no words besides options and their values.
-/

namespace HostWatch

/-- What the user asks for. -/
structure Arguments where
  config : Option String := none
  once : Bool := false
  verbose : Bool := false
  logLevel : Option String := none
  deriving DecidableEq, Repr

namespace CommandLine

inductive Flag where
  | help
  | config
  | once
  | verbose
  | logLevel
  deriving DecidableEq, Repr

/-- Whether an option is followed by a value. -/
def Flag.takesValue : Flag → Bool
  | config | logLevel => true
  | _ => false

/-- All spellings of the options. -/
def spellings : List (String × Flag) := [
  ("-h", .help), ("--help", .help), ("--config", .config), ("--once", .once),
  ("--verbose", .verbose), ("--log-level", .logLevel)]

/-- A word of the command line. -/
inductive Word where
  /-- Not an option: a value, or a word too many. -/
  | plain (s : String)
  /-- An option with the value after `=`. -/
  | option (flag : Flag) (value : Option String)
  /-- A short plea for help with letters after it. -/
  | bundle (letters : List Char)
  /-- An option that does not exist. -/
  | unknown
  /-- `--`: the words that follow are no options. -/
  | separator
  /-- A shortened option that may be one of several. -/
  | ambiguous
  deriving DecidableEq, Repr

/-- Cuts a word at the first `=`. -/
def cutValue (s : String) : String × Option String :=
  let cs := s.toList
  match cs.dropWhile (· != '=') with
  | [] => (s, none)
  | _ :: value => (String.ofList (cs.takeWhile (· != '=')), some (String.ofList value))

/-- Whether a word is a negative number without exponent. -/
def isNegativeNumber (s : String) : Bool :=
  let isDigit (c : Char) : Bool := (Text.digitValue? c).isSome
  let cs := s.toList
  let cs := if cs.getLast? = some '\n' then cs.dropLast else cs
  match cs with
  | '-' :: rest =>
    let after := rest.dropWhile isDigit
    match after with
    | [] => !rest.isEmpty
    | '.' :: part => !part.isEmpty && part.all isDigit
    | _ => false
  | _ => false

/-- What a word may be short for. -/
def candidates (s : String) : List Word :=
  if s.startsWith "--" then
    let (name, value) := cutValue s
    spellings.filterMap fun (spelling, flag) =>
      if spelling.startsWith name then some (.option flag value) else none
  else
    match s.toList with
    | '-' :: 'h' :: letters => [.bundle letters]
    | _ => []

/-- What kind of word it is. -/
def classify (s : String) : Word :=
  if !s.startsWith "-" then .plain s
  else
    match spellings.lookup s with
    | some flag => .option flag none
    | none =>
      if s = "-" then .plain s
      else
        let (name, value) := cutValue s
        match value, spellings.lookup name with
        | some value, some flag =>
          if name = "-h" then .bundle value.toList else .option flag (some value)
        | _, _ =>
          match candidates s with
          | [word] => word
          | _ :: _ :: _ => .ambiguous
          | [] => if isNegativeNumber s || s.toList.contains ' ' then .plain s else .unknown

/-- Sorts the words; after a separator all are plain. -/
def classifyAll : List String → List Word
  | [] => []
  | s :: rest =>
    if s = "--" then .separator :: rest.map .plain else classify s :: classifyAll rest

/-- What comes of a command line: arguments, or an exit code. -/
inductive Parsed where
  | run (arguments : Arguments)
  | exit (code : Nat)
  deriving DecidableEq, Repr

/-- What the command line looks like. -/
def usage : String :=
  "usage: hostwatch [-h] [--config CONFIG] [--once] [--verbose] [--log-level LOG_LEVEL]"

/-- The code for a command line that makes no sense. -/
def misuse : Nat := 2

/-- Takes over an option. -/
def Flag.store (value : String) (a : Arguments) : Flag → Arguments
  | help => a
  | config => { a with config := some value }
  | once => { a with once := true }
  | verbose => { a with verbose := true }
  | logLevel => { a with logLevel := some value }

/-- What letters after `-h` amount to: each is taken for a short option, of which there is one. -/
def bundled (letters : List Char) : Parsed :=
  if !letters.isEmpty && letters.all (· == 'h') then .exit 0 else .exit misuse

/-- Goes through the words. A word too many is only complained of at the end, so that a plea for
help before that is heard. -/
def interpret : Bool → Arguments → List Word → Parsed
  | excess, a, [] => if excess then .exit misuse else .run a
  | _, _, .bundle letters :: _ => bundled letters
  | excess, a, .option flag (some value) :: rest =>
    if flag.takesValue then interpret excess (flag.store value a) rest else .exit misuse
  | excess, a, .option flag none :: rest =>
    if flag = .help then .exit 0
    else if flag.takesValue then
      match rest with
      | .plain value :: rest => interpret excess (flag.store value a) rest
      | _ => .exit misuse
    else interpret excess (flag.store "" a) rest
  | _, a, _ :: rest => interpret true a rest

/-- Reads the words after the name of the program. -/
def parse (words : List String) : Parsed :=
  let sorted := classifyAll words
  if sorted.contains .ambiguous then .exit misuse else interpret false {} sorted

end CommandLine

end HostWatch
