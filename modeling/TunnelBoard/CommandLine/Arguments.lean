import TunnelBoard.Config.Override
/-
  The words of a command line.

  There are two commands, `run` and `config`.  The options `--config` and `--no-color` may stand on
  either side of the command, each of them once on a side, and what stands after the command wins.
  An option takes its value from the same word, after an equals sign, or from the next word, unless
  that looks like an option itself.
-/

namespace TunnelBoard

/-- The options of `run`. -/
structure RunOptions where
  theme : Option Text
  /-- After how many seconds the data plane fails for good. -/
  failAfter : Option Nat
  /-- How many seconds every connection lasts. -/
  dropEvery : Option Nat
  deriving DecidableEq, Repr

inductive Request where
  | run (options : RunOptions)
  | config
  deriving DecidableEq, Repr

structure Arguments where
  configPath : Option Text
  noColour : Bool
  request : Request
  deriving DecidableEq, Repr

/-- What a command line asks for. -/
inductive Invocation where
  | execute (arguments : Arguments)
  | showVersion
  | showHelp
  /-- The words make no sense. -/
  | refused
  deriving DecidableEq, Repr

/-! ## Options -/

/-- An option that was given, with its value if it takes one. -/
inductive Given where
  | value (name : String) (value : Text)
  | flag (name : String)
  deriving DecidableEq, Repr

/-- Whether a word stands for itself, and not for options.  A single dash does. -/
def isPlain (word : Text) : Bool := word.head? ≠ some '-' || word = ['-']

/-- Take an option off the front of some words.  `valued` are the options that take a value, `flags`
    those that take none. -/
def takeOption (valued flags : List String) (word : Text) (rest : List Text) :
    Option (Given × List Text) :=
  let name := word.takeWhile (· ≠ '=')
  let hasValue := word.contains '='
  match valued.find? (fun o => "--".toList ++ o.toList = name) with
  | some o =>
    if hasValue then some (.value o (word.drop (name.length + 1)), rest)
    else
      match rest with
      | next :: rest => if isPlain next then some (.value o next, rest) else none
      | [] => none
  | none =>
    match flags.find? (fun o => "--".toList ++ o.toList = word) with
    | some o => some (.flag o, rest)
    | none => none

namespace Given

def name : Given → String
  | value n _ => n
  | flag n => n

/-- Whether the value of an option is one it can have: a path is not empty, and seconds are a
    number. -/
def isAcceptable : Given → Bool
  | value "config" v => v ≠ []
  | value "fail-after" v => (parseNumber v).toOption.isSome
  | value "drop-every" v => (parseNumber v).toOption.isSome
  | _ => true

end Given

/-- The value of an option. -/
def valueOf (given : List Given) (name : String) : Option Text :=
  given.findSome? fun
    | .value n v => if n = name then some v else none
    | .flag _ => none

/-- The value of an option that takes a number. -/
def numberOf (given : List Given) (name : String) : Option Nat :=
  (valueOf given name).bind fun v => (parseNumber v).toOption

def hasFlag (given : List Given) (name : String) : Bool := given.contains (.flag name)

/-! ## Reading the words -/

/-- What reading some words comes to. -/
inductive OptionsRead where
  /-- Options up to a word that is none of them, and the words from there on. -/
  | upTo (given : List Given) (rest : List Text)
  | help
  | version
  | refused

/-- Read options, one after the other.  Help may be asked for anywhere, the version where
    `versioned` says so; an option that is given twice or has a bad value ends the reading. -/
def readOptions (valued flags : List String) (versioned : Bool) :
    Nat → List Given → List Text → OptionsRead
  | 0, _, _ => .refused
  | _, given, [] => .upTo given []
  | fuel + 1, given, word :: rest =>
    if isPlain word then .upTo given (word :: rest)
    else if word = "--".toList then if rest = [] then .upTo given [] else .refused
    else if word = "--help".toList ∨ word = "-h".toList then .help
    else if versioned ∧ (word = "--version".toList ∨ word = "-V".toList) then .version
    else
      match takeOption valued flags word rest with
      | none => .refused
      | some (option, rest) =>
        if option.isAcceptable && !(given.map Given.name).contains option.name then
          readOptions valued flags versioned fuel (option :: given) rest
        else .refused

/-- The options that take a value and may follow a command. -/
def valuedAfter (command : Text) : List String :=
  if command = "run".toList then ["config", "theme", "fail-after", "drop-every"] else ["config"]

/-- The request of a command, given the options after it. -/
def requestOf (command : Text) (given : List Given) : Request :=
  if command = "run".toList then
    .run ⟨valueOf given "theme", numberOf given "fail-after", numberOf given "drop-every"⟩
  else .config

/-- The words after a command, given the options before it. -/
def readCommand (before : List Given) (command : Text) (words : List Text) : Invocation :=
  match readOptions (valuedAfter command) ["no-color"] false (words.length + 1) [] words with
  | .help => .showHelp
  | .upTo given [] =>
    .execute
      { configPath := valueOf given "config" <|> valueOf before "config"
        noColour := hasFlag given "no-color" || hasFlag before "no-color"
        request := requestOf command given }
  | _ => .refused

/-- What the words of a command line ask for. -/
def Invocation.ofWords (words : List Text) : Invocation :=
  match readOptions ["config"] ["no-color"] true (words.length + 1) [] words with
  | .help => .showHelp
  | .version => .showVersion
  | .upTo before (command :: rest) =>
    if command = "run".toList ∨ command = "config".toList then readCommand before command rest
    else if command = "help".toList then .showHelp
    else .refused
  | _ => .refused

end TunnelBoard
