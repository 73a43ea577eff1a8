set_option relaxedAutoImplicit false
set_option autoImplicit false

/-!
# Invocations

What the words of a command line ask for. The words are read from left to right, on two levels:
the program's flags come first, then the name of a command, then the flags and the file of that
command. A flag stands at most once on its level. The first word that cannot stand where it does
refuses the line, and the first flag that asks for the version or for help answers it; what comes
behind is not looked at. After two dashes alone a word is no flag, whatever it looks like.

## Main definitions

* `TxTree.Command.Request` — what is asked for.
* `TxTree.Command.Invocation` — a request with the general flags.
* `TxTree.Command.Word` — a word by its form: two dashes, flags, or plain.
* `TxTree.Command.Invocation.ofArgs?` — the invocation of a list of words, if they make one.
-/

namespace TxTree.Command

/-! ## What is asked for -/

/-- What is asked for. -/
inductive Request where
  /-- Whether a file is clean, and what is amiss with it. -/
  | check (file : String) (json : Bool)
  /-- The tokens of a file, with or without white space and comments. -/
  | tokens (file : String) (json trivia : Bool)
  /-- The tree of a file. -/
  | tree (file : String) (json : Bool)
  /-- The versions of the program and of its library. -/
  | version
  /-- The version of the program. -/
  | programVersion
  /-- How the program is called. -/
  | help
deriving DecidableEq, Repr

/-- The file that a request reads. -/
def Request.file? : Request → Option String
  | .check file _ => some file
  | .tokens file _ _ => some file
  | .tree file _ => some file
  | .version => none
  | .programVersion => none
  | .help => none

/-- A request with the general flags. -/
structure Invocation where
  /-- What is asked for. -/
  request : Request
  /-- Print nothing on success. -/
  quiet : Bool := false
  /-- Tell about the work on the side. -/
  verbose : Bool := false
deriving DecidableEq, Repr

/-! ## Commands and flags -/

/-- The commands. -/
inductive Verb where
  | check
  | tokens
  | tree
  | version
  | help
deriving DecidableEq, Repr

/-- The command of a name. -/
def Verb.ofName? : String → Option Verb
  | "check" => some .check
  | "tokens" => some .tokens
  | "tree" => some .tree
  | "version" => some .version
  | "help" => some .help
  | _ => none

/-- The flags. -/
inductive Flag where
  | quiet
  | verbose
  | json
  | trivia
  | version
  | help
deriving DecidableEq, Repr

namespace Flag

/-- The flag of a letter. -/
def ofLetter? : Char → Option Flag
  | 'q' => some .quiet
  | 'v' => some .verbose
  | 'V' => some .version
  | 'h' => some .help
  | _ => none

/-- The flag of a name. -/
def ofName? : String → Option Flag
  | "quiet" => some .quiet
  | "verbose" => some .verbose
  | "json" => some .json
  | "trivia" => some .trivia
  | "version" => some .version
  | "help" => some .help
  | _ => none

/-- Whether the program takes a flag before a command. -/
def isGeneral : Flag → Bool
  | .quiet | .verbose | .version | .help => true
  | .json | .trivia => false

end Flag

/-- Whether a command takes a flag. -/
def Verb.takesFlag : Verb → Flag → Bool
  | _, .quiet | _, .verbose | _, .help => true
  | .check, .json | .tokens, .json | .tree, .json | .tokens, .trivia => true
  | _, _ => false

/-! ## Words -/

/-- A word by its form. -/
inductive Word where
  /-- Two dashes alone: no flags from here on. -/
  | dashes
  /-- Flags in order: one after two dashes by its name, or several after one dash by their letters.
  A name or a letter of no flag leaves a gap. -/
  | flags (flags : List (Option Flag))
  /-- A word without a dash at its front, or a dash alone. -/
  | plain
deriving DecidableEq, Repr

/-- The form of a word. -/
def Word.ofString (word : String) : Word :=
  match word.toList with
  | ['-', '-'] => .dashes
  | '-' :: '-' :: name => .flags [Flag.ofName? (String.ofList name)]
  | '-' :: c :: letters => .flags ((c :: letters).map Flag.ofLetter?)
  | _ => .plain

/-! ## Reading -/

/-- Why the reading of words stops before they end. -/
inductive Stop where
  /-- A word cannot stand where it does, or one is missing. -/
  | refused
  /-- A flag asks for an answer of its own. -/
  | answered (request : Request)
deriving DecidableEq, Repr

/-- One flag more after those given on a level that takes the flags of `takes`. -/
def addFlag (takes : Flag → Bool) (given : List Flag) (flag : Option Flag) :
    Except Stop (List Flag) :=
  match flag with
  | none => .error .refused
  | some flag =>
    if !takes flag || given.contains flag then .error .refused
    else
      match flag with
      | .version => .error (.answered .programVersion)
      | .help => .error (.answered .help)
      | flag => .ok (flag :: given)

/-- The words behind the name of a command, read so far. -/
structure Arguments where
  /-- The flags given. -/
  flags : List Flag := []
  /-- The file given. -/
  file : Option String := none
  /-- Whether flags are over. -/
  literal : Bool := false
deriving DecidableEq, Repr

namespace Arguments

/-- A word that is no flag: the file, if the command has yet to take one. -/
def addFile (verb : Verb) (a : Arguments) (word : String) : Except Stop Arguments :=
  if verb == .version || a.file.isSome || word.isEmpty then .error .refused
  else .ok { a with file := some word }

/-- One word more. -/
def add (verb : Verb) (a : Arguments) (word : String) : Except Stop Arguments :=
  if a.literal then a.addFile verb word
  else
    match Word.ofString word with
    | .dashes => .ok { a with literal := true }
    | .flags flags => do return { a with flags := ← flags.foldlM (addFlag verb.takesFlag) a.flags }
    | .plain => a.addFile verb word

/-- The request of a command with its words. -/
def request? (verb : Verb) (a : Arguments) : Option Request :=
  let json := a.flags.contains .json
  match verb, a.file with
  | .check, some file => some (.check file json)
  | .tokens, some file => some (.tokens file json (a.flags.contains .trivia))
  | .tree, some file => some (.tree file json)
  | .version, none => some .version
  | _, _ => none

end Arguments

/-- What the words behind `help` ask for: they name one command at most, and none is a flag. -/
def readHelp : List String → Except Stop Invocation
  | [] => .ok { request := .help }
  | [word] => if (Verb.ofName? word).isSome then .ok { request := .help } else .error .refused
  | _ => .error .refused

/-- What a command with the words behind it asks for. -/
def readCommand (general : List Flag) (verb : Verb) (words : List String) :
    Except Stop Invocation := do
  let a ← words.foldlM (Arguments.add verb) {}
  match a.request? verb with
  | none => .error .refused
  | some request =>
    let given (flag : Flag) : Bool := general.contains flag || a.flags.contains flag
    return { request, quiet := given .quiet, verbose := given .verbose }

/-- What the words of a command line ask for, the general flags of `given` being read. -/
def readWords (given : List Flag) : List String → Except Stop Invocation
  | [] => .error .refused
  | word :: rest =>
    match Word.ofString word with
    | .dashes => .error .refused
    | .flags flags => do readWords (← flags.foldlM (addFlag Flag.isGeneral) given) rest
    | .plain =>
      match Verb.ofName? word with
      | none => .error .refused
      | some .help => readHelp rest
      | some verb => readCommand given verb rest

/-- **The invocation of the words of a command line**, if they make one. -/
def Invocation.ofArgs? (args : List String) : Option Invocation :=
  match readWords [] args with
  | .ok i => some i
  | .error (.answered request) => some { request }
  | .error .refused => none

end TxTree.Command
