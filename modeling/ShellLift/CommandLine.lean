import ShellLift.Code.Emission
import ShellLift.Code.Settings.Document

/-!
# Command line

The arguments say where the script comes from, what to do with it and which settings to use. They
are read one after the other; the first wrong one ends the reading, and so does the request for
the version or for help. Then the script is read, then the settings, and only then any work is
done.
-/

set_option autoImplicit false

namespace ShellLift.CommandLine

/-! ## Arguments -/

structure Options where
  /-- The script itself. -/
  command : Option Text
  input : Option Text
  builtins : List Text
  pathLike : List Text
  config : Option Text
  validate : Bool
  strict : Bool
  preamble : Bool
deriving DecidableEq

def Options.initial : Options := ⟨none, none, [], [], none, false, false, false⟩

inductive ValueOption
  | command
  | builtin
  | pathLike
  | config
deriving DecidableEq

inductive Flag
  | validate
  | strict
  | preamble
  | version
  | help
deriving DecidableEq

inductive Stop
  | usage
  | version
  | help
deriving DecidableEq

def longOption? (name : Text) : Option (ValueOption ⊕ Flag) :=
  if name = "cmd".toList then some (.inl .command)
  else if name = "builtin".toList then some (.inl .builtin)
  else if name = "path-var".toList then some (.inl .pathLike)
  else if name = "config".toList then some (.inl .config)
  else if name = "validate".toList then some (.inr .validate)
  else if name = "strict".toList then some (.inr .strict)
  else if name = "emit-preamble".toList then some (.inr .preamble)
  else if name = "version".toList then some (.inr .version)
  else if name = "help".toList then some (.inr .help)
  else none

def shortOption? (letter : Char) : Option (ValueOption ⊕ Flag) :=
  if letter = 'c' then some (.inl .command)
  else if letter = 'b' then some (.inl .builtin)
  else if letter = 'V' then some (.inr .version)
  else if letter = 'h' then some (.inr .help)
  else none

/-- Gives an option a value. Only lists take more than one, and a file has a name. -/
def setValue (options : Options) (option : ValueOption) (value : Text) : Except Stop Options :=
  match option with
  | .command =>
    if options.command.isSome then .error .usage
    else .ok { options with command := some value }
  | .builtin => .ok { options with builtins := options.builtins ++ [value] }
  | .pathLike => .ok { options with pathLike := options.pathLike ++ [value] }
  | .config =>
    if options.config.isSome ∨ value.isEmpty then .error .usage
    else .ok { options with config := some value }

def setFlag (options : Options) (flag : Flag) : Except Stop Options :=
  match flag with
  | .validate =>
    if options.validate then .error .usage else .ok { options with validate := true }
  | .strict => if options.strict then .error .usage else .ok { options with strict := true }
  | .preamble =>
    if options.preamble then .error .usage else .ok { options with preamble := true }
  | .version => .error .version
  | .help => .error .help

def setInput (options : Options) (path : Text) : Except Stop Options :=
  if options.input.isSome ∨ path.isEmpty then .error .usage
  else .ok { options with input := some path }

structure Progress where
  options : Options
  /-- The option whose value comes next. -/
  pending : Option ValueOption
  /-- Every further argument is a file. -/
  filesOnly : Bool
deriving DecidableEq

/-- An argument that names options. A lone hyphen does not. -/
def namesOption (argument : Text) : Bool :=
  argument.head? == some '-' && argument != ['-']

def readOption (progress : Progress) (option : ValueOption ⊕ Flag) (attached : Option Text) :
    Except Stop Progress :=
  match option, attached with
  | .inl option, some value =>
    (setValue progress.options option value).map fun options =>
      { progress with options := options }
  | .inl option, none => .ok { progress with pending := some option }
  | .inr flag, none =>
    (setFlag progress.options flag).map fun options => { progress with options := options }
  | .inr _, some _ => .error .usage

/-- Reads an option with a long name behind its two hyphens. A value may be attached by an equals
sign. -/
def readLong (progress : Progress) (argument : Text) : Except Stop Progress :=
  let name := argument.takeWhile (· != '=')
  let attached := (argument.dropWhile (· != '=')).tail?
  match longOption? name with
  | some option => readOption progress option attached
  | none => .error .usage

/-- Reads options by their letters. The letter of an option with a value is the last one, and the
value, with an equals sign before it or without, may follow right behind it. -/
def readShort (progress : Progress) : Text → Except Stop Progress
  | [] => .ok progress
  | letter :: rest =>
    match shortOption? letter with
    | some (.inl option) =>
      match rest with
      | [] => readOption progress (.inl option) none
      | '=' :: value => readOption progress (.inl option) (some value)
      | value => readOption progress (.inl option) (some value)
    | some (.inr flag) =>
      match readOption progress (.inr flag) none with
      | .ok progress => readShort progress rest
      | .error stop => .error stop
    | none => .error .usage

def readArgument (progress : Progress) (argument : Text) : Except Stop Progress :=
  if progress.filesOnly then
    (setInput progress.options argument).map fun options => { progress with options := options }
  else
    match progress.pending with
    | some option =>
      if namesOption argument then .error .usage
      else
        (setValue progress.options option argument).map fun options =>
          { progress with options := options, pending := none }
    | none =>
      if argument = "--".toList then .ok { progress with filesOnly := true }
      else if "--".toList.isPrefixOf argument then readLong progress (argument.drop 2)
      else if namesOption argument then readShort progress (argument.drop 1)
      else
        (setInput progress.options argument).map fun options =>
          { progress with options := options }

def readArguments (progress : Progress) : List Text → Except Stop Progress
  | [] => .ok progress
  | argument :: arguments =>
    match readArgument progress argument with
    | .ok progress => readArguments progress arguments
    | .error stop => .error stop

/-- The options of a command line. The script is given in exactly one way. -/
def parseArguments (arguments : List Text) : Except Stop Options :=
  match readArguments ⟨.initial, none, false⟩ arguments with
  | .error stop => .error stop
  | .ok progress =>
    if progress.pending.isSome then .error .usage
    else if progress.options.command.isSome == progress.options.input.isSome then .error .usage
    else .ok progress.options

/-! ## Work -/

inductive FileFault
  | notFound
  | isDirectory
  | notText
  | other (reason : Text)
deriving DecidableEq

def FileFault.message : FileFault → Text
  | notFound => "No such file or directory (os error 2)".toList
  | isDirectory => "Is a directory (os error 21)".toList
  | notText => "stream did not contain valid UTF-8".toList
  | other reason => reason

inductive Problem
  | input (path : Text) (fault : FileFault)
  | config (path : Text) (fault : FileFault)
  | settings
  | script (diagnostic : Diagnostic)
deriving DecidableEq

def Problem.message : Problem → Text
  | input path fault => "Cannot read input file ".toList ++ path ++ ": ".toList ++ fault.message
  | config path fault =>
    "cannot read config file '".toList ++ path ++ "': ".toList ++ fault.message
  | settings => "invalid config".toList
  | script diagnostic => diagnostic.display.toList

def Options.adjust (options : Options) (settings : Settings) : Settings :=
  { settings.addPathLike options.pathLike with
    strictTypes := settings.strictTypes || options.strict
    emitsPreamble := settings.emitsPreamble || options.preamble }

/-- The result for a script: its code, or nothing if it only has to be read. -/
def Options.process (options : Options) (settings : Settings) (source : Text) :
    Except Problem (Option Text) :=
  if options.validate then
    match parse source options.builtins with
    | .ok _ => .ok none
    | .error diagnostic => .error (.script diagnostic)
  else
    match lift settings source options.builtins with
    | .ok code => .ok (some code)
    | .error diagnostic => .error (.script diagnostic)

section

variable {m : Type → Type} [Monad m]

def Options.readSource (options : Options) (readFile : Text → m (Except FileFault Text)) :
    m (Except Problem Text) :=
  match options.command, options.input with
  | some command, _ => pure (.ok command)
  | none, some path => do
    match ← readFile path with
    | .ok source => pure (.ok source)
    | .error fault => pure (.error (.input path fault))
  | none, none => pure (.ok [])

def Options.readSettings (options : Options) (readFile : Text → m (Except FileFault Text)) :
    m (Except Problem Settings) :=
  match options.config with
  | none => pure (.ok (options.adjust .initial))
  | some path => do
    match ← readFile path with
    | .error fault => pure (.error (.config path fault))
    | .ok document =>
      match Settings.ofDocument? document with
      | some settings => pure (.ok (options.adjust settings))
      | none => pure (.error .settings)

def Options.run (options : Options) (readFile : Text → m (Except FileFault Text)) :
    m (Except Problem (Option Text)) := do
  match ← options.readSource readFile with
  | .error problem => pure (.error problem)
  | .ok source =>
    match ← options.readSettings readFile with
    | .error problem => pure (.error problem)
    | .ok settings => pure (options.process settings source)

end

/-! ## Texts for the user -/

def versionText : Text := "zsh2xonsh 0.1.0".toList

def usageText : Text :=
  ("Usage: zsh2xonsh [OPTIONS] (-c COMMAND | FILE)\n" ++
    "  -c, --cmd COMMAND    take the script from the command line\n" ++
    "  -b, --builtin NAME   a command that the emitted code may call (repeatable)\n" ++
    "      --validate       only read the script\n" ++
    "      --strict         keep the type of every exported variable\n" ++
    "      --path-var NAME  a variable that holds a path list (repeatable)\n" ++
    "      --config FILE    settings\n" ++
    "      --emit-preamble  let the emitted code make its own context\n" ++
    "  -h, --help           show this text\n" ++
    "  -V, --version        show the version").toList

end ShellLift.CommandLine
