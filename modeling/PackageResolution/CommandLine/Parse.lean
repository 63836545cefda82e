import PackageResolution.CommandLine.Options

/-!
# Reading the command line

The arguments are read from left to right.  A word leads to the level of its command
where there are commands, and is an argument of the command elsewhere.  After `--`
everything is a word.  The first fault decides, but a request for help or for the
version is answered as soon as it is read.
-/

namespace PackageResolution.CommandLine

/-- What is to be done. -/
inductive Command
  /-- Settle the dependencies of projects, by default of the one in the working
  directory, and write their manifests. -/
  | resolveProjects (directories : List Path)
  /-- Download packages, and what they depend on if `transitive`. -/
  | downloadPackages (packages : List String) (transitive : Bool)
  /-- Print an asset. -/
  | printAsset (asset : String) (project : Option Path)
  /-- Show what an import in a module means. -/
  | resolveImport (importing reference : String) (project : Option Path)
  deriving DecidableEq, Repr

/-- Why reading ends without a command. -/
inductive Stop
  /-- Help is asked for. -/
  | help
  /-- The version is asked for. -/
  | version
  /-- The command line cannot be understood. -/
  | misuse (error : UsageError)
  deriving DecidableEq, Repr

/-- The kinds of arguments. -/
inductive Argument
  /-- Two dashes, after which there are no more options. -/
  | escape
  /-- An option by its name, perhaps with a value after an equals sign. -/
  | long (name : String) (value : Option String)
  /-- Options by their letters. -/
  | short (letters : List Char)
  /-- Anything else. -/
  | word (word : String)
  deriving DecidableEq, Repr

/-- The kind of an argument.  A single dash is a word. -/
def Argument.ofText (text : String) : Argument :=
  match Text.dropStart? "--" text with
  | some "" => .escape
  | some rest =>
      match Text.cut? '=' rest with
      | some (name, value) => .long name (some value)
      | none => .long rest none
  | none =>
      match Text.dropStart? "-" text with
      | none => .word text
      | some "" => .word text
      | some letters => .short letters.toList

/-- Whether an argument can be the value of the option before it. -/
def Argument.isWord (text : String) : Bool :=
  match ofText text with
  | .word _ => true
  | _ => false

/-- A step of reading that can be a misuse. -/
def checked {α : Type} (result : Except UsageError α) : Except Stop α :=
  result.mapError .misuse

/-- What is given with an option without a value. -/
def raise (given : Given) (name : String) : Flag → Except Stop Given
  | .help => .error .help
  | .version => .error .version
  | .noCache =>
      if given.options.noCache then .error (.misuse (.repeatedOption name))
      else .ok { given with options := { given.options with noCache := true } }
  | .noTransitive =>
      if given.noTransitive then .error (.misuse (.repeatedOption name))
      else .ok { given with noTransitive := true }

/-- What is given with options by their letters. -/
def raiseLetters (level : Level) (given : Given) (letters : List Char) : Except Stop Given :=
  letters.foldlM (fun given letter =>
    match level.letterFlag? letter with
    | some flag => raise given letter.toString flag
    | none => .error (.misuse (.unknownOption letter.toString))) given

/-- The answer to a request for help on the commands that are named. -/
def helpOn {α : Type} (level : Level) : List String → Except Stop α
  | [] => .error .help
  | name :: rest =>
      match level.command? name with
      | some inner => helpOn inner rest
      | none =>
          if level.isGroup ∧ name = "help" ∧ rest = [] then .error .help
          else .error (.misuse (.unknownCommand name))

/-- The command at the end of the arguments. -/
def finish (given : Given) : Level → Except Stop Command
  | .top => .error (.misuse .missingCommand)
  | .project => .error (.misuse .missingCommand)
  | .resolveProjects => .ok (.resolveProjects (given.words.map Path.mk))
  | .downloadPackages =>
      if given.words.isEmpty then .error (.misuse .missingWord)
      else .ok (.downloadPackages given.words (!given.noTransitive))
  | .printAsset =>
      match given.words with
      | [asset] => .ok (.printAsset asset given.projectDirectory)
      | _ => .error (.misuse .missingWord)
  | .resolveImport =>
      match given.words with
      | [importing, reference] =>
          .ok (.resolveImport importing reference given.projectDirectory)
      | _ => .error (.misuse .missingWord)

/-- The command after arguments that are all words. -/
def readWords (level : Level) (given : Given) (words : List String) :
    Except Stop (Options × Command) := do
  let given ← words.foldlM (fun given word =>
    if level.isGroup then .error (.misuse (.unknownCommand word))
    else checked (given.addWord level word)) given
  return (given.options, ← finish given level)

/-- The options and the command that arguments stand for, from a level on. -/
def read (level : Level) (given : Given) : List String → Except Stop (Options × Command)
  | [] => do return (given.options, ← finish given level)
  | argument :: rest =>
      match Argument.ofText argument with
      | .escape => readWords level given rest
      | .short letters => do read level (← raiseLetters level given letters) rest
      | .word word =>
          match level.command? word with
          | some inner => do
              let (options, command) ← read inner .nothing rest
              return (options.completedBy given.options, command)
          | none =>
              if level.isGroup then
                if word = "help" then helpOn level rest
                else .error (.misuse (.unknownCommand word))
              else do read level (← checked (given.addWord level word)) rest
      | .long name (some value) =>
          match level.setting? name with
          | some setting => do read level (← checked (given.add name value setting)) rest
          | none =>
              match level.flag? name with
              | some _ => .error (.misuse (.unexpectedValue name))
              | none => .error (.misuse (.unknownOption name))
      | .long name none =>
          match level.setting? name with
          | some setting =>
              match rest with
              | [] => .error (.misuse (.missingValue name))
              | value :: rest => do
                  if Argument.isWord value then
                    read level (← checked (given.add name value setting)) rest
                  else .error (.misuse (.missingValue name))
          | none =>
              match level.flag? name with
              | some flag => do read level (← raise given name flag) rest
              | none => .error (.misuse (.unknownOption name))

/-- The options and the command that the arguments of the program stand for. -/
def parse (arguments : List String) : Except Stop (Options × Command) :=
  read .top .nothing arguments

end PackageResolution.CommandLine
