import Pageloom.Site.Build

/-!
# The command line

Two commands, one that builds the site of the current directory and one that renders a single page.
Options stand before and behind the arguments of a command; the options of the program stand before
its command. Two dashes alone end the options. Asking for help or for the version comes before
everything but a mistake in the options.

A run is a function of the arguments and the disk. It yields what is printed, the exit code, and the
disk afterwards. Faults that the user can mend are printed; any other one is a crash, and is handed
out.

## Main definitions

* `CommandLine.readOptions`: the options and the arguments among the words of a command line.
* `CommandLine.UsageError`: a command line that makes no sense.
* `CommandLine.run`: what a command line does.
-/

namespace Pageloom.CommandLine

/-! ### Options -/

/-- A mistake in a command line. -/
inductive UsageError where
  | unknownOption (name : Text)
  | valueMissing (name : Text)
  | valueGiven (name : Text)
  | argumentMissing (name : Text)
  | extraArguments (words : List Text)
  | commandMissing
  | unknownCommand (name : Text)
  /-- A file was given where a directory is wanted. -/
  | notDirectory (option path : Text)
deriving Repr, DecidableEq

/-- The wording of a mistake. -/
def UsageError.message : UsageError → Text
  | .unknownOption name => "No such option " ++ name.quoted ++ "."
  | .valueMissing name => "Option " ++ name.quoted ++ " requires an argument."
  | .valueGiven name => "Option " ++ name.quoted ++ " does not take a value."
  | .argumentMissing name => "Missing argument " ++ name.quoted ++ "."
  | .extraArguments words =>
    let noun : Text := if words.length = 1 then "argument" else "arguments"
    "Got unexpected extra " ++ noun ++ " (" ++ Text.join " " words ++ ")"
  | .commandMissing => "Missing command."
  | .unknownCommand name => "No such command " ++ name.quoted ++ "."
  | .notDirectory option path =>
    "Invalid value for " ++ option.quoted ++ ": Directory " ++ path.quoted ++ " is a file."

/-- Whether the mistake is printed with the usage of the command. Mistakes about the value of an
option are not. -/
def UsageError.showsUsage : UsageError → Bool
  | .valueMissing _ => false
  | .valueGiven _ => false
  | _ => true

/-- An option: what it means, how it is spelled, and whether a value follows it. One dash and one
letter spell options without values only. -/
structure Choice (α : Type) where
  meaning : α
  names : List Text
  takesValue : Bool

/-- The option of a name. -/
def find? {α : Type} (choices : List (Choice α)) (name : Text) : Option (Choice α) :=
  choices.find? fun c => List.elem name c.names

/-- The option of a name with two dashes. -/
def findLong? {α : Type} (choices : List (Choice α)) (name : Text) : Option (Choice α) :=
  if Text.startsWith "--" name then find? choices name else none

/-- The meanings of several letters behind one dash. -/
def readLetters {α : Type} (choices : List (Choice α)) : Text → Except UsageError (List (α × Text))
  | [] => .ok []
  | c :: cs =>
    match find? choices ['-', c] with
    | none => .error (.unknownOption ['-', c])
    | some choice => (readLetters choices cs).map ((choice.meaning, []) :: ·)

/-- The name of an option, and the value behind its equals sign. -/
def splitValue (word : Text) : Text × Option Text :=
  match Text.cutWhere? (· = '=') word with
  | some (name, _, value) => (name, some value)
  | none => (word, none)

/-- What stands on a command line: the options with their values, in order, and the other words. -/
structure Words (α : Type) where
  options : List (α × Text)
  others : List Text

/-- The words with some options before them. -/
def Words.after {α : Type} (options : List (α × Text)) (w : Words α) : Words α :=
  { w with options := options ++ w.options }

/-- Reads options. Unless `mixed`, they end at the first other word. -/
def readOptions {α : Type} (choices : List (Choice α)) (mixed : Bool) :
    List Text → Except UsageError (Words α)
  | [] => .ok ⟨[], []⟩
  | word :: rest =>
    if word = "--".toList then .ok ⟨[], rest⟩
    else if word.head? = some '-' && word ≠ ['-'] then
      let (name, value) := splitValue word
      match findLong? choices name with
      | some choice =>
        if choice.takesValue then
          let given (v : Text) := Words.after [(choice.meaning, v)]
          match value, rest with
          | some v, rest => (readOptions choices mixed rest).map (given v)
          | none, v :: rest => (readOptions choices mixed rest).map (given v)
          | none, [] => .error (.valueMissing name)
        else if value.isSome then .error (.valueGiven name)
        else (readOptions choices mixed rest).map (Words.after [(choice.meaning, [])])
      | none =>
        if Text.startsWith "--" word then .error (.unknownOption name)
        else
          match readLetters choices word.tail with
          | .error e => .error e
          | .ok options => (readOptions choices mixed rest).map (Words.after options)
    else if mixed then
      (readOptions choices mixed rest).map fun w => { w with others := word :: w.others }
    else .ok ⟨[], word :: rest⟩

/-- The last value of an option. -/
def lastValue? {α : Type} [DecidableEq α] (meaning : α) (w : Words α) : Option Text :=
  w.options.reverse.lookup meaning

/-- Whether an option is given. -/
def isGiven {α : Type} [DecidableEq α] (meaning : α) (w : Words α) : Bool :=
  w.options.any fun (m, _) => m = meaning

/-! ### Commands and their texts -/

/-- The program and its commands. -/
inductive Command where
  | program
  | build
  | render
deriving Repr, DecidableEq

/-- The version of the program. -/
def version : Text := "0.1.0"

/-- The name under which a command is called. -/
def Command.name : Command → Text
  | .program => "folio"
  | .build => "folio build"
  | .render => "folio render"

/-- What can follow the name. -/
def Command.operands : Command → Text
  | .program => "[OPTIONS] COMMAND [ARGS]..."
  | .build => "[OPTIONS]"
  | .render => "[OPTIONS] SOURCE"

/-- The usage line of a command. -/
def Command.usage (c : Command) : Text := "Usage: " ++ c.name ++ " " ++ c.operands ++ "\n"

/-- What the help of a command says behind its usage line. -/
def Command.description : Command → List Text
  | .program => List.map String.toList [
    "  Folio static page generator.",
    "",
    "Options:",
    "  --version      Show the version and exit.",
    "  -v, --verbose  Log pipeline details",
    "  --help         Show this message and exit.",
    "",
    "Commands:",
    "  build   Build the site into the output directory.",
    "  render  Render a single page to standard output."]
  | .build => List.map String.toList [
    "  Build the site into the output directory.",
    "",
    "Options:",
    "  --output DIRECTORY  Directory to build into (overrides folio.yaml",
    "                      output_dir)",
    "  --no-clean          Keep existing output files",
    "  --help              Show this message and exit."]
  | .render => List.map String.toList [
    "  Render a single page to standard output.",
    "",
    "Options:",
    "  --name TEXT    Page name used for \x7bNAME\x7d",
    "  --no-markdown  Skip the Markdown filter",
    "  --help         Show this message and exit."]

/-- The help of a command. -/
def Command.help (c : Command) : Text := c.usage ++ "\n" ++ Text.join "\n" c.description ++ "\n"

/-! ### Results -/

/-- A fault that is not reported to the user. -/
inductive Crash where
  | page (f : Failure)
  | site (f : Site.Fault)
deriving Repr

/-- What a run prints, its exit code, the disk afterwards, and a crash if there was one. -/
structure Result where
  exit : Nat
  output : Text
  errors : Text
  disk : Disk
  crash : Option Crash

/-- A run that prints something and is done. -/
def done (d : Disk) (output : Text) : Result := ⟨0, output, [], d, none⟩

/-- A run that ends with a crash. -/
def crashed (d : Disk) (crash : Crash) : Result := ⟨0, [], [], d, some crash⟩

/-- A run that ends with an error message. -/
def failed (d : Disk) (message : Text) : Result := ⟨1, [], "Error: " ++ message ++ "\n", d, none⟩

/-- A run that ends with a mistake in the command line. -/
def misused (d : Disk) (c : Command) (e : UsageError) : Result :=
  let hint := c.usage ++ "Try '" ++ c.name ++ " --help' for help.\n\n"
  ⟨2, [], (if e.showsUsage then hint else []) ++ "Error: " ++ e.message ++ "\n", d, none⟩

/-! ### Building -/

/-- The options of the command that builds. -/
inductive BuildOption where
  | output
  | keep
  | help
deriving Repr, DecidableEq

/-- How the options of the command that builds are spelled. -/
def buildChoices : List (Choice BuildOption) :=
  [⟨.output, ["--output"], true⟩, ⟨.keep, ["--no-clean"], false⟩, ⟨.help, ["--help"], false⟩]

/-- Whether a word names a file. A slash at the end asks for a directory. -/
def namesFile (d : Disk) (word : Text) : Bool :=
  if word = [] || Text.endsWith "/" word || Text.endsWith "/." word then false
  else
    match d.status (.parse word) with
    | .ok (.file _) => true
    | _ => false

/-- What is printed when a page keeps the site from being built. Its path is shown from the
project. -/
def pageReport (root : Path) (e : PageError) : Text :=
  let shown :=
    match e.source.relativeTo root with
    | .ok p => p
    | .error _ => e.source
  "Build failed:\n  File: " ++ shown.print ++ "\n  Error: " ++ e.detail ++ "\n"

/-- The outcome of a build. Of faults that are not about a page, those of the configuration and
missing files are reported. -/
def buildResult (root : Path) : Except Site.Fault Site.Report × Disk → Result
  | (.ok report, d) =>
    let count := Text.ofNat report.pages.length
    done d ("Built " ++ count ++ " pages into " ++ report.output.print ++ "\n")
  | (.error (.page e), d) => ⟨1, [], pageReport root e, d, none⟩
  | (.error (.config (.invalid e)), d) => failed d e.message
  | (.error f, d) =>
    if f.kind = "FileNotFoundError".toList then failed d f.message else crashed d (.site f)

/-- Builds the site of the current directory. -/
def runBuild (d : Disk) (args : List Text) : Result :=
  match readOptions buildChoices true args with
  | .error e => misused d .build e
  | .ok words =>
    let asked := lastValue? .output words
    if isGiven .help words then done d Command.build.help
    else if (asked.map (namesFile d)).getD false then
      misused d .build (.notDirectory "--output" (asked.getD []))
    else if words.others ≠ [] then misused d .build (.extraArguments words.others)
    else
      let root : Path := ⟨1, d.here⟩
      buildResult root (Site.build root (asked.map Path.parse) (!isGiven .keep words) d)

/-! ### Rendering -/

/-- The options of the command that renders. -/
inductive RenderOption where
  | name
  | plain
  | help
deriving Repr, DecidableEq

/-- How the options of the command that renders are spelled. -/
def renderChoices : List (Choice RenderOption) :=
  [⟨.name, ["--name"], true⟩, ⟨.plain, ["--no-markdown"], false⟩, ⟨.help, ["--help"], false⟩]

/-- The layout for a single page: Markdown unless it is not wanted, and the page's front matter. -/
def pageLayout (plain : Bool) : Layout :=
  ⟨if plain then [] else [.plainMarkdown], [.frontMatter], false⟩

/-- The outcome of rendering. Sources and headers that cannot be read are reported. -/
def renderResult (d : Disk) : Except Failure Rendered → Result
  | .ok rendered => done d rendered.html
  | .error (.source e) => failed d e.message
  | .error (.frontMatter e) => failed d e.message
  | .error f => crashed d (.page f)

/-- Renders one page. -/
def renderFile (d : Disk) (source : Text) (words : Words RenderOption) : Result :=
  match Page.ofFile d (.parse source) (lastValue? .name words) with
  | .error f => renderResult d (.error f)
  | .ok page => renderResult d ((pageLayout (isGiven .plain words)).render d page).result

/-- Renders the page that is named. -/
def runRender (d : Disk) (args : List Text) : Result :=
  match readOptions renderChoices true args with
  | .error e => misused d .render e
  | .ok words =>
    if isGiven .help words then done d Command.render.help
    else
      match words.others with
      | [] => misused d .render (.argumentMissing "SOURCE")
      | [source] => renderFile d source words
      | _ :: extra => misused d .render (.extraArguments extra)

/-! ### The program -/

/-- The options of the program. -/
inductive ProgramOption where
  | version
  | verbose
  | help
deriving Repr, DecidableEq

/-- How the options of the program are spelled. -/
def programChoices : List (Choice ProgramOption) :=
  [⟨.version, ["--version"], false⟩, ⟨.verbose, ["-v", "--verbose"], false⟩,
    ⟨.help, ["--help"], false⟩]

/-- What the options of the program ask for, by the first that asks for something. -/
def asked? (d : Disk) : List (ProgramOption × Text) → Option Result
  | [] => none
  | (.version, _) :: _ => some (done d ("folio, version " ++ version ++ "\n"))
  | (.help, _) :: _ => some (done d Command.program.help)
  | (.verbose, _) :: rest => asked? d rest

/-- The result that the options of the program lead to, or the words behind them. -/
def readProgram (d : Disk) (args : List Text) : Except Result (List Text) :=
  match readOptions programChoices false args with
  | .error e => .error (misused d .program e)
  | .ok words =>
    match asked? d words.options with
    | some result => .error result
    | none => .ok words.others

/-- Runs the command of a name. -/
def runCommand (d : Disk) (name : Text) (args : List Text) : Result :=
  if name = "build".toList then runBuild d args
  else if name = "render".toList then runRender d args
  else
    match readProgram d (name :: args) with
    | .error result => result
    | .ok _ => misused d .program (.unknownCommand name)

/-- What a command line does. Without any words the help is printed as an error. -/
def run (d : Disk) (args : List Text) : Result :=
  if args = [] then ⟨2, [], Command.program.help, d, none⟩
  else
    match readProgram d args with
    | .error result => result
    | .ok [] => misused d .program .commandMissing
    | .ok (name :: args) => runCommand d name args

end Pageloom.CommandLine
