import EulerFlow.Config.ModelTable

namespace EulerFlow.CommandLine

/-- What a call of the program does: its exit code, what it prints, what its journal shows,
and the chain of messages of the error that ended it. -/
structure Outcome where
  exitCode : Nat
  stdout : String
  notices : List Notice
  failure : List String

/-- The arguments make no sense. -/
def misused : Outcome := ⟨2, "", [], []⟩

/-- The program ends with an error before it has anything to show. -/
def failed (messages : List String) : Outcome := ⟨1, "", [], messages⟩

/-- An argument that is taken for an option. A dash alone is a path. -/
def isOption (arg : String) : Bool :=
  arg.startsWith "-" && arg ≠ "-"

/-- The one argument: the path of the model file. No options are known, and a double dash
ends their place. Help is left out, so that to ask for it counts as misuse here. -/
def modelPath? (args : List String) : Option String :=
  let marked := args.takeWhile (· ≠ "--")
  let unmarked := (args.dropWhile (· ≠ "--")).drop 1
  if marked.any isOption then none
  else
    match marked ++ unmarked with
    | [path] => if path.isEmpty then none else some path
    | _ => none

/-- Builds the model of a file and prints its table. Rows that came before an error are printed. -/
def runFile (file : ModelFile) (verbosity : Verbosity) : Outcome :=
  let shown (notices : List Notice) := notices.filter (verbosity.admits ·.level)
  let (built, result) := file.build
  match result with
  | .error messages => ⟨1, "", shown built, messages⟩
  | .ok model =>
    let (_, run) := model.execute none
    match run.result with
    | .error fault => ⟨1, run.receiver.kept, shown (built ++ run.notices), fault.chain⟩
    | .ok summary =>
      ⟨0, run.receiver.kept, shown (built ++ run.notices ++ [.wroteRows (summary.steps + 1)]), []⟩

/-- What the program relies on without looking into it: which path its arguments name, and which model file a text
stands for. -/
structure Readers where
  path? : List String → Option String
  file? : String → Option ModelFile

/-- The whole program, given the contents of the files that can be read. -/
def Readers.run (readers : Readers) (contents : String → Option String) (args : List String) : Outcome :=
  match readers.path? args with
  | none => misused
  | some path =>
    match contents path with
    | none => failed ["failed to read model file " ++ path]
    | some text =>
      match readers.file? text with
      | none => failed ["invalid model file " ++ path]
      | some file =>
        match file.verbosity? with
        | none => failed ["unknown log_level \"" ++ file.logLevel.getD "" ++ "\""]
        | some verbosity => runFile file verbosity

/-- One argument, which is the path of a file in TOML. -/
def readers : Readers where
  path? := modelPath?
  file? := ModelFile.read?

/-- The program with the readers that it is run with. -/
def run (contents : String → Option String) (args : List String) : Outcome :=
  readers.run contents args

end EulerFlow.CommandLine
