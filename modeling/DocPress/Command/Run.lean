import DocPress.Build
import DocPress.Command
import DocPress.Config.Files
import DocPress.Presentation

/-!
Doing what a command line asks for. Nothing here reads a clock or touches a disk: a command turns a
tree of files into another one, and what it has to say is a value.
-/

namespace DocPress

open Json (ticked)

/-- A part of what a command prints. -/
inductive OutputPart where
  | text (value : String)
  /-- The line that says how long the command took. -/
  | duration
  deriving DecidableEq, Repr

/-- The text of a part, where `elapsed` is the line for the time if it is wanted. -/
def OutputPart.render (elapsed : Option String) : OutputPart → String
  | .text value => value
  | .duration => elapsed.getD ""

/-- How a command ended. -/
structure Outcome where
  /-- Zero if all went well, two for a line that makes no sense. -/
  status : Nat
  output : List OutputPart := []
  /-- What went wrong, and the causes of it. -/
  report : List String := []
  deriving DecidableEq, Repr

/-- What a command has printed. -/
def Outcome.text (elapsed : Option String) (outcome : Outcome) : String :=
  String.join (outcome.output.map (·.render elapsed))

namespace Perform

/-- A command on its way: the files, and what it has printed. -/
structure Progress where
  files : FileTree
  output : List OutputPart := []

/-- A step of a command. It may fail with a report, after having printed. -/
abbrev Step (α : Type) := Progress → Except (List String) α × Progress

namespace Step

variable {α β : Type}

/-- The step that only has a result. -/
def done (value : α) : Step α :=
  fun progress => (.ok value, progress)

/-- One step after another. -/
def andThen (step : Step α) (next : α → Step β) : Step β :=
  fun progress =>
    match step progress with
    | (.ok value, progress) => next value progress
    | (.error report, progress) => (.error report, progress)

instance : Monad Step where
  pure := done
  bind := andThen

/-- Ends a command with a report. -/
def fail (report : List String) : Step α :=
  fun progress => (.error report, progress)

/-- Takes a result, or ends with a report on the error. -/
def orReport {ε : Type} (report : ε → List String) : Except ε α → Step α
  | .ok value => done value
  | .error error => fail (report error)

/-- Prints a part. -/
def emit (part : OutputPart) : Step Unit :=
  fun progress => (.ok (), { progress with output := progress.output ++ [part] })

/-- Prints a line. -/
def say (line : String) : Step Unit :=
  emit (.text (line ++ "\n"))

/-- Works on the files. -/
def onFiles (work : FileTree → FileTree × α) : Step α :=
  fun progress =>
    let (files, value) := work progress.files
    (.ok value, { progress with files })

end Step

open Step

/-- Reads the configuration. -/
def loadConfig (path : String) (assignments : List (String × String)) : Step Config := do
  let config ← onFiles fun files => (files, Config.ofFiles files path assignments)
  orReport (fun error => ["Failed to load configuration from " ++ path, error.message] ++
    error.cause?.toList) config

/-- Prints diagnostics, errors first. -/
def sayDiagnostics (diagnostics : List Diagnostic) : Step Unit := do
  (diagnostics.filter (·.isError)).forM fun diagnostic => say ("  ✗ " ++ diagnostic.text)
  (diagnostics.filter (!·.isError)).forM fun diagnostic => say ("  ⚠ " ++ diagnostic.text)

/-- The report on documents that cannot be listed. -/
def listingReport (config : Config) (error : ListingError) : List String :=
  ["Failed to list documents in " ++ config.contentDir, error.message] ++ error.causes

/-- Builds documents, or all of them, for a backend, and tells how many failed. -/
def buildBackend (config : Config) (identifiers : List String) (name : String) : Step Nat := do
  let pipeline ← orReport (fun fault => ["Failed to configure backend " ++ ticked name, fault.message])
    (Pipeline.ofConfig config name)
  let cache := Cache.ofPipeline config.cacheDir pipeline
  let builder : Builder := ⟨pipeline, config.store, some cache⟩
  let stats ←
    if identifiers.isEmpty then do orReport (listingReport config) (← onFiles builder.buildAll)
    else onFiles (builder.build identifiers)
  say ""
  say ("  Backend:    " ++ name)
  say ("  Documents:  " ++ toString stats.documents)
  say ("  Written:    " ++ toString stats.written)
  say ("  Failed:     " ++ toString stats.failed)
  say ("  Warnings:   " ++ toString stats.warnings)
  say ("  Output:     " ++ cache.directory)
  unless stats.diagnostics.isEmpty do
    say ""
    sayDiagnostics stats.diagnostics
  return stats.failed

/-- Builds documents, or all of them, for backends, or all of them. -/
def build (config : Config) (backends identifiers : List String) : Step Unit := do
  let names ← orReport (fun fault => [fault.message]) (config.selectBackends backends)
  let failed ← names.mapM (buildBackend config identifiers)
  say ""
  emit .duration
  say ""
  let failures := failed.foldl (· + ·) 0
  if failures ≠ 0 then
    fail ["Build failed for " ++ toString failures ++ " document(s)"]

/-- Goes through all documents for a backend, and tells how many failed and how many warnings there
are. -/
def checkBackend (config : Config) (name : String) : Step (Nat × Nat) := do
  say ("\nChecking backend " ++ ticked name ++ "...")
  let pipeline ← orReport (fun fault => [fault.message]) (Pipeline.ofConfig config name)
  let builder : Builder := { pipeline, store := config.store }
  let stats ← orReport (listingReport config) (← onFiles builder.buildAll)
  sayDiagnostics stats.diagnostics
  say ("  " ++ toString stats.documents ++ " document(s), " ++ toString stats.failed ++
    " failed, " ++ toString stats.warnings ++ " warning(s)")
  return (stats.failed, stats.warnings)

/-- Goes through all documents for backends, or all of them. -/
def check (config : Config) (backends : List String) (strict : Bool) : Step Unit := do
  orReport (fun fault => ["Configuration invalid", fault.message]) config.validate
  say "  ✓ Configuration valid"
  let names ← orReport (fun fault => [fault.message]) (config.selectBackends backends)
  let counts ← names.mapM (checkBackend config)
  let errors := (counts.map (·.1)).foldl (· + ·) 0
  let warnings := (counts.map (·.2)).foldl (· + ·) 0
  say ""
  say "Summary:"
  say ("  Errors:   " ++ toString errors)
  say ("  Warnings: " ++ toString warnings)
  if errors ≠ 0 then
    fail ["Validation failed with " ++ toString errors ++ " error(s)"]
  if strict && warnings ≠ 0 then
    fail ["Validation failed with " ++ toString warnings ++ " warning(s) (strict mode)"]
  say ""
  say "✓ All checks passed"

/-- Prints the page of a document whose artifact is in a cache. -/
def present (config : Config) (identifier backend : String) (props : List String) :
    Step Unit := do
  let pipeline ← orReport (fun fault => [fault.message]) (Pipeline.ofConfig config backend)
  let cache := Cache.ofPipeline config.cacheDir pipeline
  let artifact ← onFiles fun files => (files, cache.read files identifier)
  let artifact ← orReport (fun error =>
    ["Failed to read " ++ ticked identifier ++ " from " ++ cache.directory, error.message] ++
      error.causes) artifact
  let props ← props.mapM fun text => orReport (fun error => [error.message]) (readProp text)
  let page ← orReport (fun error =>
    ["Failed to present " ++ ticked identifier, error.message] ++ error.causes)
    (artifact.present (.ofList props))
  emit (.text page)

/-- Does what is requested. -/
def request (assignments : List (String × String)) (wanted : Request) : Step Unit := do
  match wanted.command with
  | .build backends identifiers =>
    build (← loadConfig wanted.configPath assignments) backends identifiers
  | .check backends strict =>
    say "Checking configuration..."
    check (← loadConfig wanted.configPath assignments) backends strict
  | .present identifier backend props =>
    present (← loadConfig wanted.configPath assignments) identifier backend props

/-- The version that is told. -/
def versionText : String := "folio 0.1.0\n"

/-- How to call the program. -/
def helpText : String :=
  "Compile documents into cached, renderable artifacts\n\n" ++
  "Usage: folio [OPTIONS] <COMMAND>\n\n" ++
  "Commands:\n" ++
  "  build  Compile documents and write them to the cache\n" ++
  "  check  Compile every document without writing, reporting diagnostics\n" ++
  "  show   Render a cached artifact as HTML\n" ++
  "  help   Print this message or the help of the given subcommand(s)\n\n" ++
  "Options:\n" ++
  "  -c, --config <CONFIG>  Path to configuration file [default: folio.toml]\n" ++
  "  -v, --verbose...       Increase verbosity (-v, -vv, -vvv)\n" ++
  "  -h, --help             Print help\n" ++
  "  -V, --version          Print version\n"

end Perform

/-- Does what a command line asks for, with variables of the environment. -/
def Invocation.perform (assignments : List (String × String)) (files : FileTree) :
    Invocation → FileTree × Outcome
  | .version => (files, { status := 0, output := [.text Perform.versionText] })
  | .help => (files, { status := 0, output := [.text Perform.helpText] })
  | .misuse => (files, { status := 2 })
  | .run request =>
    match Perform.request assignments request { files } with
    | (.ok (), progress) => (progress.files, { status := 0, output := progress.output })
    | (.error report, progress) =>
      (progress.files, { status := 1, output := progress.output, report })

end DocPress
