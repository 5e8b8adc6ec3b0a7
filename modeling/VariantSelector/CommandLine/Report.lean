import VariantSelector.CommandLine.Options
import VariantSelector.Config.Load
import VariantSelector.Variant.Noticed
import VariantSelector.Variant.Suggestion

/-!
What a run of the command prints. Nothing is printed before the configuration is loaded, so a
run that fails prints no result; a run that does not fail prints one block per token.
-/

namespace VariantSelector.CommandLine

/-- The outcome of a run. -/
structure Report where
  exitCode : Nat := 0
  out : Text := []
  err : Text := []
  deriving DecidableEq, Repr

/-- Text as a line. -/
def line (s : Text) : Text := s ++ ['\n']

/-- The block of a resolved token: its variants, then selector, body and sort rank. -/
def tokenBlock (token : Text) (r : Resolution) : Text :=
  let variants :=
    if r.variants.isEmpty then line ("  ".toList ++ Style.dimmed.paint "no variant matched".toList)
    else r.variants.flatMap fun m =>
      line ("  ".toList ++ (Style.cyan.paint m.variant.name ++
        (if m.isLabeled then " label=".toList ++ m.label else [])))
  let sort :=
    match r.rule.sort with
    | some rank => (toString rank).toList
    | none => Style.dimmed.paint ['-']
  line (Style.bold.paint ("=== ".toList ++ (token ++ " ===".toList))) ++ (variants ++
    (line ("  selector  ".toList ++ Style.green.paint r.selector) ++
    (line ("  body      ".toList ++ r.body) ++
    (line ("  sort      ".toList ++ sort) ++
    (if r.rule.noMerge then line ("  ".toList ++ Style.yellow.paint "no-merge".toList) else [])))))

/-- The list of suggestions, with names padded to one width. -/
def suggestionBlock : Text :=
  line (Style.bold.paint "=== Autocomplete ===".toList) ++
    suggestions.flatMap fun (variant, pattern) =>
      let padding := List.replicate (18 - variant.name.length) ' '
      line (Style.cyan.paint (variant.name ++ padding) ++ (' ' :: pattern))

/-- Resolves tokens in order, and gives their blocks. -/
def tokenBlocks (ctx : Context) : List Text → StateM NoticeLog Text
  | [] => return []
  | token :: rest => do
    let resolution ← ctx.noticedResolve token
    return tokenBlock token resolution ++ (← tokenBlocks ctx rest)

/-- One of the causes of a failure: its number, and its text with further lines set in. -/
def causeLine (number : Nat) (text : Text) : Text :=
  line ("    ".toList ++ ((toString number).toList ++ (": ".toList ++
    text.flatMap fun c => if c = '\n' then "\n       ".toList else [c])))

/-- The report of a configuration file that could not be loaded. -/
def loadFailure (path : Text) (fault : Config.LoadFault) : Report where
  exitCode := 1
  err := line ("Error: loading ".toList ++ path) ++ (line [] ++ (line "Caused by:".toList ++
    (causeLine 0 (fault.message path) ++ causeLine 1 fault.reason)))

/-- The report of a run without tokens. -/
def noTokens : Report where
  exitCode := 1
  err := line "Error: no tokens given; see `weft --help`".toList

/-- The report of wrong arguments. -/
def wrongUsage (fault : UsageFault) : Report where
  exitCode := 2
  err := line ("Error: ".toList ++ fault.reason) ++
    line "Usage: weft [--config FILE] [--attributify] [--autocomplete] [TOKEN]...".toList

/-- The report of the version. -/
def versionReport : Report where
  out := line "weft 0.1.0".toList

/-- The configuration that options ask for. -/
def Options.loadConfig (o : Options) (read : Text → Except ReadFault Text) :
    Except (Text × Config.LoadFault) Config := do
  let config ←
    match o.config with
    | none => pure {}
    | some path => (Config.load read path).mapError fun fault => (path, fault)
  return { config with attributify := config.attributify || o.attributify }

/-- Does what options ask for. -/
def Options.run (o : Options) (read : Text → Except ReadFault Text) : Report :=
  match o.loadConfig read with
  | .error (path, fault) => loadFailure path fault
  | .ok config =>
    if o.autocomplete then { out := suggestionBlock }
    else if o.tokens.isEmpty then noTokens
    else
      let (out, log) := (tokenBlocks config.context o.tokens).run {}
      { out, err := log.printed.flatMap fun notice => line notice.display }

/-- Runs the command, with `read` for reading files. -/
def run (read : Text → Except ReadFault Text) (arguments : List Text) : Report :=
  match parse arguments with
  | .error fault => wrongUsage fault
  | .ok .version => versionReport
  | .ok (.run options) => options.run read

end VariantSelector.CommandLine
