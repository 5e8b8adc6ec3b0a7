import VariantSelector.CommandLine.Report

/-!
What a terminal is sent, with the control sequences written out: the block of a token and the list
of suggestions line by line (`tokenBlock_eq`, `suggestionBlock_eq`), the notice on labels, and the
beginning of the report of a failure.
-/

namespace VariantSelector.CommandLine

/-- Lines as they are printed: each is ended by a newline. -/
def printed (lines : List Text) : Text := lines.flatMap (· ++ ['\n'])

@[simp] theorem printed_nil : printed [] = [] := rfl

@[simp] theorem printed_cons (s : Text) (lines : List Text) :
    printed (s :: lines) = line s ++ printed lines := List.flatMap_cons

@[simp] theorem printed_append (lines lines' : List Text) :
    printed (lines ++ lines') = printed lines ++ printed lines' := List.flatMap_append

theorem printed_flatMap {α : Type} (f : α → List Text) (xs : List α) :
    printed (xs.flatMap f) = xs.flatMap fun x => printed (f x) := List.flatMap_assoc

/-! ### Blocks -/

/-- A label as the line of a match shows it. -/
def labelText : Text → Text
  | [] => []
  | label => " label=".toList ++ label

/-- The line of a match: its variant in cyan, and its label if it has one. -/
def matchLine (m : Match) : Text :=
  "  \x1b[36m".toList ++ m.variant.name ++ "\x1b[39m".toList ++ labelText m.label

/-- A sort rank in decimal digits, or a dimmed dash. -/
def rankText : Option Nat → Text
  | some rank => Nat.toDigits 10 rank
  | none => "\x1b[2m-\x1b[0m".toList

/-- The lines of the block of a token. -/
def blockLines (token : Text) (r : Resolution) : List Text :=
  ["\x1b[1m=== ".toList ++ token ++ " ===\x1b[0m".toList]
    ++ (if r.variants = [] then ["  \x1b[2mno variant matched\x1b[0m".toList]
      else r.variants.map matchLine)
    ++ ["  selector  \x1b[32m".toList ++ r.selector ++ "\x1b[39m".toList,
      "  body      ".toList ++ r.body,
      "  sort      ".toList ++ rankText r.rule.sort]
    ++ if r.rule.noMerge then ["  \x1b[33mno-merge\x1b[39m".toList] else []

theorem matchLine_eq (m : Match) :
    "  ".toList ++ (Style.cyan.paint m.variant.name ++
      (if m.isLabeled then " label=".toList ++ m.label else [])) = matchLine m := by
  have hlabel : (if m.isLabeled then " label=".toList ++ m.label else []) = labelText m.label := by
    unfold Match.isLabeled
    cases m.label <;> rfl
  rw [Style.paint_cyan, hlabel]
  -- not by `rw`, which would go on to compare the literals character by character
  unfold matchLine
  simp

/-- A block is its lines. -/
theorem tokenBlock_eq (token : Text) (r : Resolution) :
    tokenBlock token r = printed (blockLines token r) := by
  have htitle : Style.bold.paint ("=== ".toList ++ (token ++ " ===".toList))
      = "\x1b[1m=== ".toList ++ token ++ " ===\x1b[0m".toList := by
    rw [Style.paint_bold]
    simp
  have hselector : "  selector  ".toList ++ Style.green.paint r.selector
      = "  selector  \x1b[32m".toList ++ r.selector ++ "\x1b[39m".toList := by
    rw [Style.paint_green]
    simp
  have hnone : "  ".toList ++ Style.dimmed.paint "no variant matched".toList
      = "  \x1b[2mno variant matched\x1b[0m".toList := by decide
  have hdash : Style.dimmed.paint ['-'] = "\x1b[2m-\x1b[0m".toList := by decide
  have hnoMerge : "  ".toList ++ Style.yellow.paint "no-merge".toList
      = "  \x1b[33mno-merge\x1b[39m".toList := by decide
  have hmatches : (r.variants.flatMap fun m => line (matchLine m))
      = printed (r.variants.map matchLine) := by
    rw [printed, List.flatMap_map]
    rfl
  have hrank (rank : Nat) : (toString rank).toList = Nat.toDigits 10 rank := String.toList_ofList
  unfold tokenBlock blockLines
  rw [htitle, hselector, hnone, hdash, hnoMerge]
  simp only [matchLine_eq, hmatches, hrank, List.isEmpty_iff, apply_ite printed, printed_append,
    printed_cons, printed_nil, List.append_nil, List.append_assoc]
  cases r.rule.sort <;> rfl

/-- The lines of the list of suggestions. -/
def suggestionLines : List Text :=
  "\x1b[1m=== Autocomplete ===\x1b[0m".toList :: suggestions.map fun (variant, pattern) =>
    "\x1b[36m".toList ++ variant.name.rightpad 18 ' ' ++ "\x1b[39m ".toList ++ pattern

/-- The list of suggestions is its lines. -/
theorem suggestionBlock_eq : suggestionBlock = printed suggestionLines := by
  have htitle : Style.bold.paint "=== Autocomplete ===".toList
      = "\x1b[1m=== Autocomplete ===\x1b[0m".toList := by decide
  have hsuggestion (name pattern : Text) : Style.cyan.paint
        (name ++ List.replicate (18 - name.length) ' ') ++ (' ' :: pattern)
      = "\x1b[36m".toList ++ name.rightpad 18 ' ' ++ "\x1b[39m ".toList ++ pattern := by
    rw [Style.paint_cyan]
    simp [List.rightpad]
  unfold suggestionBlock suggestionLines
  rw [printed_cons, htitle, printed, List.flatMap_map]
  simp only [hsuggestion]
  rfl

/-! ### Error output -/

/-- The notice on labels is one yellow line. -/
theorem line_labeled_display :
    line Notice.labeled.display = "\x1b[33m[weft Variants] ⚠ The labeled variant is ".toList
      ++ "experimental and may not follow semver.\x1b[39m\n".toList := by decide

/-- A cause is written as it is up to its first newline. -/
theorem causeLine_begins (number : Nat) {lead : Text} (hlead : '\n' ∉ lead) (rest : Text) :
    "    ".toList ++ ((toString number).toList ++ (": ".toList ++ lead))
      <+: causeLine number (lead ++ rest) := by
  have hkept : (lead.flatMap fun c => if c = '\n' then "\n       ".toList else [c]) = lead := by
    induction lead with
    | nil => rfl
    | cons c lead ih =>
      simp only [List.mem_cons, not_or] at hlead
      obtain ⟨hc, hlead⟩ := hlead
      rw [List.flatMap_cons, ih hlead, if_neg (Ne.symm hc), List.singleton_append]
  rw [causeLine, line, List.flatMap_append, hkept]
  simp only [List.append_assoc, List.prefix_append_right_inj, List.prefix_append]

/-- The report of a file that cannot be loaded names the file and what was attempted. -/
theorem loadFailure_begins (path : Text) {fault : Config.LoadFault}
    (hline : '\n' ∉ fault.attempt) :
    "Error: loading ".toList ++ path ++ "\n\nCaused by:\n    0: ".toList ++ fault.attempt
      <+: (loadFailure path fault).err := by
  have hcauses : "\n\nCaused by:\n    0: ".toList
      = ['\n'] ++ (line [] ++ (line "Caused by:".toList
        ++ ("    ".toList ++ ((toString 0).toList ++ ": ".toList)))) := by decide
  have hcause : "    ".toList ++ ((toString 0).toList ++ (": ".toList ++ fault.attempt))
      <+: causeLine 0 (fault.message path) ++ causeLine 1 fault.reason :=
    (causeLine_begins 0 hline _).trans (List.prefix_append ..)
  rw [hcauses]
  simpa only [loadFailure, line, List.append_assoc, List.prefix_append_right_inj] using hcause

end VariantSelector.CommandLine
