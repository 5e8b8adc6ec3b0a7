import VariantSelector.Proofs.CommandLine.Arguments
import VariantSelector.Proofs.CommandLine.Printing
import VariantSelector.Proofs.Config.Document
import VariantSelector.Proofs.Notice.Labels

/-!
Runs of the command. All tokens of a run share one log, but no answer depends on it, so a run prints
for its tokens in turn what it would print for each of them, and the notice on labels once if a
label was read (`Options.run_eq`); suggestions are printed whatever the tokens are
(`Options.run_of_autocomplete`). Options are heeded when the configuration has been loaded: the flag
for attributes is one more way to set a member of the document (`Options.Documents.loadConfig_eq`),
and a file that cannot be loaded ends the run (`run_of_fault`).
-/

namespace VariantSelector

open Config Json
open NoticeLog (Notes)

/-! ### Documents -/

/-- The members of a document behind setting `attributifyPseudo` to true: it is set once, and the
other members are as they were. -/
structure SetsAttributify (members members' : List (List Nat × Value)) : Prop where
  attributify : valuesOf Field.attributifyPseudo.name members' = [.boolean true]
  others : members'.filter (·.1 ≠ units Field.attributifyPseudo.name)
    = members.filter (·.1 ≠ units Field.attributifyPseudo.name)

namespace SetsAttributify

variable {members members' : List (List Nat × Value)}

theorem valuesOf_eq (h : SetsAttributify members members') (name : Text)
    (hname : units name ≠ units Field.attributifyPseudo.name) :
    valuesOf name members' = valuesOf name members := by
  have hfilter : ∀ ms : List (List Nat × Value), ms.filter (·.1 = units name)
      = (ms.filter (·.1 ≠ units Field.attributifyPseudo.name)).filter (·.1 = units name) := by
    intro ms
    rw [List.filter_filter]
    refine List.filter_congr fun m _ => ?_
    by_cases hm : m.1 = units name <;> simp [hm, hname]
  unfold valuesOf
  rw [hfilter members', h.others, ← hfilter members]

theorem config?_eq (h : SetsAttributify members members') {c : Config}
    (hc : (Value.object members).config? = some c) :
    (Value.object members').config? = some { c with attributify := true } := by
  have htheme := h.valuesOf_eq Field.theme.name (by decide)
  simp only [Value.config?, h.attributify, htheme] at hc ⊢
  obtain ⟨attributify, -, hc⟩ := Option.bind_eq_some_iff.1 hc
  obtain ⟨theme, htheme, hc⟩ := Option.bind_eq_some_iff.1 hc
  cases hc
  rw [htheme]
  rfl

theorem isReadable_eq (h : SetsAttributify members members')
    (hreadable : (Value.object members).isReadable = true) :
    (Value.object members').isReadable = true := by
  have hall : ∀ m ∈ members, isReadableMember m = true := List.all_eq_true.1 hreadable
  refine List.all_eq_true.2 fun m hm => ?_
  by_cases hname : m.1 = units Field.attributifyPseudo.name
  · have hvalue : m.2 ∈ valuesOf Field.attributifyPseudo.name members' :=
      List.mem_map_of_mem (List.mem_filter.2 ⟨hm, by simpa using hname⟩)
    rw [h.attributify, List.mem_singleton] at hvalue
    have htheme : units Field.attributifyPseudo.name ≠ units Field.theme.name := by decide
    have htext : text? (units Field.attributifyPseudo.name) = some Field.attributifyPseudo.name :=
      text?_eq_some_iff.2 rfl
    simp only [isReadableMember, hname, hvalue, htext, if_neg htheme]
    rfl
  · have hother : m ∈ members.filter (·.1 ≠ units Field.attributifyPseudo.name) := by
      rw [← h.others]
      exact List.mem_filter.2 ⟨hm, by simpa using hname⟩
    exact hall m (List.mem_filter.1 hother).1

/-- A text of the changed document gives the same configuration with markers as attributes. -/
theorem parse_eq (h : SetsAttributify members members') {c : Config} {text' : Text}
    (hreadable : (Value.object members).isReadable = true)
    (hconfig : (Value.object members).config? = some c)
    (hwritten' : (Value.object members').IsWrittenAs text') :
    Config.parse text' = .ok { c with attributify := true } := by
  have hdocument := toOption_parse_eq hwritten'
  rw [if_pos (h.isReadable_eq hreadable), h.config?_eq hconfig] at hdocument
  exact toOption_eq_some hdocument

end SetsAttributify

namespace CommandLine

variable {read : Text → Except ReadFault Text} {o o' : Options} {config : Config}

/-- The options name a document with these members, which loads, or name none. -/
inductive Options.Documents (o : Options) (read : Text → Except ReadFault Text) :
    List (List Nat × Value) → Prop
  | absent (h : o.config = none) : Documents o read []
  | file {path text : Text} {members : List (List Nat × Value)} {c : Config}
      (named : o.config = some path) (found : read path = .ok text)
      (written : (Value.object members).IsWrittenAs text) (loads : Config.parse text = .ok c) :
      Documents o read members

/-! ### Loading -/

theorem load_of_found {path text : Text} (hfound : read path = .ok text) :
    Config.load read path = (Config.parse text).mapError .rejected := by
  rw [Config.load, hfound]
  rfl

theorem Options.loadConfig_of_file {path text : Text} {c : Config} (hnamed : o.config = some path)
    (hfound : read path = .ok text) (hparse : Config.parse text = .ok c) :
    o.loadConfig read = .ok { c with attributify := c.attributify || o.attributify } := by
  have hload : Config.load read path = .ok c := by
    rw [load_of_found hfound, hparse]
    rfl
  rw [Options.loadConfig, hnamed]
  simp only [hload]
  rfl

/-- What the document of a run makes of its configuration. -/
theorem Options.Documents.exists_loadConfig {members : List (List Nat × Value)}
    (h : o.Documents read members) :
    ∃ c, (Value.object members).isReadable = true ∧ (Value.object members).config? = some c ∧
      o.loadConfig read = .ok { c with attributify := c.attributify || o.attributify } := by
  cases h with
  | absent hnone =>
    refine ⟨{}, rfl, rfl, ?_⟩
    rw [Options.loadConfig, hnone]
    rfl
  | @file path text _ c hnamed hfound hwritten hloads =>
    have hdocument := toOption_parse_eq hwritten
    rw [hloads] at hdocument
    cases hreadable : (Value.object members).isReadable with
    | false =>
      rw [hreadable] at hdocument
      cases hdocument
    | true =>
      rw [hreadable] at hdocument
      exact ⟨c, rfl, hdocument.symm, loadConfig_of_file hnamed hfound hloads⟩

/-- The flag is one more way to set `attributifyPseudo`. -/
theorem Options.Documents.loadConfig_eq {read' : Text → Except ReadFault Text}
    {members members' : List (List Nat × Value)} {path' text' : Text}
    (h : o.Documents read members) (hflag : o.attributify = true)
    (hset : SetsAttributify members members') (hnamed' : o'.config = some path')
    (hfound' : read' path' = .ok text') (hwritten' : (Value.object members').IsWrittenAs text') :
    ∃ config, o.loadConfig read = .ok config ∧ o'.loadConfig read' = .ok config := by
  obtain ⟨c, hreadable, hconfig, hload⟩ := h.exists_loadConfig
  have hparse' := hset.parse_eq hreadable hconfig hwritten'
  refine ⟨_, hload, ?_⟩
  rw [loadConfig_of_file hnamed' hfound' hparse', hflag]
  simp

/-- What a file cannot be loaded from is reported before anything is printed. -/
theorem Options.run_of_fault {path : Text} {fault : LoadFault} (hnamed : o.config = some path)
    (hload : Config.load read path = .error fault) : o.run read = loadFailure path fault := by
  have hconfig : o.loadConfig read = .error (path, fault) := by
    rw [Options.loadConfig, hnamed]
    simp only [hload]
    rfl
  rw [Options.run, hconfig]

/-- A run that names a file which cannot be loaded fails, prints nothing, and reports the file. -/
theorem run_of_fault {arguments : List Text} {path attempt : Text} {fault : LoadFault}
    (hparse : parse arguments = .ok (.run o)) (hnamed : o.config = some path)
    (hload : Config.load read path = .error fault) (hattempt : fault.attempt = attempt)
    (hline : '\n' ∉ attempt) :
    (run read arguments).exitCode = 1 ∧ (run read arguments).out = [] ∧
      "Error: loading ".toList ++ path ++ "\n\nCaused by:\n    0: ".toList ++ attempt
        <+: (run read arguments).err := by
  subst hattempt
  have hrun : run read arguments = loadFailure path fault := by
    rw [run, hparse]
    exact Options.run_of_fault hnamed hload
  rw [hrun]
  exact ⟨rfl, rfl, loadFailure_begins path hline⟩

/-! ### Printing -/

/-- Tokens print their blocks in turn, and the notice if one of them was read with a label. -/
theorem notes_tokenBlocks (ctx : Context) (tokens : List Text) :
    Notes (tokenBlocks ctx tokens)
      (tokens.flatMap fun token => tokenBlock token (ctx.resolve token))
      (tokens.any fun token => (ctx.resolve token).variants.any Match.isLabeled) := by
  induction tokens with
  | nil => exact .pure []
  | cons token rest ih =>
    rw [List.flatMap_cons, List.any_cons]
    exact (ctx.notes_noticedResolve token).bind (ih.map _)

theorem Options.run_eq (hload : o.loadConfig read = .ok config) (hresolves : o.autocomplete = false)
    (htokens : o.tokens ≠ []) :
    o.run read =
      { out := printed (o.tokens.flatMap fun token =>
          blockLines token (config.context.resolve token))
        err := if o.tokens.any fun token =>
            (config.context.resolve token).variants.any Match.isLabeled
          then line Notice.labeled.display else [] } := by
  have hblocks := notes_tokenBlocks config.context o.tokens {}
  rw [Options.run, hload]
  simp only [hresolves, List.isEmpty_iff, htokens, hblocks, tokenBlock_eq, printed_flatMap,
    Bool.false_eq_true, ↓reduceIte]
  split
  · have hrecord : (({} : NoticeLog).record .labeled).printed = [.labeled] := rfl
    rw [hrecord, List.flatMap_singleton]
  · rfl

/-- Suggestions are printed without a look at the tokens. -/
theorem Options.run_of_autocomplete (hload : o.loadConfig read = .ok config)
    (hsuggests : o.autocomplete = true) : o.run read = { out := printed suggestionLines } := by
  rw [Options.run, hload]
  simp only [hsuggests, ↓reduceIte, suggestionBlock_eq]

/-- The report for tokens that are given behind `--`. -/
theorem Chooses.run_eq {arguments tokens : List Text} (h : Chooses arguments o)
    (hload : o.loadConfig read = .ok config) (hresolves : o.autocomplete = false)
    (htokens : tokens ≠ []) :
    run read (arguments ++ separator :: tokens) =
      { out := printed (tokens.flatMap fun token =>
          blockLines token (config.context.resolve token))
        err := if tokens.any fun token =>
            (config.context.resolve token).variants.any Match.isLabeled
          then line Notice.labeled.display else [] } := by
  rw [run, h.parse_append tokens]
  exact Options.run_eq (o := { o with tokens }) hload hresolves htokens

/-- Runs of the command, whatever the files are.

* Where the configuration loads and tokens are resolved, a run succeeds and prints the lines of the
  block of each token; it prints for a list of tokens what it prints for the first part of the list
  and then what it prints for the rest; and the notice on labels is its only line of error output,
  once if a token was read with a label.
* The flag gives the report that the document gives with `attributifyPseudo` set to true and all
  else as it was, or a document that sets nothing else if there is none.
* Where the file cannot be read or parsed, the run fails and prints nothing, for any tokens and also
  for suggestions; its error output names the file and what was attempted. -/
theorem run_contract (read : Text → Except ReadFault Text) :
    (∀ (arguments : List Text) (o : Options) (config : Config),
      Chooses arguments o → o.autocomplete = false → o.loadConfig read = .ok config →
      let ctx : Context :=
        { style := if config.attributify then .byAttribute else .byClass, rules := config.rules }
      (∀ tokens : List Text, tokens ≠ [] →
        let report := run read (arguments ++ separator :: tokens)
        report.exitCode = 0 ∧
        report.out = printed (tokens.flatMap fun token => blockLines token (ctx.resolve token)) ∧
        ((∃ token ∈ tokens, ∃ m ∈ (ctx.resolve token).variants, m.label ≠ []) →
          report.err = "\x1b[33m[weft Variants] ⚠ The labeled variant is ".toList
            ++ "experimental and may not follow semver.\x1b[39m\n".toList) ∧
        ((∀ token ∈ tokens, ∀ m ∈ (ctx.resolve token).variants, m.label = []) →
          report.err = [])) ∧
      ∀ first rest : List Text, first ≠ [] → rest ≠ [] →
        (run read (arguments ++ separator :: (first ++ rest))).out =
          (run read (arguments ++ separator :: first)).out ++
            (run read (arguments ++ separator :: rest)).out) ∧
    (∀ (arguments arguments' : List Text) (o o' : Options) (read' : Text → Except ReadFault Text)
      (members members' : List (List Nat × Value)) (path' text' : Text),
      parse arguments = .ok (.run o) → parse arguments' = .ok (.run o') →
      o'.tokens = o.tokens → o'.autocomplete = o.autocomplete →
      o.attributify = true → o.Documents read members →
      SetsAttributify members members' → o'.config = some path' → read' path' = .ok text' →
      (Value.object members').IsWrittenAs text' →
      run read arguments = run read' arguments') ∧
    ∀ (arguments : List Text) (o : Options) (path : Text),
      parse arguments = .ok (.run o) → o.config = some path →
      ((∃ fault, read path = .error fault) ∨
        ∃ text fault, read path = .ok text ∧ Config.parse text = .error fault) →
      (run read arguments).exitCode = 1 ∧ (run read arguments).out = [] ∧
        "Error: loading ".toList ++ path ++ "\n\nCaused by:\n    0: ".toList
            ++ (if (read path).isOk then "failed to parse config ".toList
              else "failed to read config ".toList)
          <+: (run read arguments).err := by
  refine ⟨?_, ?_, ?_⟩
  · intro arguments o config hchooses hresolves hload ctx
    have hrun : ∀ tokens : List Text, tokens ≠ [] → _ := fun tokens =>
      hchooses.run_eq hload hresolves
    have hctx : config.context = ctx := rfl
    refine ⟨fun tokens htokens => ?_, fun first rest hfirst hrest => ?_⟩
    · have hlabels : (tokens.any fun token =>
          (ctx.resolve token).variants.any Match.isLabeled) = true ↔
          ∃ token ∈ tokens, ∃ m ∈ (ctx.resolve token).variants, m.label ≠ [] := by
        simp [List.any_eq_true, Match.isLabeled]
      rw [hrun tokens htokens, hctx]
      refine ⟨rfl, rfl, fun hlabel => (if_pos (hlabels.2 hlabel)).trans line_labeled_display,
        fun hnone => if_neg ?_⟩
      rw [hlabels]
      rintro ⟨token, htoken, m, hm, hlabel⟩
      exact hlabel (hnone token htoken m hm)
    · rw [hrun first hfirst, hrun rest hrest, hrun (first ++ rest) (by simp [hfirst])]
      simp only [List.flatMap_append, printed_append]
  · intro arguments arguments' o o' read' members members' path' text' hparse hparse' htokens
      hresolves hflag hdocuments hset hnamed' hfound' hwritten'
    obtain ⟨config, hload, hload'⟩ :=
      hdocuments.loadConfig_eq hflag hset hnamed' hfound' hwritten'
    rw [run, run, hparse, hparse']
    show o.run read = o'.run read'
    rw [Options.run, Options.run, hload, hload', htokens, hresolves]
  · intro arguments o path hparse hnamed hfault
    rcases hfault with ⟨fault, hread⟩ | ⟨text, fault, hread, hrejected⟩
    · have hload : Config.load read path = .error (.unreadable fault) := by
        rw [Config.load, hread]
        rfl
      have hunread : ¬ (read path).isOk = true := by
        rw [hread]
        exact Bool.false_ne_true
      rw [if_neg hunread]
      exact run_of_fault hparse hnamed hload rfl (by decide)
    · have hload : Config.load read path = .error (.rejected fault) := by
        rw [load_of_found hread, hrejected]
        rfl
      have hfound : (read path).isOk = true := by
        rw [hread]
        rfl
      rw [if_pos hfound]
      exact run_of_fault hparse hnamed hload rfl (by decide)

/-- Two files that differ in `attributifyPseudo`, and a third that is not there. -/
theorem run_contract_two_files :
    let read : Text → Except ReadFault Text := fun path =>
      if path = ['a'] then .ok "\x7b\"attributifyPseudo\":false\x7d".toList
      else if path = ['b'] then .ok "\x7b\"attributifyPseudo\":true\x7d".toList
      else .error .notFound
    let plain := "hover:x".toList
    let labeled := "group-hover/item:y".toList
    let unread := "text-red".toList
    let marked := "group-hover:x".toList
    let arguments := Options.arguments { config := some ['a'] }
    Chooses arguments { config := some ['a'] } ∧
    (run read (arguments ++ separator :: ([plain] ++ [labeled]))).out =
      (run read (arguments ++ separator :: [plain])).out ++
        (run read (arguments ++ separator :: [labeled])).out ∧
    (run read (arguments ++ separator :: [plain, labeled, unread])).out =
      ("\x1b[1m=== hover:x ===\x1b[0m\n".toList
        ++ "  \x1b[36mpseudo\x1b[39m\n".toList
        ++ "  selector  \x1b[32m.hover\\:x:hover\x1b[39m\n".toList
        ++ "  body      x\n".toList
        ++ "  sort      22\n".toList
        ++ "  \x1b[33mno-merge\x1b[39m\n".toList)
      ++ ("\x1b[1m=== group-hover/item:y ===\x1b[0m\n".toList
        ++ "  \x1b[36mpseudo:group\x1b[39m label=/item\n".toList
        ++ "  selector  \x1b[32m.group\\/item:hover .group-hover\\/item\\:y\x1b[39m\n".toList
        ++ "  body      y\n".toList
        ++ "  sort      22\n".toList)
      ++ ("\x1b[1m=== text-red ===\x1b[0m\n".toList
        ++ "  \x1b[2mno variant matched\x1b[0m\n".toList
        ++ "  selector  \x1b[32m.text-red\x1b[39m\n".toList
        ++ "  body      text-red\n".toList
        ++ "  sort      \x1b[2m-\x1b[0m\n".toList) ∧
    (run read (arguments ++ separator :: [plain, labeled])).err
      = "\x1b[33m[weft Variants] ⚠ The labeled variant is ".toList
        ++ "experimental and may not follow semver.\x1b[39m\n".toList ∧
    run read ["-ca".toList, "--attributify".toList, marked] = run read ["-cb".toList, marked] ∧
    (run read (Options.arguments { config := some ['b'] } ++ [separator, marked])).out =
      "\x1b[1m=== group-hover:x ===\x1b[0m\n".toList
        ++ "  \x1b[36mpseudo:group\x1b[39m\n".toList
        ++ "  selector  \x1b[32m[group=\"\"]:hover .group-hover\\:x\x1b[39m\n".toList
        ++ "  body      x\n".toList
        ++ "  sort      22\n".toList ∧
    (run read ["-cc".toList, "--autocomplete".toList, plain]).exitCode = 1 ∧
    "Error: loading c\n\nCaused by:\n    0: failed to read config ".toList
      <+: (run read ["-cc".toList, "--autocomplete".toList, plain]).err := by
  intro read plain labeled unread marked arguments
  obtain ⟨htokens, hflag, hfault⟩ := run_contract read
  have hchooses : Chooses arguments { config := some ['a'] } :=
    Options.chooses_arguments _ rfl (by simp)
  have hfound : read ['a'] = .ok "\x7b\"attributifyPseudo\":false\x7d".toList := rfl
  have hparse : Config.parse "\x7b\"attributifyPseudo\":false\x7d".toList = .ok {} := rfl
  have hload : Options.loadConfig { config := some ['a'] } read = .ok {} :=
    Options.loadConfig_of_file rfl hfound hparse
  obtain ⟨hreport, hout⟩ := htokens arguments _ _ hchooses rfl hload
  refine ⟨hchooses, hout [plain] [labeled] (by simp) (by simp), ?_, ?_, ?_, ?_, ?_⟩
  · refine (hreport [plain, labeled, unread] (by simp)).2.1.trans ?_
    decide +kernel
  · have hlabel : ((Config.context {}).resolve labeled).variants.any Match.isLabeled = true := by
      decide +kernel
    obtain ⟨m, hm, hlabel⟩ := List.any_eq_true.1 hlabel
    refine (hreport [plain, labeled] (by simp)).2.2.1 ⟨labeled, by simp, m, hm, ?_⟩
    simpa [Match.isLabeled] using hlabel
  · have hlays := fun (b : Bool) {s : Text} (hb : Token.WrittenAs (.boolean b) s) =>
      Lays.token (.opening .object) <| .token (.plain "attributifyPseudo".toList rfl) <|
        .token .colon <| .token hb <| .token (.closing .object) .done
    let document (b : Bool) := [(units Field.attributifyPseudo.name, Value.boolean b)]
    have hwritten : (Value.object (document false)).IsWrittenAs _ := hlays false .false
    have hwritten' : (Value.object (document true)).IsWrittenAs _ := hlays true .true
    have hset : SetsAttributify (document false) (document true) :=
      ⟨by simp [document, valuesOf], by simp [document]⟩
    exact hflag _ _ _ _ read (document false) (document true) ['b'] _ rfl rfl rfl rfl rfl
      (.file rfl hfound hwritten hparse) hset rfl rfl hwritten'
  · have hchooses' : Chooses (Options.arguments { config := some ['b'] }) { config := some ['b'] } :=
      Options.chooses_arguments _ rfl (by simp)
    have hfound' : read ['b'] = .ok "\x7b\"attributifyPseudo\":true\x7d".toList := rfl
    have hparse' : Config.parse "\x7b\"attributifyPseudo\":true\x7d".toList
        = .ok { attributify := true } := rfl
    have hload' : Options.loadConfig { config := some ['b'] } read = .ok { attributify := true } :=
      Options.loadConfig_of_file rfl hfound' hparse'
    refine ((htokens _ _ _ hchooses' rfl hload').1 [marked] (by simp)).2.1.trans ?_
    decide +kernel
  · obtain ⟨hexit, -, herr⟩ :=
      hfault ["-cc".toList, "--autocomplete".toList, plain]
        { config := some ['c'], autocomplete := true, tokens := [plain] } ['c'] rfl rfl
        (.inl ⟨.notFound, rfl⟩)
    exact ⟨hexit, herr⟩

end CommandLine

end VariantSelector
