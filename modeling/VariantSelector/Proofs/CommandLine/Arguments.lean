import Mathlib.Data.List.Basic
import VariantSelector.CommandLine.Options

/-!
Arguments in front of `--`. What stands behind the separator is told apart from the options by the
separator alone: arguments that choose options without a token choose the same options with any
tokens behind `--` (`Chooses.parse_append`), whatever the tokens look like. Every choice of options
can be made (`Options.chooses_arguments`).
-/

namespace VariantSelector.CommandLine

/-- The argument behind which everything is a token. -/
def separator : Text := "--".toList

/-- The arguments choose these options, and no tokens. -/
structure Chooses (arguments : List Text) (o : Options) : Prop where
  parsed : parse arguments = .ok (.run o)
  noTokens : o.tokens = []
  noSeparator : separator ∉ arguments

theorem lookup_flags_ne_separator (name : Text) : flags.lookup name ≠ some .separator := by
  intro h
  obtain ⟨before, after, hflags, -⟩ := List.lookup_eq_some_iff.1 h
  have hmem : (name, Argument.separator) ∈ flags := hflags ▸ by simp
  have hvalue : Argument.separator ∈ flags.map Prod.snd := List.mem_map_of_mem hmem
  exact absurd hvalue (by decide)

theorem longOption_ne_separator (s : Text) : longOption s ≠ .ok .separator := by
  intro h
  unfold longOption at h
  split at h
  split at h
  · cases h
  · split at h
    next flag hflag _ =>
      cases h
      exact lookup_flags_ne_separator _ hflag
    next => cases h
    next => cases h

theorem shortOption_ne_separator (letter : Char) (rest : Text) :
    shortOption letter rest ≠ .ok .separator := by
  intro h
  unfold shortOption at h
  split at h
  · cases h
  · split at h
    · split at h <;> cases h
    · cases h

theorem eq_separator_of_ofText {s : Text} (h : Argument.ofText s = .ok .separator) :
    s = separator := by
  unfold Argument.ofText at h
  split at h
  · rfl
  · exact absurd h (longOption_ne_separator _)
  · exact absurd h (shortOption_ne_separator _ _)
  · cases h

theorem parseFrom_append_separator {o o' : Options} {awaited : Bool} {arguments : List Text}
    (h : parseFrom o awaited arguments = .ok (.run o')) (hseparator : separator ∉ arguments)
    (tokens : List Text) :
    parseFrom o awaited (arguments ++ separator :: tokens)
      = .ok (.run { o' with tokens := o'.tokens ++ tokens }) := by
  induction arguments generalizing o awaited with
  | nil =>
    cases awaited with
    | true => cases h
    | false =>
      cases h
      rfl
  | cons argument rest ih =>
    rw [List.mem_cons, not_or] at hseparator
    have hoption : ∀ {changed : Except UsageFault Options},
        (do parseFrom (← changed) false rest) = .ok (.run o') →
        (do parseFrom (← changed) false (rest ++ separator :: tokens))
          = .ok (.run { o' with tokens := o'.tokens ++ tokens }) := by
      intro changed hchanged
      cases changed with
      | error => cases hchanged
      | ok o₁ => exact ih hchanged hseparator.2
    rw [List.cons_append]
    cases awaited with
    | true =>
      cases hof : Argument.ofText argument with
      | error => simp [parseFrom, hof] at h
      | ok a =>
        cases a with
        | token path =>
          simp only [parseFrom, hof] at h ⊢
          exact hoption h
        | _ => simp [parseFrom, hof] at h
    | false =>
      cases hof : Argument.ofText argument with
      | error => simp [parseFrom, hof] at h
      | ok a =>
        cases a with
        | token text =>
          simp only [parseFrom, hof] at h ⊢
          exact ih h hseparator.2
        | separator => exact absurd (eq_separator_of_ofText hof).symm hseparator.1
        | version => simp [parseFrom, hof] at h
        | attributify | autocomplete =>
          simp only [parseFrom, hof] at h ⊢
          exact hoption h
        | config attached =>
          cases attached with
          | some path =>
            simp only [parseFrom, hof] at h ⊢
            exact hoption h
          | none =>
            simp only [parseFrom, hof] at h ⊢
            exact ih h hseparator.2

theorem Chooses.parse_append {arguments : List Text} {o : Options} (h : Chooses arguments o)
    (tokens : List Text) :
    parse (arguments ++ separator :: tokens) = .ok (.run { o with tokens }) := by
  rw [parse, parseFrom_append_separator h.parsed h.noSeparator, h.noTokens, List.nil_append]

/-- Arguments that make these choices. -/
def Options.arguments (o : Options) : List Text :=
  (o.config.toList.map fun path => "--config=".toList ++ path) ++
    ((if o.attributify then ["--attributify".toList] else []) ++
      (if o.autocomplete then ["--autocomplete".toList] else []))

theorem Options.chooses_arguments (o : Options) (htokens : o.tokens = [])
    (hconfig : ∀ path ∈ o.config, path ≠ []) : Chooses o.arguments o := by
  obtain ⟨tokens, config, attributify, autocomplete⟩ := o
  cases htokens
  refine ⟨?_, rfl, ?_⟩
  · cases config with
    | none => cases attributify <;> cases autocomplete <;> rfl
    | some path =>
      cases path with
      | nil => exact absurd rfl (hconfig [] rfl)
      | cons c path => cases attributify <;> cases autocomplete <;> rfl
  · cases config <;> cases attributify <;> cases autocomplete <;>
      simp [Options.arguments, separator]

end VariantSelector.CommandLine
