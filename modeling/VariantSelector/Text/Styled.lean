import VariantSelector.Text.Basic

/-!
Text for a terminal, with the control sequences that change how it is shown and change it back.
-/

namespace VariantSelector

/-- A way of showing text. -/
inductive Style
  | bold
  | dimmed
  | green
  | yellow
  | cyan
  deriving DecidableEq, Repr

/-- The control sequence of a number. -/
def controlSequence (code : String) : Text := "\x1b[".toList ++ (code.toList ++ ['m'])

/-- Text shown in a style. A color ends by asking for the default one, anything else by a reset. -/
def Style.paint (style : Style) (s : Text) : Text :=
  let (on, off) :=
    match style with
    | .bold => ("1", "0")
    | .dimmed => ("2", "0")
    | .green => ("32", "39")
    | .yellow => ("33", "39")
    | .cyan => ("36", "39")
  controlSequence on ++ (s ++ controlSequence off)

theorem Style.paint_bold (s : Text) :
    bold.paint s = "\x1b[1m".toList ++ (s ++ "\x1b[0m".toList) := rfl

theorem Style.paint_green (s : Text) :
    green.paint s = "\x1b[32m".toList ++ (s ++ "\x1b[39m".toList) := rfl

theorem Style.paint_cyan (s : Text) :
    cyan.paint s = "\x1b[36m".toList ++ (s ++ "\x1b[39m".toList) := rfl

end VariantSelector
