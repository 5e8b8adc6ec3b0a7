import VariantSelector.Text.Styled

/-!
Advisory notices. A notice is printed once: the log remembers what was printed, by the text
`[component] message`, until it is cleared.
-/

namespace VariantSelector

/-- An advisory, and the component it comes from. -/
structure Notice where
  component : Text
  message : Text
  deriving DecidableEq, Repr

namespace Notice

/-- What a notice is remembered by. -/
def key (n : Notice) : Text := '[' :: (n.component ++ ("] ".toList ++ n.message))

/-- The line that is printed, in yellow. -/
def display (n : Notice) : Text :=
  Style.yellow.paint ("[weft ".toList ++ (n.component ++ ("] ⚠ ".toList ++ n.message)))

/-- Printed for the first relation with a label. -/
def labeled : Notice where
  component := "Variants".toList
  message := "The labeled variant is experimental and may not follow semver.".toList

end Notice

/-- The notices that were printed, in order. -/
structure NoticeLog where
  printed : List Notice := []
  deriving DecidableEq, Repr

namespace NoticeLog

/-- Whether a notice is on record. -/
def contains (log : NoticeLog) (n : Notice) : Bool := log.printed.any (·.key = n.key)

/-- Prints a notice that is not on record. -/
def record (log : NoticeLog) (n : Notice) : NoticeLog :=
  if log.contains n then log else ⟨log.printed ++ [n]⟩

/-- Prints a notice that is not on record, and tells whether it was printed. -/
def warn (n : Notice) : StateM NoticeLog Bool := do
  let log ← get
  set (log.record n)
  return !log.contains n

/-- Forgets every notice. -/
def clear : StateM NoticeLog Unit := set ({} : NoticeLog)

@[simp] theorem contains_empty (n : Notice) : ({} : NoticeLog).contains n = false := rfl

theorem contains_record (log : NoticeLog) (n k : Notice) :
    (log.record n).contains k = (log.contains k || decide (n.key = k.key)) := by
  by_cases h : log.contains n = true
  · rw [record, if_pos h]
    by_cases hk : n.key = k.key
    · have : log.contains k = true := by
        simpa only [contains, hk] using h
      simp [this]
    · simp [hk]
  · rw [record, if_neg h]
    simp [contains, List.any_append]

end NoticeLog

end VariantSelector
