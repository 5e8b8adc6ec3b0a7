import VariantSelector.Pseudo.Table

/-!
The registry of pseudo-classes and pseudo-elements. The primary table is tried first; the keys of
the colon-only table would, before a `-`, be taken for the beginning of a utility's name
(`backdrop-blur`).
-/

namespace VariantSelector.Pseudo.Registry

/-- Keys that a `:` or a `-` may follow. -/
def primary : Table where
  kind := .primary
  entries :=
    [ .spelled "first-letter" "::first-letter",
      .spelled "first-line" "::first-line",
      -- location
      .same "any-link", .same "link", .same "visited", .same "target", .same "open",
      -- forms
      .same "default", .same "checked", .same "indeterminate", .same "placeholder-shown",
      .same "autofill", .same "optional", .same "required", .same "valid", .same "invalid",
      .same "in-range", .same "out-of-range", .same "read-only", .same "read-write",
      -- content
      .same "empty",
      -- interaction
      .same "focus-within", .same "hover", .same "focus", .same "focus-visible", .same "active",
      .same "enabled", .same "disabled",
      -- position in the tree
      .same "root",
      .spelled "even-of-type" ":nth-of-type(even)", .spelled "even" ":nth-child(even)",
      .spelled "odd-of-type" ":nth-of-type(odd)", .spelled "odd" ":nth-child(odd)",
      .same "first-of-type", .spelled "first" ":first-child",
      .same "last-of-type", .spelled "last" ":last-child",
      .same "only-child", .same "only-of-type",
      -- pseudo-elements
      .spelled "backdrop-element" "::backdrop", .spelled "placeholder" "::placeholder",
      .spelled "before" "::before", .spelled "after" "::after",
      .spelled "selection" "::selection", .spelled "marker" "::marker",
      .spelled "file" "::file-selector-button" ]

/-- Keys that only a `:` may follow. -/
def colonOnly : Table where
  kind := .colonOnly
  entries := [.spelled "backdrop" "::backdrop"]

/-- Both tables, in the order in which they are tried. -/
def tables : List Table := [primary, colonOnly]

/-- The row of `key`. -/
def lookup? (key : Text) : Option Lookup := (primary.get? key).or (colonOnly.get? key)

/-- The selector text of `key`. A key without a row is taken for a pseudo-class of that name. -/
def fragment (key : Text) : Text :=
  match lookup? key with
  | some found => found.entry.fragment
  | none => ':' :: key

/-- The position of `key` in the table that holds it. -/
def rank? (key : Text) : Option Nat := (lookup? key).map Lookup.rank

/-- Reads a key at the start of `input`. -/
def matchKey? (classesOnly labels : Bool) (input : Text) : Option KeyMatch :=
  (primary.matchKey? classesOnly labels input).or (colonOnly.matchKey? classesOnly labels input)

/-- The admitted keys of both tables, joined by `|`. -/
def alternation (classesOnly : Bool) : Text :=
  ['|'].intercalate ((tables.map (·.alternation classesOnly)).filter (!·.isEmpty))

end VariantSelector.Pseudo.Registry
