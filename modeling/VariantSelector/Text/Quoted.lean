import VariantSelector.Text.Printable

/-!
A text in double quotes, for a message: what cannot be shown is written as an escape.
-/

namespace VariantSelector.Text

/-- A character as it stands between the quotes. -/
def quotedChar : Char → Text
  | '\x00' => ['\\', '0']
  | '\t' => ['\\', 't']
  | '\n' => ['\\', 'n']
  | '\r' => ['\\', 'r']
  | '"' => ['\\', '"']
  | '\\' => ['\\', '\\']
  | c =>
    if isPrintable c then [c]
    else "\\u\x7b".toList ++ (Nat.toDigits 16 c.toNat ++ ['\x7d'])

/-- A text in double quotes. -/
def quoted (s : Text) : Text := '"' :: (s.flatMap quotedChar ++ ['"'])

end VariantSelector.Text
