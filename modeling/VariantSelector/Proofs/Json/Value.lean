import Mathlib.Data.List.Chain
import VariantSelector.Json.Numeral
import VariantSelector.Json.Outline
import VariantSelector.Json.Quotation

/-!
JSON documents apart from how they are read: the values, and the texts that are written for them.

A value is written as a list of tokens with white space around them (`Value.IsWrittenAs`). A string
stands for UTF-16 code units, since its escapes name such units, and surrogates without a partner
among them are the text of nothing (`text?_eq_some_iff`).
-/

namespace VariantSelector.Json

/-! ### Numbers -/

structure IsDigits (s : Text) : Prop where
  nonempty : s ≠ []
  digits : ∀ c ∈ s, c.isDigit = true

structure Exponent where
  mark : Char
  sign : Text
  digits : Text
  isMark : mark = 'e' ∨ mark = 'E'
  isSign : sign = [] ∨ sign = ['+'] ∨ sign = ['-']
  isDigits : IsDigits digits

/-- A number as the grammar has it. -/
structure Number where
  negative : Bool
  whole : Text
  /-- The digits behind the point; without any there is no point. -/
  fraction : Text
  exponent : Option Exponent
  isWhole : IsDigits whole
  noLeadingZero : whole.head? = some '0' → whole = ['0']
  isFraction : ∀ c ∈ fraction, c.isDigit = true

def Exponent.text (e : Exponent) : Text := e.mark :: (e.sign ++ e.digits)

namespace Number

def fractionText (n : Number) : Text := if n.fraction = [] then [] else '.' :: n.fraction

def exponentText (n : Number) : Text := n.exponent.elim [] Exponent.text

def unsignedText (n : Number) : Text := n.whole ++ (n.fractionText ++ n.exponentText)

def text (n : Number) : Text := if n.negative then '-' :: n.unsignedText else n.unsignedText

/-- The number as it is known when it has been read. -/
def numeral (n : Number) : Numeral where
  negative := n.negative
  whole := n.whole
  fraction := n.fraction
  exponentNegative := n.exponent.elim false (·.sign = ['-'])
  exponent := n.exponent.elim [] (·.digits)
  stage :=
    if n.exponent.isSome then .exponent
    else if n.fraction ≠ [] then .fraction
    else if n.whole = ['0'] then .zero
    else .whole

end Number

/-! ### Strings -/

/-- The UTF-16 code units of a character. -/
def utf16 (c : Char) : List Nat :=
  if c.toNat < 0x10000 then [c.toNat]
  else [0xD800 + (c.toNat - 0x10000) / 0x400, 0xDC00 + (c.toNat - 0x10000) % 0x400]

/-- The UTF-16 code units of a text. -/
def units (s : Text) : List Nat := s.flatMap utf16

/-- The text of code units, if they have one. -/
def text? : List Nat → Option Text
  | [] => some []
  | [unit] =>
    if isHighSurrogate unit || isLowSurrogate unit || 0x10000 ≤ unit then none
    else some [Char.ofNat unit]
  | unit :: next :: rest =>
    if isHighSurrogate unit then
      if isLowSurrogate next then (text? rest).map (pairedChar unit next :: ·) else none
    else if isLowSurrogate unit || 0x10000 ≤ unit then none
    else (text? (next :: rest)).map (Char.ofNat unit :: ·)

/-- What stands between the quotes of a string for these code units: characters as they are, and
escapes. -/
inductive WritesUnits : List Nat → Text → Prop
  | nil : WritesUnits [] []
  | char {c : Char} {us : List Nat} {s : Text} (notQuote : c ≠ '"') (notBackslash : c ≠ '\\')
      (notControl : 0x20 ≤ c.toNat) (rest : WritesUnits us s) : WritesUnits (utf16 c ++ us) (c :: s)
  | escape {e c : Char} {us : List Nat} {s : Text} (escapes : simpleEscape? e = some c)
      (rest : WritesUnits us s) : WritesUnits (c.toNat :: us) ('\\' :: e :: s)
  | unit {a b c d : Char} {unit : Nat} {us : List Nat} {s : Text}
      (names : hexValue? [a, b, c, d] = some unit) (rest : WritesUnits us s) :
      WritesUnits (unit :: us) ('\\' :: 'u' :: a :: b :: c :: d :: s)

/-! ### Values -/

/-- A JSON value. The members of an object stand in the order in which they are written, and a key
may occur more than once. -/
inductive Value
  | null
  | boolean (b : Bool)
  | number (n : Number)
  | string (us : List Nat)
  | array (elements : List Value)
  | object (members : List (List Nat × Value))

/-- To prove something of every value, one may assume it of the elements of an array and of the
values of an object's members. -/
@[induction_eliminator]
theorem Value.induct {motive : Value → Prop} (null : motive .null)
    (boolean : ∀ b, motive (.boolean b)) (number : ∀ n, motive (.number n))
    (string : ∀ us, motive (.string us))
    (array : ∀ elements, (∀ v ∈ elements, motive v) → motive (.array elements))
    (object : ∀ members, (∀ m ∈ members, motive m.2) → motive (.object members)) :
    ∀ v, motive v
  | .null => null
  | .boolean b => boolean b
  | .number n => number n
  | .string us => string us
  | .array elements => array elements fun v _ =>
    Value.induct null boolean number string array object v
  | .object members => object members fun m _ =>
    Value.induct null boolean number string array object m.2
termination_by v => sizeOf v
decreasing_by
  · rename_i h
    have := List.sizeOf_lt_of_mem h
    simp only [Value.array.sizeOf_spec]
    omega
  · rename_i h
    have := List.sizeOf_lt_of_mem h
    have : sizeOf m = 1 + sizeOf m.1 + sizeOf m.2 := by cases m; rfl
    simp only [Value.object.sizeOf_spec]
    omega

/-! ### Texts -/

inductive Token
  | opening (shape : Shape)
  | closing (shape : Shape)
  | comma
  | colon
  | null
  | boolean (b : Bool)
  | number (n : Number)
  | string (us : List Nat)

/-- The bracket or brace that a container begins with. -/
def Shape.opener : Shape → Char
  | .array => '['
  | .object => '{'

/-- The bracket or brace that a container ends with. -/
def Shape.closer : Shape → Char
  | .array => ']'
  | .object => '}'

/-- The texts that are written for a token; only strings have more than one. -/
inductive Token.WrittenAs : Token → Text → Prop
  | opening (shape : Shape) : WrittenAs (.opening shape) [shape.opener]
  | closing (shape : Shape) : WrittenAs (.closing shape) [shape.closer]
  | comma : WrittenAs .comma [',']
  | colon : WrittenAs .colon [':']
  | null : WrittenAs .null "null".toList
  | true : WrittenAs (.boolean true) "true".toList
  | false : WrittenAs (.boolean false) "false".toList
  | number (n : Number) : WrittenAs (.number n) n.text
  | string {us : List Nat} {s : Text} (writes : WritesUnits us s) :
      WrittenAs (.string us) ('"' :: (s ++ ['"']))

/-- Nothing but white space. -/
def IsSpaces (s : Text) : Prop := ∀ c ∈ s, isSpace c = true

/-- The texts of a list of tokens, with white space around each of them. -/
inductive Lays : List Token → Text → Prop
  | nil {space : Text} (isSpaces : IsSpaces space) : Lays [] space
  | cons {space s t : Text} {τ : Token} {τs : List Token} (isSpaces : IsSpaces space)
      (written : τ.WrittenAs s) (rest : Lays τs t) : Lays (τ :: τs) (space ++ (s ++ t))

/-- The tokens of the items of a container. -/
def inContainer (shape : Shape) (items : List (List Token)) : List Token :=
  .opening shape :: ([.comma].intercalate items ++ [.closing shape])

mutual

def Value.tokens : Value → List Token
  | .null => [.null]
  | .boolean b => [.boolean b]
  | .number n => [.number n]
  | .string us => [.string us]
  | .array elements => inContainer .array (elementTokens elements)
  | .object members => inContainer .object (memberTokens members)

def elementTokens : List Value → List (List Token)
  | [] => []
  | v :: vs => v.tokens :: elementTokens vs

def memberTokens : List (List Nat × Value) → List (List Token)
  | [] => []
  | (key, v) :: ms => (.string key :: .colon :: v.tokens) :: memberTokens ms

end

/-- The text is a JSON text for the value. -/
def Value.IsWrittenAs (v : Value) (text : Text) : Prop := Lays v.tokens text

/-- The tokens of a member. -/
def tokensOfMember (m : List Nat × Value) : List Token := .string m.1 :: .colon :: m.2.tokens

theorem elementTokens_eq (vs : List Value) : elementTokens vs = vs.map Value.tokens := by
  induction vs with
  | nil => rfl
  | cons v vs ih => rw [elementTokens, ih, List.map_cons]

theorem memberTokens_eq (ms : List (List Nat × Value)) :
    memberTokens ms = ms.map tokensOfMember := by
  induction ms with
  | nil => rfl
  | cons m ms ih => rw [memberTokens, ih, List.map_cons, tokensOfMember]

/-! ### Code units and their text -/

theorem toNat_ofNat {n : Nat} (h : n < 0xD800 ∨ 0xDFFF < n ∧ n < 0x110000) :
    (Char.ofNat n).toNat = n := by
  have hvalid : n.isValidChar := h
  rw [Char.ofNat, dif_pos hvalid]
  rfl

theorem toNat_lt_or (c : Char) : c.toNat < 0xD800 ∨ 0xDFFF < c.toNat ∧ c.toNat < 0x110000 :=
  c.valid

/-- Outside the surrogates a unit is a character of its own. -/
theorem text?_cons_of_lt {unit : Nat} (us : List Nat)
    (h : unit < 0xD800 ∨ 0xDFFF < unit ∧ unit < 0x10000) :
    text? (unit :: us) = (text? us).map (Char.ofNat unit :: ·) := by
  have hhigh : isHighSurrogate unit = false := by
    simp only [isHighSurrogate, Bool.and_eq_false_iff, decide_eq_false_iff_not]
    omega
  have hlow : isLowSurrogate unit = false := by
    simp only [isLowSurrogate, Bool.and_eq_false_iff, decide_eq_false_iff_not]
    omega
  have hbig : ¬ 0x10000 ≤ unit := by omega
  cases us with
  | nil => simp [text?, hhigh, hlow, hbig]
  | cons next rest => simp [text?, hhigh, hlow, hbig]

theorem text?_high_cons {high : Nat} (next : Nat) (us : List Nat)
    (hhigh : isHighSurrogate high = true) :
    text? (high :: next :: us) =
      if isLowSurrogate next then (text? us).map (pairedChar high next :: ·) else none := by
  rw [text?, if_pos hhigh]

theorem text?_low_cons {low : Nat} (us : List Nat) (hlow : isLowSurrogate low = true) :
    text? (low :: us) = none := by
  have hhigh : isHighSurrogate low = false := by
    simp only [isLowSurrogate, Bool.and_eq_true, decide_eq_true_eq] at hlow
    simp only [isHighSurrogate, Bool.and_eq_false_iff, decide_eq_false_iff_not]
    omega
  cases us with
  | nil => simp [text?, hlow]
  | cons next rest => simp [text?, hhigh, hlow]

theorem text?_utf16_append (c : Char) (us : List Nat) :
    text? (utf16 c ++ us) = (text? us).map (c :: ·) := by
  have hvalid := toNat_lt_or c
  unfold utf16
  split
  next hsmall =>
    rw [List.singleton_append, text?_cons_of_lt us (by omega), Char.ofNat_toNat]
  next hbig =>
    have hhigh : isHighSurrogate (0xD800 + (c.toNat - 0x10000) / 0x400) = true := by
      simp only [isHighSurrogate, Bool.and_eq_true, decide_eq_true_eq]
      omega
    have hlow : isLowSurrogate (0xDC00 + (c.toNat - 0x10000) % 0x400) = true := by
      simp only [isLowSurrogate, Bool.and_eq_true, decide_eq_true_eq]
      omega
    have hpair : pairedChar (0xD800 + (c.toNat - 0x10000) / 0x400)
        (0xDC00 + (c.toNat - 0x10000) % 0x400) = c := by
      have hsum : 0x10000 + (0xD800 + (c.toNat - 0x10000) / 0x400 - 0xD800) * 0x400
          + (0xDC00 + (c.toNat - 0x10000) % 0x400 - 0xDC00) = c.toNat := by omega
      rw [pairedChar, hsum, Char.ofNat_toNat]
    rw [List.cons_append, List.singleton_append, text?_high_cons _ _ hhigh, if_pos hlow, hpair]

theorem utf16_pairedChar {high low : Nat} (hhigh : isHighSurrogate high = true)
    (hlow : isLowSurrogate low = true) : utf16 (pairedChar high low) = [high, low] := by
  simp only [isHighSurrogate, isLowSurrogate, Bool.and_eq_true, decide_eq_true_eq] at hhigh hlow
  have hnat : (pairedChar high low).toNat
      = 0x10000 + (high - 0xD800) * 0x400 + (low - 0xDC00) := toNat_ofNat (by omega)
  have hfirst : 0xD800 + ((pairedChar high low).toNat - 0x10000) / 0x400 = high := by omega
  have hsecond : 0xDC00 + ((pairedChar high low).toNat - 0x10000) % 0x400 = low := by omega
  rw [utf16, if_neg (by omega), hfirst, hsecond]

/-- Code units have a text if, and only if, they are those of the text. -/
theorem text?_eq_some_iff {us : List Nat} {s : Text} : text? us = some s ↔ units s = us := by
  constructor
  · intro h
    fun_induction text? us generalizing s with
    | case1 => cases h; rfl
    | case2 => cases h
    | case3 unit hne =>
      cases h
      simp only [isHighSurrogate, isLowSurrogate, Bool.or_eq_true, Bool.and_eq_true,
        decide_eq_true_eq] at hne
      have hnat := toNat_ofNat (n := unit) (by omega)
      simp only [units, List.flatMap_singleton, utf16, hnat]
      exact if_pos (by omega)
    | case4 unit next rest hhigh hlow ih =>
      obtain ⟨t, ht, rfl⟩ := Option.map_eq_some_iff.1 h
      have hrest : t.flatMap utf16 = rest := ih ht
      rw [units, List.flatMap_cons, hrest, utf16_pairedChar hhigh hlow]
      rfl
    | case5 => cases h
    | case6 => cases h
    | case7 unit next rest hhigh hlow ih =>
      obtain ⟨t, ht, rfl⟩ := Option.map_eq_some_iff.1 h
      have hrest : t.flatMap utf16 = next :: rest := ih ht
      simp only [isHighSurrogate, isLowSurrogate, Bool.or_eq_true, Bool.and_eq_true,
        decide_eq_true_eq] at hhigh hlow
      have hnat := toNat_ofNat (n := unit) (by omega)
      rw [units, List.flatMap_cons, hrest, utf16, hnat, if_pos (by omega)]
      rfl
  · rintro rfl
    induction s with
    | nil => rfl
    | cons c s ih =>
      rw [units, List.flatMap_cons, text?_utf16_append]
      exact Option.map_eq_some_iff.2 ⟨s, ih, rfl⟩

/-! ### Writing -/

theorem Lays.token {τ : Token} {τs : List Token} {s t : Text} (written : τ.WrittenAs s)
    (rest : Lays τs t) : Lays (τ :: τs) (s ++ t) :=
  @Lays.cons [] s t τ τs (fun _ h => nomatch h) written rest

theorem Lays.done : Lays [] [] := .nil fun _ h => nomatch h

/-- A character that a string holds as it is. -/
def isPlain (c : Char) : Bool := c ≠ '"' && c ≠ '\\' && 0x20 ≤ c.toNat

theorem writesUnits_plain {s : Text} (h : s.all isPlain) : WritesUnits (units s) s := by
  induction s with
  | nil => exact .nil
  | cons c s ih =>
    simp only [List.all_cons, isPlain, Bool.and_eq_true, decide_eq_true_eq] at h
    obtain ⟨⟨⟨hquote, hbackslash⟩, hcontrol⟩, hrest⟩ := h
    exact .char hquote hbackslash hcontrol (ih hrest)

theorem Token.WrittenAs.plain (s : Text) (h : s.all isPlain) :
    Token.WrittenAs (.string (units s)) ('"' :: (s ++ ['"'])) := .string (writesUnits_plain h)

end VariantSelector.Json
