import VariantSelector.Css.Identifier

/-!
Reading identifiers as CSS does (CSS Syntax, consuming an ident sequence), and what the reader makes
of an escaped text: the text itself, up to U+0000, and nothing of what follows
(`readIdentifier_escape`). An escape is read whole whatever stands behind it, since a code point
brings the space along that ends it.
-/

namespace VariantSelector.Css

/-! ### The reader -/

/-- Name code points: ASCII letters and digits, `-`, `_` and everything beyond ASCII. -/
def isIdentifierChar (c : Char) : Bool :=
  let n := c.toNat
  (0x61 ≤ n && n ≤ 0x7A) || (0x41 ≤ n && n ≤ 0x5A) || (0x30 ≤ n && n ≤ 0x39) || n = 0x2D
    || n = 0x5F || 0x80 ≤ n

def isNewline (c : Char) : Bool := c = '\n' || c = '\r' || c = '\x0c'

def isSpace (c : Char) : Bool := c = ' ' || c = '\t' || isNewline c

def hexDigit (c : Char) : Nat :=
  if c.isDigit then c.toNat - 0x30
  else if 'a' ≤ c then c.toNat - 0x61 + 10
  else c.toNat - 0x41 + 10

def hexValue (digits : Text) : Nat := digits.foldl (fun n c => 16 * n + hexDigit c) 0

/-- The character of a code point. U+0000, surrogates and numbers that are no code points stand for
U+FFFD. -/
def codePoint (n : Nat) : Char := if n ≠ 0 ∧ n.isValidChar then Char.ofNat n else '\uFFFD'

/-- White space behind a code point belongs to the escape, one character of it. -/
def skipSpace : Text → Text
  | [] => []
  | c :: s => if isSpace c then s else c :: s

/-- Reads an escape, of which the backslash has been read: one to six hexadecimal digits are a code
point, and any other character but a newline is itself. -/
def readEscape? : Text → Option (Char × Text)
  | [] => none
  | c :: s =>
    if c.isHexDigit then
      let digits := ((c :: s).take 6).takeWhile Char.isHexDigit
      some (codePoint (hexValue digits), skipSpace ((c :: s).drop digits.length))
    else if isNewline c then none
    else some (c, s)

/-- Reads one character of an identifier. -/
def readCharacter? : Text → Option (Char × Text)
  | [] => none
  | c :: s =>
    if isIdentifierChar c then some (c, s)
    else if c = '\\' then readEscape? s
    else none

theorem length_skipSpace_le (s : Text) : (skipSpace s).length ≤ s.length := by
  unfold skipSpace
  split
  · exact Nat.le_refl _
  · split <;> simp

theorem length_le_of_readEscape? {s rest : Text} {c : Char} (h : readEscape? s = some (c, rest)) :
    rest.length ≤ s.length := by
  cases s with
  | nil => cases h
  | cons d s =>
    simp only [readEscape?] at h
    split at h
    · cases h
      refine Nat.le_trans (length_skipSpace_le _) ?_
      rw [List.length_drop]
      omega
    · split at h
      · cases h
      · cases h
        simp

theorem length_lt_of_readCharacter? {s rest : Text} {c : Char}
    (h : readCharacter? s = some (c, rest)) : rest.length < s.length := by
  cases s with
  | nil => cases h
  | cons d s =>
    simp only [readCharacter?] at h
    rw [List.length_cons]
    split at h
    · cases h
      omega
    · split at h
      · have := length_le_of_readEscape? h
        omega
      · cases h

/-- Reads the longest identifier at the start of a text: its characters, and what follows it. -/
def readIdentifier (s : Text) : Text × Text :=
  match _h : readCharacter? s with
  | none => ([], s)
  | some (c, rest) => (c :: (readIdentifier rest).1, (readIdentifier rest).2)
termination_by s.length
decreasing_by all_goals exact length_lt_of_readCharacter? _h

/-- The start of a name: an ASCII letter, `_`, a character beyond ASCII or an escape. -/
def startsName : Text → Bool
  | [] => false
  | c :: s => (isIdentifierChar c && !c.isDigit && c ≠ '-') || (c = '\\' && (readEscape? s).isSome)

/-- Whether a text begins with an identifier. A `-` may stand in front of the name, and behind two
of them anything that the reader takes is a name. -/
def startsIdentifier : Text → Bool
  | '-' :: '-' :: _ => true
  | '-' :: s => startsName s
  | s => startsName s

theorem readIdentifier_of_some {s rest : Text} {c : Char} (h : readCharacter? s = some (c, rest)) :
    readIdentifier s = (c :: (readIdentifier rest).1, (readIdentifier rest).2) := by
  rw [readIdentifier]
  split
  next heq => rw [heq] at h; cases h
  next heq => rw [heq] at h; cases h; rfl

theorem readIdentifier_of_none {s : Text} (h : readCharacter? s = none) :
    readIdentifier s = ([], s) := by
  rw [readIdentifier]
  split
  next => rfl
  next heq => rw [heq] at h; cases h

/-- The reader stops where neither a name character nor a backslash stands. -/
theorem readIdentifier_of_stop {s : Text}
    (h : ∀ c ∈ s.head?, isIdentifierChar c = false ∧ c ≠ '\\') : readIdentifier s = ([], s) := by
  refine readIdentifier_of_none ?_
  cases s with
  | nil => rfl
  | cons c s =>
    obtain ⟨hname, hescape⟩ := h c rfl
    simp [readCharacter?, hname, hescape]

/-! ### Hexadecimal digits -/

theorem isHexDigit_digitChar : ∀ d, d < 16 → (Nat.digitChar d).isHexDigit = true := by decide

theorem hexDigit_digitChar : ∀ d, d < 16 → hexDigit (Nat.digitChar d) = d := by decide

theorem isHexDigit_of_mem_toDigits {n : Nat} {c : Char} (h : c ∈ Nat.toDigits 16 n) :
    c.isHexDigit = true := by
  induction n using Nat.strongRecOn with
  | ind n ih =>
    rw [Nat.toDigits_eq_if (by decide)] at h
    split at h
    · rw [List.mem_singleton.1 h]
      exact isHexDigit_digitChar n ‹_›
    · rcases List.mem_append.1 h with h | h
      · exact ih (n / 16) (by omega) h
      · rw [List.mem_singleton.1 h]
        exact isHexDigit_digitChar _ (Nat.mod_lt _ (by decide))

theorem hexValue_toDigits (n : Nat) : hexValue (Nat.toDigits 16 n) = n := by
  induction n using Nat.strongRecOn with
  | ind n ih =>
    rw [Nat.toDigits_eq_if (by decide)]
    split
    · simp [hexValue, hexDigit_digitChar n ‹_›]
    · have hhigh := ih (n / 16) (by omega)
      rw [hexValue] at hhigh
      rw [hexValue, List.foldl_append, hhigh, List.foldl_cons, List.foldl_nil,
        hexDigit_digitChar _ (Nat.mod_lt _ (by decide))]
      omega

theorem codePoint_toNat {c : Char} (h : c ≠ '\x00') : codePoint c.toNat = c := by
  have hne : c.toNat ≠ 0 := by
    intro h0
    exact h (Char.toNat_inj.1 h0)
  rw [codePoint, if_pos ⟨hne, c.valid⟩, Char.ofNat_toNat]

/-- A code point brings the space along that ends it, so it is read whole in front of anything. -/
theorem readEscape?_toDigits {c : Char} (h : c ≠ '\x00') (rest : Text) :
    readEscape? (Nat.toDigits 16 c.toNat ++ ' ' :: rest) = some (c, rest) := by
  have hhex : ∀ d ∈ Nat.toDigits 16 c.toNat, d.isHexDigit = true := fun d hd =>
    isHexDigit_of_mem_toDigits hd
  have hlength : (Nat.toDigits 16 c.toNat).length ≤ 6 := by
    refine (Nat.length_toDigits_le_iff (by decide) (by decide)).2 ?_
    have := c.valid
    simp only [UInt32.isValidChar, Nat.isValidChar] at this
    simp only [Char.toNat]
    omega
  have hvalue := hexValue_toDigits c.toNat
  generalize Nat.toDigits 16 c.toNat = digits at hhex hlength hvalue
  have hdigits : ((digits ++ ' ' :: rest).take 6).takeWhile Char.isHexDigit = digits := by
    rw [List.take_append, List.take_of_length_le hlength, List.takeWhile_append_of_pos hhex]
    cases 6 - digits.length <;> simp [show (' ' : Char).isHexDigit = false from rfl]
  cases digits with
  | nil => exact absurd hvalue.symm (fun h0 => h (Char.toNat_inj.1 h0))
  | cons d ds =>
    rw [List.cons_append] at hdigits ⊢
    simp only [readEscape?, hhex d List.mem_cons_self, ↓reduceIte, hdigits, hvalue,
      codePoint_toNat h]
    simp [skipSpace, isSpace]

/-! ### Characters as they are written -/

/-- What can be checked of every ASCII character holds of each. -/
theorem ascii_induction {P : Char → Prop} (h : ∀ n, n < 0x80 → P (Char.ofNat n)) {c : Char}
    (hc : c.toNat < 0x80) : P c := by
  rw [← Char.ofNat_toNat c]
  exact h c.toNat hc

theorem isIdentifierChar_eq_isNameChar (c : Char) : isIdentifierChar c = isNameChar c := by
  by_cases hc : c.toNat < 0x80
  · exact ascii_induction (P := fun c => isIdentifierChar c = isNameChar c) (by decide) hc
  · have : 0x80 ≤ c.toNat := by omega
    simp [isIdentifierChar, isNameChar, this]

theorem isNameChar_of_isHexDigit {c : Char} (h : c.isHexDigit = true) : isNameChar c = true := by
  by_cases hc : c.toNat < 0x80
  · exact ascii_induction (P := fun c => c.isHexDigit = true → isNameChar c = true) (by decide) hc h
  · have : 0x80 ≤ c.toNat := by omega
    simp [isNameChar, this]

theorem isControl_of_isNewline {c : Char} (h : isNewline c = true) : isControl c = true := by
  simp only [isNewline, Bool.or_eq_true, decide_eq_true_eq] at h
  rcases h with (rfl | rfl) | rfl <;> rfl

theorem ne_comma_and_not_isControl_of_isNameChar {c : Char} (h : isNameChar c = true) :
    c ≠ ',' ∧ isControl c = false := by
  by_cases hc : c.toNat < 0x80
  · exact ascii_induction
      (P := fun c => isNameChar c = true → c ≠ ',' ∧ isControl c = false) (by decide) hc h
  · refine ⟨fun hcomma => hc (by rw [hcomma]; decide), ?_⟩
    simp only [isControl, Bool.or_eq_false_iff, decide_eq_false_iff_not]
    omega

/-- U+0000 is no character of any style sheet; U+FFFD stands for it. -/
def replaceNul (c : Char) : Char := if c = '\x00' then '\uFFFD' else c

/-- The text on the right writes the characters on the left one by one: as they are, as code points,
or behind a backslash. -/
inductive Spells : Text → Text → Prop
  | nil : Spells [] []
  | name {c : Char} {s t : Text} (h : isNameChar c = true) : Spells s t → Spells (c :: s) (c :: t)
  | codePoint {c : Char} {s t : Text} (h : c ≠ '\x00') :
      Spells s t → Spells (c :: s) (escapeCodePoint c ++ t)
  | backslash {c : Char} {s t : Text} (hhex : c.isHexDigit = false) (hcomma : c ≠ ',')
      (hcontrol : isControl c = false) : Spells s t → Spells (c :: s) ('\\' :: c :: t)

theorem Spells.escapeChar {s t : Text} (h : Spells s t) (c : Char) :
    Spells (replaceNul c :: s) (escapeChar c ++ t) := by
  unfold Css.escapeChar
  split
  next h0 =>
    rw [h0]
    exact .name rfl h
  next h0 =>
    rw [show replaceNul c = c from if_neg h0]
    split
    next => exact .codePoint h0 h
    next hplain =>
      simp only [Bool.or_eq_true, decide_eq_true_eq, not_or, Bool.not_eq_true] at hplain
      split
      next hname => exact .name hname h
      next hname =>
        exact .backslash (by simpa using mt isNameChar_of_isHexDigit hname) hplain.1 hplain.2 h

theorem spells_flatMap_escapeChar (s : Text) :
    Spells (s.map replaceNul) (s.flatMap escapeChar) := by
  induction s with
  | nil => exact .nil
  | cons c s ih =>
    rw [List.map_cons, List.flatMap_cons]
    exact ih.escapeChar c

theorem ne_nul_of_isDigit {c : Char} (h : c.isDigit = true) : c ≠ '\x00' := by
  rintro rfl
  exact absurd h (by decide)

theorem spells_escapeStart (s : Text) : Spells (s.map replaceNul) (escapeStart s) := by
  cases s with
  | nil => exact .nil
  | cons c s =>
    have htail := spells_flatMap_escapeChar s
    rw [escapeStart, List.map_cons]
    split
    next hdigit =>
      have h0 := ne_nul_of_isDigit hdigit
      rw [show replaceNul c = c from if_neg h0]
      exact .codePoint h0 htail
    next => exact htail.escapeChar c

theorem spells_escape (s : Text) : Spells (s.map replaceNul) (escape s) := by
  unfold escape
  split
  · exact .backslash rfl (by decide) rfl .nil
  next s _ => exact .name rfl (spells_escapeStart s)
  · exact spells_escapeStart s

/-! ### Reading what is written -/

theorem readEscape?_of_plain {c : Char} (hhex : c.isHexDigit = false)
    (hcontrol : isControl c = false) (rest : Text) : readEscape? (c :: rest) = some (c, rest) := by
  have hnewline : ¬ isNewline c = true := by
    intro h
    rw [isControl_of_isNewline h] at hcontrol
    cases hcontrol
  simp [readEscape?, hhex, hnewline]

theorem readCharacter?_backslash (s : Text) : readCharacter? ('\\' :: s) = readEscape? s := rfl

/-- Each character is read before the next, so the reader ends where the text does that it finds
behind the spelling. -/
theorem Spells.readIdentifier_append {s t : Text} (h : Spells s t) (rest : Text) :
    readIdentifier (t ++ rest) = (s ++ (readIdentifier rest).1, (readIdentifier rest).2) := by
  induction h with
  | nil => rfl
  | @name c s t hname _ ih =>
    have hc : readCharacter? (c :: (t ++ rest)) = some (c, t ++ rest) := by
      simp [readCharacter?, isIdentifierChar_eq_isNameChar, hname]
    rw [List.cons_append, readIdentifier_of_some hc, ih]
    rfl
  | @codePoint c s t h0 _ ih =>
    have hc : readCharacter? (escapeCodePoint c ++ (t ++ rest)) = some (c, t ++ rest) := by
      have hread := readEscape?_toDigits h0 (t ++ rest)
      rw [escapeCodePoint, List.cons_append, readCharacter?_backslash, List.append_assoc]
      exact hread
    rw [List.append_assoc, readIdentifier_of_some hc, ih]
    rfl
  | @backslash c s t hhex _ hcontrol _ ih =>
    have hc : readCharacter? ('\\' :: c :: (t ++ rest)) = some (c, t ++ rest) := by
      rw [readCharacter?_backslash]
      exact readEscape?_of_plain hhex hcontrol _
    rw [List.cons_append, List.cons_append, readIdentifier_of_some hc, ih]
    rfl

theorem Spells.ne_comma_and_not_isControl {s t : Text} (h : Spells s t) :
    ∀ c ∈ t, c ≠ ',' ∧ isControl c = false := by
  induction h with
  | nil => simp
  | name hname _ ih =>
    simp only [List.forall_mem_cons]
    exact ⟨ne_comma_and_not_isControl_of_isNameChar hname, ih⟩
  | @codePoint c s t _ _ ih =>
    have hdigits : ∀ d ∈ Nat.toDigits 16 c.toNat, d ≠ ',' ∧ isControl d = false := fun d hd =>
      ne_comma_and_not_isControl_of_isNameChar
        (isNameChar_of_isHexDigit (isHexDigit_of_mem_toDigits hd))
    simp only [escapeCodePoint, List.cons_append, List.forall_mem_cons, List.forall_mem_append]
    exact ⟨by decide, ⟨hdigits, by decide, List.forall_mem_nil _⟩, ih⟩
  | backslash _ hcomma hcontrol _ ih =>
    simp only [List.forall_mem_cons]
    exact ⟨by decide, ⟨hcomma, hcontrol⟩, ih⟩

/-! ### The start of what is written -/

theorem startsName_escapeCodePoint {c : Char} (h : c ≠ '\x00') (rest : Text) :
    startsName (escapeCodePoint c ++ rest) = true := by
  have hread := readEscape?_toDigits h rest
  simp only [escapeCodePoint, List.cons_append, List.append_assoc, List.nil_append, startsName,
    hread]
  simp

theorem Spells.startsName_append {c : Char} {s t : Text} (h : Spells (c :: s) t)
    (hdigit : c.isDigit = false) (hdash : c ≠ '-') (rest : Text) :
    startsName (t ++ rest) = true := by
  cases h with
  | name hname _ =>
    simp [startsName, isIdentifierChar_eq_isNameChar, hname, hdigit, hdash]
  | codePoint h0 _ =>
    rw [List.append_assoc]
    exact startsName_escapeCodePoint h0 _
  | backslash hhex _ hcontrol _ =>
    simp [startsName, readEscape?_of_plain hhex hcontrol]

theorem startsName_escapeStart {c : Char} (h : c ≠ '-') (s rest : Text) :
    startsName (escapeStart (c :: s) ++ rest) = true := by
  by_cases hdigit : c.isDigit = true
  · rw [escapeStart, if_pos hdigit, List.append_assoc]
    exact startsName_escapeCodePoint (ne_nul_of_isDigit hdigit) _
  · have hspells := spells_escapeStart (c :: s)
    rw [List.map_cons] at hspells
    by_cases h0 : c = '\x00'
    · subst h0
      exact hspells.startsName_append rfl (by decide) rest
    · rw [show replaceNul c = c from if_neg h0] at hspells
      exact hspells.startsName_append (by simpa using hdigit) h rest

theorem startsIdentifier_of_startsName {s : Text} (h : startsName s = true) :
    startsIdentifier s = true := by
  unfold startsIdentifier
  split
  next => rfl
  next => cases h
  next => exact h

theorem startsIdentifier_dash {s : Text} (h : startsName s = true) :
    startsIdentifier ('-' :: s) = true := by
  unfold startsIdentifier
  split
  next => rfl
  next heq => cases heq; exact h
  next hne => exact absurd rfl (hne s)

theorem startsIdentifier_escape {s : Text} (h : s ≠ []) (rest : Text) :
    startsIdentifier (escape s ++ rest) = true := by
  unfold escape
  split
  next => rfl
  next s hlone =>
    cases s with
    | nil => exact absurd rfl hlone
    | cons c s =>
      by_cases hdash : c = '-'
      · subst hdash
        rfl
      · exact startsIdentifier_dash (startsName_escapeStart hdash s rest)
  next hdash =>
    cases s with
    | nil => exact absurd rfl h
    | cons c s =>
      have hc : c ≠ '-' := by
        rintro rfl
        exact hdash s rfl
      exact startsIdentifier_of_startsName (startsName_escapeStart hc s rest)

/-! ### Escaping is undone by reading -/

/-- CSS reads an escaped text back as the text, up to U+0000, wherever it stands in front of
something that cannot go on with it. It begins as an identifier must and has no comma and no control
character. So two texts are told apart by their escapes, up to U+0000. -/
theorem readIdentifier_escape (s rest : Text)
    (hrest : ∀ c ∈ rest.head?, isIdentifierChar c = false ∧ c ≠ '\\') :
    readIdentifier (escape s ++ rest) = (s.map replaceNul, rest) ∧
    (s ≠ [] → startsIdentifier (escape s) = true) ∧
    (∀ c ∈ escape s, c ≠ ',' ∧ isControl c = false) ∧
    (∀ t, escape s = escape t → s.map replaceNul = t.map replaceNul) := by
  refine ⟨?_, ?_, (spells_escape s).ne_comma_and_not_isControl, ?_⟩
  · rw [(spells_escape s).readIdentifier_append, readIdentifier_of_stop hrest, List.append_nil]
  · intro hs
    have hstart := startsIdentifier_escape hs []
    rwa [List.append_nil] at hstart
  · intro t h
    have hs := (spells_escape s).readIdentifier_append []
    rw [h, (spells_escape t).readIdentifier_append [], readIdentifier_of_stop (by simp)] at hs
    simpa using (congrArg Prod.fst hs).symm

/-- The space behind a code point is not the one that stands between two selectors, and the digit
that follows it is no part of it. -/
theorem readIdentifier_escape_digits :
    let s : Text := "-1,1".toList
    let rest : Text := " .b".toList
    (∀ c ∈ rest.head?, isIdentifierChar c = false ∧ c ≠ '\\') ∧
      escape s = "-\\31 \\2c 1".toList ∧ readIdentifier (escape s ++ rest) = (s, rest) := by
  intro s rest
  have hrest : ∀ c ∈ rest.head?, isIdentifierChar c = false ∧ c ≠ '\\' := by
    intro c hc
    cases hc
    decide
  exact ⟨hrest, by decide, (readIdentifier_escape s rest hrest).1⟩

end VariantSelector.Css
