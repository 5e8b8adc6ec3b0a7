import VariantSelector.Proofs.Css.Nesting
import VariantSelector.Selector.Segment

/-!
Reading selectors of the shape
`(class pseudo-class+ combinator)* class pseudo-class* pseudo-element*`. Names are read as CSS reads
identifiers, as far as they go. What may stand behind a part of a selector can never go on with that
part, so a text has one reading at most (`ComplexSelector.Reads.unique`); and what is written in
plain names is read back as it was written (`reads_classes`, `reads_elements`).
-/

namespace VariantSelector.Css

/-! ### Selectors and how they are read -/

/-- A pseudo-class: its name, and what stands in its parentheses if it has any. -/
structure PseudoClass where
  name : Text
  args : Option Text := none
  deriving DecidableEq, Repr

/-- A class with pseudo-classes, and the combinator behind them. -/
structure Step where
  name : Text
  classes : List PseudoClass
  combinator : Combinator
  deriving DecidableEq, Repr

/-- Steps towards a class, with its pseudo-classes and the names of its pseudo-elements. -/
structure ComplexSelector where
  steps : List Step := []
  name : Text
  classes : List PseudoClass
  elements : List Text
  deriving DecidableEq, Repr

/-- A text begins with an identifier, which is read as far as it goes. -/
structure ReadsName (s name rest : Text) : Prop where
  starts : startsIdentifier s = true
  reads : readIdentifier s = (name, rest)

/-- A colon and a name, which is that of a function if a parenthesis follows. -/
inductive PseudoClass.Reads : Text → PseudoClass → Text → Prop
  | bare {s name rest : Text} (hname : ReadsName s name rest) (hopen : rest.head? ≠ some '(') :
      Reads (':' :: s) { name } rest
  | functional {s name args rest : Text} (hname : ReadsName s name ('(' :: (args ++ ')' :: rest)))
      (hargs : Nested args) : Reads (':' :: s) { name, args := some args } rest

inductive ReadsClasses : Text → List PseudoClass → Text → Prop
  | nil {s : Text} : ReadsClasses s [] s
  | cons {s rest rest' : Text} {c : PseudoClass} {cs : List PseudoClass} (h : c.Reads s rest)
      (hs : ReadsClasses rest cs rest') : ReadsClasses s (c :: cs) rest'

/-- Pseudo-elements up to the end of the text. -/
inductive ReadsElements : Text → List Text → Prop
  | nil : ReadsElements [] []
  | cons {s name rest : Text} {names : List Text} (h : ReadsName s name rest)
      (hs : ReadsElements rest names) : ReadsElements (':' :: ':' :: s) (name :: names)

/-- The whole text is a selector. -/
inductive ComplexSelector.Reads : Text → ComplexSelector → Prop
  | subject {s name rest rest' : Text} {classes : List PseudoClass} {elements : List Text}
      (hname : ReadsName s name rest) (hclasses : ReadsClasses rest classes rest')
      (helements : ReadsElements rest' elements) : Reads ('.' :: s) { name, classes, elements }
  | step {s name rest rest' : Text} {classes : List PseudoClass} {k : Combinator}
      {sel : ComplexSelector} (hname : ReadsName s name rest)
      (hclasses : ReadsClasses rest classes (k.symbol ++ rest')) (hne : classes ≠ [])
      (hsel : Reads rest' sel) :
      Reads ('.' :: s) { sel with steps := ⟨name, classes, k⟩ :: sel.steps }

/-! ### There is one reading at most -/

theorem ReadsName.unique {s name name' rest rest' : Text} (h : ReadsName s name rest)
    (h' : ReadsName s name' rest') : name = name' ∧ rest = rest' :=
  Prod.mk.inj (h.reads.symm.trans h'.reads)

/-- The parenthesis that closes an argument is the first that nothing in the argument closes. -/
theorem Nested.append_paren_inj {args args' rest rest' : Text} (h : Nested args)
    (h' : Nested args') (heq : args ++ ')' :: rest = args' ++ ')' :: rest') :
    args = args' ∧ rest = rest' := by
  -- one of the two would go on behind a parenthesis that closes nothing in it
  have hnot : ∀ {p : Text} (q : Text), Nested p → ¬ Nested (p ++ ')' :: q) := by
    intro p q hp hpq
    unfold Nested Closed at hpq
    rw [Reader.read?_append_of_eq_some hp] at hpq
    cases hpq
  rcases List.append_eq_append_iff.1 heq with ⟨t, rfl, ht⟩ | ⟨t, rfl, ht⟩
  · cases t with
    | nil => exact ⟨(List.append_nil _).symm, (List.cons.inj ht).2⟩
    | cons c t =>
      obtain ⟨rfl, -⟩ := List.cons.inj ht
      exact absurd h' (hnot t h)
  · cases t with
    | nil => exact ⟨List.append_nil _, (List.cons.inj ht).2.symm⟩
    | cons c t =>
      obtain ⟨rfl, -⟩ := List.cons.inj ht
      exact absurd h (hnot t h')

theorem PseudoClass.Reads.unique {s rest rest' : Text} {c c' : PseudoClass} (h : c.Reads s rest)
    (h' : c'.Reads s rest') : c = c' ∧ rest = rest' := by
  cases h with
  | bare hname hopen =>
    cases h' with
    | bare hname' _ =>
      obtain ⟨rfl, rfl⟩ := hname.unique hname'
      exact ⟨rfl, rfl⟩
    | functional hname' _ =>
      obtain ⟨-, rfl⟩ := hname.unique hname'
      exact absurd rfl hopen
  | functional hname hargs =>
    cases h' with
    | bare hname' hopen' =>
      obtain ⟨-, rfl⟩ := hname.unique hname'
      exact absurd rfl hopen'
    | functional hname' hargs' =>
      obtain ⟨rfl, heq⟩ := hname.unique hname'
      obtain ⟨rfl, rfl⟩ := hargs.append_paren_inj hargs' (List.cons.inj heq).2
      exact ⟨rfl, rfl⟩

/-- No pseudo-class can be read here. -/
def EndsClasses (s : Text) : Prop := ∀ c rest, ¬ PseudoClass.Reads s c rest

theorem ReadsElements.endsClasses {s : Text} {elements : List Text}
    (h : ReadsElements s elements) : EndsClasses s := by
  intro c rest hc
  cases h with
  | nil => cases hc
  | cons =>
    cases hc with
    | bare hname => exact absurd hname.starts Bool.false_ne_true
    | functional hname => exact absurd hname.starts Bool.false_ne_true

theorem endsClasses_symbol (k : Combinator) (s : Text) : EndsClasses (k.symbol ++ s) := by
  intro c rest hc
  cases k <;> cases hc

theorem not_readsElements_symbol (k : Combinator) (s : Text) (elements : List Text) :
    ¬ ReadsElements (k.symbol ++ s) elements := by
  intro h
  cases k <;> cases h

theorem symbol_append_inj {k k' : Combinator} {s s' : Text}
    (h : k.symbol ++ s = k'.symbol ++ s') : k = k' ∧ s = s' := by
  cases k <;> cases k' <;> simp_all [Combinator.symbol]

theorem ReadsClasses.unique {s rest rest' : Text} {cs cs' : List PseudoClass}
    (h : ReadsClasses s cs rest) (h' : ReadsClasses s cs' rest') (hrest : EndsClasses rest)
    (hrest' : EndsClasses rest') : cs = cs' ∧ rest = rest' := by
  induction h generalizing cs' with
  | nil =>
    cases h' with
    | nil => exact ⟨rfl, rfl⟩
    | cons hc _ => exact absurd hc (hrest _ _)
  | cons hc _ ih =>
    cases h' with
    | nil => exact absurd hc (hrest' _ _)
    | cons hc' hs' =>
      obtain ⟨rfl, rfl⟩ := hc.unique hc'
      obtain ⟨rfl, rfl⟩ := ih hs' hrest
      exact ⟨rfl, rfl⟩

theorem ReadsElements.unique {s : Text} {es es' : List Text} (h : ReadsElements s es)
    (h' : ReadsElements s es') : es = es' := by
  induction h generalizing es' with
  | nil =>
    cases h'
    rfl
  | cons hname _ ih =>
    cases h' with
    | cons hname' hs' =>
      obtain ⟨rfl, rfl⟩ := hname.unique hname'
      rw [ih hs']

theorem ComplexSelector.Reads.unique {s : Text} {a b : ComplexSelector} (ha : a.Reads s)
    (hb : b.Reads s) : a = b := by
  induction ha generalizing b with
  | subject hname hclasses helements =>
    cases hb with
    | subject hname' hclasses' helements' =>
      obtain ⟨rfl, rfl⟩ := hname.unique hname'
      obtain ⟨rfl, rfl⟩ := hclasses.unique hclasses' helements.endsClasses helements'.endsClasses
      rw [helements.unique helements']
    | @step _ _ _ _ _ k _ hname' hclasses' _ _ =>
      obtain ⟨rfl, rfl⟩ := hname.unique hname'
      obtain ⟨-, rfl⟩ := hclasses.unique hclasses' helements.endsClasses
        (endsClasses_symbol k _)
      exact absurd helements (not_readsElements_symbol k _ _)
  | @step _ _ _ _ _ k _ hname hclasses _ _ ih =>
    cases hb with
    | subject hname' hclasses' helements' =>
      obtain ⟨rfl, rfl⟩ := hname.unique hname'
      obtain ⟨-, rfl⟩ := hclasses.unique hclasses' (endsClasses_symbol k _)
        helements'.endsClasses
      exact absurd helements' (not_readsElements_symbol k _ _)
    | @step _ _ _ _ _ k' _ hname' hclasses' _ hsel' =>
      obtain ⟨rfl, rfl⟩ := hname.unique hname'
      obtain ⟨rfl, heq⟩ := hclasses.unique hclasses' (endsClasses_symbol k _)
        (endsClasses_symbol k' _)
      obtain ⟨rfl, rfl⟩ := symbol_append_inj heq
      rw [ih hsel']

/-! ### What is written is read back -/

/-- Neither a name nor a function goes on with this text. -/
def EndsName (s : Text) : Prop := ∀ c ∈ s.head?, isIdentifierChar c = false ∧ c ≠ '\\' ∧ c ≠ '('

theorem endsName_nil : EndsName [] := by
  intro c hc
  cases hc

theorem endsName_cons {c : Char} {s : Text}
    (h : isIdentifierChar c = false ∧ c ≠ '\\' ∧ c ≠ '(') : EndsName (c :: s) := by
  intro d hd
  cases hd
  exact h

theorem EndsName.readIdentifier {s : Text} (h : EndsName s) : readIdentifier s = ([], s) :=
  readIdentifier_of_stop fun c hc => ⟨(h c hc).1, (h c hc).2.1⟩

theorem Spells.readsName {s t rest : Text} (h : Spells s t)
    (hstart : startsIdentifier (t ++ rest) = true) (hrest : readIdentifier rest = ([], rest)) :
    ReadsName (t ++ rest) s rest where
  starts := hstart
  reads := by rw [h.readIdentifier_append, hrest, List.append_nil]

/-- Names that begin with a letter or the like, and stand for themselves. -/
def isPlainName : Text → Bool
  | [] => false
  | c :: s => isNameChar c && !c.isDigit && c ≠ '-' && s.all isNameChar

theorem spells_self {s : Text} (h : ∀ c ∈ s, isNameChar c = true) : Spells s s := by
  induction s with
  | nil => exact .nil
  | cons c s ih =>
    rw [List.forall_mem_cons] at h
    exact .name h.1 (ih h.2)

theorem Spells.append {s t s' t' : Text} (h : Spells s t) (h' : Spells s' t') :
    Spells (s ++ s') (t ++ t') := by
  induction h with
  | nil => exact h'
  | name hname _ ih => exact .name hname ih
  | codePoint h0 _ ih =>
    rw [List.append_assoc]
    exact .codePoint h0 ih
  | backslash hhex hcomma hcontrol _ ih => exact .backslash hhex hcomma hcontrol ih

/-- A plain name is the start of an identifier, and is spelled as it is. -/
theorem spells_of_isPlainName {s : Text} (h : isPlainName s = true) (rest : Text) :
    Spells s s ∧ startsIdentifier (s ++ rest) = true := by
  cases s with
  | nil => cases h
  | cons c s =>
    simp only [isPlainName, Bool.and_eq_true, Bool.not_eq_eq_eq_not, Bool.not_true,
      decide_eq_true_eq, List.all_eq_true] at h
    obtain ⟨⟨⟨hname, hdigit⟩, hdash⟩, hs⟩ := h
    have hspells := spells_self (List.forall_mem_cons.2 ⟨hname, hs⟩)
    exact ⟨hspells, startsIdentifier_of_startsName (hspells.startsName_append hdigit hdash rest)⟩

theorem readsName_of_isPlainName {s rest : Text} (h : isPlainName s = true)
    (hrest : readIdentifier rest = ([], rest)) : ReadsName (s ++ rest) s rest :=
  (spells_of_isPlainName h rest).1.readsName (spells_of_isPlainName h rest).2 hrest

namespace PseudoClass

/-- A pseudo-class as it is written. -/
def text (c : PseudoClass) : Text :=
  ':' :: (c.name ++ c.args.elim [] fun args => '(' :: (args ++ [')']))

/-- A plain name, and nested brackets in the argument. -/
structure IsPlain (c : PseudoClass) : Prop where
  name : isPlainName c.name = true
  args : ∀ args ∈ c.args, Nested args

theorem IsPlain.reads {c : PseudoClass} (h : c.IsPlain) {rest : Text} (hrest : EndsName rest) :
    c.Reads (c.text ++ rest) rest := by
  obtain ⟨name, args⟩ := c
  obtain ⟨hname, hargs⟩ := h
  cases args with
  | none =>
    simp only [text, Option.elim_none, List.append_nil, List.cons_append]
    refine .bare (readsName_of_isPlainName hname hrest.readIdentifier) fun hopen => ?_
    exact absurd rfl (hrest '(' hopen).2.2
  | some args =>
    simp only [text, Option.elim_some, List.cons_append, List.append_assoc, List.nil_append]
    exact .functional (readsName_of_isPlainName hname (readIdentifier_of_none rfl)) (hargs args rfl)

end PseudoClass

theorem endsName_flatMap_text (cs : List PseudoClass) {rest : Text} (hrest : EndsName rest) :
    EndsName (cs.flatMap PseudoClass.text ++ rest) := by
  cases cs with
  | nil => exact hrest
  | cons c cs => exact endsName_cons (by decide)

theorem reads_classes {cs : List PseudoClass} (h : ∀ c ∈ cs, c.IsPlain) {rest : Text}
    (hrest : EndsName rest) : ReadsClasses (cs.flatMap PseudoClass.text ++ rest) cs rest := by
  induction cs with
  | nil => exact .nil
  | cons c cs ih =>
    rw [List.forall_mem_cons] at h
    rw [List.flatMap_cons, List.append_assoc]
    exact .cons (h.1.reads (endsName_flatMap_text cs hrest)) (ih h.2)

/-- A pseudo-element as it is written. -/
def elementText (name : Text) : Text := ':' :: ':' :: name

theorem endsName_flatMap_elementText (names : List Text) :
    EndsName (names.flatMap elementText) := by
  cases names with
  | nil => exact endsName_nil
  | cons name names => exact endsName_cons (by decide)

theorem reads_elements {names : List Text} (h : ∀ name ∈ names, isPlainName name = true) :
    ReadsElements (names.flatMap elementText) names := by
  induction names with
  | nil => exact .nil
  | cons name names ih =>
    rw [List.forall_mem_cons] at h
    rw [List.flatMap_cons]
    exact .cons (readsName_of_isPlainName h.1 (endsName_flatMap_elementText names).readIdentifier)
      (ih h.2)

theorem endsName_symbol (k : Combinator) (s : Text) : EndsName (k.symbol ++ s) := by
  cases k <;> exact endsName_cons (by decide)

end VariantSelector.Css
