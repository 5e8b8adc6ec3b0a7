import VariantSelector.Variant.Keyed
import VariantSelector.Variant.Part
import VariantSelector.Variant.Related

/-!
Resolving a token: variants are read off its front, one pass at a time, until none is left. The rule
of the whole token is then changed by every match in the order in which the variants stood.
-/

namespace VariantSelector

/-- What every variant is read with. -/
structure Context where
  style : MarkerStyle := .byClass
  rules : TransformRules := []
  deriving DecidableEq, Repr

/-- Reads one variant at the start of `token`. -/
def Variant.match? (v : Variant) (ctx : Context) (token : Text) : Option Match :=
  match v with
  | .plain => matchPlain? ctx.rules token
  | .functional => matchFunctional? ctx.rules token
  | .relation r => r.match? ctx.style token
  | .part => matchPart? token

/-- The first variant that can be read at the start of `token`. -/
def Context.match? (ctx : Context) (token : Text) : Option Match :=
  Variant.all.findSome? (·.match? ctx token)

/-- Strips variants off `body` for as long as `matchAt` finds one that leaves the text shorter.
Restoring encoded text may lengthen it, so a match alone does not. -/
def stripVariants {m : Type → Type} [Monad m] (matchAt : Text → m (Option Match)) (body : Text) :
    m (List Match × Text) := do
  if body.isEmpty then return ([], body)
  match ← matchAt body with
  | none => return ([], body)
  | some found =>
    if h : found.consumed ≠ 0 ∧ found.residual.byteSize < body.byteSize then
      have := h.2
      let (later, rest) ← stripVariants matchAt found.residual
      return (found :: later, rest)
    else
      return ([], body)
termination_by body.byteSize

/-- A token without its variants, and what they made of its rule. -/
structure Resolution where
  /-- The matches, in the order in which they were stripped. -/
  variants : List Match
  /-- The utility behind the last variant. -/
  body : Text
  rule : Rule
  deriving DecidableEq, Repr

namespace Resolution

/-- Applies matches in order to the rule of `token`. -/
def ofMatches (token : Text) (variants : List Match) (body : Text) : Resolution where
  variants
  body
  rule := variants.foldl (fun rule m => m.apply rule) (Rule.ofClass token)

/-- The selector text. -/
def selector (r : Resolution) : Text := r.rule.render

end Resolution

namespace Context

/-- The matches that are stripped off `body`, and what is left of it. -/
def strip (ctx : Context) (body : Text) : List Match × Text :=
  Id.run (stripVariants (fun body => pure (ctx.match? body)) body)

/-- Resolves every variant on `token`. -/
def resolve (ctx : Context) (token : Text) : Resolution :=
  .ofMatches token (ctx.strip token).1 (ctx.strip token).2

theorem strip_eq (ctx : Context) (body : Text) :
    ctx.strip body =
      if body.isEmpty then ([], body)
      else
        match ctx.match? body with
        | none => ([], body)
        | some found =>
          if found.consumed ≠ 0 ∧ found.residual.byteSize < body.byteSize then
            (found :: (ctx.strip found.residual).1, (ctx.strip found.residual).2)
          else ([], body) := by
  unfold strip
  rw [stripVariants]
  simp only [pure_bind, Id.run]
  split
  · rfl
  · cases ctx.match? body with
    | none => rfl
    | some found =>
      simp only
      split <;> rfl

end Context

end VariantSelector
