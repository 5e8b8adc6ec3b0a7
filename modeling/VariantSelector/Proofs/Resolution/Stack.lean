import VariantSelector.Proofs.Resolution.Run
import VariantSelector.Proofs.Variant.Grammar

/-!
Stacks of variants. Forms written one after another, a colon behind each, are read back one by one,
in order and as they were written, whatever stands behind the stack (`Context.resolve_stack`).
-/

namespace VariantSelector

namespace Form

/-- A form with the colon that ends it. -/
def written (f : Form) : Text := f.text ++ [':']

def stack (fs : List Form) : Text := fs.flatMap written

/-- The matches of the forms of a stack in front of `rest`. -/
def readings (style : MarkerStyle) : List Form → Text → List Match
  | [], _ => []
  | f :: fs, rest => f.reading style ':' (stack fs ++ rest) :: readings style fs rest

theorem begins_stack (f : Form) (fs : List Form) (rest : Text) :
    f.Begins ':' (stack fs ++ rest) (stack (f :: fs) ++ rest) where
  accepts := f.accepts_colon
  token_eq := by simp [stack, written]

theorem map_consumed_readings (style : MarkerStyle) (fs : List Form) (rest : Text) :
    (readings style fs rest).map Match.consumed = fs.map fun f => f.written.byteSize := by
  induction fs with
  | nil => rfl
  | cons f fs ih =>
    rw [readings, List.map_cons, List.map_cons, ih]
    rfl

end Form

namespace Context

variable {ctx : Context}

/-- A form at the front of a stack is read in one pass, which leaves the rest of the stack. -/
theorem pass_stack (hrules : ctx.rules = []) (f : Form) (fs : List Form) (rest : Text) :
    ctx.Pass (Form.stack (f :: fs) ++ rest)
      (f.reading ctx.style ':' (Form.stack fs ++ rest)) := by
  have hbegins := f.begins_stack fs rest
  have hpos : 0 < f.written.byteSize := Text.byteSize_pos (by simp [Form.written])
  have hsize : f.written.byteSize + (Form.stack fs ++ rest).byteSize
      = (Form.stack (f :: fs) ++ rest).byteSize := by
    rw [← Text.byteSize_append]
    exact congrArg Text.byteSize (Form.taken_append_rest ctx.style hbegins)
  refine ⟨match?_of_begins_colon (by rw [hrules]; rfl) hbegins, Nat.ne_of_gt hpos, ?_⟩
  show (Form.stack fs ++ rest).byteSize < _
  omega

/-- Whatever stands behind a stack has no say in how it is stripped. -/
theorem strip_stack (hrules : ctx.rules = []) (fs : List Form) (rest : Text) :
    ctx.strip (Form.stack fs ++ rest)
      = (Form.readings ctx.style fs rest ++ (ctx.strip rest).1, (ctx.strip rest).2) := by
  induction fs with
  | nil => simp [Form.stack, Form.readings]
  | cons f fs ih =>
    rw [strip_of_pass (pass_stack hrules f fs rest)]
    simp only [Form.reading, ih, Form.readings, List.cons_append]

/-- Writing variants and resolving them is a round trip: each form of a stack gives one match, in
order, which takes the form's bytes, leaves the rest of the text and says what the form says. What
follows the stack is resolved as it is alone. -/
theorem resolve_stack (style : MarkerStyle) (fs : List Form) (rest : Text) :
    let ctx : Context := { style := style, rules := [] }
    (ctx.resolve (Form.stack fs ++ rest)).variants
        = Form.readings style fs rest ++ (ctx.resolve rest).variants ∧
      (ctx.resolve (Form.stack fs ++ rest)).body = (ctx.resolve rest).body ∧
      (Form.readings style fs rest).map Match.consumed
        = fs.map fun f => f.written.byteSize := by
  intro ctx
  have hstrip : ctx.strip (Form.stack fs ++ rest) = _ := strip_stack rfl fs rest
  refine ⟨?_, ?_, Form.map_consumed_readings style fs rest⟩
  · show (ctx.strip (Form.stack fs ++ rest)).1 = _
    rw [hstrip]
    rfl
  · show (ctx.strip (Form.stack fs ++ rest)).2 = (ctx.strip rest).2
    rw [hstrip]

end Context

end VariantSelector
