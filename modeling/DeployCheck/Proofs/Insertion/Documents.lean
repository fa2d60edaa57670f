import DeployCheck.Proofs.Failures
import DeployCheck.Proofs.Insertion.Layout

/-!
# Places in a document

An expression in a document has layers around it. What the layers add to its shape and to its
strings does not depend on what is in the place.
-/

set_option autoImplicit false

namespace DeployCheck

/-- One layer of an expression around a place in it. -/
inductive Layer where
  | propertyBase (name : String) (span : Option Span)
  | indexBase (index : Expression) (span : Option Span)
  | indexSelector (base : Expression) (span : Option Span)
  | accessBase (name : String) (span : Option Span)
  | callBase (name : String) (args : List Expression) (span : Option Span)
  | hole (value : Option String) (before after : List Part) (span : Option Span)
  | item (before after : List Expression) (span : Option Span)
  | entry (before : List (String × Expression)) (key : String) (after : List (String × Expression))
      (span : Option Span)
  | arg (name : String) (before after : List Expression) (span : Option Span)
  | callArg (base : Expression) (name : String) (before after : List Expression)
      (span : Option Span)
  | paren (span : Option Span)
  | unary (operator : UnaryOperator) (span : Option Span)
  | left (operator : BinaryOperator) (other : Expression) (span : Option Span)
  | right (operator : BinaryOperator) (other : Expression) (span : Option Span)
  | test (whenTrue whenFalse : Expression) (span : Option Span)
  | whenTrue (condition whenFalse : Expression) (span : Option Span)
  | whenFalse (condition whenTrue : Expression) (span : Option Span)
  | iterated (item : String) (index : Option String) (body : Expression) (span : Option Span)
  | loopBody (item : String) (index : Option String) (iterated : Expression) (span : Option Span)
  | condition (body : Expression) (span : Option Span)
  | conditionBody (condition : Expression) (span : Option Span)

namespace Layer

def fill : Layer → Expression → Expression
  | propertyBase name span, e => .property e name span
  | indexBase index span, e => .index e index span
  | indexSelector base span, e => .index base e span
  | accessBase name span, e => .resourceAccess e name span
  | callBase name args span, e => .instanceCall e name args span
  | hole value before after span, e => .string value (before ++ .hole e :: after) span
  | item before after span, e => .array (before ++ e :: after) span
  | entry before key after span, e => .object (before ++ (key, e) :: after) span
  | arg name before after span, e => .call name (before ++ e :: after) span
  | callArg base name before after span, e => .instanceCall base name (before ++ e :: after) span
  | paren span, e => .paren e span
  | unary operator span, e => .unary operator e span
  | left operator other span, e => .binary operator e other span
  | right operator other span, e => .binary operator other e span
  | test t f span, e => .ternary e t f span
  | whenTrue c f span, e => .ternary c e f span
  | whenFalse c t span, e => .ternary c t e span
  | iterated name index body span, e => .loop name index e body span
  | loopBody name index source span, e => .loop name index source e span
  | condition body span, e => .condition e body span
  | conditionBody c span, e => .condition c e span

/-- Whether the place is that of the base or the index of an access. -/
def isOperand : Layer → Bool
  | propertyBase .. | indexBase .. | indexSelector .. | accessBase .. | callBase .. => true
  | _ => false

end Layer

inductive Declaration.Replaced (r : Expression → Expression → Prop) :
    List Declaration → List Declaration → Prop where
  | param (name : String) (span : Option Span) (rest : List Declaration) {e e' : Expression}
      (inner : r e e') : Replaced r (.param name (some e) span :: rest)
        (.param name (some e') span :: rest)
  | var (name : String) (span : Option Span) (rest : List Declaration) {e e' : Expression}
      (inner : r e e') : Replaced r (.var name e span :: rest) (.var name e' span :: rest)
  | resource (name type : String) (existing : Bool) (nested : List Declaration)
      (span : Option Span) (rest : List Declaration) {e e' : Expression} (inner : r e e') :
      Replaced r (.resource name type existing e nested span :: rest)
        (.resource name type existing e' nested span :: rest)
  | nested (name type : String) (existing : Bool) (body : Expression) (span : Option Span)
      (rest : List Declaration) {ds ds' : List Declaration} (inner : Replaced r ds ds') :
      Replaced r (.resource name type existing body ds span :: rest)
        (.resource name type existing body ds' span :: rest)
  | module (name path : String) (outputs : List ModuleOutput) (span : Option Span)
      (rest : List Declaration) {e e' : Expression} (inner : r e e') :
      Replaced r (.module name path e outputs span :: rest) (.module name path e' outputs span :: rest)
  | output (name : String) (span : Option Span) (rest : List Declaration) {e e' : Expression}
      (inner : r e e') : Replaced r (.output name e span :: rest) (.output name e' span :: rest)
  | beside (d : Declaration) {ds ds' : List Declaration} (rest : Replaced r ds ds') :
      Replaced r (d :: ds) (d :: ds')

section Shapes

theorem Expression.shapes_at (before after : List Expression) (e : Expression) :
    Expression.shapes (before ++ e :: after) =
      Expression.shapes before ++ e.shape :: Expression.shapes after := by
  induction before with
  | nil => rfl
  | cons d before ih => exact congrArg (d.shape :: ·) ih

theorem Expression.propertyShapes_at (before after : List (String × Expression)) (key : String)
    (e : Expression) : Expression.propertyShapes (before ++ (key, e) :: after) =
      Expression.propertyShapes before ++ e.shape :: Expression.propertyShapes after := by
  induction before with
  | nil => rfl
  | cons d before ih => exact congrArg (d.2.shape :: ·) ih

theorem Part.shapes_at (before after : List Part) (e : Expression) :
    Part.shapes (before ++ .hole e :: after) =
      Part.shapes before ++ e.shape :: Part.shapes after := by
  induction before with
  | nil => rfl
  | cons part before ih =>
    cases part with
    | text text => exact ih
    | hole d => exact congrArg (d.shape :: ·) ih

theorem Part.segments_at (before after : List Part) (e e' : Expression) :
    Part.segments (before ++ .hole e :: after) = Part.segments (before ++ .hole e' :: after) := by
  induction before with
  | nil => rfl
  | cons part before ih =>
    cases part with
    | text text => rw [List.cons_append, List.cons_append, segments, segments, ih]
    | hole d => exact congrArg ("" :: ·) ih

theorem Shape.holes_congr {shapes shapes' : List Shape} (same : shapes.length = shapes'.length) :
    holes shapes = holes shapes' := by
  rw [holes, holes, List.map_const', List.map_const', same]

theorem Shape.holes_at (before after : List Shape) (shape shape' : Shape) :
    holes (before ++ shape :: after) = holes (before ++ shape' :: after) :=
  holes_congr (by simp)

theorem Layer.shape_fill (layer : Layer) (e e' : Expression) : ∃ label before after,
    (layer.fill e).shape = .node label (before ++ e.shape :: after) ∧
    (layer.fill e').shape = .node label (before ++ e'.shape :: after) ∧
    (layer.isOperand = true → before.length < label.operandCount) := by
  cases layer with
  | propertyBase name span => exact ⟨_, [], _, rfl, rfl, fun _ => Nat.one_pos⟩
  | indexBase index span => exact ⟨_, [], _, rfl, rfl, fun _ => Nat.two_pos⟩
  | indexSelector base span => exact ⟨_, [base.shape], _, rfl, rfl, fun _ => Nat.one_lt_two⟩
  | accessBase name span => exact ⟨_, [], _, rfl, rfl, fun _ => Nat.one_pos⟩
  | callBase name args span => exact ⟨_, [], _, rfl, rfl, fun _ => Nat.one_pos⟩
  | hole value before after span =>
    have shape : ∀ d, (fill (hole value before after span) d).shape =
        .node (.string (Part.segments (before ++ .hole d :: after))
          (Shape.holes (Part.shapes before ++ d.shape :: Part.shapes after)))
          (Part.shapes before ++ d.shape :: Part.shapes after) := by
      intro d
      rw [← Part.shapes_at, fill, Expression.shape]
      simp
    refine ⟨_, _, _, shape e, ?_, nofun⟩
    rw [shape, Part.segments_at before after e' e, Shape.holes_at _ _ e'.shape e.shape]
  | item before after span =>
    have shape : ∀ d, (fill (item before after span) d).shape =
        .node (.array (Shape.holes (Expression.shapes before ++ d.shape :: Expression.shapes after)))
          (Expression.shapes before ++ d.shape :: Expression.shapes after) := by
      intro d
      rw [← Expression.shapes_at, fill, Expression.shape]
    refine ⟨_, _, _, shape e, ?_, nofun⟩
    rw [shape, Shape.holes_at _ _ e'.shape e.shape]
  | entry before key after span =>
    have shape : ∀ d, (fill (entry before key after span) d).shape =
        .node (.object (before.map (fun p => ⟨.named p.1, 0⟩) ++
            ⟨.named key, 0⟩ :: after.map fun p => ⟨.named p.1, 0⟩))
          (Expression.propertyShapes before ++ d.shape :: Expression.propertyShapes after) := by
      intro d
      rw [← Expression.propertyShapes_at before after key d, fill, Expression.shape, List.map_append,
        List.map_cons]
    exact ⟨_, _, _, shape e, shape e', nofun⟩
  | arg name before after span =>
    have shape : ∀ d, (fill (arg name before after span) d).shape =
        .node (.call (.named name)
            (Shape.holes (Expression.shapes before ++ d.shape :: Expression.shapes after)))
          (Expression.shapes before ++ d.shape :: Expression.shapes after) := by
      intro d
      rw [← Expression.shapes_at, fill, Expression.shape]
    refine ⟨_, _, _, shape e, ?_, nofun⟩
    rw [shape, Shape.holes_at _ _ e'.shape e.shape]
  | callArg base name before after span =>
    have shape : ∀ d, (fill (callArg base name before after span) d).shape =
        .node (.instanceCall 0 (.named name)
            (Shape.holes (Expression.shapes before ++ d.shape :: Expression.shapes after)))
          ((base.shape :: Expression.shapes before) ++ d.shape :: Expression.shapes after) := by
      intro d
      rw [List.cons_append, ← Expression.shapes_at, fill, Expression.shape]
    refine ⟨_, _, _, shape e, ?_, nofun⟩
    rw [shape, Shape.holes_at _ _ e'.shape e.shape]
  | paren span | unary operator span => exact ⟨_, [], _, rfl, rfl, nofun⟩
  | left operator other span => exact ⟨_, [], _, rfl, rfl, nofun⟩
  | right operator other span => exact ⟨_, [other.shape], _, rfl, rfl, nofun⟩
  | test t f span => exact ⟨_, [], _, rfl, rfl, nofun⟩
  | whenTrue c f span => exact ⟨_, [c.shape], _, rfl, rfl, nofun⟩
  | whenFalse c t span => exact ⟨_, [c.shape, t.shape], _, rfl, rfl, nofun⟩
  | iterated name index body span | condition body span => exact ⟨_, [], _, rfl, rfl, nofun⟩
  | loopBody name index source span => exact ⟨_, [source.shape], _, rfl, rfl, nofun⟩
  | conditionBody c span => exact ⟨_, [c.shape], _, rfl, rfl, nofun⟩

section Replaced

variable {r : Shape → Shape → Prop} {below below' : List Shape}

theorem Shape.Replaced.length (h : Replaced r below below') : below.length = below'.length := by
  induction h with
  | here | inside => rfl
  | beside shape rest ih => exact congrArg Nat.succ ih

theorem Shape.Replaced.before (h : Replaced r below below') (before : List Shape) :
    Replaced r (before ++ below) (before ++ below') := by
  induction before with
  | nil => exact h
  | cons shape before ih => exact .beside shape ih

theorem Shape.Replaced.fill (layer : Layer) {e e' : Expression}
    (h : ∀ beside, Replaced r (e.shape :: beside) (e'.shape :: beside)) (beside : List Shape) :
    Replaced r ((layer.fill e).shape :: beside) ((layer.fill e').shape :: beside) := by
  obtain ⟨label, before, after, shape, shape', _⟩ := layer.shape_fill e e'
  rw [shape, shape']
  exact .inside beside ((h after).before before)

theorem Declaration.Replaced.shapes {q : Expression → Expression → Prop}
    (one : ∀ e e', q e e' → ∀ beside, Shape.Replaced r (e.shape :: beside) (e'.shape :: beside))
    {ds ds' : List Declaration} (h : Replaced q ds ds') :
    Shape.Replaced r (Declaration.shapes ds) (Declaration.shapes ds') := by
  induction h with
  | param name span rest inner | var name span rest inner | module name _ _ span rest inner
  | output name span rest inner => exact .inside _ (one _ _ inner [])
  | resource name type existing nested span rest inner => exact .inside _ (one _ _ inner _)
  | nested name type existing body span rest inner ih =>
    rw [Declaration.shapes, Declaration.shapes, Declaration.shape, Declaration.shape,
      Shape.holes_congr ih.length]
    exact .inside _ (.beside body.shape ih)
  | beside d _ ih => exact .beside d.shape ih

end Replaced

end Shapes

section Strings

open StringLiteral (fault?)

theorem Expression.strings_at (before after : List Expression) (e : Expression) :
    Expression.allStrings (before ++ e :: after) =
      Expression.allStrings before ++ (e.strings ++ Expression.allStrings after) := by
  induction before with
  | nil => rfl
  | cons d before ih =>
    rw [List.cons_append, Expression.allStrings, ih, Expression.allStrings, List.append_assoc]

theorem Expression.propertyStrings_at (before after : List (String × Expression)) (key : String)
    (e : Expression) : Expression.propertyStrings (before ++ (key, e) :: after) =
      Expression.propertyStrings before ++ (e.strings ++ Expression.propertyStrings after) := by
  induction before with
  | nil => rfl
  | cons d before ih =>
    rw [List.cons_append, Expression.propertyStrings, ih, Expression.propertyStrings,
      List.append_assoc]

theorem Part.strings_at (before after : List Part) (e : Expression) :
    Part.strings (before ++ .hole e :: after) =
      Part.strings before ++ (e.strings ++ Part.strings after) := by
  induction before with
  | nil => rfl
  | cons part before ih =>
    cases part with
    | text text => exact ih
    | hole d => rw [List.cons_append, Part.strings, ih, Part.strings, List.append_assoc]

theorem StringLiteral.fault?_none (front back : List StringLiteral) :
    fault? (front ++ back) = none ↔ fault? front = none ∧ fault? back = none := by
  rw [fault?_append, Option.or_eq_none_iff]

theorem Layer.fault?_fill (layer : Layer) : ∃ rest : Prop, ∀ e,
    fault? (layer.fill e).strings = none ↔ rest ∧ fault? e.strings = none := by
  have one : ∀ e : Expression, fault? e.strings = none ↔ True ∧ fault? e.strings = none := by
    intro e
    rw [true_and]
  have first : ∀ (back : List StringLiteral) (e : Expression), fault? (e.strings ++ back) = none ↔
      fault? back = none ∧ fault? e.strings = none := by
    intro back e
    rw [StringLiteral.fault?_none, and_comm]
  have last : ∀ (front : List StringLiteral) (e : Expression), fault? (front ++ e.strings) = none ↔
      fault? front = none ∧ fault? e.strings = none :=
    fun front e => StringLiteral.fault?_none front e.strings
  have between : ∀ (front back : List StringLiteral) (e : Expression),
      fault? (front ++ (e.strings ++ back)) = none ↔
        (fault? front = none ∧ fault? back = none) ∧ fault? e.strings = none := by
    intro front back e
    rw [StringLiteral.fault?_none, first, and_assoc]
  cases layer with
  | propertyBase | accessBase | paren | unary => exact ⟨_, one⟩
  | indexBase | callBase | left | test | iterated | condition => exact ⟨_, first _⟩
  | indexSelector base | right operator base | conditionBody base | loopBody name index base =>
    exact ⟨_, last base.strings⟩
  | whenTrue c f => exact ⟨_, between c.strings f.strings⟩
  | whenFalse c t =>
    refine ⟨fault? (c.strings ++ t.strings) = none, fun e => ?_⟩
    rw [fill, Expression.strings, ← List.append_assoc]
    exact last _ e
  | hole value before after span =>
    refine ⟨value.isSome = false ∧ fault? (Part.strings before) = none ∧
      fault? (Part.strings after) = none, fun e => ?_⟩
    have own : fault? [⟨value, before ++ .hole e :: after, span⟩] = none ↔ value.isSome = false := by
      simp [fault?, StringLiteral.isAmbiguous]
    rw [fill, Expression.strings, Part.strings_at, ← List.singleton_append, StringLiteral.fault?_none,
      own, between]
    exact and_assoc.symm
  | item before after | arg name before after =>
    refine ⟨fault? (Expression.allStrings before) = none ∧
      fault? (Expression.allStrings after) = none, fun e => ?_⟩
    rw [fill, Expression.strings, Expression.strings_at]
    exact between _ _ e
  | entry before key after =>
    refine ⟨fault? (Expression.propertyStrings before) = none ∧
      fault? (Expression.propertyStrings after) = none, fun e => ?_⟩
    rw [fill, Expression.strings, Expression.propertyStrings_at]
    exact between _ _ e
  | callArg base name before after =>
    refine ⟨fault? (base.strings ++ Expression.allStrings before) = none ∧
      fault? (Expression.allStrings after) = none, fun e => ?_⟩
    rw [fill, Expression.strings, Expression.strings_at, ← List.append_assoc]
    exact between _ _ e

theorem Declaration.Replaced.fault? {r : Expression → Expression → Prop}
    (one : ∀ e e', r e e' → (fault? e.strings = none ↔ fault? e'.strings = none))
    {ds ds' : List Declaration} (h : Replaced r ds ds') :
    StringLiteral.fault? (Declaration.allStrings ds) = none ↔
      StringLiteral.fault? (Declaration.allStrings ds') = none := by
  induction h with
  | param _ _ rest inner | var _ _ rest inner | module _ _ _ _ rest inner | output _ _ rest inner =>
    rw [allStrings, allStrings, StringLiteral.fault?_none, StringLiteral.fault?_none]
    exact and_congr_left fun _ => one _ _ inner
  | resource name type existing nested span rest inner =>
    simp only [allStrings, strings, StringLiteral.fault?_none, one _ _ inner]
  | nested name type existing body span rest inner ih =>
    simp only [allStrings, strings, StringLiteral.fault?_none, ih]
  | beside d _ ih => simp only [allStrings, StringLiteral.fault?_none, ih]

end Strings

theorem Tree.ofProgram_clear {file : String} {program : List Declaration} :
    StringLiteral.fault? (Declaration.allStrings program) = none ↔
      ∃ tree, Tree.ofProgram file program = .ok tree := by
  cases made : Tree.ofProgram file program with
  | ok tree =>
    refine iff_of_true ?_ ⟨tree, rfl⟩
    rw [Option.eq_none_iff_forall_ne_some]
    intro e failed
    cases (Tree.ofProgram_error.2 failed).symm.trans made
  | error e => simp [Tree.ofProgram_error.1 made]

end DeployCheck
