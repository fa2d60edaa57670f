import DeployCheck.Proofs.Indexing.Layout
import DeployCheck.Proofs.Insertion.Documents

/-!
# Programs with a member selected by an index

In the document of a program one property access becomes an index of a string without holes,
and nothing else is changed. If one of the two programs has a tree, so does the other one.
-/

set_option autoImplicit false

namespace DeployCheck

inductive Expression.Spells (name : String) : Expression → Prop where
  | value (span : Option Span) : Spells name (.string (some name) [] span)
  | parts (texts : List String) (span : Option Span) (joined : String.join texts = name) :
      Spells name (.string none (texts.map .text) span)

/-- In the second expression one property of a name is selected by an index. -/
inductive Expression.Indexed (name : String) : Expression → Expression → Prop where
  | access (base : Expression) {selector : Expression} (span span' : Option Span)
      (spelled : selector.Spells name) :
      Indexed name (.property base name span) (.index base selector span')
  | inside (layer : Layer) {e e' : Expression} (inner : Indexed name e e') :
      Indexed name (layer.fill e) (layer.fill e')

section Spelling

variable {name : String} {e e' : Expression}

theorem Part.segments_texts (texts : List String) :
    Part.segments (texts.map .text) = [String.join texts] := by
  induction texts with
  | nil => rfl
  | cons text texts ih => rw [List.map_cons, segments, ih, String.join_cons]

theorem Part.shapes_texts (texts : List String) : Part.shapes (texts.map .text) = [] := by
  induction texts with
  | nil => rfl
  | cons text texts ih => exact ih

theorem Part.strings_texts (texts : List String) : Part.strings (texts.map .text) = [] := by
  induction texts with
  | nil => rfl
  | cons text texts ih => exact ih

theorem Expression.Spells.shape (h : e.Spells name) : e.shape = .node (.string [name] []) [] := by
  cases h with
  | value span => rfl
  | parts texts span joined =>
    have segments := Part.segments_texts texts
    cases texts with
    | nil =>
      subst joined
      rfl
    | cons text texts =>
      rw [Expression.shape, Part.shapes_texts, ← joined, ← segments]
      · rfl
      · exact List.cons_ne_nil _ _

theorem Expression.Spells.fault? (h : e.Spells name) : StringLiteral.fault? e.strings = none := by
  cases h with
  | value span => rfl
  | parts texts span joined =>
    rw [Expression.strings, Part.strings_texts]
    rfl

theorem Expression.Indexed.shapes (h : Indexed name e e') (beside : List Shape) :
    Shape.Replaced (Shape.Selects name) (e.shape :: beside) (e'.shape :: beside) := by
  induction h generalizing beside with
  | access base span span' spelled =>
    rw [Expression.shape, Expression.shape, spelled.shape]
    exact .here beside (.access base.shape)
  | inside layer _ ih => exact .fill layer ih beside

theorem Expression.Indexed.fault? (h : Indexed name e e') :
    StringLiteral.fault? e.strings = none ↔ StringLiteral.fault? e'.strings = none := by
  induction h with
  | access base span span' spelled =>
    rw [Expression.strings, Expression.strings, StringLiteral.fault?_none, spelled.fault?]
    exact (and_iff_left rfl).symm
  | inside layer _ ih =>
    obtain ⟨rest, fill⟩ := layer.fault?_fill
    rw [fill, fill, ih]

end Spelling

theorem Tree.ofProgram_selected {file name : String} {ds ds' : List Declaration}
    (put : Declaration.Replaced (Expression.Indexed name) ds ds')
    (lowered : (∃ tree, Tree.ofProgram file ds = .ok tree) ∨
      ∃ tree', Tree.ofProgram file ds' = .ok tree') :
    ∃ tree tree' e, Tree.ofProgram file ds = .ok tree ∧ Tree.ofProgram file ds' = .ok tree' ∧
      tree.arena.Indexed tree'.arena e name ∧ tree'.root = twin e tree.root := by
  have clear : (∃ tree, Tree.ofProgram file ds = .ok tree) ↔
      ∃ tree', Tree.ofProgram file ds' = .ok tree' := by
    rw [← Tree.ofProgram_clear, ← Tree.ofProgram_clear]
    exact put.fault? fun _ _ => Expression.Indexed.fault?
  obtain ⟨tree, lowered⟩ := lowered.elim id clear.2
  obtain ⟨tree', lowered'⟩ := clear.1 ⟨tree, lowered⟩
  have shapes := put.shapes fun _ _ => Expression.Indexed.shapes
  obtain ⟨e, indexed, root⟩ := Tree.ofProgram_indexed shapes lowered lowered'
  exact ⟨tree, tree', e, lowered, lowered', indexed, root⟩

end DeployCheck
