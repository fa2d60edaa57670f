import DeployCheck.Proofs.Insertion.Documents
import DeployCheck.Proofs.Parentheses.Layout

/-!
# Programs with an operand in parentheses

In the document of a program one operand is put in parentheses and nothing else is
changed. The result has a tree if the program has one.
-/

set_option autoImplicit false

namespace DeployCheck

/-- The second expression is the first one with an operand in parentheses. -/
inductive Expression.Parenthesized : Expression → Expression → Prop where
  | operand (layer : Layer) (slot : layer.isOperand = true) (e : Expression) (span : Option Span) :
      Parenthesized (layer.fill e) (layer.fill (.paren e span))
  | inside (layer : Layer) {e e' : Expression} (inner : Parenthesized e e') :
      Parenthesized (layer.fill e) (layer.fill e')

abbrev Declaration.Parenthesized : List Declaration → List Declaration → Prop :=
  Declaration.Replaced Expression.Parenthesized

theorem Expression.Parenthesized.shapes {e e' : Expression} (h : e.Parenthesized e')
    (beside : List Shape) :
    Shape.Replaced Shape.Encloses (e.shape :: beside) (e'.shape :: beside) := by
  induction h generalizing beside with
  | operand layer slot e span =>
    obtain ⟨label, before, after, shape, shape', operands⟩ := layer.shape_fill e (.paren e span)
    rw [shape, shape']
    exact .here beside (.operand (operands slot))
  | inside layer _ ih => exact .fill layer ih beside

theorem Expression.Parenthesized.fault? {e e' : Expression} (h : e.Parenthesized e') :
    StringLiteral.fault? e.strings = none ↔ StringLiteral.fault? e'.strings = none := by
  induction h with
  | operand layer slot e span =>
    obtain ⟨rest, fill⟩ := layer.fault?_fill
    rw [fill, fill]
    rfl
  | inside layer _ ih =>
    obtain ⟨rest, fill⟩ := layer.fault?_fill
    rw [fill, fill, ih]

theorem Tree.ofProgram_enclosed {file : String} {ds ds' : List Declaration} {tree : Tree}
    (put : Declaration.Parenthesized ds ds') (lowered : Tree.ofProgram file ds = .ok tree) :
    ∃ tree' p e, Tree.ofProgram file ds' = .ok tree' ∧
      tree.arena.Parenthesized tree'.arena p e ∧ tree'.root = twin e tree.root := by
  obtain ⟨tree', lowered'⟩ := Tree.ofProgram_clear.1
    ((put.fault? fun _ _ => Expression.Parenthesized.fault?).1
      (Tree.ofProgram_clear.2 ⟨tree, lowered⟩))
  have shapes := put.shapes fun _ _ => Expression.Parenthesized.shapes
  obtain ⟨p, e, parenthesized, root⟩ := Tree.ofProgram_parenthesized shapes lowered lowered'
  exact ⟨tree', p, e, lowered', parenthesized, root⟩

end DeployCheck
