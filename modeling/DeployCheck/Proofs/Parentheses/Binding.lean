import DeployCheck.Proofs.Insertion.Binding
import DeployCheck.Proofs.Parentheses.Layout

/-!
# Binding with an operand in parentheses

Parentheses have no symbol, and binding them is binding what is in them. So the binder
makes the same symbols for a program with an operand in parentheses, and binds the same
nodes to them unless the operand is the base of a `::` node that is bound.
-/

set_option autoImplicit false

namespace DeployCheck

namespace Binder

section Parenthesized

variable {t t' : Tree} {p e : Nat} (h : t.arena.Parenthesized t'.arena p e)
include h

theorem bindExpression_paren (fuel : Nat) (around : List Frame) :
    bindExpression t' (fuel + 1) around (e + 1) = bindExpression t' fuel around e := by
  rw [bindExpression_passive _ _ h.paren rfl]
  exact bind_pure_unit

theorem follows_parenthesized (fuel : Nat) : Expressions (.enlarged e (outer e)) t t'
    (Bound.Follows t.arena t'.arena e) fuel := by
  refine simulates_expressions (simulation_enlarged h.enlarged) ?_ fuel
  intro fuel fuel' around x ih special low low'
  obtain rfl : x = e := by
    by_contra other
    exact special.elim (· trivial) (· (outer_of_ne other))
  change outer x x ≤ fuel' at low'
  change Simulates _ _ _ (bindExpression t' (fuel' + 1) around (outer x x))
  rw [outer_self] at low' ⊢
  rw [bindExpression_paren h]
  obtain ⟨fuel', rfl⟩ : ∃ k, fuel' = k + 1 := ⟨fuel' - 1, by omega⟩
  have node := simulates_node (simulation_enlarged h.enlarged) ih around trivial low
    (show twin x x ≤ fuel' by rw [twin_self]; omega)
  rwa [show (Correspondence.enlarged x (outer x)).node x = x from twin_self] at node

end Parenthesized

end Binder

end DeployCheck
