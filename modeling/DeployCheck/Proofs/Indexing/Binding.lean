import DeployCheck.Proofs.Indexing.Layout
import DeployCheck.Proofs.Insertion.Binding

/-!
# Binding with a member selected by an index

The string in an index binds nothing. So the binder makes the same symbols for a program with
a member selected by an index, and binds the same nodes to them.
-/

set_option autoImplicit false

namespace DeployCheck

namespace Binder

section Indexed

variable {t t' : Tree} {e : Nat} {name : String} (h : t.arena.Indexed t'.arena e name)
include h

theorem bindExpression_property (fuel : Nat) (around : List Frame) :
    bindExpression t (fuel + 1) around (e + 1) = bindExpression t fuel around e := by
  obtain ⟨i, property, _⟩ := h.access.property
  rw [bindExpression_passive _ _ property rfl]
  exact bind_pure_unit

theorem bindExpression_index (fuel : Nat) (around : List Frame) :
    bindExpression t' (fuel + 2) around (e + 2) = bindExpression t' (fuel + 1) around e := by
  have string : bindExpression t' (fuel + 1) around (e + 1) = pure () :=
    bindExpression_passive _ _ h.access.string rfl
  rw [bindExpression_passive _ _ h.access.index rfl]
  show (bindExpression t' (fuel + 1) around e >>= fun _ =>
    bindExpression t' (fuel + 1) around (e + 1) >>= fun _ => pure ()) = _
  rw [string]
  exact bind_pure_unit

theorem follows_indexed (fuel : Nat) : Expressions (.enlarged e (twin e)) t t'
    (Bound.Follows t.arena t'.arena e) fuel := by
  refine simulates_expressions (simulation_enlarged h.enlarged) ?_ fuel
  intro fuel fuel' around x ih special low low'
  obtain rfl : x = e + 1 := not_not.1 (special.resolve_right (not_not_intro rfl))
  change twin e (e + 1) ≤ fuel' at low'
  change Simulates _ _ _ (bindExpression t' (fuel' + 1) around (twin e (e + 1)))
  rw [twin_succ] at low' ⊢
  obtain ⟨fuel', rfl⟩ : ∃ k, fuel' = k + 1 := ⟨fuel' - 1, by omega⟩
  rw [bindExpression_property h, bindExpression_index h]
  have base := ih around low (show twin e e < fuel' + 1 by rw [twin_self]; omega)
  rwa [show (Correspondence.enlarged e (twin e)).place e = e from twin_self] at base

end Indexed

end Binder

theorem Bound.spares_indexed {a a' : Arena} {e : Nat} {name : String} (h : a.Indexed a' e name)
    (b : Bound) : b.Spares a e := by
  intro p child here
  obtain ⟨i, property, _⟩ := h.access.property
  have access : p = e + 1 := h.parent p (Arena.isChild_of_data here List.mem_cons_self)
  rw [access, property] at here
  cases here

end DeployCheck
