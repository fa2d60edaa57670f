import DeployCheck.Proofs.Insertion.Premises
import DeployCheck.Proofs.Parentheses.Targets

/-!
# Premises with an operand in parentheses

The rules for a program with an operand in parentheses have the same premises, with the
parentheses in the place of the operand.
-/

set_option autoImplicit false

namespace DeployCheck.Analysis

/-- The second program is the first one with an operand in parentheses, of which nothing
but the value is looked at. -/
structure Subject.Parenthesized (s s' : Subject) (p e : Nat) : Prop where
  arena : s.tree.arena.Parenthesized s'.tree.arena p e
  bound : s.bound.Follows s.tree.arena s'.tree.arena e s'.bound
  transparent : s.bound.Transparent s.tree.arena e
  near : s'.bound.Near s'.tree.arena
  catalog : s'.catalog = s.catalog

namespace Subject.Parenthesized

variable {s s' : Subject} {p e : Nat} (h : s.Parenthesized s' p e)

include h

theorem target?_twin (x : Nat) : s'.target? (twin e x) = s.target? x :=
  (Bound.target?_twin h.arena h.bound h.transparent h.near x).1

theorem target?_outer (x : Nat) : s'.target? (outer e x) = s.target? x :=
  (Bound.target?_twin h.arena h.bound h.transparent h.near x).2

theorem enlarged : s.Enlarged s' e (outer e) fun _ => True where
  arena := h.arena.enlarged
  bound := h.bound
  names := h.bound.names h.transparent.spared
  targets := h.target?_outer
  selectors x base index target _ here resolved := by
    by_cases quoted : index = e
    · rw [quoted] at here
      rw [quoted, outer_self, Bound.literal?_paren h.arena]
      cases literal : (s.tree.arena.data? e).bind NodeData.literal? with
      | none => rfl
      | some name => cases (h.transparent.selector x base name here literal).1.symm.trans resolved
    · rw [outer_of_ne quoted, Bound.literal?_twin h.arena.enlarged]
  catalog := h.catalog

end Subject.Parenthesized

end DeployCheck.Analysis
