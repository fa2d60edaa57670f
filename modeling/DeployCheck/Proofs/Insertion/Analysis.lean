import DeployCheck.Proofs.Analysis.Limit
import DeployCheck.Proofs.Insertion.Premises

/-!
# The analysis with a node more

The analysis of a program with a node more fills its tables in the same order. What it says
about the new node is up to the kind of the change.
-/

set_option autoImplicit false

namespace DeployCheck.Analysis

/-- The second tables hold what the first ones do, for a program with a node more behind `e`. What
they hold about the new node is related to what they hold about `e`. -/
structure Memo.Enlarged (e : Nat) (new : Option Bool → Option Bool → Prop) (memo memo' : Memo) :
    Prop where
  constants : ∀ x, memo'.constant? (twin e x) = memo.constant? x
  new : new (memo.constant? e) (memo'.constant? (e + 1))
  bodies : memo'.bodies = memo.bodies
  size : memo'.constants.size = memo.constants.size + 1
  inside : e < memo.constants.size

namespace Memo

variable {e : Nat} {new new' : Option Bool → Option Bool → Prop} {memo memo' : Memo}
  (h : memo.Enlarged e new memo')

include h

theorem Enlarged.mono (le : ∀ o o', new o o' → new' o o') : memo.Enlarged e new' memo' :=
  ⟨h.constants, le _ _ h.new, h.bodies, h.size, h.inside⟩

theorem Enlarged.body? (id : SymbolId) : memo'.body? id = memo.body? id := by
  rw [Memo.body?, Memo.body?, h.bodies]

theorem Enlarged.setConstant (x : Nat) (answer : Bool)
    (now : x = e → new (some answer) (memo'.constant? (e + 1))) :
    (memo.setConstant x answer).Enlarged e new (memo'.setConstant (twin e x) answer) := by
  have inside := h.inside
  have room : twin e x < memo'.constants.size ↔ x < memo.constants.size := by
    rw [h.size, twin]
    split <;> omega
  refine ⟨fun y => ?_, ?_, h.bodies, ?_, ?_⟩
  · simp only [constant?_setConstant, twin_inj, room, h.constants]
  · have other : (memo'.setConstant (twin e x) answer).constant? (e + 1) =
        memo'.constant? (e + 1) := by
      rw [constant?_setConstant, if_neg fun both => twin_ne e x both.1]
    rw [other, constant?_setConstant]
    by_cases same : x = e
    · rw [if_pos ⟨same, same ▸ inside⟩]
      exact now same
    · rw [if_neg fun both => same both.1]
      exact h.new
  · rw [size_setConstant, size_setConstant, h.size]
  · rwa [size_setConstant]

theorem Enlarged.setNew (answer : Bool) (now : new' (memo.constant? e) (some answer)) :
    memo.Enlarged e new' (memo'.setConstant (e + 1) answer) := by
  have inside := h.inside
  refine ⟨fun y => ?_, ?_, h.bodies, ?_, inside⟩
  · rw [constant?_setConstant, if_neg fun both => twin_ne e y both.1.symm]
    exact h.constants y
  · rw [constant?_setConstant, if_pos ⟨rfl, by rw [h.size]; omega⟩]
    exact now
  · rw [size_setConstant, h.size]

end Memo

section Enlarged

variable {s s' : Subject} {e : Nat} {place : Nat → Nat} {kept : Nat → Prop}
  {new : Option Bool → Option Bool → Prop} (h : s.Enlarged s' e place kept)

include h

theorem corresponding_enlarged (looked : ∀ {memo memo' : Memo}, memo.Enlarged e new memo' →
      ∀ x, memo'.constant? (place x) = memo.constant? x) :
    Corresponding s s' (twin e) place id id (Memo.Enlarged e new) Eq where
  symbols := h.bound.symbol?
  identity := h.premises_identity
  unknown t := by rw [h.catalog, id_eq]
  declared t := by rw [Subject.declaredType, Subject.declaredType, h.catalog, id_eq]
  module _ := rfl
  mark same _ := same ▸ rfl
  readable same _ := same ▸ rfl
  constant? := looked
  body? tables symbol := by
    rw [tables.body?]
    cases Memo.body? _ symbol with
    | none => exact .none
    | some body => exact .some rfl
  setBody tables body _ same symbol := by
    subst same
    exact ⟨tables.constants, tables.new, congrArg (·.setIfInBounds symbol (some body)) tables.bodies,
      tables.size, tables.inside⟩
  report tables _ _ := ⟨tables.constants, tables.new, tables.bodies, tables.size, tables.inside⟩

theorem start_enlarged (unknown : new none none) :
    (Memo.start s).Enlarged e new (Memo.start s') := by
  refine ⟨fun x => ?_, ?_, ?_, ?_, ?_⟩
  · rw [start_constant?, start_constant?]
  · rw [start_constant?, start_constant?]
    exact unknown
  · rw [Memo.start, Memo.start, h.bound.symbols, Array.size_map]
  · rw [Memo.start, Memo.start, Array.size_replicate, Array.size_replicate, h.arena.size]
  · rw [Memo.start, Array.size_replicate]
    exact h.arena.inside

end Enlarged

end DeployCheck.Analysis
