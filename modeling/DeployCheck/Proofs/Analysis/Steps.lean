import DeployCheck.Analysis.Bodies

/-!
# Steps of the analysis

What the analysis does about an expression depends on whether it is known, whether it is on
the path, and how long the path is.
-/

set_option autoImplicit false

namespace DeployCheck.Analysis

namespace Memo

theorem constant?_setConstant (memo : Memo) (x : Nat) (answer : Bool) (y : Nat) :
    (memo.setConstant x answer).constant? y =
      if x = y ∧ x < memo.constants.size then some answer else memo.constant? y := by
  rw [Memo.constant?, setConstant, Array.getElem?_setIfInBounds]
  by_cases same : x = y
  · subst same
    by_cases room : x < memo.constants.size
    · rw [if_pos rfl, if_pos room, if_pos ⟨rfl, room⟩]
      rfl
    · rw [if_pos rfl, if_neg room, if_neg (fun both => room both.2), Memo.constant?,
        Array.getElem?_eq_none (Nat.le_of_not_lt room)]
  · rw [if_neg same, if_neg fun both => same both.1]
    rfl

theorem size_setConstant (memo : Memo) (x : Nat) (answer : Bool) :
    (memo.setConstant x answer).constants.size = memo.constants.size := Array.size_setIfInBounds

end Memo

section Steps

variable {n : Type → Type} [Monad n] [LawfulMonad n] {limit : StateT Memo n Bool} {s : Subject}
  {memo : Memo} {fuel : Nat} {path : Path} {id : NodeId}

theorem constantUpTo_known {answer : Bool} (known : memo.constant? id = some answer) :
    (constantUpTo s limit (fuel + 1) path id).run memo = pure (answer, memo) := by
  rw [constantUpTo, constantStep, StateT.run_bind, StateT.run_get]
  simp only [pure_bind, known, StateT.run_pure]

theorem constantUpTo_again (unknown : memo.constant? id = none) (again : id ∈ path.nodes) :
    (constantUpTo s limit (fuel + 1) path id).run memo = pure (false, memo) := by
  rw [constantUpTo, constantStep, StateT.run_bind, StateT.run_get]
  simp only [pure_bind, unknown]
  rw [if_pos (by simp [again]), StateT.run_pure]

theorem constantUpTo_far (unknown : memo.constant? id = none) (fresh : id ∉ path.nodes)
    (far : depthLimit ≤ path.nodes.length) :
    (constantUpTo s limit (fuel + 1) path id).run memo = limit.run memo := by
  rw [constantUpTo, constantStep, StateT.run_bind, StateT.run_get]
  simp only [pure_bind, unknown]
  rw [if_neg (by simp [fresh]), if_pos far]

theorem constantUpTo_fresh (unknown : memo.constant? id = none) (fresh : id ∉ path.nodes)
    (room : path.nodes.length < depthLimit) :
    (constantUpTo s limit (fuel + 1) path id).run memo =
      (expressionIsConstant s (constantUpTo s limit fuel ⟨id :: path.nodes, path.symbols⟩)
        (bodyUpTo s limit fuel ⟨id :: path.nodes, path.symbols⟩) id).run memo >>= fun r =>
          pure (r.1, r.2.setConstant id r.1) := by
  rw [constantUpTo, constantStep, StateT.run_bind, StateT.run_get]
  simp only [pure_bind, unknown]
  rw [if_neg (by simp [fresh]), if_neg (Nat.not_le_of_gt room), StateT.run_bind]
  refine bind_congr fun r => ?_
  rw [StateT.run_bind]
  exact pure_bind ((), r.2.setConstant id r.1) _

theorem constantWithin_known {answer : Bool} (known : memo.constant? id = some answer) :
    (constantWithin s (fuel + 1) path id).run memo = (answer, memo) := constantUpTo_known known

theorem constantWithin_again (unknown : memo.constant? id = none) (again : id ∈ path.nodes) :
    (constantWithin s (fuel + 1) path id).run memo = (false, memo) := constantUpTo_again unknown again

theorem constantWithin_far (unknown : memo.constant? id = none)
    (far : depthLimit ≤ path.nodes.length) :
    (constantWithin s (fuel + 1) path id).run memo = (false, memo) := by
  by_cases again : id ∈ path.nodes
  · exact constantWithin_again unknown again
  · exact constantUpTo_far unknown again far

theorem constantWithin_fresh (unknown : memo.constant? id = none) (fresh : id ∉ path.nodes)
    (room : path.nodes.length < depthLimit) {answer : Bool} {after : Memo}
    (run : (expressionIsConstant s (constantWithin s fuel ⟨id :: path.nodes, path.symbols⟩)
      (bodyWithin s fuel ⟨id :: path.nodes, path.symbols⟩) id).run memo = (answer, after)) :
    (constantWithin s (fuel + 1) path id).run memo = (answer, after.setConstant id answer) := by
  refine (constantUpTo_fresh unknown fresh room).trans ?_
  exact congrArg (fun r : Bool × Memo => (r.1, r.2.setConstant id r.1)) run

end Steps

end DeployCheck.Analysis
