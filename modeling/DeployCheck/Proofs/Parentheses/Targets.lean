import DeployCheck.Proofs.Insertion.Targets
import DeployCheck.Proofs.Parentheses.Binding

/-!
# Targets of operands in parentheses

Following an expression to its target looks through parentheses, but the base of an
element, of `outputs` and of a `::` node is matched as it stands, and so is the index
that names an output. Where none of these is the operand in question, every expression
denotes the same, given that the number of steps suffices.
-/

set_option autoImplicit false

namespace DeployCheck

namespace Bound

/-- An operand of which only the value is looked at. It is not the base of a `::` node that
is bound or of an access that denotes a declaration itself, and not a string that selects
a property of a declaration or an output of a module. -/
structure Transparent (b : Bound) (a : Arena) (e : Nat) : Prop where
  spared : b.Spares a e
  base : ∀ p name, a.data? p = some (.property e name) → b.target? a p = none
  element : ∀ p index, a.data? p = some (.index e index) → b.target? a p = none
  selector : ∀ p base name, a.data? p = some (.index base e) →
    (a.data? e).bind NodeData.literal? = some name →
      b.target? a base = none ∧ b.outputTarget? a (b.target? a) base name = none

section Shapes

variable {a a' : Arena} {p e : Nat} (h : a.Parenthesized a' p e) {b' : Bound}

include h

theorem literal?_paren : (a'.data? (e + 1)).bind NodeData.literal? = none := by
  rw [h.paren]
  rfl

theorem outputTarget?_paren (target : NodeId → Option SymbolId) (name : String) :
    b'.outputTarget? a' target (e + 1) name = none := by
  rw [outputTarget?, h.paren]
  rfl

theorem elementTarget?_paren : b'.elementTarget? a' (e + 1) = none := by
  rw [elementTarget?, h.paren]
  rfl

end Shapes

theorem transparent_of_property {b : Bound} {a a' : Arena} {p e : Nat}
    (h : a.Parenthesized a' p e) {name : Identifier} (here : a.data? p = some (.property e name))
    (plain : b.target? a p = none) : b.Transparent a e := by
  have access : ∀ {q : Nat} {data : NodeData}, a.data? q = some data → e ∈ data.children →
      q = p ∧ data = .property e name := by
    intro q data there child
    obtain rfl := h.parent q (Arena.isChild_of_data there child)
    rw [here] at there
    exact ⟨rfl, (Option.some.inj there).symm⟩
  refine ⟨fun q n there => ?_, fun q n there => ?_, fun q n there => ?_, fun q base n there _ => ?_⟩
  · cases (access there List.mem_cons_self).2
  · rw [(access there List.mem_cons_self).1]
    exact plain
  · cases (access there List.mem_cons_self).2
  · cases (access there (List.mem_cons_of_mem _ List.mem_cons_self)).2

section Expressions

variable {a a' : Arena} {p e : Nat} (h : a.Parenthesized a' p e) {b b' : Bound}
  (follows : b.Follows a a' e b')

include h follows

theorem targetWithin_outer (spared : b.Spares a e) (steps : Nat) {x : Nat} {t : SymbolId}
    (found : b'.targetWithin a' steps (twin e x) = some t ∨
      b'.targetWithin a' steps (outer e x) = some t) : b.targetWithin a steps x = some t := by
  induction steps generalizing x t with
  | zero => rcases found with found | found <;> cases found
  | succ steps ih =>
    -- In front of its parentheses an operand is one step further away.
    have twins : b'.targetWithin a' (steps + 1) (twin e x) = some t := by
      rcases found with found | found
      · exact found
      · by_cases wrapped : x = e
        · rw [wrapped, outer_self, targetWithin, h.paren] at found
          rw [wrapped, twin_self]
          exact targetWithin_succ found
        · rwa [outer_of_ne wrapped] at found
    clear found
    cases here : a.data? x with
    | none =>
      rw [targetWithin, h.twin_missing here] at twins
      cases twins
    | some data =>
      obtain ⟨data', there, _, paired⟩ := h.twin_paired here
      cases paired with
      | paren moved =>
        subst moved
        rw [targetWithin, there] at twins
        rw [targetWithin, here]
        exact ih (.inr twins)
      | ident same | resourceAccess moved same =>
        rw [targetWithin, there] at twins
        rw [targetWithin, here]
        exact (declared?_twin follows spared false x).symm.trans twins
      | @property name name' base _ moved same =>
        subst moved
        rw [targetWithin, there] at twins
        rw [targetWithin, here]
        by_cases wrapped : base = e
        · rw [wrapped, outer_self] at twins
          cases (outputTarget?_paren h _ name'.name).symm.trans twins
        · rw [outer_of_ne wrapped] at twins
          have output :=
            (outputTarget?_twin h.enlarged follows _ (x := base) trivial name'.name).symm.trans twins
          rw [← same] at output
          exact outputTarget?_mono (fun _ _ _ further => ih (.inr further)) output
      | @index base _ index _ moved moved' =>
        subst moved moved'
        rw [targetWithin_index there] at twins
        rw [targetWithin_index here]
        by_cases wrapped : base = e
        · rw [wrapped, outer_self] at twins
          rcases twins with ⟨name, _, output⟩ | element
          · cases (outputTarget?_paren h _ name).symm.trans output
          · cases (elementTarget?_paren h).symm.trans element
        rw [outer_of_ne wrapped] at twins
        rcases twins with ⟨name, literal, output⟩ | element
        · rw [outputTarget?_twin h.enlarged follows _ trivial] at output
          refine .inl ⟨name, ?_, outputTarget?_mono (fun _ _ _ further => ih (.inr further)) output⟩
          by_cases quoted : index = e
          · rw [quoted, outer_self, literal?_paren h] at literal
            cases literal
          · rwa [outer_of_ne quoted, literal?_twin h.enlarged] at literal
        · rw [elementTarget?_twin h.enlarged follows spared] at element
          exact .inr element
      | _ =>
        rw [targetWithin, there] at twins
        cases twins

omit follows in
theorem targetWithin_place {steps : Nat} {x : Nat} {t : SymbolId}
    (found : b'.targetWithin a' steps (twin e x) = some t) :
    b'.targetWithin a' (steps + 1) (outer e x) = some t := by
  by_cases wrapped : x = e
  · rw [wrapped, twin_self] at found
    rwa [wrapped, outer_self, targetWithin, h.paren]
  · rw [outer_of_ne wrapped]
    exact targetWithin_succ found

theorem targetWithin_twin (transparent : b.Transparent a e) (steps : Nat) (le : steps ≤ targetLimit)
    {x : Nat} {t : SymbolId} (found : b.targetWithin a steps x = some t) :
    b'.targetWithin a' (2 * steps) (twin e x) = some t := by
  have reaches : b.target? a x = some t := targetWithin_mono le found
  induction steps generalizing x t with
  | zero => cases found
  | succ steps ih =>
    have less : steps ≤ targetLimit := Nat.le_of_succ_le le
    -- What stands in the place of a node is one step further away than its twin.
    have further : ∀ y t, b.targetWithin a steps y = some t →
        b'.targetWithin a' (2 * steps + 1) (outer e y) = some t := fun y t inner =>
      targetWithin_place h (ih less inner (targetWithin_mono less inner))
    show b'.targetWithin a' (2 * steps + 1 + 1) (twin e x) = some t
    cases here : a.data? x with
    | none =>
      rw [targetWithin, here] at found
      cases found
    | some data =>
      obtain ⟨data', there, _, paired⟩ := h.twin_paired here
      cases paired with
      | paren moved =>
        subst moved
        rw [targetWithin, here] at found
        rw [targetWithin, there]
        exact further _ _ found
      | ident same | resourceAccess moved same =>
        rw [targetWithin, here] at found
        rw [targetWithin, there]
        exact (declared?_twin follows transparent.spared false x).trans found
      | @property name name' base _ moved same =>
        subst moved
        have other : base ≠ e := by
          intro wrapped
          rw [wrapped] at here
          cases (transparent.base x name here).symm.trans reaches
        rw [targetWithin, here] at found
        rw [targetWithin, there, outer_of_ne other]
        show b'.outputTarget? a' _ _ name'.name = some t
        rw [outputTarget?_twin h.enlarged follows _ trivial, ← same]
        exact outputTarget?_mono (fun y t _ => further y t) found
      | @index base _ index _ moved moved' =>
        subst moved moved'
        have other : base ≠ e := by
          intro wrapped
          rw [wrapped] at here
          cases (transparent.element x index here).symm.trans reaches
        rw [targetWithin_index here] at found
        rw [targetWithin_index there, outer_of_ne other]
        rcases found with ⟨name, literal, output⟩ | element
        · have plain : index ≠ e := by
            intro quoted
            rw [quoted] at here literal
            have missing := (transparent.selector x base name here literal).2
            have output := outputTarget?_mono (fun _ _ _ => targetWithin_mono less) output
            cases missing.symm.trans output
          refine .inl ⟨name, ?_, ?_⟩
          · rwa [outer_of_ne plain, literal?_twin h.enlarged]
          · rw [outputTarget?_twin h.enlarged follows _ trivial]
            exact outputTarget?_mono (fun y t _ => further y t) output
        · rw [elementTarget?_twin h.enlarged follows transparent.spared]
          exact .inr element
      | _ =>
        rw [targetWithin, here] at found
        cases found

theorem target?_twin (transparent : b.Transparent a e) (near : b'.Near a') (x : Nat) :
    b'.target? a' (twin e x) = b.target? a x ∧ b'.target? a' (outer e x) = b.target? a x := by
  have back := fun t => targetWithin_outer h follows transparent.spared targetLimit (x := x) (t := t)
  have forth := fun t => targetWithin_twin h follows transparent targetLimit (Nat.le_refl _)
    (x := x) (t := t)
  constructor
  · ext t
    exact ⟨fun found => back t (.inl found), fun found => near _ _ t (forth t found)⟩
  · ext t
    exact ⟨fun found => back t (.inr found),
      fun found => near _ _ t (targetWithin_place h (forth t found))⟩

end Expressions

end Bound

end DeployCheck
