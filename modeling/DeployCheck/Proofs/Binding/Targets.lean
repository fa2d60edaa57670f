import DeployCheck.Binding.Target
import DeployCheck.Proofs.Tree.Pairing
import DeployCheck.Proofs.Tree.PostOrder

/-!
# Steps to a target

More steps lead to no other target, and as many as the number of an expression are enough
for it.
-/

set_option autoImplicit false

namespace DeployCheck

namespace Bound

def Near (b : Bound) (a : Arena) : Prop :=
  ∀ steps x t, b.targetWithin a steps x = some t → b.target? a x = some t

section Steps

variable {b : Bound} {a : Arena} {target target' : NodeId → Option SymbolId} {x : NodeId}
  {name : String} {t : SymbolId}

theorem outputTarget?_eq_some : b.outputTarget? a target x name = some t ↔
    ∃ base property id symbol, a.data? x = some (.property base property) ∧
      Name.same property.name ObjectType.outputsProperty = true ∧ target base = some id ∧
      b.symbol? id = some symbol ∧ symbol.isModule = true ∧ b.moduleOutput? id name = some t := by
  rw [outputTarget?]
  cases a.data? x with
  | none =>
    constructor
    · intro h
      cases h
    · rintro ⟨_, _, _, _, here, _⟩
      cases here
  | some data =>
    cases data with
    | property base property =>
      constructor
      · intro h
        obtain ⟨same, h⟩ := guard_bind_eq_some.1 h
        obtain ⟨id, found, h⟩ := Option.bind_eq_some_iff.1 h
        obtain ⟨symbol, known, h⟩ := Option.bind_eq_some_iff.1 h
        obtain ⟨module, output⟩ := guard_bind_eq_some.1 h
        exact ⟨base, property, id, symbol, rfl, same, found, known, module, output⟩
      · rintro ⟨_, _, id, symbol, here, same, found, known, module, output⟩
        cases here
        refine guard_bind_eq_some.2 ⟨same, Option.bind_eq_some_iff.2 ⟨id, found, ?_⟩⟩
        exact Option.bind_eq_some_iff.2
          ⟨symbol, known, guard_bind_eq_some.2 ⟨module, output⟩⟩
    | _ =>
      constructor
      · intro h
        cases h
      · rintro ⟨_, _, _, _, here, _⟩
        cases here

theorem outputTarget?_mono (more : ∀ y t, a.IsChild x y → target y = some t → target' y = some t)
    (h : b.outputTarget? a target x name = some t) : b.outputTarget? a target' x name = some t := by
  obtain ⟨base, property, id, symbol, here, same, found, rest⟩ := outputTarget?_eq_some.1 h
  have child : a.IsChild x base := Arena.isChild_of_data here List.mem_cons_self
  exact outputTarget?_eq_some.2
    ⟨base, property, id, symbol, here, same, more base id child found, rest⟩

theorem outputTarget?_congr (same : ∀ y, a.IsChild x y → target y = target' y) :
    b.outputTarget? a target x name = b.outputTarget? a target' x name := by
  ext t
  exact ⟨outputTarget?_mono fun y _ child found => (same y child).symm.trans found,
    outputTarget?_mono fun y _ child found => (same y child).trans found⟩

theorem outputTarget?_of_element (h : b.elementTarget? a x = some t) :
    b.outputTarget? a target x name = none := by
  rw [elementTarget?] at h
  rw [outputTarget?]
  cases here : a.data? x with
  | none => rfl
  | some data =>
    rw [here] at h
    cases data with
    | property base property => cases h
    | _ => rfl

theorem targetWithin_index {base index : NodeId} {steps : Nat}
    (here : a.data? x = some (.index base index)) : b.targetWithin a (steps + 1) x = some t ↔
      (∃ name, (a.data? index).bind NodeData.literal? = some name ∧
        b.outputTarget? a (b.targetWithin a steps) base name = some t) ∨
      b.elementTarget? a base = some t := by
  rw [targetWithin, here]
  show (((a.data? index).bind NodeData.literal?).bind _).or _ = some t ↔ _
  rw [Option.or_eq_some_iff, Option.bind_eq_some_iff]
  constructor
  · rintro (output | ⟨_, element⟩)
    · exact .inl output
    · exact .inr element
  · rintro (output | element)
    · exact .inl output
    · refine .inr ⟨?_, element⟩
      cases (a.data? index).bind NodeData.literal? with
      | none => rfl
      | some name => exact outputTarget?_of_element element

theorem targetWithin_succ {steps : Nat} (h : b.targetWithin a steps x = some t) :
    b.targetWithin a (steps + 1) x = some t := by
  induction steps generalizing x t with
  | zero => cases h
  | succ steps ih =>
    cases here : a.data? x with
    | none =>
      rw [targetWithin, here] at h
      cases h
    | some data =>
      cases data with
      | index base index =>
        rw [targetWithin_index here] at h ⊢
        rcases h with ⟨name, literal, output⟩ | element
        · exact .inl ⟨name, literal, outputTarget?_mono (fun _ _ _ => ih) output⟩
        · exact .inr element
      | paren inner =>
        rw [targetWithin, here] at h ⊢
        exact ih h
      | property base name =>
        rw [targetWithin, here] at h ⊢
        exact outputTarget?_mono (fun _ _ _ => ih) h
      | _ =>
        rw [targetWithin, here] at h ⊢
        exact h

theorem targetWithin_mono {steps steps' : Nat} (le : steps ≤ steps')
    (h : b.targetWithin a steps x = some t) : b.targetWithin a steps' x = some t := by
  induction le with
  | refl => exact h
  | step _ ih => exact targetWithin_succ ih

theorem targetWithin_number (descends : ∀ q c, a.IsChild q c → c < q) {steps : Nat}
    (h : b.targetWithin a steps x = some t) : b.targetWithin a (x + 1) x = some t := by
  induction steps generalizing x t with
  | zero => cases h
  | succ steps ih =>
    cases here : a.data? x with
    | none =>
      rw [targetWithin, here] at h
      cases h
    | some data =>
      have nearer : ∀ c ∈ data.children, ∀ t, b.targetWithin a steps c = some t →
          b.targetWithin a x c = some t := by
        intro c child t found
        have less := descends x c (Arena.isChild_of_data here child)
        exact targetWithin_mono less (ih found)
      have output : ∀ base ∈ data.children, ∀ name t,
          b.outputTarget? a (b.targetWithin a steps) base name = some t →
          b.outputTarget? a (b.targetWithin a x) base name = some t := by
        intro base child name t found
        have less := descends x base (Arena.isChild_of_data here child)
        refine outputTarget?_mono (fun y t inner found => ?_) found
        have less' := descends base y inner
        exact targetWithin_mono (Nat.le_of_lt (Nat.lt_of_le_of_lt less' less)) (ih found)
      cases data with
      | index base index =>
        rw [targetWithin_index here] at h ⊢
        rcases h with ⟨name, literal, found⟩ | element
        · exact .inl ⟨name, literal, output base List.mem_cons_self name t found⟩
        · exact .inr element
      | paren inner =>
        rw [targetWithin, here] at h ⊢
        exact nearer inner List.mem_cons_self t h
      | property base name =>
        rw [targetWithin, here] at h ⊢
        exact output base List.mem_cons_self name.name t h
      | _ =>
        rw [targetWithin, here] at h ⊢
        exact h

theorem near_of_size (descends : ∀ q c, a.IsChild q c → c < q) (small : a.size ≤ targetLimit) :
    b.Near a := by
  intro steps x t found
  have inside : x < a.size := by
    cases here : a.data? x with
    | some data => exact Arena.data?_lt here
    | none =>
      cases steps with
      | zero => cases found
      | succ steps =>
        rw [targetWithin, here] at found
        cases found
  exact targetWithin_mono (Nat.le_trans inside small) (targetWithin_number descends found)

end Steps

end Bound

end DeployCheck
