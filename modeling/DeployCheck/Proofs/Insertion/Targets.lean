import DeployCheck.Proofs.Binding.Targets
import DeployCheck.Proofs.Insertion.Binding

/-!
# Targets with a node more

What the shape of a node says about a target it says with a node more as well.
-/

set_option autoImplicit false

namespace DeployCheck

namespace Bound

section Enlarged

variable {a a' : Arena} {e : Nat} {place : Nat → Nat} {kept : Nat → Prop}
  (h : a.Enlarged a' e place kept) {b b' : Bound} (follows : b.Follows a a' e b')

include h

theorem literal?_twin (x : Nat) :
    (a'.data? (twin e x)).bind NodeData.literal? = (a.data? x).bind NodeData.literal? := by
  obtain ⟨here, there⟩ | ⟨_, _, _, here, there, _, paired⟩ | ⟨_, _, here, there, member, member'⟩ :=
    h.twin_cases x
  · rw [here, there]
  · rw [here, there]
    cases paired with
    | string below => cases below <;> rfl
    | _ => rfl
  · rw [here, there]
    cases member <;> cases member' <;> rfl

include follows

omit h in
theorem declared?_twin (spared : b.Spares a e) (collection : Bool) (x : Nat) :
    b'.declared? collection (twin e x) = b.declared? collection x := by
  rw [declared?, declared?, follows.names spared]
  refine Option.bind_congr fun id _ => ?_
  rw [follows.symbol?]
  cases b.symbol? id with
  | none => rfl
  | some symbol =>
    dsimp only [Option.map_some, Option.bind_eq_bind, Option.bind_some]
    rw [symbol.isResourceOrModule_mapped, symbol.isCollection_mapped]

theorem elementTarget?_twin (spared : b.Spares a e) (x : Nat) :
    b'.elementTarget? a' (twin e x) = b.elementTarget? a x := by
  rw [elementTarget?, elementTarget?]
  obtain ⟨here, there⟩ | ⟨_, _, _, here, there, _, paired⟩ | ⟨_, _, here, there, member, member'⟩ :=
    h.twin_cases x
  · rw [here, there]
    rfl
  · rw [here, there]
    cases paired with
    | ident same | resourceAccess moved same => exact declared?_twin follows spared true x
    | _ => rfl
  · rw [here, there]
    cases member <;> cases member' <;> rfl

theorem outputTarget?_twin (target : NodeId → Option SymbolId) {x : Nat} (keep : kept x)
    (name : String) : b'.outputTarget? a' target (twin e x) name =
      b.outputTarget? a (fun y => target (place y)) x name := by
  rw [outputTarget?, outputTarget?]
  cases here : a.data? x with
  | none => rw [h.twin_missing here]; rfl
  | some data =>
    obtain ⟨data', there, _, paired⟩ := h.twin_paired keep here
    rw [there]
    cases paired with
    | property moved same =>
      subst moved
      dsimp only [Option.bind_eq_bind, Option.bind_some]
      rw [same]
      refine Option.bind_congr fun _ _ => Option.bind_congr fun id _ => ?_
      rw [follows.symbol?]
      cases b.symbol? id with
      | none => rfl
      | some symbol =>
        dsimp only [Option.map_some, Option.bind_some]
        rw [symbol.isModule_mapped]
        exact Option.bind_congr fun _ _ => follows.member? (.module id) name
    | _ => rfl

end Enlarged

end Bound

end DeployCheck
