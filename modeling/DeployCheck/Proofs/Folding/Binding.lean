import DeployCheck.Binding.Target
import DeployCheck.Proofs.Binding.Simulation
import DeployCheck.Proofs.Folding.Lowering
import DeployCheck.Proofs.Tree.PostOrder
import Mathlib.Data.Option.Basic

/-!
# Binding folded programs

The binder compares names without regard to case, so it makes the same symbols for a
folded tree, up to the case of their types, and binds every node to the same symbol.
It reports the same rules at the same places.
-/

set_option autoImplicit false

namespace DeployCheck

abbrev Symbol.folded : Symbol → Symbol := Symbol.mapped id TypeReference.folded

theorem Symbol.folded_folded (s : Symbol) : s.folded.folded = s.folded := by
  obtain ⟨name, declaration, owner, kind⟩ := s
  cases owner <;> cases kind <;>
    simp only [mapped, Owner.mapped, SymbolKind.mapped, id_eq, TypeReference.folded_folded]

/-- The rule that a diagnostic is about, and where. -/
def Diagnostic.place (d : Diagnostic) : Nat × Nat × Nat := (d.code, d.start, d.length)

namespace Bound

structure Folds (b b' : Bound) : Prop where
  symbols : b'.symbols = b.symbols.map Symbol.folded
  names : b'.names = b.names
  declarations : b'.declarations = b.declarations
  places : b'.diagnostics.map Diagnostic.place = b.diagnostics.map Diagnostic.place

variable {b b' : Bound} (h : b.Folds b')
include h

theorem Folds.symbol? (id : SymbolId) : b'.symbol? id = (b.symbol? id).map Symbol.folded := by
  rw [Bound.symbol?, Bound.symbol?, h.symbols, Array.getElem?_map]

theorem Folds.nameSymbol? (node : NodeId) : b'.nameSymbol? node = b.nameSymbol? node := by
  rw [Bound.nameSymbol?, Bound.nameSymbol?, h.names]

theorem Folds.declarationSymbol? (node : NodeId) :
    b'.declarationSymbol? node = b.declarationSymbol? node := by
  rw [Bound.declarationSymbol?, Bound.declarationSymbol?, h.declarations]

theorem Folds.member? {owner : Owner} (fixed : owner.mapped id = owner) (name : String) :
    b'.member? owner (Name.key name) = b.member? owner name := by
  have found := member?_mapped h.symbols Function.injective_id owner
    ((Name.same_key_right name name).trans (Name.same_refl name))
  rwa [fixed] at found

theorem Folds.child? (parent : SymbolId) (name : String) :
    b'.child? parent (Name.key name) = b.child? parent name := h.member? rfl name

theorem Folds.moduleOutput? (module : SymbolId) (name : String) :
    b'.moduleOutput? module (Name.key name) = b.moduleOutput? module name := h.member? rfl name

end Bound

namespace Binder

def Correspondence.folded : Correspondence where
  node := id
  place := id
  type := TypeReference.folded
  text := Name.key
  declared i i' := i' = i
  used i i' := i' = i.folded

theorem Correspondence.folded_nodes (data : NodeData) : folded.Nodes data data.folded := by
  have place : ∀ xs : List Nat, xs.map folded.place = xs := List.map_id
  have children : data.folded.children = data.children.map folded.place :=
    data.children_folded.trans (place _).symm
  cases data with
  | program ds =>
    have node := Nodes.program (c := folded) ds
    rwa [place] at node
  | param name d =>
    have same : d.map folded.place = d := Option.map_id_apply
    have node := Nodes.param (c := folded) d (rfl : folded.declared name name)
    rwa [same] at node
  | var name x => exact .var x rfl
  | output name x => exact .output x rfl
  | resource name type existing x ds =>
    have node := Nodes.resource (c := folded) type existing x ds (rfl : folded.declared name name)
    rwa [place] at node
  | module name path x os =>
    refine .module path x rfl ?_
    rw [List.forall₂_map_right_iff]
    exact List.forall₂_same.2 fun _ _ => ⟨rfl, rfl⟩
  | ident name => exact .ident rfl
  | resourceAccess x name => exact .access x rfl
  | call name xs =>
    have node := Nodes.call (c := folded) xs (rfl : folded.used name name.folded)
    rwa [place] at node
  | loop item index x y => exact .loop x y rfl rfl
  | _ => exact .passive rfl rfl children

theorem simulates_report {t : Tree} {name name' : Identifier} (same : name'.span = name.span)
    (rule : Rule) : Simulates Bound.Folds Eq (report t name rule) (report t.folded name' rule) := by
  apply simulates_modify
  intro b b' h
  refine ⟨h.symbols, h.names, h.declarations, ?_⟩
  simp [h.places, Diagnostic.place, Diagnostic.ofRule, Diagnostic.atSpan, same, Tree.folded]

theorem simulates_bindOrReport {t : Tree} (node : NodeId) (name : Identifier)
    (symbol : Option SymbolId) : Simulates Bound.Folds Eq (bindOrReport t node name symbol)
      (bindOrReport t.folded node name.folded symbol) := by
  cases symbol with
  | some symbol =>
    exact simulates_modify fun _ _ h =>
      ⟨h.symbols, congrArg (·.setIfInBounds node (some symbol)) h.names, h.declarations, h.places⟩
  | none =>
    have span : name.folded.span = name.span := rfl
    exact simulates_report span .unknownName

section Folded

variable {t : Tree} (descends : ∀ q c, t.arena.IsChild q c → c < q)

include descends

theorem corresponds_folded : Corresponds .folded (fun _ => True) t t.folded where
  inj := Function.injective_id
  nodes x data _ here := by
    refine ⟨data.folded, ?_, Correspondence.folded_nodes data⟩
    show t.arena.folded.data? x = _
    rw [Arena.data?_folded, here]
    rfl
  others _ _ lost _ := absurd trivial lost
  stays _ _ _ _ _ _ := rfl
  less x data _ here y child :=
    have less := descends x y (Arena.isChild_of_data here child)
    ⟨less, less⟩
  declared _ _ same := congrArg Identifier.name same.symm
  used i i' same := by
    obtain rfl : i' = i.folded := same
    exact (Name.same_key_right i.name i.name).trans (Name.same_refl i.name)
  typed text around := TypeReference.ofText_key text around

theorem simulation_folded :
    Simulation .folded (fun _ => True) t t.folded Bound.Folds where
  toCorresponds := corresponds_folded descends
  symbols states := states.symbols
  declarations states := states.declarationSymbol?
  push states s := ⟨by simp [states.symbols, Correspondence.folded], states.names,
    states.declarations, states.places⟩
  report {i i'} same rule := by
    have span : i'.span = i.span := by
      obtain rfl | rfl := same <;> rfl
    exact simulates_report span rule
  bindDeclared x _ symbol := by
    apply simulates_modify
    intro b b' states
    exact ⟨states.symbols, states.names,
      congrArg (·.setIfInBounds x (some symbol)) states.declarations, states.places⟩
  bindIdent _ same _ _ agree := by
    apply simulates_get
    intro b b' states
    rw [agree b b' states, show _ = _ from same]
    exact simulates_bindOrReport _ _ _
  bindAccess {x y i _} _ _ same := by
    obtain rfl := same
    apply simulates_get
    intro b b' states
    have child : (b'.child? · i.folded.name) = (b.child? · i.name) :=
      funext fun symbol => states.child? symbol i.name
    show Simulates _ _ (bindOrReport t x i _)
      (bindOrReport t.folded x i.folded ((b'.nameSymbol? y).bind _))
    rw [child, states.nameSymbol?]
    exact simulates_bindOrReport _ _ _

end Folded

end Binder

theorem Bound.ofTree_folded {t : Tree} {b : Bound}
    (descends : ∀ q c, t.arena.IsChild q c → c < q) (bound : Bound.ofTree t = .ok b) :
    ∃ b', Bound.ofTree t.folded = .ok b' ∧ b.Folds b' := by
  have size : t.folded.arena.size = t.arena.size := t.arena.size_folded
  have start : (Bound.start t.arena.size).Folds (.start t.folded.arena.size) := by
    rw [size]
    exact ⟨Array.map_empty.symm, rfl, rfl, rfl⟩
  have regular := Binder.simulates_expressions (Binder.simulation_folded descends) 
    fun _ _ _ _ _ special => (special.elim (· trivial) (· rfl)).elim
  exact ofTree_simulated (Binder.simulation_folded descends) regular rfl start bound

theorem NodeData.literal?_folded (d : NodeData) : d.folded.literal? = d.literal?.map Name.key := by
  cases d with
  | string segments holes =>
    cases holes with
    | nil => exact List.head?_map
    | cons hole rest => rfl
  | _ => rfl

theorem Arena.literal?_folded (a : Arena) (node : NodeId) :
    (a.folded.data? node).bind NodeData.literal? =
      ((a.data? node).bind NodeData.literal?).map Name.key := by
  rw [a.data?_folded]
  cases a.data? node with
  | none => rfl
  | some data => exact data.literal?_folded

namespace Bound

variable {b b' : Bound} (h : b.Folds b') (a : Arena)
include h

theorem Folds.bind_symbol? {β : Type} (id : SymbolId) (read : Symbol → Option β) :
    (b'.symbol? id).bind read = (b.symbol? id).bind fun symbol => read symbol.folded := by
  rw [h.symbol?, Option.bind_map]
  rfl

theorem Folds.declared? (collection : Bool) (node : NodeId) :
    b'.declared? collection node = b.declared? collection node := by
  simp [Bound.declared?, h.nameSymbol?, h.bind_symbol?, Symbol.isResourceOrModule_mapped,
    Symbol.isCollection_mapped]

theorem Folds.outputTarget? (target : NodeId → Option SymbolId) (outputs : NodeId) (name : String) :
    b'.outputTarget? a.folded target outputs (Name.key name) =
      b.outputTarget? a target outputs name := by
  rw [Bound.outputTarget?, Bound.outputTarget?, a.data?_folded]
  cases a.data? outputs with
  | none => rfl
  | some data =>
    cases data with
    | property base read =>
      simp [NodeData.folded, Identifier.folded, Name.same_key_left, h.bind_symbol?,
        Symbol.isModule_mapped, h.moduleOutput?]
    | _ => rfl

theorem Folds.elementTarget? (base : NodeId) :
    b'.elementTarget? a.folded base = b.elementTarget? a base := by
  rw [Bound.elementTarget?, Bound.elementTarget?, a.data?_folded]
  cases a.data? base with
  | none => rfl
  | some data =>
    cases data with
    | ident name => exact h.declared? true base
    | resourceAccess inner name => exact h.declared? true base
    | _ => rfl

theorem Folds.targetWithin (steps : Nat) (node : NodeId) :
    b'.targetWithin a.folded steps node = b.targetWithin a steps node := by
  induction steps generalizing node with
  | zero => rfl
  | succ steps ih =>
    have within : b'.targetWithin a.folded steps = b.targetWithin a steps := funext ih
    rw [Bound.targetWithin, Bound.targetWithin, within, a.data?_folded]
    cases a.data? node with
    | none => rfl
    | some data =>
      cases data with
      | paren inner => rfl
      | ident name => exact h.declared? false node
      | resourceAccess base name => exact h.declared? false node
      | property base name => exact h.outputTarget? a _ base name.name
      | index base selector =>
        have output := funext fun name => h.outputTarget? a (b.targetWithin a steps) base name
        show (((a.folded.data? selector).bind NodeData.literal?).bind _).or
          (b'.elementTarget? a.folded base) = _
        rw [a.literal?_folded, Option.bind_map, Function.comp_def, output, h.elementTarget?]
        rfl
      | _ => rfl

theorem Folds.target? (node : NodeId) : b'.target? a.folded node = b.target? a node :=
  h.targetWithin a targetLimit node

end Bound

end DeployCheck
