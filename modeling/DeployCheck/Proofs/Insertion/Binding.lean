import DeployCheck.Proofs.Binding.Simulation
import DeployCheck.Proofs.Insertion.Layout

/-!
# Binding with a node more

The binder takes the same steps for a program that has one node more, and makes the same
symbols in the same order. It binds the same nodes to them unless the new node is the base
of a `::` node that was bound: such a node loses its symbol.
-/

set_option autoImplicit false

namespace DeployCheck

abbrev SymbolKind.moved (e : Nat) : SymbolKind → SymbolKind := SymbolKind.mapped (twin e) id

abbrev Symbol.moved (e : Nat) : Symbol → Symbol := Symbol.mapped (twin e) id

theorem join_setIfInBounds {α : Type} (marks : Array (Option α)) {i : Nat} (inside : i < marks.size)
    (mark : α) (j : Nat) : ((marks.setIfInBounds i (some mark))[j]?).join =
      if i = j then some mark else (marks[j]?).join := by
  rw [Array.getElem?_setIfInBounds]
  by_cases same : i = j
  · rw [if_pos same, if_pos same, if_pos inside]
    rfl
  · rw [if_neg same, if_neg same]

namespace Bound

/-- No `::` node whose base is `e` is bound. -/
def Spares (a : Arena) (e : Nat) (b : Bound) : Prop :=
  ∀ p name, a.data? p = some (.resourceAccess e name) → b.nameSymbol? p = none

/-- The second state is what the first one is with a node more behind `e`. -/
structure Follows (a a' : Arena) (e : Nat) (b b' : Bound) : Prop where
  symbols : b'.symbols = b.symbols.map (Symbol.moved e)
  declarations : ∀ x, b'.declarationSymbol? (twin e x) = b.declarationSymbol? x
  names : b.Spares a e → ∀ x, b'.nameSymbol? (twin e x) = b.nameSymbol? x
  nameless : b'.nameSymbol? (e + 1) = none
  room : b.names.size = a.size ∧ b.declarations.size = a.size
  room' : b'.names.size = a'.size ∧ b'.declarations.size = a'.size

theorem Follows.symbol? {a a' : Arena} {e : Nat} {b b' : Bound} (h : b.Follows a a' e b')
    (id : SymbolId) : b'.symbol? id = (b.symbol? id).map (Symbol.moved e) :=
  symbol?_mapped h.symbols id

theorem Follows.member? {a a' : Arena} {e : Nat} {b b' : Bound} (h : b.Follows a a' e b')
    (owner : Owner) (name : String) :
    b'.member? (owner.mapped (twin e)) name = b.member? owner name :=
  member?_mapped h.symbols (fun _ _ => twin_inj.1) owner (Name.same_refl name)

end Bound

namespace Binder

def Correspondence.enlarged (e : Nat) (place : Nat → Nat) : Correspondence where
  node := twin e
  place := place
  type := id
  text := id
  declared i i' := i.name = i'.name
  used i i' := i.name = i'.name

theorem Correspondence.enlarged_nodes {e : Nat} {place : Nat → Nat} {data data' : NodeData}
    (paired : NodeData.Paired (fun c c' => c' = place c) data data')
    (children : data'.children = data.children.map place) :
    (enlarged e place).Nodes data data' := by
  cases paired with
  | program =>
    obtain rfl := children
    exact .program _
  | @param name name' d d' same =>
    have moved : d' = d.map place := by
      cases d <;> cases d' <;> cases children <;> rfl
    exact moved ▸ .param d same
  | var same below => exact below ▸ .var _ same
  | output same below => exact below ▸ .output _ same
  | @resource name name' type existing x x' ds ds' same =>
    injection children with body nested
    obtain rfl : x' = place x := body
    obtain rfl : ds' = ds.map place := nested
    exact .resource type existing x ds same
  | @module name name' path x x' os os' same body outputs =>
    subst body
    refine .module path x same ?_
    have whole := (List.forall₂_eq_eq_eq (α := String × Option String)).symm ▸ outputs
    rw [List.forall₂_map_left_iff, List.forall₂_map_right_iff] at whole
    refine paired_imp whole fun o _ o' both => ?_
    obtain ⟨name, type⟩ := Prod.mk.inj both
    exact ⟨name, type.symm.trans Option.map_id_apply.symm⟩
  | ident same => exact .ident same
  | resourceAccess base same => exact base ▸ .access _ same
  | call same =>
    obtain rfl := children
    exact .call _ same
  | loop same sameIndex source body =>
    subst source body
    exact .loop _ _ same sameIndex
  | _ => exact .passive rfl rfl children

theorem marks_bindOrReport {t : Tree} {x : Nat} {name : Identifier} {symbol : Option SymbolId}
    {b c : Bound} {u : Unit} (inside : x < b.names.size) (run : Runs (bindOrReport t x name symbol) b u c) :
    c.symbols = b.symbols ∧ c.declarations = b.declarations ∧ c.names.size = b.names.size ∧
      ∀ y, c.nameSymbol? y = (if x = y then symbol else none).or (b.nameSymbol? y) := by
  cases symbol with
  | none =>
    obtain rfl := runs_modify.1 run
    refine ⟨rfl, rfl, rfl, fun y => ?_⟩
    rw [ite_self, Option.none_or]
    rfl
  | some symbol =>
    obtain rfl := runs_modify.1 run
    refine ⟨rfl, rfl, Array.size_setIfInBounds, fun y => ?_⟩
    show ((b.names.setIfInBounds x _)[y]?).join = _
    rw [join_setIfInBounds _ inside]
    by_cases same : x = y
    · rw [if_pos same, if_pos same, Option.some_or]
    · rw [if_neg same, if_neg same, Option.none_or]
      rfl

section Enlarged

variable {t t' : Tree} {e : Nat} {place : Nat → Nat} {kept : Nat → Prop}
  (h : t.arena.Enlarged t'.arena e place kept)
include h

theorem corresponds_enlarged : Corresponds (.enlarged e place) kept t t' where
  inj _ _ := twin_inj.1
  nodes x data keep here := by
    obtain ⟨data', there, children, paired⟩ := h.twin_paired keep here
    exact ⟨data', there, Correspondence.enlarged_nodes paired children⟩
  others x data lost here := by
    obtain ⟨member, data', there, member'⟩ := h.twin_member lost here
    exact ⟨by cases member <;> rfl, data', there, by cases member' <;> rfl⟩
  stays x data here declaration := by
    have none : data.operandCount = 0 := by
      cases data <;> first | rfl | cases declaration
    exact h.stays (h.keeps here none) here none
  less x data keep here _ child := h.place_lt_twin keep here child
  declared _ _ same := same
  used i i' same := by
    rw [show i.name = i'.name from same]
    exact Name.same_refl i'.name
  typed text around := congrArg (TypeReference.ofText text) Option.map_id_apply

theorem follows_bindDeclared {x : Nat} (inside : x < t.arena.size) (symbol : SymbolId) :
    Simulates (Bound.Follows t.arena t'.arena e) Eq (bindDeclared x symbol)
      (bindDeclared (twin e x) symbol) := by
  apply simulates_modify
  intro b b' before
  refine ⟨before.symbols, fun y => ?_, before.names, before.nameless, ?_, ?_⟩
  · have room : x < b.declarations.size := before.room.2 ▸ inside
    have room' : twin e x < b'.declarations.size := before.room'.2 ▸ h.twin_lt inside
    show ((b'.declarations.setIfInBounds (twin e x) _)[twin e y]?).join =
      ((b.declarations.setIfInBounds x _)[y]?).join
    rw [join_setIfInBounds _ room, join_setIfInBounds _ room']
    simp only [twin_inj]
    exact congrArg _ (before.declarations y)
  · exact ⟨before.room.1, Array.size_setIfInBounds.trans before.room.2⟩
  · exact ⟨before.room'.1, Array.size_setIfInBounds.trans before.room'.2⟩

theorem follows_bindOrReport {x : Nat} (inside : x < t.arena.size) (name name' : Identifier)
    {found found' : Bound → Option SymbolId}
    (agree : ∀ b b', b.Follows t.arena t'.arena e b' → b.Spares t.arena e → found' b' = found b ∨
      found b ≠ none ∧ ∃ child, t.arena.data? x = some (.resourceAccess e child)) :
    Simulates (Bound.Follows t.arena t'.arena e) Eq (get >>= fun b => bindOrReport t x name (found b))
      (get >>= fun b' => bindOrReport t' (twin e x) name' (found' b')) := by
  intro b b' u c before run
  obtain ⟨_, _, got, run⟩ := runs_bind.1 run
  obtain ⟨same, same'⟩ := runs_get.1 got
  rw [same, same'] at run
  have room : x < b.names.size := before.room.1 ▸ inside
  have room' : twin e x < b'.names.size := before.room'.1 ▸ h.twin_lt inside
  have works : ∃ c', Runs (bindOrReport t' (twin e x) name' (found' b')) b' u c' := by
    cases found' b' with
    | none => exact ⟨_, runs_modify.2 rfl⟩
    | some id => exact ⟨_, runs_modify.2 rfl⟩
  obtain ⟨c', run'⟩ := works
  obtain ⟨symbols, declarations, width, names⟩ := marks_bindOrReport room run
  obtain ⟨symbols', declarations', width', names'⟩ := marks_bindOrReport room' run'
  refine ⟨u, c', rfl, runs_bind.2 ⟨b', b', runs_get.2 ⟨rfl, rfl⟩, run'⟩, ?_, fun y => ?_,
    fun spared y => ?_, ?_, ?_, ?_⟩
  · rw [symbols', symbols, before.symbols]
  · rw [Bound.declarationSymbol?, Bound.declarationSymbol?, declarations', declarations]
    exact before.declarations y
  -- Nothing gets unbound, so what is spared in the end was spared before.
  · have earlier : b.Spares t.arena e := by
      intro q child here
      have lost := spared q child here
      rw [names, Option.or_eq_none_iff] at lost
      exact lost.2
    rw [names, names', before.names earlier]
    simp only [twin_inj]
    rcases agree b b' before earlier with same | ⟨bound, child, here⟩
    · rw [same]
    · have lost := spared x child here
      rw [names, if_pos rfl, Option.or_eq_none_iff] at lost
      exact absurd lost.1 bound
  · rw [names', if_neg (twin_ne e x), Option.none_or, before.nameless]
  · rw [width, declarations]
    exact before.room
  · rw [width', declarations']
    exact before.room'

theorem simulation_enlarged : Simulation (.enlarged e place) kept t t'
    (Bound.Follows t.arena t'.arena e) where
  toCorresponds := corresponds_enlarged h
  symbols states := states.symbols
  declarations states := states.declarations
  push states s := ⟨by simp [states.symbols, Correspondence.enlarged], states.declarations,
    states.names, states.nameless, states.room, states.room'⟩
  report _ _ := simulates_modify fun _ _ states =>
    ⟨states.symbols, states.declarations, states.names, states.nameless, states.room, states.room'⟩
  bindDeclared _ inside symbol := follows_bindDeclared h inside symbol
  bindIdent here _ _ _ agree :=
    follows_bindOrReport h (Arena.data?_lt here) _ _ fun b b' states _ => .inl (agree b b' states)
  bindAccess {x base i i'} keep here same := by
    apply follows_bindOrReport h (Arena.data?_lt here)
    intro b b' states spared
    have child : (b'.child? · i'.name) = (b.child? · i.name) := by
      funext symbol
      rw [← show i.name = i'.name from same]
      exact states.member? (.resource symbol) i.name
    show (b'.nameSymbol? (place base)).bind _ = _ ∨ _
    rw [child]
    by_cases wrapped : base = e
    · have moved := (h.operand x _ keep here (wrapped ▸ List.mem_cons_self)).1
      rw [wrapped, moved, states.nameless]
      cases found : (b.nameSymbol? e).bind (b.child? · i.name) with
      | none => exact .inl rfl
      | some symbol => exact .inr ⟨Option.some_ne_none symbol, i, wrapped ▸ here⟩
    · rw [h.others base wrapped, states.names spared]
      exact .inl rfl

end Enlarged

end Binder

open Binder in
theorem Bound.ofTree_enlarged {t t' : Tree} {e : Nat} {place : Nat → Nat} {kept : Nat → Prop}
    {b : Bound} (h : t.arena.Enlarged t'.arena e place kept)
    (expressions : ∀ fuel, Expressions (.enlarged e place) t t'
      (Bound.Follows t.arena t'.arena e) fuel)
    (root : t'.root = twin e t.root) (bound : Bound.ofTree t = .ok b) :
    ∃ b', Bound.ofTree t' = .ok b' ∧ b.Follows t.arena t'.arena e b' := by
  have blank : ∀ (size y : Nat), ((Array.replicate size (none : Option SymbolId))[y]?).join = none := by
    intro size y
    rw [Array.getElem?_replicate]
    split <;> rfl
  refine ofTree_simulated (simulation_enlarged h) expressions root
    ⟨Array.map_empty.symm, fun x => ?_, fun _ x => ?_, blank _ _, ?_, ?_⟩ bound
  · exact (blank _ _).trans (blank _ _).symm
  · exact (blank _ _).trans (blank _ _).symm
  · exact ⟨Array.size_replicate, Array.size_replicate⟩
  · exact ⟨Array.size_replicate, Array.size_replicate⟩

end DeployCheck
