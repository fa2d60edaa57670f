import DeployCheck.Binding.Symbol
import DeployCheck.Proofs.Tree.Layout
import Mathlib.Data.List.Forall2

/-!
# Nodes that say the same

Two nodes say the same about different children if they have one label and their
children are related in pairs.
-/

set_option autoImplicit false

namespace DeployCheck

theorem rel_bind {α α' β β' : Type} {p : α → α' → Prop} {q : β → β' → Prop} {o : Option α}
    {o' : Option α'} {f : α → Option β} {f' : α' → Option β'} (h : Option.Rel p o o')
    (k : ∀ a a', p a a' → Option.Rel q (f a) (f' a')) : Option.Rel q (o.bind f) (o'.bind f') := by
  cases h with
  | none => exact .none
  | some h => exact k _ _ h

theorem rel_guard {β β' : Type} {q : β → β' → Prop} {known known' : Bool} {o : Option β}
    {o' : Option β'} (same : known = known') (k : Option.Rel q o o') :
    Option.Rel q (guard (known = true) >>= fun _ => o) (guard (known' = true) >>= fun _ => o') := by
  subst same
  cases known with
  | true => exact k
  | false => exact .none

theorem guard_bind_eq_some {β : Type} {known : Bool} {o : Option β} {v : β} :
    (guard (known = true) >>= fun _ => o) = some v ↔ known = true ∧ o = some v := by
  cases known with
  | true => exact (and_iff_right rfl).symm
  | false =>
    constructor
    · intro h
      cases h
    · rintro ⟨h, _⟩
      cases h

theorem rel_or {α α' : Type} {p : α → α' → Prop} {o u : Option α} {o' u' : Option α'}
    (h : Option.Rel p o o') (k : Option.Rel p u u') : Option.Rel p (o.or u) (o'.or u') := by
  cases h with
  | none => exact k
  | some h => exact .some h

theorem rel_mono {α α' : Type} {p q : α → α' → Prop} {o : Option α} {o' : Option α'}
    (le : ∀ x x', p x x' → q x x') (h : Option.Rel p o o') : Option.Rel q o o' := by
  cases h with
  | none => exact .none
  | some h => exact .some (le _ _ h)

theorem paired_imp {α β : Type} {p q : α → β → Prop} {xs : List α} {ys : List β}
    (h : List.Forall₂ p xs ys) (le : ∀ x ∈ xs, ∀ y, p x y → q x y) : List.Forall₂ q xs ys := by
  induction h with
  | nil => exact .nil
  | @cons x y xs ys one _ ih =>
    rw [List.forall_mem_cons] at le
    exact .cons (le.1 y one) (ih le.2)

theorem paired_mem {α β : Type} {p : α → β → Prop} {xs : List α} {ys : List β}
    (h : List.Forall₂ p xs ys) : ∀ y ∈ ys, ∃ x ∈ xs, p x y := by
  induction h with
  | nil => simp
  | @cons x y xs ys one _ ih =>
    intro z hz
    rcases List.mem_cons.1 hz with rfl | hz
    · exact ⟨x, List.mem_cons_self, one⟩
    · obtain ⟨w, hw, related⟩ := ih z hz
      exact ⟨w, List.mem_cons_of_mem x hw, related⟩

namespace NodeData

/-- Nodes that differ in the spans of names and in their children only, which are
related. What is nested in a resource need not be. -/
inductive Paired (r : Nat → Nat → Prop) : NodeData → NodeData → Prop where
  | program {ds ds' : List Nat} (below : List.Forall₂ r ds ds') : Paired r (.program ds) (.program ds')
  | param {name name' : Identifier} {d d' : Option Nat} (same : name.name = name'.name)
      (below : List.Forall₂ r d.toList d'.toList) : Paired r (.param name d) (.param name' d')
  | var {name name' : Identifier} {x x' : Nat} (same : name.name = name'.name) (below : r x x') :
      Paired r (.var name x) (.var name' x')
  | resource {name name' : Identifier} {type : String} {existing : Bool} {x x' : Nat}
      {ds ds' : List Nat} (same : name.name = name'.name) (body : r x x') :
      Paired r (.resource name type existing x ds) (.resource name' type existing x' ds')
  | module {name name' : Identifier} {path : String} {x x' : Nat} {os os' : List OutputSignature}
      (same : name.name = name'.name) (body : r x x')
      (outputs : os.map (fun o => (o.name.name, o.resource)) =
        os'.map fun o => (o.name.name, o.resource)) :
      Paired r (.module name path x os) (.module name' path x' os')
  | output {name name' : Identifier} {x x' : Nat} (same : name.name = name'.name) (below : r x x') :
      Paired r (.output name x) (.output name' x')
  | string {segments : List String} {xs xs' : List Nat} (below : List.Forall₂ r xs xs') :
      Paired r (.string segments xs) (.string segments xs')
  | int (value : Int) : Paired r (.int value) (.int value)
  | bool (value : Bool) : Paired r (.bool value) (.bool value)
  | null : Paired r .null .null
  | ident {name name' : Identifier} (same : name.name = name'.name) :
      Paired r (.ident name) (.ident name')
  | array {xs xs' : List Nat} (below : List.Forall₂ r xs xs') : Paired r (.array xs) (.array xs')
  | object {es es' : List ObjectEntry}
      (below : List.Forall₂ (fun e e' => e.key.name = e'.key.name ∧ r e.value e'.value) es es') :
      Paired r (.object es) (.object es')
  | property {name name' : Identifier} {x x' : Nat} (below : r x x')
      (same : name.name = name'.name) : Paired r (.property x name) (.property x' name')
  | index {x x' y y' : Nat} (base : r x x') (selector : r y y') :
      Paired r (.index x y) (.index x' y')
  | resourceAccess {name name' : Identifier} {x x' : Nat} (below : r x x')
      (same : name.name = name'.name) : Paired r (.resourceAccess x name) (.resourceAccess x' name')
  | call {name name' : Identifier} {xs xs' : List Nat} (same : name.name = name'.name)
      (below : List.Forall₂ r xs xs') : Paired r (.call name xs) (.call name' xs')
  | instanceCall {name name' : Identifier} {x x' : Nat} {xs xs' : List Nat} (base : r x x')
      (same : name.name = name'.name) (below : List.Forall₂ r xs xs') :
      Paired r (.instanceCall x name xs) (.instanceCall x' name' xs')
  | paren {x x' : Nat} (below : r x x') : Paired r (.paren x) (.paren x')
  | unary {operator : UnaryOperator} {x x' : Nat} (below : r x x') :
      Paired r (.unary operator x) (.unary operator x')
  | binary {operator : BinaryOperator} {x x' y y' : Nat} (left : r x x') (right : r y y') :
      Paired r (.binary operator x y) (.binary operator x' y')
  | ternary {x x' y y' z z' : Nat} (first : r x x') (second : r y y') (third : r z z') :
      Paired r (.ternary x y z) (.ternary x' y' z')
  | loop {item item' : Identifier} {counter counter' : Option Identifier} {x x' y y' : Nat}
      (same : item.name = item'.name)
      (sameCounter : counter.map Identifier.name = counter'.map Identifier.name) (source : r x x')
      (body : r y y') : Paired r (.loop item counter x y) (.loop item' counter' x' y')
  | condition {x x' y y' : Nat} (test : r x x') (body : r y y') :
      Paired r (.condition x y) (.condition x' y')

variable {r : Nat → Nat → Prop}

theorem name_of_bare {i j : Identifier} (h : i.bare = j.bare) : i.name = j.name := by
  injection h

theorem entries_of_bare {es es' : List ObjectEntry}
    (keys : es.map (fun e => ObjectEntry.mk e.key.bare 0) = es'.map fun e => ⟨e.key.bare, 0⟩)
    (values : List.Forall₂ r (es.map ObjectEntry.value) (es'.map ObjectEntry.value)) :
    List.Forall₂ (fun e e' => e.key.name = e'.key.name ∧ r e.value e'.value) es es' := by
  induction es generalizing es' with
  | nil =>
    cases es' with
    | nil => exact .nil
    | cons _ _ => cases keys
  | cons e es ih =>
    cases es' with
    | nil => cases keys
    | cons e' es' =>
      injection keys with key keys
      injection key with key _
      cases values with
      | cons value values => exact .cons ⟨name_of_bare key, value⟩ (ih keys values)

theorem outputs_of_bare {os os' : List OutputSignature}
    (h : os.map (fun o => OutputSignature.mk o.name.bare o.resource) =
      os'.map fun o => ⟨o.name.bare, o.resource⟩) :
    os.map (fun o => (o.name.name, o.resource)) = os'.map fun o => (o.name.name, o.resource) := by
  have names := congrArg (List.map fun o : OutputSignature => (o.name.name, o.resource)) h
  rw [List.map_map, List.map_map] at names
  exact names

theorem counter_of_bare {i i' : Option Identifier} (h : i.map Identifier.bare = i'.map Identifier.bare) :
    i.map Identifier.name = i'.map Identifier.name := by
  have names := congrArg (Option.map Identifier.name) h
  rw [Option.map_map, Option.map_map] at names
  exact names

section Labels

variable {data' : NodeData}

theorem paired_program {ds : List Nat} (label : (NodeData.program ds).label = data'.label)
    (below : List.Forall₂ r (NodeData.program ds).children data'.children) :
    Paired r (.program ds) data' := by
  cases data' with
  | program ds' => exact .program below
  | _ => cases label

theorem paired_param {name : Identifier} {d : Option Nat}
    (label : (NodeData.param name d).label = data'.label)
    (below : List.Forall₂ r (NodeData.param name d).children data'.children) :
    Paired r (.param name d) data' := by
  cases data' with
  | param name' d' =>
    injection label with same _
    exact .param (name_of_bare same) below
  | _ => cases label

theorem paired_var {name : Identifier} {x : Nat} (label : (NodeData.var name x).label = data'.label)
    (below : List.Forall₂ r (NodeData.var name x).children data'.children) :
    Paired r (.var name x) data' := by
  cases data' with
  | var name' x' =>
    injection label with same _
    cases below with
    | cons h _ => exact .var (name_of_bare same) h
  | _ => cases label

theorem paired_resource {name : Identifier} {type : String} {existing : Bool} {x : Nat}
    {ds : List Nat}
    (label : (NodeData.resource name type existing x ds).label = data'.label)
    (below : List.Forall₂ r (NodeData.resource name type existing x ds).children data'.children) :
    Paired r (.resource name type existing x ds) data' := by
  cases data' with
  | resource name' type' existing' x' ds' =>
    injection label with same sameType sameExisting _ _
    subst sameType sameExisting
    cases below with
    | cons h _ => exact .resource (name_of_bare same) h
  | _ => cases label

theorem paired_module {name : Identifier} {path : String} {x : Nat} {os : List OutputSignature}
    (label : (NodeData.module name path x os).label = data'.label)
    (below : List.Forall₂ r (NodeData.module name path x os).children data'.children) :
    Paired r (.module name path x os) data' := by
  cases data' with
  | module name' path' x' os' =>
    injection label with same samePath _ outputs
    subst samePath
    cases below with
    | cons h _ => exact .module (name_of_bare same) h (outputs_of_bare outputs)
  | _ => cases label

theorem paired_output {name : Identifier} {x : Nat}
    (label : (NodeData.output name x).label = data'.label)
    (below : List.Forall₂ r (NodeData.output name x).children data'.children) :
    Paired r (.output name x) data' := by
  cases data' with
  | output name' x' =>
    injection label with same _
    cases below with
    | cons h _ => exact .output (name_of_bare same) h
  | _ => cases label

theorem paired_string {segments : List String} {xs : List Nat}
    (label : (NodeData.string segments xs).label = data'.label)
    (below : List.Forall₂ r (NodeData.string segments xs).children data'.children) :
    Paired r (.string segments xs) data' := by
  cases data' with
  | string segments' xs' =>
    injection label with same _
    subst same
    exact .string below
  | _ => cases label

theorem paired_int {value : Int} (label : (NodeData.int value).label = data'.label) :
    Paired r (.int value) data' := by
  cases data' with
  | int value' =>
    injection label with same
    subst same
    exact .int value
  | _ => cases label

theorem paired_bool {value : Bool} (label : (NodeData.bool value).label = data'.label) :
    Paired r (.bool value) data' := by
  cases data' with
  | bool value' =>
    injection label with same
    subst same
    exact .bool value
  | _ => cases label

theorem paired_null (label : NodeData.null.label = data'.label) : Paired r .null data' := by
  cases data' with
  | null => exact .null
  | _ => cases label

theorem paired_ident {name : Identifier} (label : (NodeData.ident name).label = data'.label) :
    Paired r (.ident name) data' := by
  cases data' with
  | ident name' =>
    injection label with same
    exact .ident (name_of_bare same)
  | _ => cases label

theorem paired_array {xs : List Nat} (label : (NodeData.array xs).label = data'.label)
    (below : List.Forall₂ r (NodeData.array xs).children data'.children) :
    Paired r (.array xs) data' := by
  cases data' with
  | array xs' => exact .array below
  | _ => cases label

theorem paired_object {es : List ObjectEntry} (label : (NodeData.object es).label = data'.label)
    (below : List.Forall₂ r (NodeData.object es).children data'.children) :
    Paired r (.object es) data' := by
  cases data' with
  | object es' =>
    injection label with keys
    exact .object (entries_of_bare keys below)
  | _ => cases label

theorem paired_property {x : Nat} {name : Identifier}
    (label : (NodeData.property x name).label = data'.label)
    (below : List.Forall₂ r (NodeData.property x name).children data'.children) :
    Paired r (.property x name) data' := by
  cases data' with
  | property x' name' =>
    injection label with _ same
    cases below with
    | cons h _ => exact .property h (name_of_bare same)
  | _ => cases label

theorem paired_index {x y : Nat} (label : (NodeData.index x y).label = data'.label)
    (below : List.Forall₂ r (NodeData.index x y).children data'.children) :
    Paired r (.index x y) data' := by
  cases data' with
  | index x' y' =>
    cases below with
    | cons h rest =>
      cases rest with
      | cons h' _ => exact .index h h'
  | _ => cases label

theorem paired_resourceAccess {x : Nat} {name : Identifier}
    (label : (NodeData.resourceAccess x name).label = data'.label)
    (below : List.Forall₂ r (NodeData.resourceAccess x name).children data'.children) :
    Paired r (.resourceAccess x name) data' := by
  cases data' with
  | resourceAccess x' name' =>
    injection label with _ same
    cases below with
    | cons h _ => exact .resourceAccess h (name_of_bare same)
  | _ => cases label

theorem paired_call {name : Identifier} {xs : List Nat}
    (label : (NodeData.call name xs).label = data'.label)
    (below : List.Forall₂ r (NodeData.call name xs).children data'.children) :
    Paired r (.call name xs) data' := by
  cases data' with
  | call name' xs' =>
    injection label with same _
    exact .call (name_of_bare same) below
  | _ => cases label

theorem paired_instanceCall {x : Nat} {name : Identifier} {xs : List Nat}
    (label : (NodeData.instanceCall x name xs).label = data'.label)
    (below : List.Forall₂ r (NodeData.instanceCall x name xs).children data'.children) :
    Paired r (.instanceCall x name xs) data' := by
  cases data' with
  | instanceCall x' name' xs' =>
    injection label with _ same _
    cases below with
    | cons h rest => exact .instanceCall h (name_of_bare same) rest
  | _ => cases label

theorem paired_paren {x : Nat} (label : (NodeData.paren x).label = data'.label)
    (below : List.Forall₂ r (NodeData.paren x).children data'.children) :
    Paired r (.paren x) data' := by
  cases data' with
  | paren x' =>
    cases below with
    | cons h _ => exact .paren h
  | _ => cases label

theorem paired_unary {operator : UnaryOperator} {x : Nat}
    (label : (NodeData.unary operator x).label = data'.label)
    (below : List.Forall₂ r (NodeData.unary operator x).children data'.children) :
    Paired r (.unary operator x) data' := by
  cases data' with
  | unary operator' x' =>
    injection label with same _
    subst same
    cases below with
    | cons h _ => exact .unary h
  | _ => cases label

theorem paired_binary {operator : BinaryOperator} {x y : Nat}
    (label : (NodeData.binary operator x y).label = data'.label)
    (below : List.Forall₂ r (NodeData.binary operator x y).children data'.children) :
    Paired r (.binary operator x y) data' := by
  cases data' with
  | binary operator' x' y' =>
    injection label with same _ _
    subst same
    cases below with
    | cons h rest =>
      cases rest with
      | cons h' _ => exact .binary h h'
  | _ => cases label

theorem paired_ternary {x y z : Nat} (label : (NodeData.ternary x y z).label = data'.label)
    (below : List.Forall₂ r (NodeData.ternary x y z).children data'.children) :
    Paired r (.ternary x y z) data' := by
  cases data' with
  | ternary x' y' z' =>
    cases below with
    | cons h rest =>
      cases rest with
      | cons h' rest =>
        cases rest with
        | cons h'' _ => exact .ternary h h' h''
  | _ => cases label

theorem paired_loop {item : Identifier} {counter : Option Identifier} {x y : Nat}
    (label : (NodeData.loop item counter x y).label = data'.label)
    (below : List.Forall₂ r (NodeData.loop item counter x y).children data'.children) :
    Paired r (.loop item counter x y) data' := by
  cases data' with
  | loop item' counter' x' y' =>
    injection label with same sameCounter _ _
    cases below with
    | cons h rest =>
      cases rest with
      | cons h' _ => exact .loop (name_of_bare same) (counter_of_bare sameCounter) h h'
  | _ => cases label

theorem paired_condition {x y : Nat} (label : (NodeData.condition x y).label = data'.label)
    (below : List.Forall₂ r (NodeData.condition x y).children data'.children) :
    Paired r (.condition x y) data' := by
  cases data' with
  | condition x' y' =>
    cases below with
    | cons h rest =>
      cases rest with
      | cons h' _ => exact .condition h h'
  | _ => cases label

end Labels

/-- Nodes of one label with related children are paired. -/
theorem paired_of_label {data data' : NodeData} (label : data.label = data'.label)
    (below : List.Forall₂ r data.children data'.children) : Paired r data data' := by
  cases data with
  | program => exact paired_program label below
  | param => exact paired_param label below
  | var => exact paired_var label below
  | resource => exact paired_resource label below
  | module => exact paired_module label below
  | output => exact paired_output label below
  | string => exact paired_string label below
  | int => exact paired_int label
  | bool => exact paired_bool label
  | null => exact paired_null label
  | ident => exact paired_ident label
  | array => exact paired_array label below
  | object => exact paired_object label below
  | property => exact paired_property label below
  | index => exact paired_index label below
  | resourceAccess => exact paired_resourceAccess label below
  | call => exact paired_call label below
  | instanceCall => exact paired_instanceCall label below
  | paren => exact paired_paren label below
  | unary => exact paired_unary label below
  | binary => exact paired_binary label below
  | ternary => exact paired_ternary label below
  | loop => exact paired_loop label below
  | condition => exact paired_condition label below

end NodeData

inductive KindPaired (n : Nat → Nat → Prop) : SymbolKind → SymbolKind → Prop where
  | param : KindPaired n .param .param
  | var : KindPaired n .var .var
  | output : KindPaired n .output .output
  | loopItem {x x' : Nat} (loop : n x x') : KindPaired n (.loopItem x) (.loopItem x')
  | loopIndex {x x' : Nat} (loop : n x x') : KindPaired n (.loopIndex x) (.loopIndex x')
  | resource (type : TypeReference) (existing collection : Bool) :
      KindPaired n (.resource type existing collection) (.resource type existing collection)
  | module (path : String) (collection : Bool) :
      KindPaired n (.module path collection) (.module path collection)

theorem kind_declared {n : Nat → Nat → Prop} {symbol symbol' : Symbol}
    (h : KindPaired n symbol.kind symbol'.kind) :
    symbol.isResourceOrModule = symbol'.isResourceOrModule ∧ symbol.isModule = symbol'.isModule ∧
      symbol.isCollection = symbol'.isCollection := by
  obtain ⟨name, declaration, owner, kind⟩ := symbol
  obtain ⟨name', declaration', owner', kind'⟩ := symbol'
  cases h <;> exact ⟨rfl, rfl, rfl⟩

theorem kind_eq {kind kind' : SymbolKind} (h : KindPaired (fun _ _ => False) kind kind') :
    kind = kind' := by
  cases h with
  | loopItem h => exact h.elim
  | loopIndex h => exact h.elim
  | _ => rfl

theorem kind_mono {n q : Nat → Nat → Prop} {kind kind' : SymbolKind} (le : ∀ x x', n x x' → q x x')
    (h : KindPaired n kind kind') : KindPaired q kind kind' := by
  cases h with
  | loopItem h => exact .loopItem (le _ _ h)
  | loopIndex h => exact .loopIndex (le _ _ h)
  | resource type existing collection => exact .resource type existing collection
  | module path collection => exact .module path collection
  | param => exact .param
  | var => exact .var
  | output => exact .output

inductive OwnerPaired (r : Nat → Nat → Prop) : Owner → Owner → Prop where
  | program : OwnerPaired r .program .program
  | outputs : OwnerPaired r .outputs .outputs
  | resource {j j' : Nat} (h : r j j') : OwnerPaired r (.resource j) (.resource j')
  | module {j j' : Nat} (h : r j j') : OwnerPaired r (.module j) (.module j')

theorem owner_mono {r q : Nat → Nat → Prop} {owner owner' : Owner} (le : ∀ j j', r j j' → q j j')
    (h : OwnerPaired r owner owner') : OwnerPaired q owner owner' := by
  cases h with
  | program => exact .program
  | outputs => exact .outputs
  | resource h => exact .resource (le _ _ h)
  | module h => exact .module (le _ _ h)

end DeployCheck
