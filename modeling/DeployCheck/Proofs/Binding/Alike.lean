import DeployCheck.Proofs.Binding.Scoping
import DeployCheck.Proofs.Tree.Pairing

/-!
# Names that mean the same

Two programs may number their nodes and symbols in different ways. Given which
nodes and which declared symbols correspond, expressions are alike if in the scopes
around them every name means corresponding symbols. Then so are their parts, and
the names in them are bound to corresponding symbols.
-/

set_option autoImplicit false

namespace DeployCheck.Binder

section Alike

variable (a a' : Arena) (b b' : Bound) (n d : Nat → Nat → Prop)

def Likewise : Prop :=
  ∀ {x x' : Nat}, n x x' → ∃ data data', a.data? x = some data ∧ a'.data? x' = some data' ∧
    data.label = data'.label ∧ List.Forall₂ n data.children data'.children

def Unowned : Prop :=
  ∀ {k : Nat} {symbol : Symbol} {loop : NodeId}, b.symbol? k = some symbol →
    symbol.owner = .loop loop → ∀ name, b.child? k name = none ∧ b.moduleOutput? k name = none

/-- Correspondences of the nodes and of the declared symbols of two programs that
agree with the scopes that are searched by owner. -/
structure Twins : Prop where
  nodes : Likewise a a' n
  globals : ∀ name, Option.Rel d (b.global? name) (b'.global? name)
  nested : ∀ {k k' : Nat}, d k k' → ∀ name, Option.Rel d (b.child? k name) (b'.child? k' name)
  returned : ∀ {k k' : Nat}, d k k' → ∀ name,
    Option.Rel d (b.moduleOutput? k name) (b'.moduleOutput? k' name)
  unowned : Unowned b
  unowned' : Unowned b'

mutual

/-- Corresponding expressions; every name means the same in the scopes around them. -/
inductive Alike : Nat → Nat → Prop where
  | intro {x x' : Nat} {around around' : List Frame} (nodes : n x x')
      (scope : Scoped a b around x) (scope' : Scoped a' b' around' x')
      (names : ∀ name, Option.Rel Means (lookup b around name) (lookup b' around' name)) : Alike x x'

inductive Means : Nat → Nat → Prop where
  | declared {k k' : Nat} (h : d k k') : Means k k'
  | item {x x' k k' : Nat} {name name' : String} (loop : Alike x x')
      (found : b.symbol? k = some ⟨name, x, .loop x, .loopItem x⟩)
      (found' : b'.symbol? k' = some ⟨name', x', .loop x', .loopItem x'⟩) : Means k k'
  | index {x x' k k' : Nat} {name name' : String} (loop : Alike x x')
      (found : b.symbol? k = some ⟨name, x, .loop x, .loopIndex x⟩)
      (found' : b'.symbol? k' = some ⟨name', x', .loop x', .loopIndex x'⟩) : Means k k'

end

end Alike

section Scopes

variable {a a' : Arena} {b b' : Bound} {around around' : List Frame} {x x' : Nat}

def Resolved (a : Arena) (b : Bound) (around : List Frame) (x : Nat) : NodeData → Prop
  | .ident name => b.nameSymbol? x = lookup b around name.name
  | .resourceAccess base name => Scoped a b around base ∧
      b.nameSymbol? x = (b.nameSymbol? base).bind (b.child? · name.name)
  | .loop item index iterated body => Scoped a b around iterated ∧ b.nameSymbol? x = none ∧
      ∃ frame, Locals b x item index frame ∧ Scoped a b (frame :: around) body
  | data => (∀ c : Nat, c ∈ data.children → Scoped a b around c) ∧ b.nameSymbol? x = none

theorem resolved_plain {data : NodeData} (plain : isPlain data = true) :
    Resolved a b around x data ↔
      (∀ c : Nat, c ∈ data.children → Scoped a b around c) ∧ b.nameSymbol? x = none := by
  cases data with
  | ident _ | resourceAccess _ _ | loop _ _ _ _ => cases plain
  | _ => exact Iff.rfl

theorem resolved_of_scoped (h : Scoped a b around x) {data : NodeData}
    (here : a.data? x = some data) : Resolved a b around x data := by
  cases h with
  | ident here₁ bound =>
    rw [here] at here₁
    cases here₁
    exact bound
  | access here₁ inner bound =>
    rw [here] at here₁
    cases here₁
    exact ⟨inner, bound⟩
  | loop here₁ source locals inner free =>
    rw [here] at here₁
    cases here₁
    exact ⟨source, free, _, locals, inner⟩
  | plain here₁ plain inner free =>
    rw [here] at here₁
    cases here₁
    exact (resolved_plain plain).2 ⟨inner, free⟩

theorem isPlain_label (data : NodeData) : isPlain data.label = isPlain data := by
  cases data <;> rfl

theorem lookup_cons (frame : Frame) (name : String) :
    lookup b (frame :: around) name = (frame.lookup b name).or (lookup b around name) := by
  rw [lookup, lookup, List.findSome?_cons]
  cases frame.lookup b name <;> rfl

end Scopes

section Twins

variable {a a' : Arena} {b b' : Bound} {n d : Nat → Nat → Prop} {x x' : Nat}
  {around around' : List Frame}

theorem alike_list {xs xs' : List Nat} (nodes : List.Forall₂ n xs xs')
    (scopes : ∀ c ∈ xs, Scoped a b around c) (scopes' : ∀ c ∈ xs', Scoped a' b' around' c)
    (names : ∀ name, Option.Rel (Means a a' b b' n d) (lookup b around name)
      (lookup b' around' name)) : List.Forall₂ (Alike a a' b b' n d) xs xs' := by
  induction nodes with
  | nil => exact .nil
  | cons one _ ih =>
    rw [List.forall_mem_cons] at scopes scopes'
    exact .cons (.intro one scopes.1 scopes'.1 names) (ih scopes.2 scopes'.2)

theorem means_locals {item item' : Identifier} {index index' : Option Identifier}
    {frame frame' : Frame} (loop : Alike a a' b b' n d x x') (same : item.name = item'.name)
    (sameIndex : index.map Identifier.name = index'.map Identifier.name)
    (locals : Locals b x item index frame) (locals' : Locals b' x' item' index' frame')
    (name : String) :
    Option.Rel (Means a a' b b' n d) (frame.lookup b name) (frame'.lookup b' name) := by
  cases locals with
  | item found =>
    cases locals' with
    | item found' =>
      rw [Frame.lookup, Frame.lookup, List.find?_singleton, List.find?_singleton, same]
      cases Name.same item'.name name with
      | true => exact .some (.item loop found found')
      | false => exact .none
    | index => cases sameIndex
  | @index _ _ index found foundIndex =>
    cases locals' with
    | item => cases sameIndex
    | @index _ _ index' found' foundIndex' =>
      have sameName : index.name = index'.name := Option.some.inj sameIndex
      simp only [Frame.lookup, List.find?_cons, same, sameName]
      cases Name.same index'.name name with
      | true => exact .some (.index loop foundIndex foundIndex')
      | false =>
        cases Name.same item'.name name with
        | true => exact .some (.item loop found found')
        | false => exact .none

namespace Twins

variable (twins : Twins a a' b b' n d)

include twins

theorem same (h : n x x') {data : NodeData} (here : a.data? x = some data) :
    ∃ data', a'.data? x' = some data' ∧ data.label = data'.label ∧ data.Paired n data' := by
  obtain ⟨_, data', here₁, here', label, below⟩ := twins.nodes h
  rw [here] at here₁
  cases here₁
  exact ⟨data', here', label, NodeData.paired_of_label label below⟩

theorem data (h : Alike a a' b b' n d x x') : ∃ data data', a.data? x = some data ∧
    a'.data? x' = some data' ∧ data.Paired (Alike a a' b b' n d) data' := by
  have whole := h
  obtain ⟨nodes, scope, scope', names⟩ := h
  obtain ⟨data, data', here, here', label, parts⟩ := twins.nodes nodes
  have resolved := resolved_of_scoped scope here
  have resolved' := resolved_of_scoped scope' here'
  refine ⟨data, data', here, here', ?_⟩
  have paired : data.Paired n data' := NodeData.paired_of_label label parts
  cases paired with
  | resourceAccess below same =>
    exact .resourceAccess (.intro below resolved.1 resolved'.1 names) same
  | loop same sameIndex source body =>
    obtain ⟨iterated, _, frame, locals, inner⟩ := resolved
    obtain ⟨iterated', _, frame', locals', inner'⟩ := resolved'
    apply NodeData.Paired.loop same sameIndex (.intro source iterated iterated' names)
    apply Alike.intro body inner inner'
    intro name
    rw [lookup_cons, lookup_cons]
    exact rel_or (means_locals whole same sameIndex locals locals' name) (names name)
  | ident same => exact .ident same
  | _ => exact NodeData.paired_of_label label (alike_list parts resolved.1 resolved'.1 names)

theorem children {k k' : Nat} (h : Means a a' b b' n d k k') (name : String) :
    Option.Rel (Means a a' b b' n d) (b.child? k name) (b'.child? k' name) := by
  cases h with
  | declared h => exact rel_mono (fun _ _ => .declared) (twins.nested h name)
  | item _ found found' | index _ found found' =>
    rw [(twins.unowned found rfl name).1, (twins.unowned' found' rfl name).1]
    exact .none

theorem outputs {k k' : Nat} (h : Means a a' b b' n d k k') (name : String) :
    Option.Rel (Means a a' b b' n d) (b.moduleOutput? k name) (b'.moduleOutput? k' name) := by
  cases h with
  | declared h => exact rel_mono (fun _ _ => .declared) (twins.returned h name)
  | item _ found found' | index _ found found' =>
    rw [(twins.unowned found rfl name).2, (twins.unowned' found' rfl name).2]
    exact .none

theorem names (h : Alike a a' b b' n d x x') :
    Option.Rel (Means a a' b b' n d) (b.nameSymbol? x) (b'.nameSymbol? x') := by
  obtain ⟨nodes, scope, scope', names⟩ := h
  induction scope generalizing x' with
  | ident here bound =>
    obtain ⟨_, here', _, paired⟩ := twins.same nodes here
    cases paired with
    | ident same =>
      have bound' : b'.nameSymbol? x' = _ := resolved_of_scoped scope' here'
      rw [bound, bound', same]
      exact names _
  | access here inner bound ih =>
    obtain ⟨_, here', _, paired⟩ := twins.same nodes here
    cases paired with
    | resourceAccess base same =>
      obtain ⟨inner', bound'⟩ := resolved_of_scoped scope' here'
      rw [bound, bound', same]
      exact rel_bind (ih names inner' base) fun _ _ related => twins.children related _
  | loop here source locals inner free =>
    obtain ⟨_, here', _, paired⟩ := twins.same nodes here
    cases paired with
    | loop =>
      obtain ⟨_, free', _⟩ := resolved_of_scoped scope' here'
      rw [free, free']
      exact .none
  | plain here plain inner free =>
    obtain ⟨data', here', label, _⟩ := twins.same nodes here
    have plain' : isPlain data' = true := by
      rw [← isPlain_label, ← label, isPlain_label, plain]
    rw [free, ((resolved_plain plain').1 (resolved_of_scoped scope' here')).2]
    exact .none

end Twins

end Twins

end DeployCheck.Binder
