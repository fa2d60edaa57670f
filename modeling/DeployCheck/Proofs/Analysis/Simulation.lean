import DeployCheck.Proofs.Analysis.Derivation
import DeployCheck.Proofs.Tree.Pairing

/-!
# Programs that derive the same

Two programs may number their nodes and symbols in different ways. If related
nodes say the same, bear related symbols, and related symbols stand for the same,
then every rule for a fact is a rule for each related fact, with related premises.
-/

set_option autoImplicit false

namespace DeployCheck.Analysis

structure SymbolPaired (s s' : Subject) (n r : Nat → Nat → Prop) (symbol symbol' : Symbol) :
    Prop where
  declaration : ∃ data data', s.tree.arena.data? symbol.declaration = some data ∧
    s'.tree.arena.data? symbol'.declaration = some data' ∧ data.Paired n data'
  kind : KindPaired n symbol.kind symbol'.kind
  parent : Option.Rel r symbol.parent? symbol'.parent?
  module : symbol.module?.isSome = symbol'.module?.isSome

/-- A relation between the expressions, and one between the symbols, that nothing
the rules look at can tell apart. -/
structure Simulation (s s' : Subject) (n r : Nat → Nat → Prop) : Prop where
  data : ∀ {x x' : Nat}, n x x' → ∃ data data', s.tree.arena.data? x = some data ∧
    s'.tree.arena.data? x' = some data' ∧ data.Paired n data'
  names : ∀ {x x' : Nat}, n x x' → Option.Rel r (s.bound.nameSymbol? x) (s'.bound.nameSymbol? x')
  symbols : ∀ {a a' : Nat}, r a a' → ∃ symbol symbol', s.bound.symbol? a = some symbol ∧
    s'.bound.symbol? a' = some symbol' ∧ SymbolPaired s s' n r symbol symbol'
  outputs : ∀ {a a' : Nat}, r a a' → ∀ name,
    Option.Rel r (s.bound.moduleOutput? a name) (s'.bound.moduleOutput? a' name)
  catalog : s.catalog = s'.catalog

inductive FactPaired (n r : Nat → Nat → Prop) : Fact → Fact → Prop where
  | constant {x x' : Nat} (h : n x x') : FactPaired n r (.constant x) (.constant x')
  | readable {a a' : Nat} (h : r a a') (property : String) :
      FactPaired n r (.readable a property) (.readable a' property)
  | identity {a a' : Nat} (h : r a a') : FactPaired n r (.identity a) (.identity a')

section Simulation

variable {s s' : Subject} {n r : Nat → Nat → Prop} {x x' a a' : Nat}

namespace Simulation

variable (sim : Simulation s s' n r)

include sim

theorem paired (h : n x x') {data : NodeData} (here : s.tree.arena.data? x = some data) :
    ∃ data', s'.tree.arena.data? x' = some data' ∧ data.Paired n data' := by
  obtain ⟨_, data', found, here', paired⟩ := sim.data h
  rw [here] at found
  cases found
  exact ⟨data', here', paired⟩

theorem symbol (h : r a a') {symbol : Symbol} {kind : SymbolKind}
    (found : s.bound.symbol? a = some symbol) (sort : symbol.kind = kind) :
    ∃ symbol' kind', s'.bound.symbol? a' = some symbol' ∧ symbol'.kind = kind' ∧
      KindPaired n kind kind' ∧ SymbolPaired s s' n r symbol symbol' := by
  obtain ⟨_, symbol', found₁, found', paired⟩ := sim.symbols h
  rw [found] at found₁
  cases found₁
  exact ⟨symbol', _, found', rfl, sort ▸ paired.kind, paired⟩

theorem symbol? (h : r a a') :
    Option.Rel (SymbolPaired s s' n r) (s.bound.symbol? a) (s'.bound.symbol? a') := by
  obtain ⟨symbol, symbol', found, found', paired⟩ := sim.symbols h
  rw [found, found']
  exact .some paired

theorem named (h : n x x') {symbol : Symbol} {kind : SymbolKind}
    (named : s.named? x = some symbol) (sort : symbol.kind = kind) :
    ∃ symbol' kind', s'.named? x' = some symbol' ∧ symbol'.kind = kind' ∧
      KindPaired n kind kind' ∧ SymbolPaired s s' n r symbol symbol' := by
  obtain ⟨a, bound, found⟩ := Option.bind_eq_some_iff.1 named
  have names := sim.names h
  rw [bound] at names
  cases bound' : s'.bound.nameSymbol? x' with
  | none =>
    rw [bound'] at names
    cases names
  | some a' =>
    rw [bound'] at names
    cases names with
    | some related =>
      obtain ⟨symbol', kind', found', paired⟩ := sim.symbol related found sort
      exact ⟨symbol', kind', Option.bind_eq_some_iff.2 ⟨a', bound', found'⟩, paired⟩

theorem literal? (h : n x x') : (s.tree.arena.data? x).bind NodeData.literal? =
    (s'.tree.arena.data? x').bind NodeData.literal? := by
  obtain ⟨data, data', here, here', paired⟩ := sim.data h
  rw [here, here', Option.bind_some, Option.bind_some]
  cases paired with
  | string below => cases below <;> rfl
  | _ => rfl

theorem declared? (h : n x x') (collection : Bool) :
    Option.Rel r (s.bound.declared? collection x) (s'.bound.declared? collection x') := by
  apply rel_bind (sim.names h)
  intro a a' related
  apply rel_bind (sim.symbol? related)
  intro symbol symbol' paired
  obtain ⟨declared, _, collections⟩ := kind_declared paired.kind
  apply rel_guard _ (.some related)
  rw [declared, collections]

theorem outputTarget? {target target' : NodeId → Option SymbolId}
    (targets : ∀ {x x' : Nat}, n x x' → Option.Rel r (target x) (target' x')) (h : n x x')
    (name : String) : Option.Rel r (s.bound.outputTarget? s.tree.arena target x name)
      (s'.bound.outputTarget? s'.tree.arena target' x' name) := by
  obtain ⟨data, data', here, here', paired⟩ := sim.data h
  rw [Bound.outputTarget?, Bound.outputTarget?, here, here']
  cases paired with
  | property below same =>
    apply rel_guard (by rw [same])
    apply rel_bind (targets below)
    intro a a' related
    apply rel_bind (sim.symbol? related)
    intro symbol symbol' paired
    obtain ⟨_, modules, _⟩ := kind_declared paired.kind
    exact rel_guard modules (sim.outputs related name)
  | _ => exact .none

theorem elementTarget? (h : n x x') : Option.Rel r (s.bound.elementTarget? s.tree.arena x)
    (s'.bound.elementTarget? s'.tree.arena x') := by
  obtain ⟨data, data', here, here', paired⟩ := sim.data h
  rw [Bound.elementTarget?, Bound.elementTarget?, here, here']
  cases paired with
  | ident same => exact sim.declared? h true
  | resourceAccess below same => exact sim.declared? h true
  | _ => exact .none

theorem targetWithin (steps : Nat) (h : n x x') :
    Option.Rel r (s.bound.targetWithin s.tree.arena steps x)
      (s'.bound.targetWithin s'.tree.arena steps x') := by
  induction steps generalizing x x' with
  | zero => exact .none
  | succ steps ih =>
    obtain ⟨data, data', here, here', paired⟩ := sim.data h
    rw [Bound.targetWithin, Bound.targetWithin, here, here']
    cases paired with
    | paren below => exact ih below
    | ident same => exact sim.declared? h false
    | resourceAccess below same => exact sim.declared? h false
    | property below same =>
      simp only [Option.bind_eq_bind, Option.bind_some, same]
      exact sim.outputTarget? ih below _
    | index base selector =>
      simp only [Option.bind_eq_bind, Option.bind_some]
      rw [sim.literal? selector]
      apply rel_or
      · cases (s'.tree.arena.data? _).bind NodeData.literal? with
        | none => exact .none
        | some name => exact sim.outputTarget? ih base name
      · exact sim.elementTarget? base
    | _ => exact .none

theorem target? (h : n x x') : Option.Rel r (s.target? x) (s'.target? x') :=
  sim.targetWithin targetLimit h

theorem target_some (h : n x x') {target : SymbolId} (resolved : s.target? x = some target) :
    ∃ target', s'.target? x' = some target' ∧ r target target' := by
  have targets := sim.target? h
  rw [resolved] at targets
  cases resolved' : s'.target? x' with
  | none =>
    rw [resolved'] at targets
    cases targets
  | some target' =>
    rw [resolved'] at targets
    cases targets with
    | some related => exact ⟨target', rfl, related⟩

theorem target_none (h : n x x') (unresolved : s.target? x = none) : s'.target? x' = none := by
  have targets := sim.target? h
  rw [unresolved] at targets
  cases resolved' : s'.target? x' with
  | none => rfl
  | some target' =>
    rw [resolved'] at targets
    cases targets

theorem body {entries : List ObjectEntry} (inside : Body s.tree.arena x entries) (h : n x x') :
    ∃ entries', Body s'.tree.arena x' entries' ∧ List.Forall₂
      (fun e e' : ObjectEntry => e.key.name = e'.key.name ∧ n e.value e'.value) entries entries' := by
  induction inside generalizing x' with
  | object here =>
    obtain ⟨data', here', paired⟩ := sim.paired h here
    cases paired with
    | object below => exact ⟨_, .object here', below⟩
  | loop here _ ih =>
    obtain ⟨data', here', paired⟩ := sim.paired h here
    cases paired with
    | loop _ _ _ body =>
      obtain ⟨entries', inside', below⟩ := ih body
      exact ⟨entries', .loop here' inside', below⟩
  | condition here _ ih =>
    obtain ⟨data', here', paired⟩ := sim.paired h here
    cases paired with
    | condition _ body =>
      obtain ⟨entries', inside', below⟩ := ih body
      exact ⟨entries', .condition here' inside', below⟩

end Simulation

theorem keyed?_rel {entries entries' : List ObjectEntry} (h : List.Forall₂
      (fun e e' : ObjectEntry => e.key.name = e'.key.name ∧ n e.value e'.value) entries entries')
    (name : String) : Option.Rel n (keyed? entries name) (keyed? entries' name) := by
  induction h with
  | nil => exact .none
  | @cons e e' entries entries' one _ ih =>
    rw [keyed?, keyed?, List.find?_cons, List.find?_cons, one.1]
    cases Name.same e'.key.name name with
    | true => exact .some one.2
    | false => exact ih

theorem toList_paired {α : Type} {p : Nat → α → Prop} {o : Option Nat} {o' : Option α}
    {f : Nat → Fact} {f' : α → Fact} (h : Option.Rel p o o')
    (facts : ∀ x x', p x x' → FactPaired n r (f x) (f' x')) :
    List.Forall₂ (FactPaired n r) (o.toList.map f) (o'.toList.map f') := by
  cases h with
  | none => exact .nil
  | some h => exact .cons (facts _ _ h) .nil

theorem constants_paired {xs xs' : List Nat} (h : List.Forall₂ n xs xs') :
    List.Forall₂ (FactPaired n r) (xs.map .constant) (xs'.map .constant) := by
  induction h with
  | nil => exact .nil
  | cons one _ ih => exact .cons (.constant one) ih

theorem entries_paired {entries entries' : List ObjectEntry} (h : List.Forall₂
      (fun e e' : ObjectEntry => e.key.name = e'.key.name ∧ n e.value e'.value) entries entries') :
    List.Forall₂ n (entries.map ObjectEntry.value) (entries'.map ObjectEntry.value) := by
  induction h with
  | nil => exact .nil
  | cons one _ ih => exact .cons one.2 ih

namespace Simulation

variable (sim : Simulation s s' n r)

include sim

theorem ident (h : n x x') {name : Identifier} (here : s.tree.arena.data? x = some (.ident name)) :
    ∃ name', s'.tree.arena.data? x' = some (.ident name') := by
  obtain ⟨_, here', paired⟩ := sim.paired h here
  cases paired with
  | ident => exact ⟨_, here'⟩

theorem rule_var (h : n x x') {name name' : Identifier} {symbol : Symbol} {value : NodeId}
    (here : s.tree.arena.data? x = some (.ident name)) (named : s.named? x = some symbol)
    (kind : symbol.kind = .var)
    (declaration : s.tree.arena.data? symbol.declaration = some (.var name' value)) :
    ∃ ps', Rule s' (.constant x') ps' ∧ List.Forall₂ (FactPaired n r) [.constant value] ps' := by
  obtain ⟨_, here'⟩ := sim.ident h here
  obtain ⟨symbol', _, named', kind', kinds, same⟩ := sim.named h named kind
  obtain ⟨_, _, declaration₁, declaration', values⟩ := same.declaration
  rw [declaration] at declaration₁
  cases declaration₁
  cases kinds
  cases values with
  | var _ below => exact ⟨_, .var here' named' kind' declaration', .cons (.constant below) .nil⟩

theorem rule_loopItem (h : n x x') {name item : Identifier} {index : Option Identifier}
    {symbol : Symbol} {loop iterated body : NodeId}
    (here : s.tree.arena.data? x = some (.ident name)) (named : s.named? x = some symbol)
    (kind : symbol.kind = .loopItem loop)
    (source : s.tree.arena.data? loop = some (.loop item index iterated body)) :
    ∃ ps', Rule s' (.constant x') ps' ∧ List.Forall₂ (FactPaired n r) [.constant iterated] ps' := by
  obtain ⟨_, here'⟩ := sim.ident h here
  obtain ⟨symbol', _, named', kind', kinds, same⟩ := sim.named h named kind
  cases kinds with
  | loopItem loop =>
    obtain ⟨_, source', loops⟩ := sim.paired loop source
    cases loops with
    | loop _ _ below _ =>
      exact ⟨_, .loopItem here' named' kind' source', .cons (.constant below) .nil⟩

theorem rule_indexOfTarget (h : n x x') {base index : NodeId} {target : SymbolId} {data : NodeData}
    {property : String} (here : s.tree.arena.data? x = some (.index base index))
    (resolved : s.target? base = some target) (selector : s.tree.arena.data? index = some data)
    (literal : data.literal? = some property) : ∃ ps', Rule s' (.constant x') ps' ∧
      List.Forall₂ (FactPaired n r) [.readable target property] ps' := by
  obtain ⟨_, here', paired⟩ := sim.paired h here
  cases paired with
  | index base index =>
    obtain ⟨target', resolved', related⟩ := sim.target_some base resolved
    have literals := sim.literal? index
    rw [selector, Option.bind_some, literal] at literals
    obtain ⟨data', selector', literal'⟩ := Option.bind_eq_some_iff.1 literals.symm
    exact ⟨_, .indexOfTarget here' resolved' selector' literal', .cons (.readable related _) .nil⟩

theorem rule_constant {ps : List Fact} (rule : Rule s (.constant x) ps) (h : n x x') :
    ∃ ps', Rule s' (.constant x') ps' ∧ List.Forall₂ (FactPaired n r) ps ps' := by
  cases rule with
  | int here =>
    obtain ⟨_, here', paired⟩ := sim.paired h here
    cases paired with
    | int => exact ⟨[], .int here', .nil⟩
  | bool here =>
    obtain ⟨_, here', paired⟩ := sim.paired h here
    cases paired with
    | bool => exact ⟨[], .bool here', .nil⟩
  | null here =>
    obtain ⟨_, here', paired⟩ := sim.paired h here
    cases paired with
    | null => exact ⟨[], .null here', .nil⟩
  | string here =>
    obtain ⟨_, here', paired⟩ := sim.paired h here
    cases paired with
    | string below => exact ⟨_, .string here', constants_paired below⟩
  | array here =>
    obtain ⟨_, here', paired⟩ := sim.paired h here
    cases paired with
    | array below => exact ⟨_, .array here', constants_paired below⟩
  | object here =>
    obtain ⟨_, here', paired⟩ := sim.paired h here
    cases paired with
    | object below => exact ⟨_, .object here', constants_paired (entries_paired below)⟩
  | param here named kind =>
    obtain ⟨_, here'⟩ := sim.ident h here
    obtain ⟨_, _, named', kind', kinds, _⟩ := sim.named h named kind
    cases kinds
    exact ⟨[], .param here' named' kind', .nil⟩
  | loopIndex here named kind =>
    obtain ⟨_, here'⟩ := sim.ident h here
    obtain ⟨_, _, named', kind', kinds, _⟩ := sim.named h named kind
    cases kinds
    exact ⟨[], .loopIndex here' named' kind', .nil⟩
  | var here named kind declaration => exact sim.rule_var h here named kind declaration
  | loopItem here named kind source => exact sim.rule_loopItem h here named kind source
  | propertyOfTarget here resolved =>
    obtain ⟨_, here', paired⟩ := sim.paired h here
    cases paired with
    | property below same =>
      obtain ⟨target', resolved', related⟩ := sim.target_some below resolved
      rw [same]
      exact ⟨_, .propertyOfTarget here' resolved', .cons (.readable related _) .nil⟩
  | property here unresolved =>
    obtain ⟨_, here', paired⟩ := sim.paired h here
    cases paired with
    | property below same =>
      exact ⟨_, .property here' (sim.target_none below unresolved), .cons (.constant below) .nil⟩
  | indexOfTarget here resolved selector literal =>
    exact sim.rule_indexOfTarget h here resolved selector literal
  | index here unresolved =>
    obtain ⟨_, here', paired⟩ := sim.paired h here
    cases paired with
    | index base index =>
      exact ⟨_, .index here' (sim.target_none base unresolved),
        .cons (.constant base) (.cons (.constant index) .nil)⟩
  | call here found plain =>
    obtain ⟨_, here', paired⟩ := sim.paired h here
    cases paired with
    | call same below =>
      rw [same] at found
      exact ⟨_, .call here' found plain, constants_paired below⟩
  | paren here =>
    obtain ⟨_, here', paired⟩ := sim.paired h here
    cases paired with
    | paren below => exact ⟨_, .paren here', .cons (.constant below) .nil⟩
  | unary here =>
    obtain ⟨_, here', paired⟩ := sim.paired h here
    cases paired with
    | unary below => exact ⟨_, .unary here', .cons (.constant below) .nil⟩
  | binary here =>
    obtain ⟨_, here', paired⟩ := sim.paired h here
    cases paired with
    | binary left right =>
      exact ⟨_, .binary here', .cons (.constant left) (.cons (.constant right) .nil)⟩
  | ternary here =>
    obtain ⟨_, here', paired⟩ := sim.paired h here
    cases paired with
    | ternary first second third =>
      exact ⟨_, .ternary here',
        .cons (.constant first) (.cons (.constant second) (.cons (.constant third) .nil))⟩

theorem declaredType (type : TypeReference) : s.declaredType type = s'.declaredType type := by
  rw [Subject.declaredType, Subject.declaredType, sim.catalog]

theorem rule_readable {property : String} {ps : List Fact} (rule : Rule s (.readable a property) ps)
    (h : r a a') :
    ∃ ps', Rule s' (.readable a' property) ps' ∧ List.Forall₂ (FactPaired n r) ps ps' := by
  cases rule with
  | typed found kind other flagged =>
    obtain ⟨symbol', _, found', kind', kinds, same⟩ := sim.symbol h found kind
    cases kinds
    rw [sim.declaredType] at flagged
    exact ⟨[], .typed found' kind' other flagged, .nil⟩
  | name found kind same declared =>
    obtain ⟨symbol', _, found', kind', kinds, paired⟩ := sim.symbol h found kind
    cases kinds
    rw [sim.declaredType] at declared
    exact ⟨_, .name found' kind' same declared, .cons (.identity h) .nil⟩
  | module found kind flagged =>
    obtain ⟨symbol', _, found', kind', kinds, paired⟩ := sim.symbol h found kind
    cases kinds
    exact ⟨[], .module found' kind' flagged, .nil⟩

theorem rule_identity {ps : List Fact} (rule : Rule s (.identity a) ps) (h : r a a') :
    ∃ ps', Rule s' (.identity a') ps' ∧ List.Forall₂ (FactPaired n r) ps ps' := by
  cases rule with
  | @identity _ symbol type existing collection ex name text body value nested entries found kind own
      declaration inside identifies =>
    obtain ⟨symbol', _, found', kind', kinds, paired⟩ := sim.symbol h found kind
    obtain ⟨_, _, declaration₁, declaration', same⟩ := paired.declaration
    rw [declaration] at declaration₁
    cases declaration₁
    cases kinds
    have own' : symbol'.module? = none := by
      rw [← Option.not_isSome_iff_eq_none, ← paired.module, own]
      exact Bool.false_ne_true
    cases same with
    | resource _ below =>
      obtain ⟨entries', inside', alike⟩ := sim.body inside below
      have names := keyed?_rel alike ObjectType.nameProperty
      rw [identifies] at names
      generalize identifies' : keyed? entries' ObjectType.nameProperty = named at names
      cases names with
      | some value =>
        refine ⟨_, .identity found' kind' own' declaration' inside' identifies', ?_⟩
        have scopes := keyed?_rel alike scopeProperty
        have parents : Option.Rel r (s.parentOf? symbol entries) (s'.parentOf? symbol' entries') := by
          apply rel_or _ paired.parent
          exact rel_bind (keyed?_rel alike parentProperty) fun _ _ => sim.target?
        apply List.Forall₂.cons (.constant value)
        apply List.rel_append
        · exact toList_paired scopes fun _ _ => .constant
        · exact toList_paired parents fun _ _ related => .readable related _

theorem rule {fact fact' : Fact} {ps : List Fact} (rule : Rule s fact ps)
    (h : FactPaired n r fact fact') :
    ∃ ps', Rule s' fact' ps' ∧ List.Forall₂ (FactPaired n r) ps ps' := by
  cases h with
  | constant h => exact sim.rule_constant rule h
  | readable h property => exact sim.rule_readable rule h
  | identity h => exact sim.rule_identity rule h

theorem derives {fact fact' : Fact} (derives : Derives s fact) (h : FactPaired n r fact fact') :
    Derives s' fact' := by
  induction derives generalizing fact' with
  | intro rule _ ih =>
    obtain ⟨ps', rule', below⟩ := sim.rule rule h
    apply Derives.intro rule'
    intro premise' member
    obtain ⟨premise, earlier, related⟩ := paired_mem below premise' member
    exact ih premise earlier related

end Simulation

end Simulation

end DeployCheck.Analysis
