import DeployCheck.Analysis.Bodies
import DeployCheck.Proofs.Tree.Layout
import Mathlib.Data.List.Nodup
import Mathlib.Data.List.Perm.Subperm

/-!
# Derivations

The rules about what is known before the deployment, without tables, without a
limit and without anything that is being worked out. A rule concludes a fact from
its premises, and a fact holds if it has a finite derivation.
-/

set_option autoImplicit false

namespace DeployCheck.Analysis

/-- What can be known before the deployment: the value of an expression, a
property of a resource or module, the identity of a resource. -/
inductive Fact where
  | constant (expression : NodeId)
  | readable (target : SymbolId) (property : String)
  | identity (resource : SymbolId)

inductive Body (arena : Arena) : NodeId → List ObjectEntry → Prop where
  | object {id : NodeId} {entries : List ObjectEntry}
      (here : arena.data? id = some (.object entries)) : Body arena id entries
  | loop {id iterated body : NodeId} {item : Identifier} {index : Option Identifier}
      {entries : List ObjectEntry} (here : arena.data? id = some (.loop item index iterated body))
      (inner : Body arena body entries) : Body arena id entries
  | condition {id condition body : NodeId} {entries : List ObjectEntry}
      (here : arena.data? id = some (.condition condition body))
      (inner : Body arena body entries) : Body arena id entries

namespace Subject

variable (s : Subject)

def named? (id : NodeId) : Option Symbol := (s.bound.nameSymbol? id).bind s.bound.symbol?

def declaredType (type : TypeReference) : ObjectType := (s.catalog.lookup type).getD (.generic type)

/-- The parent that the body of a resource states, or else the resource around it. -/
def parentOf? (symbol : Symbol) (entries : List ObjectEntry) : Option SymbolId :=
  ((keyed? entries parentProperty).bind s.target?).or symbol.parent?

end Subject

/-- The rules: a fact, and the premises it follows from. -/
inductive Rule (s : Subject) : Fact → List Fact → Prop where
  | int {id : NodeId} {value : Int} (here : s.tree.arena.data? id = some (.int value)) :
      Rule s (.constant id) []
  | bool {id : NodeId} {value : Bool} (here : s.tree.arena.data? id = some (.bool value)) :
      Rule s (.constant id) []
  | null {id : NodeId} (here : s.tree.arena.data? id = some .null) : Rule s (.constant id) []
  | string {id : NodeId} {segments : List String} {holes : List NodeId}
      (here : s.tree.arena.data? id = some (.string segments holes)) :
      Rule s (.constant id) (holes.map .constant)
  | array {id : NodeId} {items : List NodeId}
      (here : s.tree.arena.data? id = some (.array items)) :
      Rule s (.constant id) (items.map .constant)
  | object {id : NodeId} {entries : List ObjectEntry}
      (here : s.tree.arena.data? id = some (.object entries)) :
      Rule s (.constant id) ((entries.map ObjectEntry.value).map .constant)
  | param {id : NodeId} {name : Identifier} {symbol : Symbol}
      (here : s.tree.arena.data? id = some (.ident name)) (named : s.named? id = some symbol)
      (kind : symbol.kind = .param) : Rule s (.constant id) []
  | var {id value : NodeId} {name declared : Identifier} {symbol : Symbol}
      (here : s.tree.arena.data? id = some (.ident name)) (named : s.named? id = some symbol)
      (kind : symbol.kind = .var)
      (declaration : s.tree.arena.data? symbol.declaration = some (.var declared value)) :
      Rule s (.constant id) [.constant value]
  | loopItem {id loop iterated body : NodeId} {name item : Identifier} {index : Option Identifier}
      {symbol : Symbol} (here : s.tree.arena.data? id = some (.ident name))
      (named : s.named? id = some symbol) (kind : symbol.kind = .loopItem loop)
      (source : s.tree.arena.data? loop = some (.loop item index iterated body)) :
      Rule s (.constant id) [.constant iterated]
  | loopIndex {id loop : NodeId} {name : Identifier} {symbol : Symbol}
      (here : s.tree.arena.data? id = some (.ident name)) (named : s.named? id = some symbol)
      (kind : symbol.kind = .loopIndex loop) : Rule s (.constant id) []
  | propertyOfTarget {id base : NodeId} {name : Identifier} {target : SymbolId}
      (here : s.tree.arena.data? id = some (.property base name))
      (resolved : s.target? base = some target) :
      Rule s (.constant id) [.readable target name.name]
  | property {id base : NodeId} {name : Identifier}
      (here : s.tree.arena.data? id = some (.property base name))
      (unresolved : s.target? base = none) : Rule s (.constant id) [.constant base]
  | indexOfTarget {id base index : NodeId} {data : NodeData} {name : String} {target : SymbolId}
      (here : s.tree.arena.data? id = some (.index base index))
      (resolved : s.target? base = some target) (selector : s.tree.arena.data? index = some data)
      (literal : data.literal? = some name) : Rule s (.constant id) [.readable target name]
  | index {id base index : NodeId} (here : s.tree.arena.data? id = some (.index base index))
      (unresolved : s.target? base = none) : Rule s (.constant id) [.constant base, .constant index]
  | call {id : NodeId} {name : Identifier} {args : List NodeId} {function : FunctionType}
      (here : s.tree.arena.data? id = some (.call name args))
      (found : Builtin.find? name.name = some function)
      (plain : function.flags.requiresInlining = false) :
      Rule s (.constant id) (args.map .constant)
  | paren {id inner : NodeId} (here : s.tree.arena.data? id = some (.paren inner)) :
      Rule s (.constant id) [.constant inner]
  | unary {id operand : NodeId} {operator : UnaryOperator}
      (here : s.tree.arena.data? id = some (.unary operator operand)) :
      Rule s (.constant id) [.constant operand]
  | binary {id left right : NodeId} {operator : BinaryOperator}
      (here : s.tree.arena.data? id = some (.binary operator left right)) :
      Rule s (.constant id) [.constant left, .constant right]
  | ternary {id condition whenTrue whenFalse : NodeId}
      (here : s.tree.arena.data? id = some (.ternary condition whenTrue whenFalse)) :
      Rule s (.constant id) [.constant condition, .constant whenTrue, .constant whenFalse]
  /-- A property that the flag in the type decides about. -/
  | typed {id : SymbolId} {symbol : Symbol} {type : TypeReference} {existing collection : Bool}
      {property : String} (found : s.bound.symbol? id = some symbol)
      (kind : symbol.kind = .resource type existing collection)
      (other : existing = false ∨ Name.same property ObjectType.nameProperty = false)
      (flagged : (s.declaredType type).isReadable property = true) :
      Rule s (.readable id property) []
  /-- The name of an existing resource is readable if its identity is known. -/
  | name {id : SymbolId} {symbol : Symbol} {type : TypeReference} {collection : Bool}
      {property : String} (found : s.bound.symbol? id = some symbol)
      (kind : symbol.kind = .resource type true collection)
      (same : Name.same property ObjectType.nameProperty = true)
      (declared : ((s.declaredType type).property? property).isSome = true) :
      Rule s (.readable id property) [.identity id]
  | module {id : SymbolId} {symbol : Symbol} {path : String} {collection : Bool}
      {property : String} (found : s.bound.symbol? id = some symbol)
      (kind : symbol.kind = .module path collection)
      (flagged : (ObjectType.ofModule path).isReadable property = true) :
      Rule s (.readable id property) []
  | identity {id : SymbolId} {symbol : Symbol} {type : TypeReference} {existing collection ex : Bool}
      {name : Identifier} {text : String} {body value : NodeId} {nested : List NodeId}
      {entries : List ObjectEntry} (found : s.bound.symbol? id = some symbol)
      (kind : symbol.kind = .resource type existing collection)
      (own : symbol.module? = none)
      (declaration : s.tree.arena.data? symbol.declaration =
        some (.resource name text ex body nested))
      (inside : Body s.tree.arena body entries)
      (identifies : keyed? entries ObjectType.nameProperty = some value) :
      Rule s (.identity id) (.constant value ::
        (((keyed? entries scopeProperty).toList.map .constant) ++
          (s.parentOf? symbol entries).toList.map (.readable · ObjectType.nameProperty)))

inductive Derives (s : Subject) : Fact → Prop where
  | intro {fact : Fact} {premises : List Fact} (rule : Rule s fact premises)
      (all : ∀ premise ∈ premises, Derives s premise) : Derives s fact

/-- Facts are circular if every rule for one of them has one of them among its
premises. -/
def Circular (s : Subject) (facts : Fact → Prop) : Prop :=
  ∀ fact, facts fact → ∀ premises, Rule s fact premises → ∃ premise ∈ premises, facts premise

variable {s : Subject}

theorem not_derives_of_circular {facts : Fact → Prop} (circular : Circular s facts) {fact : Fact}
    (derives : Derives s fact) : ¬facts fact := by
  induction derives with
  | intro rule _ ih =>
    intro member
    obtain ⟨premise, hm, hp⟩ := circular _ member _ rule
    exact ih premise hm hp

section Bodies

variable {arena : Arena} {id : NodeId} {entries : List ObjectEntry}

theorem body_of_bodyEntries? {depth : Nat} (h : bodyEntries? arena depth id = some entries) :
    Body arena id entries := by
  induction depth generalizing id with
  | zero => cases h
  | succ depth ih =>
    rw [bodyEntries?] at h
    split at h
    · next here =>
      cases h
      exact .object here
    · next here => exact .loop here (ih h)
    · next here => exact .condition here (ih h)
    · cases h

theorem bodyEntries?_succ {depth : Nat} (h : bodyEntries? arena depth id = some entries) :
    bodyEntries? arena (depth + 1) id = some entries := by
  induction depth generalizing id with
  | zero => cases h
  | succ depth ih =>
    rw [bodyEntries?] at h ⊢
    split at h
    · exact h
    · exact ih h
    · exact ih h
    · cases h

theorem bodyEntries?_mono {depth depth' : Nat} (le : depth ≤ depth')
    (h : bodyEntries? arena depth id = some entries) :
    bodyEntries? arena depth' id = some entries := by
  induction le with
  | refl => exact h
  | step _ ih => exact bodyEntries?_succ ih

theorem bodyEntries?_nodes {depth : Nat} (h : bodyEntries? arena (depth + 1) id = some entries)
    (short : bodyEntries? arena depth id = none) :
    ∃ nodes : List Nat, nodes.length = depth + 1 ∧ nodes.Nodup ∧
      ∀ n ∈ nodes, n < arena.size ∧ (bodyEntries? arena (depth + 1) n).isSome = true := by
  induction depth generalizing id with
  | zero =>
    have here : id < arena.size := by
      rw [bodyEntries?] at h
      split at h
      · next here => exact Arena.data?_lt here
      · next here => exact Arena.data?_lt here
      · next here => exact Arena.data?_lt here
      · cases h
    refine ⟨[id], rfl, List.nodup_singleton id, fun n hn => ?_⟩
    rw [List.mem_singleton.1 hn, h]
    exact ⟨here, rfl⟩
  | succ depth ih =>
    have inner : id < arena.size ∧ ∃ body, bodyEntries? arena (depth + 1) body = some entries ∧
        bodyEntries? arena depth body = none := by
      rw [bodyEntries?] at h short
      split at h
      · next here =>
        rw [here] at short
        cases short
      · next here =>
        rw [here] at short
        exact ⟨Arena.data?_lt here, _, h, short⟩
      · next here =>
        rw [here] at short
        exact ⟨Arena.data?_lt here, _, h, short⟩
      · cases h
    obtain ⟨here, body, hbody, hshort⟩ := inner
    obtain ⟨nodes, length, nodup, all⟩ := ih hbody hshort
    refine ⟨id :: nodes, by rw [List.length_cons, length], List.nodup_cons.2 ⟨fun hm => ?_, nodup⟩,
      fun n hn => ?_⟩
    -- A node that came again would do with less depth.
    · have := (all id hm).2
      rw [short] at this
      cases this
    · rcases List.mem_cons.1 hn with rfl | hn
      · rw [h]
        exact ⟨here, rfl⟩
      · obtain ⟨hlt, hsome⟩ := all n hn
        obtain ⟨e, he⟩ := Option.isSome_iff_exists.1 hsome
        rw [bodyEntries?_succ he]
        exact ⟨hlt, rfl⟩

theorem exists_bodyEntries? (h : Body arena id entries) :
    ∃ depth, bodyEntries? arena depth id = some entries := by
  induction h with
  | object here =>
    refine ⟨1, ?_⟩
    rw [bodyEntries?, here]
  | loop here _ ih =>
    obtain ⟨depth, ih⟩ := ih
    refine ⟨depth + 1, ?_⟩
    rw [bodyEntries?, here]
    exact ih
  | condition here _ ih =>
    obtain ⟨depth, ih⟩ := ih
    refine ⟨depth + 1, ?_⟩
    rw [bodyEntries?, here]
    exact ih

theorem bodyEntries?_iff :
    bodyEntries? arena (arena.size + 1) id = some entries ↔ Body arena id entries := by
  refine ⟨body_of_bodyEntries?, fun h => ?_⟩
  obtain ⟨depth, hdepth⟩ := exists_bodyEntries? h
  induction depth with
  | zero => cases hdepth
  | succ depth ih =>
    cases short : bodyEntries? arena depth id with
    | some entries' =>
      have same := bodyEntries?_succ short
      rw [hdepth] at same
      cases same
      exact ih short
    | none =>
      obtain ⟨nodes, length, nodup, all⟩ := bodyEntries?_nodes hdepth short
      have bound : nodes.length ≤ (List.range arena.size).length :=
        (List.subperm_of_subset nodup fun n hn => List.mem_range.2 (all n hn).1).length_le
      rw [length, List.length_range] at bound
      exact bodyEntries?_mono (Nat.le_succ_of_le bound) hdepth

end Bodies

namespace Subject

variable (s : Subject)

def definitionPremises (symbol : Symbol) : Option (List Fact) :=
  match symbol.kind with
  | .param | .loopIndex _ => some []
  | .var => match s.tree.arena.data? symbol.declaration with
    | some (.var _ value) => some [.constant value]
    | _ => none
  | .loopItem loop => match s.tree.arena.data? loop with
    | some (.loop _ _ iterated _) => some [.constant iterated]
    | _ => none
  | _ => none

def constantPremises (id : NodeId) : Option (List Fact) :=
  match s.tree.arena.data? id with
  | some (.int _) | some (.bool _) | some .null => some []
  | some (.string _ holes) => some (holes.map .constant)
  | some (.array items) => some (items.map .constant)
  | some (.object entries) => some ((entries.map ObjectEntry.value).map .constant)
  | some (.ident _) => (s.named? id).bind s.definitionPremises
  | some (.property base name) => match s.target? base with
    | some target => some [.readable target name.name]
    | none => some [.constant base]
  | some (.index base index) => match s.target? base with
    | some target => ((s.tree.arena.data? index).bind NodeData.literal?).map fun name =>
      [.readable target name]
    | none => some [.constant base, .constant index]
  | some (.call name args) => match Builtin.find? name.name with
    | some f => if f.flags.requiresInlining then none else some (args.map .constant)
    | none => none
  | some (.paren inner) => some [.constant inner]
  | some (.unary _ operand) => some [.constant operand]
  | some (.binary _ left right) => some [.constant left, .constant right]
  | some (.ternary c t f) => some [.constant c, .constant t, .constant f]
  | _ => none

def readablePremises (id : SymbolId) (symbol : Symbol) (property : String) : Option (List Fact) :=
  match symbol.kind with
  | .resource type existing _ =>
    if existing && Name.same property ObjectType.nameProperty then
      if ((s.declaredType type).property? property).isSome then some [.identity id] else none
    else if (s.declaredType type).isReadable property then some [] else none
  | .module path _ => if (ObjectType.ofModule path).isReadable property then some [] else none
  | _ => none

def identityPremises (symbol : Symbol) : Option (List Fact) :=
  match symbol.kind with
  | .resource .. =>
    if symbol.module?.isSome then none
    else match declaredEntries? s symbol with
      | none => none
      | some entries => (keyed? entries ObjectType.nameProperty).map fun value =>
        .constant value :: (((keyed? entries scopeProperty).toList.map .constant) ++
          (s.parentOf? symbol entries).toList.map (.readable · ObjectType.nameProperty))
  | _ => none

def premises : Fact → Option (List Fact)
  | .constant id => s.constantPremises id
  | .readable id property => (s.bound.symbol? id).bind fun symbol =>
    s.readablePremises id symbol property
  | .identity id => (s.bound.symbol? id).bind s.identityPremises

end Subject

theorem premises_of_rule {fact : Fact} {ps : List Fact} (h : Rule s fact ps) :
    s.premises fact = some ps := by
  cases h with
  | @identity id symbol type existing collection ex name text body value nested entries found kind
      own declaration inside identifies =>
    have declared : declaredEntries? s symbol = some entries := by
      rw [declaredEntries?, declaration]
      exact bodyEntries?_iff.2 inside
    simp [Subject.premises, Subject.identityPremises, found, kind, own, declared, identifies]
  | call here found plain => simp [Subject.premises, Subject.constantPremises, here, found, plain]
  | param here named kind | loopIndex here named kind =>
    simp [Subject.premises, Subject.constantPremises, Subject.definitionPremises, here, named, kind]
  | var here named kind declaration | loopItem here named kind declaration =>
    simp [Subject.premises, Subject.constantPremises, Subject.definitionPremises, here, named, kind,
      declaration]
  | propertyOfTarget here resolved | property here resolved | index here resolved =>
    simp [Subject.premises, Subject.constantPremises, here, resolved]
  | indexOfTarget here resolved selector literal =>
    simp [Subject.premises, Subject.constantPremises, here, resolved, selector, literal]
  | typed found kind other flagged =>
    have own : ¬(_ = true ∧ _ = true) := fun h => by
      rcases other with other | other
      · exact Bool.noConfusion (other.symm.trans h.1)
      · exact Bool.noConfusion (other.symm.trans h.2)
    simp [Subject.premises, Subject.readablePremises, found, kind, own, flagged]
  | name found kind same declared =>
    simp [Subject.premises, Subject.readablePremises, found, kind, same, declared]
  | module found kind flagged =>
    simp [Subject.premises, Subject.readablePremises, found, kind, flagged]
  | _ here => simp [Subject.premises, Subject.constantPremises, here]

theorem rule_of_definitionPremises {id : NodeId} {name : Identifier} {symbol : Symbol}
    {ps : List Fact} (here : s.tree.arena.data? id = some (.ident name))
    (named : s.named? id = some symbol) (h : s.definitionPremises symbol = some ps) :
    Rule s (.constant id) ps := by
  rw [Subject.definitionPremises] at h
  split at h
  · next kind =>
    cases h
    exact .param here named kind
  · next kind =>
    cases h
    exact .loopIndex here named kind
  · next kind =>
    split at h
    · next declaration =>
      cases h
      exact .var here named kind declaration
    · cases h
  · next kind =>
    split at h
    · next source =>
      cases h
      exact .loopItem here named kind source
    · cases h
  · cases h

theorem rule_of_constantPremises {id : NodeId} {ps : List Fact}
    (h : s.constantPremises id = some ps) : Rule s (.constant id) ps := by
  rw [Subject.constantPremises] at h
  split at h
  · next here => cases h; exact .int here
  · next here => cases h; exact .bool here
  · next here => cases h; exact .null here
  · next here => cases h; exact .string here
  · next here => cases h; exact .array here
  · next here => cases h; exact .object here
  · next here =>
    obtain ⟨symbol, named, h⟩ := Option.bind_eq_some_iff.1 h
    exact rule_of_definitionPremises here named h
  · next here =>
    split at h
    · next resolved => cases h; exact .propertyOfTarget here resolved
    · next unresolved => cases h; exact .property here unresolved
  · next here =>
    split at h
    · next resolved =>
      obtain ⟨name, found, h⟩ := Option.map_eq_some_iff.1 h
      obtain ⟨data, selector, literal⟩ := Option.bind_eq_some_iff.1 found
      cases h
      exact .indexOfTarget here resolved selector literal
    · next unresolved => cases h; exact .index here unresolved
  · next here =>
    split at h
    · next found =>
      split at h
      · cases h
      · next plain => cases h; exact .call here found (Bool.eq_false_iff.2 plain)
    · cases h
  · next here => cases h; exact .paren here
  · next here => cases h; exact .unary here
  · next here => cases h; exact .binary here
  · next here => cases h; exact .ternary here
  · cases h

theorem rule_of_readablePremises {id : SymbolId} {symbol : Symbol} {property : String}
    {ps : List Fact} (found : s.bound.symbol? id = some symbol)
    (h : s.readablePremises id symbol property = some ps) : Rule s (.readable id property) ps := by
  rw [Subject.readablePremises] at h
  split at h
  · next type existing collection kind =>
    split at h
    · next own =>
      obtain ⟨rfl, same⟩ := Bool.and_eq_true_iff.1 own
      split at h
      · next declared => cases h; exact .name found kind same declared
      · cases h
    · next other =>
      split at h
      · next flagged =>
        cases h
        refine .typed found kind ?_ flagged
        rw [← Bool.and_eq_false_iff]
        exact Bool.eq_false_iff.2 other
      · cases h
  · next kind =>
    split at h
    · next flagged => cases h; exact .module found kind flagged
    · cases h
  · cases h

theorem rule_of_identityPremises {id : SymbolId} {symbol : Symbol} {ps : List Fact}
    (found : s.bound.symbol? id = some symbol) (h : s.identityPremises symbol = some ps) :
    Rule s (.identity id) ps := by
  rw [Subject.identityPremises] at h
  split at h
  · next kind =>
    split at h
    · cases h
    · next own =>
      split at h
      · cases h
      · next entries declared =>
        obtain ⟨value, identifies, h⟩ := Option.map_eq_some_iff.1 h
        cases h
        rw [declaredEntries?] at declared
        split at declared
        · next declaration =>
          exact .identity found kind (Option.not_isSome_iff_eq_none.1 own) declaration
            (bodyEntries?_iff.1 declared) identifies
        · cases declared
  · cases h

theorem rule_iff {fact : Fact} {ps : List Fact} : Rule s fact ps ↔ s.premises fact = some ps := by
  refine ⟨premises_of_rule, fun h => ?_⟩
  cases fact with
  | constant id => exact rule_of_constantPremises h
  | readable id property =>
    obtain ⟨symbol, found, h⟩ := Option.bind_eq_some_iff.1 h
    exact rule_of_readablePremises found h
  | identity id =>
    obtain ⟨symbol, found, h⟩ := Option.bind_eq_some_iff.1 h
    exact rule_of_identityPremises found h

theorem data_of_rule {id : NodeId} {ps : List Fact} (h : Rule s (.constant id) ps) :
    ∃ data, s.tree.arena.data? id = some data := by
  have found := premises_of_rule h
  rw [Subject.premises, Subject.constantPremises] at found
  cases here : s.tree.arena.data? id with
  | some data => exact ⟨data, rfl⟩
  | none =>
    rw [here] at found
    cases found

theorem rule_unique {fact : Fact} {ps qs : List Fact} (h : Rule s fact ps) (h' : Rule s fact qs) :
    ps = qs := by
  have same := premises_of_rule h
  rw [premises_of_rule h'] at same
  exact (Option.some.inj same).symm

theorem derives_iff {fact : Fact} {ps : List Fact} (rule : Rule s fact ps) :
    Derives s fact ↔ ∀ premise ∈ ps, Derives s premise := by
  constructor
  · rintro ⟨rule', all⟩
    rw [rule_unique rule rule']
    exact all
  · exact .intro rule

section Answers

variable {m : Type → Type} [Monad m]

def ask (constant : NodeId → m Bool) (body : SymbolId → m (Option ObjectType)) : Fact → m Bool
  | .constant id => constant id
  | .readable target property => readable body target property
  | .identity _ => return false

def judge (asked : Fact → m Bool) : Option (List Fact) → m Bool
  | some ps => ps.allM asked
  | none => return false

variable [LawfulMonad m] (constant : NodeId → m Bool) (body : SymbolId → m (Option ObjectType))

theorem allM_singleton {α : Type} (p : α → m Bool) (a : α) : [a].allM p = p a := by
  calc [a].allM p = p a >>= pure := bind_congr fun b => by cases b <;> rfl
    _ = p a := bind_pure _

omit [LawfulMonad m] in
theorem allM_constant (ids : List NodeId) :
    (ids.map Fact.constant).allM (ask constant body) = ids.allM constant := by
  induction ids with
  | nil => rfl
  | cons id ids ih =>
    rw [List.map_cons, List.allM, List.allM, ih]
    rfl

theorem nameIsConstant_eq (id : NodeId) :
    nameIsConstant s constant id =
      judge (ask constant body) ((s.named? id).bind s.definitionPremises) := by
  rw [nameIsConstant, Subject.named?]
  cases (s.bound.nameSymbol? id).bind s.bound.symbol? with
  | none => rfl
  | some symbol =>
    rw [Option.bind_some, Subject.definitionPremises]
    dsimp only
    cases symbol.kind with
    | var =>
      dsimp only
      cases s.tree.arena.data? symbol.declaration with
      | none => rfl
      | some data =>
        cases data with
        | var name value => exact (allM_singleton ..).symm
        | _ => rfl
    | loopItem loop =>
      dsimp only
      cases s.tree.arena.data? loop with
      | none => rfl
      | some data =>
        cases data with
        | loop item index iterated body => exact (allM_singleton ..).symm
        | _ => rfl
    | _ => rfl

theorem expressionIsConstant_eq (id : NodeId) :
    expressionIsConstant s constant body id =
      judge (ask constant body) (s.premises (.constant id)) := by
  rw [expressionIsConstant, Subject.premises, Subject.constantPremises]
  cases s.tree.arena.data? id with
  | none => rfl
  | some data =>
    cases data with
    | string _ _ | array _ | object _ => exact (allM_constant constant body _).symm
    | ident _ => exact nameIsConstant_eq constant body id
    | property base name =>
      dsimp only
      cases s.target? base with
      | none => exact (allM_singleton ..).symm
      | some target => exact (allM_singleton ..).symm
    | index base index =>
      dsimp only
      cases s.target? base with
      | none => exact (allM_constant constant body [base, index]).symm
      | some target =>
        dsimp only
        cases (s.tree.arena.data? index).bind NodeData.literal? with
        | none => rfl
        | some name => exact (allM_singleton ..).symm
    | call name args =>
      dsimp only
      cases Builtin.find? name.name with
      | none => rfl
      | some f =>
        dsimp only
        cases f.flags.requiresInlining with
        | true => rfl
        | false => exact (allM_constant constant body args).symm
    | paren _ | unary _ _ => exact (allM_singleton ..).symm
    | binary left right => exact (allM_constant constant body [_, _]).symm
    | ternary c t f => exact (allM_constant constant body [_, _, _]).symm
    | _ => rfl

theorem identityIsConstant_eq {id : SymbolId} {symbol : Symbol} {type : TypeReference}
    {existing collection : Bool} (found : s.bound.symbol? id = some symbol)
    (kind : symbol.kind = .resource type existing collection) :
    identityIsConstant s constant body symbol =
      judge (ask constant body) (s.premises (.identity id)) := by
  rw [identityIsConstant, Subject.premises, found, Option.bind_some, Subject.identityPremises, kind]
  dsimp only
  cases symbol.module? with
  | some _ => rfl
  | none =>
    cases declaredEntries? s symbol with
    | none => rfl
    | some entries =>
      dsimp only
      cases keyed? entries ObjectType.nameProperty with
      | none => rfl
      | some value =>
        refine bind_congr fun known => ?_
        cases known with
        | false => rfl
        | true =>
          have parents : (match s.parentOf? symbol entries with
              | some parent => readable body parent ObjectType.nameProperty
              | none => pure true) = ((s.parentOf? symbol entries).toList.map
                (Fact.readable · ObjectType.nameProperty)).allM (ask constant body) := by
            cases s.parentOf? symbol entries with
            | none => rfl
            | some parent => exact (allM_singleton ..).symm
          dsimp only
          cases keyed? entries scopeProperty with
          | none => exact (pure_bind ..).trans parents
          | some scope =>
            refine bind_congr fun known => ?_
            cases known with
            | false => rfl
            | true => exact parents

end Answers

end DeployCheck.Analysis
