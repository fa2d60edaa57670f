import DeployCheck.Check
import DeployCheck.Proofs.Tree.Lowering

/-!
# What the check reports

A node violates the rule on runtime access if it reads or calls a member that
has to be known before the deployment, of an existing resource whose name is
not. The check goes through the tree in pre-order and reports every violating
node once, and nothing else.
-/

set_option autoImplicit false

namespace DeployCheck

namespace Model

/-- An expression denotes an existing resource whose body declares a name that is
not readable before the deployment. -/
structure Constrains (m : Model) (base : NodeId) (symbol : Symbol) (body : ObjectType) : Prop where
  denotes : ∃ id, m.target? base = some id ∧ m.bound.symbol? id = some symbol ∧
    m.body? id = some body
  existing : ∃ type collection, symbol.kind = .resource type true collection
  runtime : ∃ p ∈ body.properties.entries,
    Name.same p.name ObjectType.nameProperty = true ∧ p.flags.isReadable = false

/-- A property that is neither the name nor readable before the deployment. -/
def Withholds (body : ObjectType) (name : String) : Prop :=
  Name.same name ObjectType.nameProperty = false ∧
    ¬∃ p ∈ body.properties.entries, Name.same p.name name = true ∧ p.flags.isReadable = true

/-- The accesses to a resource that are against the rules. -/
inductive Violates (m : Model) : NodeId → Symbol → Prop where
  | property {id base : NodeId} {name : Identifier} {symbol : Symbol} {body : ObjectType}
      (here : m.tree.arena.data? id = some (.property base name))
      (constrained : Constrains m base symbol body) (withheld : Withholds body name.name) :
      Violates m id symbol
  | literal {id base index : NodeId} {text : String} {symbol : Symbol} {body : ObjectType}
      (here : m.tree.arena.data? id = some (.index base index))
      (literal : m.tree.arena.data? index = some (.string [text] []))
      (constrained : Constrains m base symbol body) (withheld : Withholds body text) :
      Violates m id symbol
  | interpolated {id base index hole : NodeId} {segments : List String} {holes : List NodeId}
      {symbol : Symbol} {body : ObjectType}
      (here : m.tree.arena.data? id = some (.index base index))
      (selector : m.tree.arena.data? index = some (.string segments (hole :: holes)))
      (constrained : Constrains m base symbol body) : Violates m id symbol
  | call {id base : NodeId} {name : Identifier} {args : List NodeId} {symbol : Symbol}
      {body : ObjectType} (here : m.tree.arena.data? id = some (.instanceCall base name args))
      (constrained : Constrains m base symbol body)
      (inlined : ∃ f ∈ body.functions.entries, Name.same f.name name.name = true ∧
        f.flags.requiresInlining = true) : Violates m id symbol

/-- The error about an access to a resource, at the span of the node. -/
structure Reported (m : Model) (id : NodeId) (symbol : Symbol) (d : Diagnostic) : Prop where
  file : d.file = m.tree.file
  start : d.start = (m.tree.arena.span id).start
  length : d.length = (m.tree.arena.span id).length
  severity : d.severity = .error
  code : d.codeText = "BCP307"
  payload : d.members.map AccessibleMembers.resource = some symbol.name

/-- One error for each violating node of a list, in the order of the list. -/
inductive Reports (m : Model) : List NodeId → List Diagnostic → Prop where
  | nil : Reports m [] []
  | quiet {id : NodeId} {ids : List NodeId} {ds : List Diagnostic}
      (allowed : ¬∃ symbol, Violates m id symbol) (rest : Reports m ids ds) : Reports m (id :: ids) ds
  | error {id : NodeId} {ids : List NodeId} {symbol : Symbol} {d : Diagnostic}
      {ds : List Diagnostic} (violates : Violates m id symbol) (reported : Reported m id symbol d)
      (rest : Reports m ids ds) : Reports m (id :: ids) (d :: ds)

variable {m : Model} {base id : NodeId} {symbol : Symbol} {body : ObjectType}

theorem constrained?_eq_some_iff {a : Access} :
    m.constrained? base = some a ↔
      m.target? base = some a.id ∧ m.bound.symbol? a.id = some a.symbol ∧
        m.body? a.id = some a.body ∧ a.isRuntimeConstrained = true := by
  rw [constrained?, Option.filter_eq_some_iff, access?]
  constructor
  · rintro ⟨h, hr⟩
    simp only [Option.bind_eq_bind, Option.bind_eq_some_iff, Option.pure_def, Option.some.injEq] at h
    obtain ⟨id, hid, symbol, hsymbol, body, hbody, rfl⟩ := h
    exact ⟨hid, hsymbol, hbody, hr⟩
  · rintro ⟨hid, hsymbol, hbody, hr⟩
    refine ⟨?_, hr⟩
    rw [hid]
    change (m.bound.symbol? a.id).bind _ = _
    rw [hsymbol]
    change (m.body? a.id).bind _ = _
    rw [hbody]
    rfl

theorem isRuntimeConstrained_iff {a : Access} :
    a.isRuntimeConstrained = true ↔
      (∃ type collection, a.symbol.kind = .resource type true collection) ∧
        ∃ p ∈ a.body.properties.entries,
          Name.same p.name ObjectType.nameProperty = true ∧ p.flags.isReadable = false := by
  rw [Access.isRuntimeConstrained, Bool.and_eq_true, Symbol.isExistingResource_iff]
  have runtime := Roster.find?_any a.body.properties ObjectType.nameProperty
    fun p => !p.flags.isReadable
  simp only [Bool.not_eq_true'] at runtime
  exact and_congr_right fun _ => runtime

theorem constrained?_iff :
    Constrains m base symbol body ↔
      ∃ a, m.constrained? base = some a ∧ a.symbol = symbol ∧ a.body = body := by
  constructor
  · rintro ⟨⟨id, ht, hs, hb⟩, existing, runtime⟩
    exact ⟨⟨id, symbol, body⟩, constrained?_eq_some_iff.2
      ⟨ht, hs, hb, isRuntimeConstrained_iff.2 ⟨existing, runtime⟩⟩, rfl, rfl⟩
  · rintro ⟨a, ha, rfl, rfl⟩
    obtain ⟨ht, hs, hb, hr⟩ := constrained?_eq_some_iff.1 ha
    obtain ⟨existing, runtime⟩ := isRuntimeConstrained_iff.1 hr
    exact ⟨⟨a.id, ht, hs, hb⟩, existing, runtime⟩

theorem withholds_iff (a : Access) (name : String) :
    Withholds a.body name ↔ a.allowsProperty name = false := by
  have readable : a.body.isReadable name = true ↔ ∃ p ∈ a.body.properties.entries,
      Name.same p.name name = true ∧ p.flags.isReadable = true := by
    have found := Roster.find?_any a.body.properties name fun p => p.flags.isReadable
    refine Iff.trans ?_ found
    rw [ObjectType.isReadable, ObjectType.property?]
    cases a.body.properties.find? name <;> rfl
  rw [Withholds, ← readable, Access.allowsProperty, Bool.or_eq_false_iff, Bool.not_eq_true]

/-- Where strings without holes have one piece of text, the executable test finds
the violations, and the resources they are about. -/
theorem violates_iff (literals : ∀ (n : Nat) (segments : List String),
      m.tree.arena.data? n = some (.string segments []) → segments.length = 1) :
    Violates m id symbol ↔ ∃ a, m.violation? id = some a ∧ a.symbol = symbol := by
  have gate : ∀ (base : NodeId) (p : Access → Bool),
      (∃ a, (m.constrained? base).filter p = some a ∧ a.symbol = symbol) ↔
        ∃ a, m.constrained? base = some a ∧ p a = true ∧ a.symbol = symbol := by
    intro base p
    simp only [Option.filter_eq_some_iff, and_assoc]
  rw [violation?]
  constructor
  · intro h
    cases h with
    | property here constrained withheld =>
      obtain ⟨a, ha, rfl, rfl⟩ := constrained?_iff.1 constrained
      rw [here]
      refine (gate _ _).2 ⟨a, ha, ?_, rfl⟩
      rw [(withholds_iff a _).1 withheld]
      rfl
    | @literal _ _ text _ _ here literal constrained withheld =>
      obtain ⟨a, ha, rfl, rfl⟩ := constrained?_iff.1 constrained
      rw [here]
      refine (gate _ _).2 ⟨a, ha, ?_, rfl⟩
      rw [forbidsIndex, literal]
      change (!a.allowsProperty text) = true
      rw [(withholds_iff a _).1 withheld]
      rfl
    | interpolated here selector constrained =>
      obtain ⟨a, ha, rfl, rfl⟩ := constrained?_iff.1 constrained
      rw [here]
      refine (gate _ _).2 ⟨a, ha, ?_, rfl⟩
      rw [forbidsIndex, selector]
    | call here constrained inlined =>
      obtain ⟨a, ha, rfl, rfl⟩ := constrained?_iff.1 constrained
      rw [here]
      exact (gate _ _).2 ⟨a, ha, (Roster.find?_any _ _ _).2 inlined, rfl⟩
  · intro h
    cases here : m.tree.arena.data? id with
    | none =>
      rw [here] at h
      obtain ⟨_, h, _⟩ := h
      cases h
    | some data =>
      rw [here] at h
      cases data with
      | property base name =>
        obtain ⟨a, ha, hp, rfl⟩ := (gate _ _).1 h
        have constrained := constrained?_iff.2 ⟨a, ha, rfl, rfl⟩
        exact .property here constrained ((withholds_iff a _).2 (by simpa using hp))
      | index base index =>
        obtain ⟨a, ha, hp, rfl⟩ := (gate _ _).1 h
        have constrained := constrained?_iff.2 ⟨a, ha, rfl, rfl⟩
        rw [forbidsIndex] at hp
        split at hp
        · next segments literal =>
          -- The only text of the string is the name that is read.
          obtain ⟨text, rfl⟩ := List.length_eq_one_iff.1 (literals _ _ literal)
          exact .literal here literal constrained ((withholds_iff a _).2 (by simpa using hp))
        · next selector => exact .interpolated here selector constrained
        · cases hp
      | instanceCall base name args =>
        obtain ⟨a, ha, hp, rfl⟩ := (gate _ _).1 h
        have constrained := constrained?_iff.2 ⟨a, ha, rfl, rfl⟩
        exact .call here constrained ((Roster.find?_any _ _ _).1 hp)
      | _ =>
        obtain ⟨_, h, _⟩ := h
        cases h

theorem reported_diagnostic (a : Access) (id : NodeId) :
    Reported m id a.symbol (a.diagnostic m.tree.file (m.tree.arena.span id)) := by
  have code : (a.diagnostic m.tree.file (m.tree.arena.span id)).codeText = "BCP307" := by
    change "BCP" ++ String.ofList (List.replicate (3 - (toString 307).length) '0') ++ toString 307
      = "BCP307"
    decide +kernel
  exact ⟨rfl, rfl, rfl, rfl, code, rfl⟩

theorem reports_filterMap (literals : ∀ (n : Nat) (segments : List String),
      m.tree.arena.data? n = some (.string segments []) → segments.length = 1)
    (order : List NodeId) :
    Reports m order (order.filterMap fun id =>
      (m.violation? id).map fun a => a.diagnostic m.tree.file (m.tree.arena.span id)) := by
  induction order with
  | nil => exact .nil
  | cons id order ih =>
    cases h : m.violation? id with
    | none =>
      rw [List.filterMap_cons, h]
      refine .quiet ?_ ih
      rintro ⟨symbol, violates⟩
      obtain ⟨a, ha, _⟩ := (violates_iff literals).1 violates
      rw [h] at ha
      cases ha
    | some a =>
      rw [List.filterMap_cons, h]
      exact .error ((violates_iff literals).2 ⟨a, h, rfl⟩) (reported_diagnostic a id) ih

theorem build_tree {tree : Tree} {catalog : Catalog} (h : build tree catalog = .ok m) :
    m.tree = tree := by
  obtain ⟨_, _, rfl⟩ := build_eq_ok_iff.1 h
  rfl

/-- The check of a program goes through all nodes of its tree in pre-order, each
once, and reports exactly those that violate the rule. -/
theorem check_reports {file : String} {program : List Declaration} {tree : Tree} {catalog : Catalog}
    (lowered : Tree.ofProgram file program = .ok tree) (built : build tree catalog = .ok m) :
    ∃ order, tree.arena.PreOrder [tree.root] order ∧ order.Perm (List.range tree.arena.size) ∧
      Reports m order m.check := by
  obtain ⟨_, laid⟩ := Tree.ofProgram_root lowered
  have walk : tree.arena.PreOrder [tree.root] (tree.arena.visit tree.root) :=
    Arena.lays_preOrder laid (Nat.le_succ _)
  have literals : ∀ (n : Nat) (segments : List String),
      m.tree.arena.data? n = some (.string segments []) → segments.length = 1 := by
    intro n segments here
    rw [build_tree built] at here
    exact (Tree.ofProgram_node lowered here).1
  refine ⟨tree.arena.visit tree.root, walk, ?_, ?_⟩
  · rw [List.range_eq_range']
    exact Arena.lays_perm laid walk
  · rw [check, ← build_tree built]
    exact reports_filterMap literals _

def tagsOfUnknown : List Declaration :=
  [.resource "r" "T@1" true (.object [("name", .call "reference" [] none)] none) [] none,
    .output "o" (.property (.ident "r" none) "tags" none) none]

theorem check_reports_tagsOfUnknown :
    ∃ tree m order, Tree.ofProgram "main.json" tagsOfUnknown = .ok tree ∧
      build tree .empty = .ok m ∧ order.Perm (List.range tree.arena.size) ∧
      Reports m order m.check ∧ m.check.length = 1 := by
  have run : ((Tree.ofProgram "main.json" tagsOfUnknown).toOption.bind fun tree =>
      (build tree .empty).toOption.map fun m => m.check.length) = some 1 := by
    decide +kernel
  obtain ⟨tree, lowered, run⟩ := Option.bind_eq_some_iff.1 run
  obtain ⟨m, built, one⟩ := Option.map_eq_some_iff.1 run
  have lowered := ok_of_toOption lowered
  have built := ok_of_toOption built
  obtain ⟨order, _, perm, reports⟩ := check_reports lowered built
  exact ⟨tree, m, order, lowered, built, perm, reports, one⟩

end Model

end DeployCheck
