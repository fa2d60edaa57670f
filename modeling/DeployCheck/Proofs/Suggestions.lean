import DeployCheck.Proofs.Violations

/-!
# The members that a report suggests

A report lists the properties and functions that may be used instead. The lists are made by
going through the body in its order, while the decision looks names up in it. Both agree,
because no two entries of a body have one name.
-/

set_option autoImplicit false

namespace DeployCheck

theorem Roster.find?_any_filter {α : Type} [Named α] (r : Roster α) (name : String)
    (p : α → Bool) : (r.find? name).any p = true ↔
      ∃ e ∈ r.entries.filter p, Name.same (Named.name e) name = true := by
  rw [find?_any]
  simp only [List.mem_filter]
  constructor
  · rintro ⟨e, member, same, holds⟩
    exact ⟨e, ⟨member, holds⟩, same⟩
  · rintro ⟨e, ⟨member, holds⟩, same⟩
    exact ⟨e, member, same, holds⟩

namespace Access

variable (a : Access)

def listed : List Property :=
  a.body.properties.entries.filter fun p =>
    p.flags.isReadable && !Name.same p.name ObjectType.nameProperty

theorem properties_eq : a.properties = a.listed.map Property.name ++ [ObjectType.nameProperty] :=
  rfl

theorem listed_iff {p : Property} : p ∈ a.listed ↔ p ∈ a.body.properties.entries ∧
    p.flags.isReadable = true ∧ Name.same p.name ObjectType.nameProperty = false := by
  rw [listed, List.mem_filter, Bool.and_eq_true, Bool.not_eq_true']

theorem listed_names_iff {p : Property} (member : p ∈ a.body.properties.entries) :
    p.name ∈ a.listed.map Property.name ↔
      p.flags.isReadable = true ∧ Name.same p.name ObjectType.nameProperty = false := by
  constructor
  · intro named
    obtain ⟨q, there, spelled⟩ := List.mem_map.1 named
    obtain ⟨inside, facts⟩ := a.listed_iff.1 there
    have own : a.body.properties.find? p.name = some p := Roster.find?_mem member (Name.same_refl _)
    have other : a.body.properties.find? p.name = some q :=
      Roster.find?_mem inside (spelled ▸ Name.same_refl _)
    cases own.symm.trans other
    exact facts
  · exact fun facts => List.mem_map_of_mem (a.listed_iff.2 ⟨member, facts⟩)

theorem properties_distinct :
    a.properties.Pairwise fun left right => Name.same left right = false := by
  rw [properties_eq, List.pairwise_append]
  refine ⟨?_, List.pairwise_singleton _ _, ?_⟩
  · rw [List.pairwise_map]
    exact a.body.properties.distinct.filter _
  · intro left member right last
    obtain ⟨p, inside, rfl⟩ := List.mem_map.1 member
    rw [List.mem_singleton.1 last]
    exact (a.listed_iff.1 inside).2.2

theorem properties_name : a.properties.filter (Name.same · ObjectType.nameProperty) =
    [ObjectType.nameProperty] := by
  have others : (a.listed.map Property.name).filter (Name.same · ObjectType.nameProperty) = [] := by
    rw [List.filter_eq_nil_iff]
    intro name member
    obtain ⟨p, inside, rfl⟩ := List.mem_map.1 member
    rw [(a.listed_iff.1 inside).2.2]
    exact Bool.false_ne_true
  rw [properties_eq, List.filter_append, others, List.nil_append, List.filter_singleton,
    Name.same_refl]
  rfl

theorem allowsProperty_iff (name : String) :
    a.allowsProperty name = true ↔ ∃ p ∈ a.properties, Name.same p name = true := by
  have readable : a.body.isReadable name = true ↔ ∃ p ∈ a.body.properties.entries,
      Name.same p.name name = true ∧ p.flags.isReadable = true := by
    refine Iff.trans ?_ (Roster.find?_any a.body.properties name fun p => p.flags.isReadable)
    rw [ObjectType.isReadable, ObjectType.property?]
    cases a.body.properties.find? name <;> rfl
  rw [allowsProperty, Bool.or_eq_true, readable, properties_eq]
  constructor
  · rintro (own | ⟨p, member, same, flagged⟩)
    · refine ⟨ObjectType.nameProperty, by simp, ?_⟩
      rwa [Name.same_comm]
    · cases identity : Name.same p.name ObjectType.nameProperty with
      | true =>
        refine ⟨ObjectType.nameProperty, by simp, ?_⟩
        rw [Name.same_comm] at identity
        exact Name.same_trans identity same
      | false =>
        have named := List.mem_map_of_mem (f := Property.name)
          (a.listed_iff.2 ⟨member, flagged, identity⟩)
        exact ⟨p.name, List.mem_append_left _ named, same⟩
  · rintro ⟨listed, member, same⟩
    rcases List.mem_append.1 member with named | last
    · obtain ⟨p, inside, rfl⟩ := List.mem_map.1 named
      obtain ⟨there, flagged, _⟩ := a.listed_iff.1 inside
      exact .inr ⟨p, there, same, flagged⟩
    · rw [List.mem_singleton.1 last, Name.same_comm] at same
      exact .inl same

theorem allowsFunction_iff {name : String} {f : FunctionType}
    (found : a.body.function? name = some f) :
    f.flags.requiresInlining = false ↔ ∃ g ∈ a.functions, Name.same g name = true := by
  have known : a.body.functions.find? name = some f := found
  have allowed := Roster.find?_any_filter a.body.functions name fun f => !f.flags.requiresInlining
  rw [known, Option.any_some, Bool.not_eq_true'] at allowed
  rw [allowed, functions]
  constructor
  · rintro ⟨g, member, same⟩
    exact ⟨g.name, List.mem_map_of_mem member, same⟩
  · rintro ⟨_, member, same⟩
    obtain ⟨g, inside, rfl⟩ := List.mem_map.1 member
    exact ⟨g, inside, same⟩

end Access

namespace Model

def report? (m : Model) (id : NodeId) : Option Diagnostic :=
  (m.violation? id).map fun a => a.diagnostic m.tree.file (m.tree.arena.span id)

variable {m : Model} {base id : NodeId} {a : Access}

theorem check_eq_filterMap : m.check = (m.tree.arena.visit m.tree.root).filterMap m.report? := rfl

theorem report?_isSome : (m.report? id).isSome = (m.violation? id).isSome :=
  Option.isSome_map ..

theorem filter_isSome {α : Type} {o : Option α} {x : α} (p : α → Bool) (known : o = some x) :
    (o.filter p).isSome = p x := by
  rw [known, Option.filter_some]
  cases p x <;> rfl

theorem violation?_base (constrained : m.constrained? base = some a)
    (first : (m.tree.arena.children id).head? = some base) {b : Access}
    (violates : m.violation? id = some b) : b = a := by
  rw [violation?] at violates
  rw [Arena.children] at first
  cases here : m.tree.arena.data? id with
  | none =>
    rw [here] at violates
    cases violates
  | some data =>
    rw [here] at violates first
    have filtered : ∀ p : Access → Bool, (m.constrained? base).filter p = some b → b = a := by
      intro p found
      rw [constrained] at found
      exact (Option.some.inj (Option.filter_eq_some_iff.1 found).1).symm
    cases data with
    | property _ _ | index _ _ | instanceCall _ _ _ =>
      cases first
      exact filtered _ violates
    | _ => cases violates

/-- Of an existing resource whose name is known at runtime only, exactly the suggested
properties may be read, and of the functions of its body exactly the suggested ones may be
called. Every report lists them. No two suggested properties are the same; the name comes
last and only there, behind the other readable properties in the order of the body. -/
theorem suggestions_exact (constrained : m.constrained? base = some a) :
    m.check = (m.tree.arena.visit m.tree.root).filterMap m.report? ∧
      (∀ id name, m.tree.arena.data? id = some (.property base name) →
        ((m.report? id).isSome = true ↔ ∀ p ∈ a.properties, Name.same p name.name = false)) ∧
      (∀ id name args f, m.tree.arena.data? id = some (.instanceCall base name args) →
        a.body.function? name.name = some f →
        ((m.report? id).isSome = true ↔ ∀ g ∈ a.functions, Name.same g name.name = false)) ∧
      (∀ id d, (m.tree.arena.children id).head? = some base → m.report? id = some d →
        d.members = some ⟨a.symbol.name, a.properties, a.functions⟩) ∧
      (a.properties.Pairwise fun left right => Name.same left right = false) ∧
      a.properties.filter (Name.same · ObjectType.nameProperty) = [ObjectType.nameProperty] ∧
      ∃ others, a.properties = others ++ [ObjectType.nameProperty] ∧
        others.Sublist (a.body.properties.entries.map Property.name) ∧
        ∀ p ∈ a.body.properties.entries, p.name ∈ others ↔
          p.flags.isReadable = true ∧ Name.same p.name ObjectType.nameProperty = false := by
  have none_same : ∀ (names : List String) (name : String),
      (∀ p ∈ names, Name.same p name = false) ↔ ¬∃ p ∈ names, Name.same p name = true := by
    intro names name
    simp
  refine ⟨check_eq_filterMap, ?_, ?_, ?_, a.properties_distinct, a.properties_name,
    a.listed.map Property.name, a.properties_eq, ?_, fun p => a.listed_names_iff⟩
  · intro id name here
    have decided : (m.violation? id).isSome = !a.allowsProperty name.name := by
      rw [violation?, here]
      exact filter_isSome _ constrained
    rw [report?_isSome, decided, none_same, ← a.allowsProperty_iff, Bool.not_eq_true',
      Bool.not_eq_true]
  · intro id name args f here found
    have decided : (m.violation? id).isSome = f.flags.requiresInlining := by
      have called : (a.body.function? name.name).any (·.flags.requiresInlining) =
          f.flags.requiresInlining := by rw [found, Option.any_some]
      rw [violation?, here, ← called]
      exact filter_isSome _ constrained
    rw [report?_isSome, decided, none_same, ← a.allowsFunction_iff found, Bool.not_eq_false]
  · intro id d first reported
    obtain ⟨b, violates, rfl⟩ := Option.map_eq_some_iff.1 reported
    rw [violation?_base constrained first violates]
    rfl
  · exact List.filter_sublist.map _

def selection? : NodeData → Option (NodeId × String)
  | .property base name => some (base, name.name)
  | _ => none

theorem suggestions_exact_tagsOfUnknown : ∃ tree m a,
    Tree.ofProgram "main.json" tagsOfUnknown = .ok tree ∧ build tree .empty = .ok m ∧
      m.constrained? 3 = some a ∧ a.properties = ["id", "type", "apiVersion", "location", "name"] ∧
      (m.report? 4).isSome = true := by
  have facts : ((Tree.ofProgram "main.json" tagsOfUnknown).toOption.bind fun tree =>
      (build tree .empty).toOption.bind fun m => (m.constrained? 3).map fun a =>
        (a.properties, (m.tree.arena.data? 4).bind selection?)) =
      some (["id", "type", "apiVersion", "location", "name"], some (3, "tags")) := by
    decide +kernel
  obtain ⟨tree, lowered, facts⟩ := Option.bind_eq_some_iff.1 facts
  obtain ⟨m, built, facts⟩ := Option.bind_eq_some_iff.1 facts
  obtain ⟨a, constrained, facts⟩ := Option.map_eq_some_iff.1 facts
  obtain ⟨properties, reads⟩ := Prod.mk.inj facts
  refine ⟨tree, m, a, ok_of_toOption lowered, ok_of_toOption built, constrained, properties, ?_⟩
  obtain ⟨_, decided, _⟩ := suggestions_exact constrained
  obtain ⟨data, here, selects⟩ := Option.bind_eq_some_iff.1 reads
  cases data with
  | property base name =>
    obtain ⟨rfl, spelled⟩ := Prod.mk.inj (Option.some.inj selects)
    rw [decided 4 name here, properties, spelled]
    decide +kernel
  | _ => cases selects

end Model

end DeployCheck
