import DeployCheck.Proofs.Analysis.Order
import DeployCheck.Proofs.Analysis.Reads

/-!
# Parents of existing resources

The identity of an existing resource rests on its name, its scope and its parent. The
parent counts only as far as the stated value denotes a resource or module, and then its
name must be readable. A value that denotes none is passed over: the resource around the
declaration takes its place, and where there is none either, nothing is asked of the
parent.
-/

set_option autoImplicit false

namespace DeployCheck.Analysis

variable {s : Subject} {memo : Memo}

section Identities

variable {id parent : SymbolId} {symbol : Symbol} {type : TypeReference}
  {existing collection : Bool} {entries : List ObjectEntry} {ps : List Fact}
  (found : s.bound.symbol? id = some symbol)
  (kind : symbol.kind = .resource type existing collection) (own : symbol.module? = none)
  (declared : declaredEntries? s symbol = some entries)

include found kind own declared

theorem identity_rule_iff : Rule s (.identity id) ps ↔
    ∃ name, keyed? entries ObjectType.nameProperty = some name ∧
      ps = .constant name :: (((keyed? entries scopeProperty).toList.map .constant) ++
        (s.parentOf? symbol entries).toList.map (.readable · ObjectType.nameProperty)) := by
  rw [rule_iff]
  simp only [Subject.premises, Subject.identityPremises, found, kind, own, declared,
    Option.bind_some, Option.isSome_none, Bool.false_eq_true, if_false, Option.map_eq_some_iff]
  exact exists_congr fun name => and_congr_right fun _ => eq_comm

theorem derives_identity_iff : Derives s (.identity id) ↔
    ∃ name, keyed? entries ObjectType.nameProperty = some name ∧ Derives s (.constant name) ∧
      (∀ scope, keyed? entries scopeProperty = some scope → Derives s (.constant scope)) ∧
      (∀ parent, s.parentOf? symbol entries = some parent →
        Derives s (.readable parent ObjectType.nameProperty)) := by
  constructor
  · rintro ⟨rule, all⟩
    obtain ⟨name, identifies, rfl⟩ := (identity_rule_iff found kind own declared).1 rule
    refine ⟨name, identifies, all _ List.mem_cons_self, fun scope there => all _ ?_,
      fun parent there => all _ ?_⟩
    · simp [there]
    · simp [there]
  · rintro ⟨name, identifies, named, scopes, parents⟩
    apply Derives.intro ((identity_rule_iff found kind own declared).2 ⟨name, identifies, rfl⟩)
    intro premise member
    simp only [List.mem_cons, List.mem_append, List.mem_map, Option.mem_toList] at member
    rcases member with rfl | ⟨scope, there, rfl⟩ | ⟨parent, there, rfl⟩
    · exact named
    · exact scopes scope there
    · exact parents parent there

end Identities

/-- The name of a resource or module is readable. -/
def NameKnown (m : Model) (id : SymbolId) : Prop :=
  ∃ symbol body, m.bound.symbol? id = some symbol ∧ symbol.isResourceOrModule = true ∧
    m.body? id = some body ∧ body.isReadable ObjectType.nameProperty = true

variable {tree : Tree} {catalog : Catalog} {m : Model}

theorem known_of_held (built : Model.build tree catalog = .ok m) {id : SymbolId}
    (held : Held (.ofModel m catalog) (run (.ofModel m catalog))
      (.readable id ObjectType.nameProperty)) : NameKnown m id := by
  obtain ⟨-, -, bodies⟩ := build_ok built
  obtain ⟨body, stored, readable⟩ := held
  have bodied := (reached_accurate run_accurate.2).bodies id body stored
  obtain ⟨symbol, found, declared⟩ := declared_of_bodied bodied
  exact ⟨symbol, body, found, declared, (bodies id).trans stored, readable⟩

variable {id : SymbolId} {symbol : Symbol} {type : TypeReference} {collection : Bool}
  {entries : List ObjectEntry} {value : NodeId} {body : ObjectType}

/-- An existing resource states a parent. If its own name is readable and the stated value
denotes a resource or module, the name of that one is readable. If the value denotes none,
the resource around the declaration takes its place. Where there is none around it either,
the name is readable as soon as the type has one and the expressions of the name and the
scope can be derived, whatever the value of the parent is. -/
theorem build_parents (built : Model.build tree catalog = .ok m)
    (found : m.bound.symbol? id = some symbol) (kind : symbol.kind = .resource type true collection)
    (own : symbol.module? = none)
    (declared : declaredEntries? (.ofModel m catalog) symbol = some entries)
    (stated : keyed? entries parentProperty = some value) (known : m.body? id = some body) :
    (∀ parent, m.target? value = some parent →
      body.isReadable ObjectType.nameProperty = true → NameKnown m parent) ∧
    (∀ parent, m.target? value = none → symbol.parent? = some parent →
      body.isReadable ObjectType.nameProperty = true → NameKnown m parent) ∧
    (m.target? value = none → symbol.parent? = none → Settled (.ofModel m catalog) (.body id) →
      (body.isReadable ObjectType.nameProperty = true ↔
        (((Subject.ofModel m catalog).declaredType type).property?
          ObjectType.nameProperty).isSome = true ∧
        ∃ name, keyed? entries ObjectType.nameProperty = some name ∧
          Derives (.ofModel m catalog) (.constant name) ∧
          ∀ scope, keyed? entries scopeProperty = some scope →
            Derives (.ofModel m catalog) (.constant scope))) := by
  obtain ⟨-, -, bodies⟩ := build_ok built
  rw [bodies] at known
  have bodied := (reached_accurate run_accurate.2).bodies id body known
  have resolved : (Subject.ofModel m catalog).parentOf? symbol entries =
      (m.target? value).or symbol.parent? := by
    rw [Subject.parentOf?, stated]
    rfl
  -- A readable name was identified, so what that follows from is in the tables.
  have parents : ∀ parent, (m.target? value).or symbol.parent? = some parent →
      body.isReadable ObjectType.nameProperty = true → NameKnown m parent := by
    intro parent target readable
    have existing := Symbol.isExistingResource_iff.2 ⟨type, collection, kind⟩
    obtain ⟨rule, -⟩ := derives_of_bodied found existing bodied readable
    have held := (reached_backed run_accurate.2).names found kind known readable _ rule
    obtain ⟨name, -, rfl⟩ := (identity_rule_iff found kind own declared).1 rule
    apply known_of_held built
    apply held
    simp [resolved, target]
  refine ⟨fun parent target => parents parent (by simp [target]),
    fun parent none around => parents parent (by simp [none, around]), ?_⟩
  intro none alone settled
  obtain ⟨answer, exact, rfl⟩ := bodied_existing settled found kind bodied
  rw [isReadable_markName, if_pos (Name.same_refl _), Bool.and_eq_true, exact,
    derives_identity_iff found kind own declared, resolved, none, alone]
  simp

def parentAndName (m : Model) (id : SymbolId) : Option (Option SymbolId × Bool) :=
  (m.bound.symbol? id).bind fun symbol =>
    if symbol.isExistingResource && symbol.module?.isNone then
      (declaredEntries? (.ofModel m .empty) symbol).bind fun entries =>
        (keyed? entries parentProperty).bind fun value =>
          (m.body? id).map fun body =>
            (m.target? value, body.isReadable ObjectType.nameProperty)
    else none

theorem parentAndName_eq {target : Option SymbolId} {readable : Bool}
    (h : parentAndName m id = some (target, readable)) :
    ∃ symbol type collection entries value body, m.bound.symbol? id = some symbol ∧
      symbol.kind = .resource type true collection ∧ symbol.module? = none ∧
      declaredEntries? (.ofModel m .empty) symbol = some entries ∧
      keyed? entries parentProperty = some value ∧ m.body? id = some body ∧
      m.target? value = target ∧ body.isReadable ObjectType.nameProperty = readable := by
  obtain ⟨symbol, found, h⟩ := Option.bind_eq_some_iff.1 h
  split at h
  · next existing =>
    rw [Bool.and_eq_true, Symbol.isExistingResource_iff, Option.isNone_iff_eq_none] at existing
    obtain ⟨⟨type, collection, kind⟩, own⟩ := existing
    obtain ⟨entries, declared, h⟩ := Option.bind_eq_some_iff.1 h
    obtain ⟨value, stated, h⟩ := Option.bind_eq_some_iff.1 h
    obtain ⟨body, known, h⟩ := Option.map_eq_some_iff.1 h
    obtain ⟨target, readable⟩ := Prod.mk.inj h
    exact ⟨symbol, type, collection, entries, value, body, found, kind, own, declared, stated,
      known, target, readable⟩
  · cases h

def namedResource (name : String) (parent : List (String × Expression)) : Declaration :=
  .resource name "T@1" true (.object (("name", .string (some "x") [] none) :: parent) none) [] none

theorem build_parents_ident : ∃ tree m symbol entries value body,
    modelled? [namedResource "p" [], namedResource "r" [("parent", .ident "p" none)]] =
      some (tree, m) ∧
    m.bound.symbol? 1 = some symbol ∧ declaredEntries? (.ofModel m .empty) symbol = some entries ∧
    keyed? entries parentProperty = some value ∧ m.body? 1 = some body ∧
    m.target? value = some 0 ∧ body.isReadable ObjectType.nameProperty = true ∧ NameKnown m 0 := by
  have facts : (modelled? [namedResource "p" [],
      namedResource "r" [("parent", .ident "p" none)]]).bind (parentAndName ·.2 1) =
      some (some 0, true) := by
    decide +kernel
  obtain ⟨⟨tree, m⟩, model, facts⟩ := Option.bind_eq_some_iff.1 facts
  obtain ⟨symbol, type, collection, entries, value, body, found, kind, own, declared, stated, known,
    target, readable⟩ := parentAndName_eq facts
  obtain ⟨-, built⟩ := modelled_ok model
  exact ⟨tree, m, symbol, entries, value, body, model, found, declared, stated, known, target,
    readable, (build_parents built found kind own declared stated known).1 0 target readable⟩

/-- A call denotes no declaration. A resource that states one as its parent has a readable
name all the same. -/
theorem called_parent : ∃ tree m symbol type collection entries value body,
    modelled? [namedResource "r" [("parent", .call "reference" [] none)]] = some (tree, m) ∧
    m.bound.symbol? 0 = some symbol ∧ symbol.kind = .resource type true collection ∧
    declaredEntries? (.ofModel m .empty) symbol = some entries ∧
    keyed? entries parentProperty = some value ∧ m.body? 0 = some body ∧
    m.target? value = none ∧ body.isReadable ObjectType.nameProperty = true := by
  have facts : (modelled? [namedResource "r" [("parent", .call "reference" [] none)]]).bind
      (parentAndName ·.2 0) = some (none, true) := by
    decide +kernel
  obtain ⟨⟨tree, m⟩, model, facts⟩ := Option.bind_eq_some_iff.1 facts
  obtain ⟨symbol, type, collection, entries, value, body, found, kind, -, declared, stated, known,
    target, readable⟩ := parentAndName_eq facts
  exact ⟨tree, m, symbol, type, collection, entries, value, body, model, found, kind, declared,
    stated, known, target, readable⟩

end DeployCheck.Analysis
