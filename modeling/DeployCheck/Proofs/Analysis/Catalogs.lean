import DeployCheck.Proofs.Analysis.Order
import DeployCheck.Proofs.Violations

/-!
# Catalogs in which more is readable

A catalog may add to another one that some properties are readable before the deployment.
What consults what does not depend on the catalog, and every derivation under the first
catalog is one under the second. So with the second catalog more names are readable, and
fewer accesses are reported.
-/

set_option autoImplicit false

namespace DeployCheck

structure Property.Raised (p p' : Property) : Prop where
  name : p.name = p'.name
  kind : p.kind = p'.kind
  flags : p'.flags = p.flags ∨ p'.flags = p.flags.setReadable true

/-- The same type, of which some properties may have become readable. -/
structure ObjectType.Raised (t t' : ObjectType) : Prop where
  name : t.name = t'.name
  functions : t.functions = t'.functions
  properties : List.Forall₂ Property.Raised t.properties.entries t'.properties.entries

/-- The same types, in which some properties may have become readable. -/
def Catalog.Raised (c c' : Catalog) : Prop :=
  List.Forall₂ (fun d d' : TypeDefinition => d.type = d'.type ∧ d.body.Raised d'.body)
    c.types.entries c'.types.entries

theorem Roster.find?_rel {α : Type} [Named α] {r : α → α → Prop}
    (same : ∀ x y, r x y → Named.name x = Named.name y) {xs ys : List α} (h : List.Forall₂ r xs ys)
    (name : String) : Option.Rel r (xs.find? fun e => Name.same (Named.name e) name)
      (ys.find? fun e => Name.same (Named.name e) name) := by
  induction h with
  | nil => exact .none
  | @cons x y xs ys related _ ih =>
    rw [List.find?_cons, List.find?_cons, same x y related]
    split
    · exact .some related
    · exact ih

theorem Property.raised_isReadable {p p' : Property} (h : p.Raised p')
    (readable : p.flags.isReadable = true) : p'.flags.isReadable = true := by
  rcases h.flags with same | added
  · rw [same, readable]
  · rw [added, PropertyFlags.isReadable_setReadable]

/-- What the analysis and the check see of it if more of a body is readable. -/
structure ObjectType.Grown (t t' : ObjectType) : Prop where
  functions : t.functions = t'.functions
  declares : ∀ property, (t.property? property).isSome = (t'.property? property).isSome
  readable : ∀ property, t.isReadable property = true → t'.isReadable property = true

namespace ObjectType

variable {t t' : ObjectType}

theorem grown_refl : t.Grown t := ⟨rfl, fun _ => rfl, fun _ h => h⟩

theorem grown_of_raised (h : t.Raised t') : t.Grown t' := by
  have found : ∀ property, Option.Rel Property.Raised (t.property? property)
      (t'.property? property) :=
    Roster.find?_rel (fun _ _ raised => raised.name) h.properties
  refine ⟨h.functions, fun property => ?_, fun property => ?_⟩
  · have known := found property
    generalize t.property? property = p, t'.property? property = p' at known ⊢
    cases known <;> rfl
  · have known := found property
    rw [isReadable, isReadable]
    generalize t.property? property = p, t'.property? property = p' at known ⊢
    cases known with
    | none => exact id
    | some raised => exact Property.raised_isReadable raised

end ObjectType

theorem Catalog.raised_lookup {c c' : Catalog} (h : c.Raised c') (type : TypeReference) :
    ((c.lookup type).getD (.generic type)).Grown ((c'.lookup type).getD (.generic type)) := by
  have found := Roster.find?_rel (fun _ _ related => related.1) h type.text
  rw [Catalog.lookup, Catalog.lookup, Roster.find?, Roster.find?]
  revert found
  generalize c.types.entries.find? _ = d, c'.types.entries.find? _ = d'
  intro found
  cases found with
  | none => exact ObjectType.grown_refl
  | some related => exact ObjectType.grown_of_raised related.2

namespace Analysis

section Derivations

variable {tree : Tree} {b : Bound} {c c' : Catalog}

theorem constant_catalog {id : NodeId} {ps : List Fact} (h : Rule ⟨tree, b, c⟩ (.constant id) ps) :
    Rule ⟨tree, b, c'⟩ (.constant id) ps := by
  rw [rule_iff] at h ⊢
  exact h

theorem identity_catalog {id : SymbolId} {ps : List Fact}
    (h : Rule ⟨tree, b, c⟩ (.identity id) ps) : Rule ⟨tree, b, c'⟩ (.identity id) ps := by
  rw [rule_iff] at h ⊢
  exact h

theorem consults_catalog {x y : Item} (h : Consults ⟨tree, b, c⟩ x y) :
    Consults ⟨tree, b, c'⟩ x y := by
  cases h with
  | expression rule member => exact .expression (constant_catalog rule) member
  | body found kind rule member => exact .body found kind (identity_catalog rule) member

theorem chain_catalog {x : Item} {n : Nat} (h : Chain ⟨tree, b, c⟩ x n) :
    Chain ⟨tree, b, c'⟩ x n := by
  induction h with
  | start x => exact .start x
  | step _ next ih => exact .step ih (consults_catalog next)

theorem settled_catalog {x : Item} (h : Settled ⟨tree, b, c⟩ x) : Settled ⟨tree, b, c'⟩ x := by
  constructor
  · intro y reached cycle
    have back : ∀ x y, Consults ⟨tree, b, c'⟩ x y → Consults ⟨tree, b, c⟩ x y :=
      fun _ _ => consults_catalog
    exact h.acyclic y (Relation.ReflTransGen.mono back _ _ reached)
      (Relation.TransGen.mono back _ _ cycle)
  · intro y n reached chain
    have back : ∀ x y, Consults ⟨tree, b, c'⟩ x y → Consults ⟨tree, b, c⟩ x y :=
      fun _ _ => consults_catalog
    exact h.shallow y n (Relation.ReflTransGen.mono back _ _ reached) (chain_catalog chain)

/-- Whatever can be derived under a catalog can be derived if more is readable. -/
theorem derives_raised (raised : c.Raised c') {fact : Fact} (h : Derives ⟨tree, b, c⟩ fact) :
    Derives ⟨tree, b, c'⟩ fact := by
  induction h with
  | @intro fact premises rule _ ih =>
    cases fact with
    | constant => exact .intro (constant_catalog rule) ih
    | identity => exact .intro (identity_catalog rule) ih
    | readable id property =>
      cases rule with
      | @typed _ _ type _ _ _ found kind other flagged =>
        have flagged' := (Catalog.raised_lookup raised type).readable property flagged
        exact .intro (.typed found kind other flagged') ih
      | @name _ _ type _ _ found kind same declared =>
        have declared' := ((Catalog.raised_lookup raised type).declares property).symm.trans declared
        exact .intro (.name found kind same declared') ih
      | module found kind flagged => exact .intro (.module found kind flagged) ih

theorem markName_functions (t : ObjectType) (known : Bool) :
    (markName t known).functions = t.functions := by
  rw [markName, ObjectType.updateFlags]
  split <;> rfl

theorem markName_declares (t : ObjectType) (known : Bool) (property : String) :
    ((markName t known).property? property).isSome = (t.property? property).isSome := by
  rw [markName, ObjectType.updateFlags]
  split
  · next p found =>
    have own : Name.same p.name ObjectType.nameProperty = true :=
      (Roster.find?_eq_some_iff.1 found).2
    rw [ObjectType.property?_insertProperty]
    split
    · next same =>
      rw [Name.same_comm] at same
      have again : t.property? property = t.property? ObjectType.nameProperty :=
        t.properties.find?_congr (Name.same_trans same own)
      rw [again, found]
      rfl
    · rfl
  · rfl

theorem grown_markName {t t' : ObjectType} {known known' : Bool} (h : t.Grown t')
    (le : known = true → known' = true) : (markName t known).Grown (markName t' known') := by
  constructor
  · rw [markName_functions, markName_functions, h.functions]
  · intro property
    rw [markName_declares, markName_declares, h.declares]
  · intro property
    rw [isReadable_markName, isReadable_markName]
    split
    · rw [h.declares, Bool.and_eq_true, Bool.and_eq_true]
      exact And.imp_right le
    · exact h.readable property

theorem bodied_raised (raised : c.Raised c') {id : SymbolId} {body body' : ObjectType}
    (settled : Settled ⟨tree, b, c⟩ (.body id)) (bodied : Bodied ⟨tree, b, c⟩ id body)
    (bodied' : Bodied ⟨tree, b, c'⟩ id body') : body.Grown body' := by
  have one : ∀ {symbol symbol' : Symbol}, b.symbol? id = some symbol →
      b.symbol? id = some symbol' → symbol'.kind = symbol.kind := by
    intro symbol symbol' h h'
    rw [h] at h'
    cases h'
    rfl
  cases bodied with
  | fresh found kind =>
    cases bodied' with
    | fresh found' kind' =>
      cases kind.symm.trans ((one found' found).trans kind')
      exact Catalog.raised_lookup raised _
    | existing found' kind' | module found' kind' =>
      cases kind.symm.trans ((one found' found).trans kind')
  | module found kind =>
    cases bodied' with
    | module found' kind' =>
      cases kind.symm.trans ((one found' found).trans kind')
      exact ObjectType.grown_refl
    | fresh found' kind' | existing found' kind' =>
      cases kind.symm.trans ((one found' found).trans kind')
  | existing found kind judged =>
    cases bodied' with
    | existing found' kind' judged' =>
      cases kind.symm.trans ((one found' found).trans kind')
      apply grown_markName (Catalog.raised_lookup raised _)
      rw [judges_iff judged settled, judges_iff judged' (settled_catalog settled)]
      exact derives_raised raised
    | fresh found' kind' | module found' kind' =>
      cases kind.symm.trans ((one found' found).trans kind')

end Derivations

section Models

variable {tree : Tree} {c c' : Catalog} {m m' : Model}

structure Grown (m m' : Model) : Prop where
  tree : m.tree = m'.tree
  bound : m.bound = m'.bound
  bodies : ∀ id, Option.Rel ObjectType.Grown (m.body? id) (m'.body? id)

theorem build_grown (raised : c.Raised c') (built : Model.build tree c = .ok m)
    (built' : Model.build tree c' = .ok m') (settled : ∀ x, Settled (.ofModel m c) x) :
    Grown m m' := by
  obtain ⟨same, bound, bodies⟩ := build_ok built
  obtain ⟨same', bound', bodies'⟩ := build_ok built'
  have trees : m.tree = m'.tree := same.symm.trans same'
  have bounds : m.bound = m'.bound := by
    rw [trees, bound'] at bound
    exact (Except.ok.inj bound).symm
  refine ⟨trees, bounds, fun id => ?_⟩
  have subjects : Subject.ofModel m' c' = ⟨m.tree, m.bound, c'⟩ := by
    rw [Subject.ofModel, trees, bounds]
  rw [bodies, bodies', subjects]
  have ran : ∀ {s : Subject} {type : ObjectType}, (run s).body? id = some type → Bodied s id type :=
    fun known => (reached_accurate run_accurate.2).bodies id _ known
  have declared : ∀ {s : Subject} {type : ObjectType}, Bodied s id type →
      ∃ symbol, s.bound.symbol? id = some symbol ∧ symbol.isResourceOrModule = true :=
    declared_of_bodied
  cases known : (run (.ofModel m c)).body? id with
  | some body =>
    obtain ⟨symbol, found, isDeclared⟩ := declared (ran known)
    obtain ⟨body', known', bodied'⟩ := run_body (s := ⟨m.tree, m.bound, c'⟩) found isDeclared
    rw [known']
    exact .some (bodied_raised raised (settled _) (ran known) bodied')
  | none =>
    cases known' : (run ⟨m.tree, m.bound, c'⟩).body? id with
    | none => exact .none
    | some body' =>
      obtain ⟨symbol, found, isDeclared⟩ := declared (ran known')
      obtain ⟨body, present, -⟩ := run_body (s := .ofModel m c) found isDeclared
      cases known.symm.trans present

variable (grown : Grown m m')
include grown

theorem constrained?_grown {base : NodeId} {a' : Access} (h : m'.constrained? base = some a') :
    ∃ a, m.constrained? base = some a ∧ a.symbol = a'.symbol ∧ a.body.Grown a'.body := by
  obtain ⟨target, found, known, constrained⟩ := Model.constrained?_eq_some_iff.1 h
  rw [Access.isRuntimeConstrained, Bool.and_eq_true] at constrained
  have bodies := grown.bodies a'.id
  rw [known] at bodies
  cases stored : m.body? a'.id with
  | none =>
    rw [stored] at bodies
    cases bodies
  | some body =>
    rw [stored] at bodies
    cases bodies with
    | some bodies =>
      refine ⟨⟨a'.id, a'.symbol, body⟩, Model.constrained?_eq_some_iff.2 ⟨?_, ?_, stored, ?_⟩, rfl,
        bodies⟩
      · rw [Model.target?, grown.tree, grown.bound]
        exact target
      · rw [grown.bound]
        exact found
      · rw [Access.isRuntimeConstrained, constrained.1, Bool.true_and]
        have declares := bodies.declares ObjectType.nameProperty
        have readable := bodies.readable ObjectType.nameProperty
        have runtime := constrained.2
        rw [ObjectType.isReadable, ObjectType.isReadable] at readable
        generalize body.property? ObjectType.nameProperty = p,
          a'.body.property? ObjectType.nameProperty = p' at declares readable runtime ⊢
        cases p <;> cases p' <;> simp_all

theorem filter_grown {base : NodeId} {p p' : Access → Bool} {a' : Access}
    (le : ∀ a a' : Access, a.body.Grown a'.body → p' a' = true → p a = true)
    (h : (m'.constrained? base).filter p' = some a') :
    ∃ a, (m.constrained? base).filter p = some a ∧ a.symbol = a'.symbol := by
  obtain ⟨constrained, holds⟩ := Option.filter_eq_some_iff.1 h
  obtain ⟨a, constrained, symbol, bodies⟩ := constrained?_grown grown constrained
  exact ⟨a, Option.filter_eq_some_iff.2 ⟨constrained, le a a' bodies holds⟩, symbol⟩

omit grown in
theorem withholds_grown {a a' : Access} (bodies : a.body.Grown a'.body) (property : String)
    (h : (!a'.allowsProperty property) = true) : (!a.allowsProperty property) = true := by
  simp only [Access.allowsProperty, Bool.not_eq_true', Bool.or_eq_false_iff] at h ⊢
  have readable := bodies.readable property
  simp_all

theorem violation?_grown {id : NodeId} {a' : Access} (h : m'.violation? id = some a') :
    ∃ a, m.violation? id = some a ∧ a.symbol = a'.symbol := by
  rw [Model.violation?, ← grown.tree] at h
  rw [Model.violation?]
  cases here : m.tree.arena.data? id with
  | none => simp [here] at h
  | some data =>
    rw [here] at h
    cases data with
    | property base name => exact filter_grown grown (fun a a' bodies => withholds_grown bodies _) h
    | index base index =>
      refine filter_grown grown (fun a a' bodies => ?_) h
      rw [Model.forbidsIndex, Model.forbidsIndex, ← grown.tree]
      split
      · exact withholds_grown bodies _
      · exact fun holds => holds
      · exact fun holds => holds
    | instanceCall base name args =>
      refine filter_grown grown (fun a a' bodies => ?_) h
      rw [ObjectType.function?, ObjectType.function?, bodies.functions]
      exact fun holds => holds
    | _ => cases h

omit grown in
theorem sublist_filterMap {α β : Type} {f f' : α → Option β} (le : ∀ x y, f' x = some y → f x = some y)
    (xs : List α) : (xs.filterMap f').Sublist (xs.filterMap f) := by
  induction xs with
  | nil => exact .slnil
  | cons x xs ih =>
    cases h' : f' x with
    | none =>
      rw [List.filterMap_cons_none h', List.filterMap_cons]
      split
      · exact ih
      · exact ih.cons _
    | some y =>
      rw [List.filterMap_cons_some h', List.filterMap_cons_some (le x y h')]
      exact ih.cons_cons y

omit grown in
theorem span_diagnostic (a : Access) (file : String) (span : Span) :
    (a.diagnostic file span).span = span :=
  Diagnostic.span_atSpan file span .error Rule.runtimeAccess.code a.message

theorem check_grown : (m'.check.map Diagnostic.span).Sublist (m.check.map Diagnostic.span) := by
  rw [Model.check, Model.check, ← grown.tree, List.map_filterMap, List.map_filterMap]
  apply sublist_filterMap
  intro id place h
  simp only [Option.map_map, Option.map_eq_some_iff] at h ⊢
  obtain ⟨a', violation', rfl⟩ := h
  obtain ⟨a, violation, -⟩ := violation?_grown grown violation'
  refine ⟨a, violation, ?_⟩
  rw [Function.comp_apply, Function.comp_apply, span_diagnostic, span_diagnostic]

end Models

/-- A program without cycles and without chains beyond the limit, under two catalogs of
which the second adds that some properties are readable. Whatever is readable in a body
under the first catalog is readable under the second, names of resources included. Every
access that is against the rules under the second is so under the first, and is reported
there. -/
theorem build_raised {file : String} {program : List Declaration} {tree : Tree} {c c' : Catalog}
    {m m' : Model} (raised : c.Raised c') (lowered : Tree.ofProgram file program = .ok tree)
    (built : Model.build tree c = .ok m) (built' : Model.build tree c' = .ok m')
    (acyclic : ∀ x, ¬Relation.TransGen (Consults (.ofModel m c)) x x)
    (shallow : ∀ x n, Chain (.ofModel m c) x n → n ≤ depthLimit) :
    (∀ id body property, m.body? id = some body → body.isReadable property = true →
      ∃ body', m'.body? id = some body' ∧ body'.isReadable property = true) ∧
    (∀ id symbol, m'.Violates id symbol → m.Violates id symbol) ∧
    (m'.check.map Diagnostic.span).Sublist (m.check.map Diagnostic.span) := by
  have settled : ∀ x, Settled (.ofModel m c) x :=
    fun x => ⟨fun y _ => acyclic y, fun y n _ => shallow y n⟩
  have grown := build_grown raised built built' settled
  have literals : ∀ (n : Nat) (segments : List String),
      tree.arena.data? n = some (.string segments []) → segments.length = 1 :=
    fun n segments here => (Tree.ofProgram_node lowered here).1
  refine ⟨fun id body property known readable => ?_, fun id symbol violates => ?_, check_grown grown⟩
  · have bodies := grown.bodies id
    rw [known] at bodies
    cases known' : m'.body? id with
    | none =>
      rw [known'] at bodies
      cases bodies
    | some body' =>
      rw [known'] at bodies
      cases bodies with
      | some bodies => exact ⟨body', rfl, bodies.readable property readable⟩
  · rw [Model.violates_iff (Model.build_tree built ▸ literals)]
    rw [Model.violates_iff (Model.build_tree built' ▸ literals)] at violates
    obtain ⟨a', violation', rfl⟩ := violates
    exact violation?_grown grown violation'

def locations (flags : PropertyFlags) : Catalog :=
  have distinct : Name.same "name" "location" = false := by decide +kernel
  ⟨⟨[⟨"T@1", "T", ⟨[⟨"name", .string, .readableAtDeployTime⟩, ⟨"location", .string, flags⟩],
    List.pairwise_pair.2 distinct⟩, .empty⟩], List.pairwise_singleton ..⟩⟩

theorem locations_raised : (locations .none).Raised (locations .readableAtDeployTime) := by
  have same : Property.Raised ⟨"name", .string, .readableAtDeployTime⟩
      ⟨"name", .string, .readableAtDeployTime⟩ := ⟨rfl, rfl, .inl rfl⟩
  have added : Property.Raised ⟨"location", .string, .none⟩
      ⟨"location", .string, .readableAtDeployTime⟩ := ⟨rfl, rfl, .inr (by decide)⟩
  exact .cons ⟨rfl, rfl, rfl, .cons same (.cons added .nil)⟩ .nil

def namedByLocation : List Declaration :=
  [.resource "r" "T@1" true (.object [("name", .call "reference" [] none)] none) [] none,
    .resource "s" "T@1" true
      (.object [("name", .property (.ident "r" none) "location" none)] none) [] none]

def namedByLocationRank : Item → Nat
  | .expression id => 2 * (id % 16)
  | .body id => 10 * (id % 16) + 1

theorem build_raised_namedByLocation : ∃ tree m m',
    Tree.ofProgram "main.json" namedByLocation = .ok tree ∧
    Model.build tree (locations .none) = .ok m ∧
    Model.build tree (locations .readableAtDeployTime) = .ok m' ∧
    (∀ x, ¬Relation.TransGen (Consults (.ofModel m (locations .none))) x x) ∧
    (∀ x n, Chain (.ofModel m (locations .none)) x n → n ≤ depthLimit) ∧
    m.check.length = 1 ∧ m'.check = [] ∧
    ∀ id symbol, m'.Violates id symbol → m.Violates id symbol := by
  have facts : ((Tree.ofProgram "main.json" namedByLocation).toOption.bind fun tree =>
      (Model.build tree (locations .none)).toOption.bind fun m =>
        (Model.build tree (locations .readableAtDeployTime)).toOption.map fun m' =>
          ((Subject.ofModel m (locations .none)).descends namedByLocationRank, m.check.length,
            m'.check)) = some (true, 1, []) := by
    decide +kernel
  obtain ⟨tree, lowered, facts⟩ := Option.bind_eq_some_iff.1 facts
  obtain ⟨m, built, facts⟩ := Option.bind_eq_some_iff.1 facts
  obtain ⟨m', built', facts⟩ := Option.map_eq_some_iff.1 facts
  simp only [Prod.mk.injEq] at facts
  obtain ⟨ranked, one, none⟩ := facts
  have lowered := ok_of_toOption lowered
  have built := ok_of_toOption built
  have built' := ok_of_toOption built'
  have descends := descends_consults ranked
  have bounded : ∀ x, namedByLocationRank x < depthLimit := by
    intro x
    cases x <;> simp only [namedByLocationRank, depthLimit] <;> omega
  have acyclic := acyclic_of_rank descends
  have shallow : ∀ x n, Chain (.ofModel m (locations .none)) x n → n ≤ depthLimit :=
    fun x n chain => shallow_of_rank descends bounded chain
  have raised := build_raised locations_raised lowered built built' acyclic shallow
  exact ⟨tree, m, m', lowered, built, built', acyclic, shallow, one, none, raised.2.1⟩

end Analysis

end DeployCheck
