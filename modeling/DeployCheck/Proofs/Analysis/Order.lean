import DeployCheck.Model
import DeployCheck.Proofs.Analysis.Answers
import DeployCheck.Proofs.Analysis.Simulation
import DeployCheck.Proofs.Binding.Permuting

/-!
# Declarations in another order

What has a derivation does not depend on the order of the declarations. The run over
all bodies does not find everything that has one: it loses what it asks for while it
is being worked out, or beyond the limit. What is lost depends on where the run
starts, so the bodies agree exactly where the same is lost.
-/

set_option autoImplicit false

namespace DeployCheck.Analysis

open Binder

section Simulation

variable {tree tree' : Tree} {b b' : Bound} {catalog : Catalog} {ds ds' : List Declaration}
  {total total' k k' : Nat}

theorem owner_parents {r : Nat → Nat → Prop} {symbol symbol' : Symbol}
    (h : OwnerPaired r symbol.owner symbol'.owner) :
    Option.Rel r symbol.parent? symbol'.parent? ∧ symbol.module?.isSome = symbol'.module?.isSome := by
  obtain ⟨name, declaration, owner, kind⟩ := symbol
  obtain ⟨name', declaration', owner', kind'⟩ := symbol'
  cases h with
  | resource related => exact ⟨.some related, rfl⟩
  | _ => exact ⟨.none, rfl⟩

theorem permuted_simulation
    (h : Permuted tree.arena tree'.arena b b' ds ds' total total') :
    Simulation ⟨tree, b, catalog⟩ ⟨tree', b', catalog⟩
      (Alike tree.arena tree'.arena b b' (Nodes tree.arena tree'.arena b b')
        (Symbols tree.arena tree'.arena b b'))
      (Means tree.arena tree'.arena b b' (Nodes tree.arena tree'.arena b b')
        (Symbols tree.arena tree'.arena b b')) := by
  have twins := permuted_twins h
  apply Simulation.mk
  · exact twins.data
  · exact twins.names
  · intro a a' related
    cases related with
    | declared declared =>
      obtain ⟨symbol, symbol', found, found', _, kind, owner, same⟩ :=
        twins_declaration twins declared
      obtain ⟨parent, module⟩ := owner_parents owner
      refine ⟨symbol, symbol', found, found', same, ?_, ?_, module⟩
      · exact kind_mono (fun _ _ => False.elim) kind
      · exact rel_mono (fun _ _ => .declared) parent
    | item loop found found' =>
      exact ⟨_, _, found, found', twins.data loop, .loopItem loop, .none, rfl⟩
    | index loop found found' =>
      exact ⟨_, _, found, found', twins.data loop, .loopIndex loop, .none, rfl⟩
  · exact fun related name => twins.outputs related name
  · rfl

theorem permuted_derives (h : Permuted tree.arena tree'.arena b b' ds ds' total total')
    (related : Symbols tree.arena tree'.arena b b' k k') {property : String}
    (derives : Derives ⟨tree, b, catalog⟩ (.readable k property)) :
    Derives ⟨tree', b', catalog⟩ (.readable k' property) :=
  (permuted_simulation h).derives derives (.readable (.declared related) property)

end Simulation

/-- The name of a resource can be derived, but the run over all bodies did not find
that out. -/
def Lost (s : Subject) (id : SymbolId) : Prop :=
  Derives s (.readable id ObjectType.nameProperty) ∧
    ∀ type, (run s).body? id = some type → type.isReadable ObjectType.nameProperty = false

section Lost

variable {s s' : Subject} {id id' : SymbolId} {symbol symbol' : Symbol} {type type' : ObjectType}

theorem not_lost_of_settled (found : s.bound.symbol? id = some symbol)
    (declared : symbol.isResourceOrModule = true) (settled : Settled s (.body id)) : ¬Lost s id := by
  rintro ⟨derives, missing⟩
  obtain ⟨type, ran, bodied⟩ := run_body found declared
  have positive := (bodied_readable bodied ObjectType.nameProperty).complete settled derives
  rw [missing type ran] at positive
  cases positive

theorem lost_iff (ran : (run s).body? id = some type) (bodied : Bodied s id type) :
    type.isReadable ObjectType.nameProperty = true ↔
      Derives s (.readable id ObjectType.nameProperty) ∧ ¬Lost s id := by
  constructor
  · intro readable
    refine ⟨(bodied_readable bodied _).sound readable, fun lost => ?_⟩
    rw [lost.2 type ran] at readable
    cases readable
  · rintro ⟨derives, kept⟩
    by_contra missing
    apply kept
    refine ⟨derives, fun other ran' => ?_⟩
    rw [ran] at ran'
    cases ran'
    exact Bool.eq_false_iff.2 missing

theorem markName_congr {declared : ObjectType} {known known' : Bool}
    (same : (markName declared known).isReadable ObjectType.nameProperty =
      (markName declared known').isReadable ObjectType.nameProperty) :
    markName declared known = markName declared known' := by
  rw [isReadable_markName, isReadable_markName, if_pos (Name.same_refl _),
    if_pos (Name.same_refl _)] at same
  cases named : declared.property? ObjectType.nameProperty with
  | none => rw [markName, markName, ObjectType.updateFlags, ObjectType.updateFlags, named]
  | some p =>
    rw [named, Option.isSome_some, Bool.true_and, Bool.true_and] at same
    rw [same]

theorem bodied_eq_iff (catalog : s.catalog = s'.catalog) (found : s.bound.symbol? id = some symbol)
    (found' : s'.bound.symbol? id' = some symbol') (kinds : symbol.kind = symbol'.kind)
    (bodied : Bodied s id type) (bodied' : Bodied s' id' type') :
    type = type' ↔ type.isReadable ObjectType.nameProperty =
      type'.isReadable ObjectType.nameProperty := by
  refine ⟨fun same => by rw [same], fun same => ?_⟩
  have types : ∀ reference, s.declaredType reference = s'.declaredType reference := by
    intro reference
    rw [Subject.declaredType, Subject.declaredType, catalog]
  have one : ∀ {a a' : Symbol}, s.bound.symbol? id = some a → s'.bound.symbol? id' = some a' →
      a.kind = a'.kind := by
    intro a a' ha ha'
    rw [found] at ha
    rw [found'] at ha'
    cases ha
    cases ha'
    exact kinds
  -- The kinds are the same, so the bodies come of the same case.
  cases bodied with
  | fresh here kind =>
    cases bodied' with
    | fresh here' kind' =>
      cases kind.symm.trans ((one here here').trans kind')
      exact types _
    | existing here' kind' | module here' kind' =>
      cases kind.symm.trans ((one here here').trans kind')
  | module here kind =>
    cases bodied' with
    | module here' kind' =>
      cases kind.symm.trans ((one here here').trans kind')
      rfl
    | fresh here' kind' | existing here' kind' =>
      cases kind.symm.trans ((one here here').trans kind')
  | existing here kind =>
    cases bodied' with
    | existing here' kind' =>
      cases kind.symm.trans ((one here here').trans kind')
      rw [types] at same ⊢
      exact markName_congr same
    | fresh here' kind' | module here' kind' =>
      cases kind.symm.trans ((one here here').trans kind')

/-- The bodies that two runs find agree if and only if the same is lost, given that
the same can be derived. -/
theorem run_eq_iff (catalog : s.catalog = s'.catalog) (found : s.bound.symbol? id = some symbol)
    (found' : s'.bound.symbol? id' = some symbol') (kinds : symbol.kind = symbol'.kind)
    (declared : symbol.isResourceOrModule = true)
    (derives : Derives s (.readable id ObjectType.nameProperty) ↔
      Derives s' (.readable id' ObjectType.nameProperty)) :
    ∃ type type', (run s).body? id = some type ∧ (run s').body? id' = some type' ∧
      (type = type' ↔ (Lost s id ↔ Lost s' id')) ∧
      (¬Derives s (.readable id ObjectType.nameProperty) → type = type') ∧
      (Settled s (.body id) → Settled s' (.body id') → type = type') := by
  have declared' : symbol'.isResourceOrModule = true := by
    rw [Symbol.isResourceOrModule, ← kinds]
    exact declared
  obtain ⟨type, ran, bodied⟩ := run_body found declared
  obtain ⟨type', ran', bodied'⟩ := run_body found' declared'
  have agree : type = type' ↔ (Lost s id ↔ Lost s' id') := by
    rw [bodied_eq_iff catalog found found' kinds bodied bodied', Bool.eq_iff_iff,
      lost_iff ran bodied, lost_iff ran' bodied', derives]
    constructor
    · intro same
      constructor
      · intro lost
        by_contra kept
        exact (same.2 ⟨derives.1 lost.1, kept⟩).2 lost
      · intro lost
        by_contra kept
        exact (same.1 ⟨lost.1, kept⟩).2 lost
    · intro same
      rw [same]
  refine ⟨type, type', ran, ran', agree, fun underivable => ?_, fun settled settled' => ?_⟩
  · rw [agree]
    constructor
    · exact fun lost => absurd lost.1 underivable
    · exact fun lost => absurd (derives.2 lost.1) underivable
  · rw [agree]
    constructor
    · exact fun lost => absurd lost (not_lost_of_settled found declared settled)
    · exact fun lost => absurd lost (not_lost_of_settled found' declared' settled')

end Lost

def Subject.ofModel (m : Model) (catalog : Catalog) : Subject := ⟨m.tree, m.bound, catalog⟩

theorem build_ok {tree : Tree} {catalog : Catalog} {m : Model}
    (built : Model.build tree catalog = .ok m) : tree = m.tree ∧ Bound.ofTree m.tree = .ok m.bound ∧
      ∀ id, m.body? id = (run (.ofModel m catalog)).body? id := by
  obtain ⟨_, bound, rfl⟩ := Model.build_eq_ok_iff.1 built
  exact ⟨rfl, bound, fun _ => rfl⟩

/-- Whatever the order of declarations with distinct names, each of them has the same
symbols. The bodies of a resource or module in two orders agree exactly if its name is
lost in both or in neither. So they do where the name cannot be derived at all, and
where nothing is cut off. -/
theorem permuted_bodies {file : String} {catalog : Catalog} {ds ds' before after before' after' :
    List Declaration} {d : Declaration} {tree tree' : Tree} {m m' : Model} {k : Nat} {name : String}
    (perm : ds.Perm ds') (distinct : ds.Pairwise fun d e => Name.same d.name e.name = false)
    (lowered : Tree.ofProgram file ds = .ok tree) (lowered' : Tree.ofProgram file ds' = .ok tree')
    (built : Model.build tree catalog = .ok m) (built' : Model.build tree' catalog = .ok m')
    (split : ds = before ++ d :: after) (split' : ds' = before' ++ d :: after')
    (named : d.symbolNames[k]? = some name) {id id' : SymbolId}
    (place : id = (Declaration.allSymbolNames before).length + k)
    (place' : id' = (Declaration.allSymbolNames before').length + k) :
    ∃ symbol symbol', m.bound.symbol? id = some symbol ∧ m'.bound.symbol? id' = some symbol' ∧
      symbol.name = name ∧ symbol'.name = name ∧ symbol.kind = symbol'.kind ∧
      (symbol.isResourceOrModule = true → ∃ type type',
        m.body? id = some type ∧ m'.body? id' = some type' ∧
        (type = type' ↔ (Lost (.ofModel m catalog) id ↔ Lost (.ofModel m' catalog) id')) ∧
        (¬Derives (.ofModel m catalog) (.readable id ObjectType.nameProperty) → type = type') ∧
        (Settled (.ofModel m catalog) (.body id) → Settled (.ofModel m' catalog) (.body id') →
          type = type')) := by
  obtain ⟨rfl, bound, bodies⟩ := build_ok built
  obtain ⟨rfl, bound', bodies'⟩ := build_ok built'
  obtain ⟨total, whole⟩ := whole_ofProgram lowered bound
  obtain ⟨total', whole'⟩ := whole_ofProgram lowered' bound'
  have permuted := permuted_of_perm perm distinct whole whole'
  obtain ⟨hi, stands⟩ := whole_stands whole split
  obtain ⟨hi', stands'⟩ := whole_stands whole' split'
  have forward := stands_symbols stands stands' (stands_block stands named _)
  have backward := stands_symbols stands' stands (stands_block stands' named _)
  obtain ⟨symbol, symbol', found, found', names, kinds, _, _⟩ :=
    twins_declaration (permuted_twins permuted) forward
  obtain ⟨_, found₁, spelled⟩ := spelled_get (stands_names stands) named
  rw [found] at found₁
  cases found₁
  rw [← place] at forward backward found
  rw [← place'] at forward backward found'
  refine ⟨symbol, symbol', found, found', spelled, names.symm.trans spelled, kind_eq kinds, ?_⟩
  intro declared
  rw [bodies, bodies']
  have catalogs : (Subject.ofModel m catalog).catalog = (Subject.ofModel m' catalog).catalog := rfl
  apply run_eq_iff catalogs found found' (kind_eq kinds) declared
  constructor
  · exact permuted_derives permuted forward
  · exact permuted_derives (permuted_symm permuted) backward

def modelled? (program : List Declaration) : Option (Tree × Model) := do
  let tree ← (Tree.ofProgram "main.json" program).toOption
  let m ← (Model.build tree .empty).toOption
  return (tree, m)

theorem modelled_ok {program : List Declaration} {tree : Tree} {m : Model}
    (h : modelled? program = some (tree, m)) :
    Tree.ofProgram "main.json" program = .ok tree ∧ Model.build tree .empty = .ok m := by
  obtain ⟨_, lowered, h⟩ := Option.bind_eq_some_iff.1 h
  obtain ⟨_, built, h⟩ := Option.bind_eq_some_iff.1 h
  cases h
  exact ⟨ok_of_toOption lowered, ok_of_toOption built⟩

def locatedAt (name other : String) : Declaration :=
  .resource name "T@1" true (.object [("name", .property (.ident other none) "location" none)] none)
    [] none

theorem permuted_bodies_located : ∃ tree tree' m m',
    modelled? [locatedAt "r" "s", locatedAt "s" "r"] = some (tree, m) ∧
    modelled? [locatedAt "s" "r", locatedAt "r" "s"] = some (tree', m') ∧
    ∃ type type', m.body? 0 = some type ∧ m'.body? 1 = some type' ∧
      (type = type' ↔ (Lost (.ofModel m .empty) 0 ↔ Lost (.ofModel m' .empty) 1)) := by
  have declares : (modelled? [locatedAt "r" "s", locatedAt "s" "r"]).map (fun p =>
      (p.2.bound.symbol? 0).map Symbol.isResourceOrModule) = some (some true) := by
    decide +kernel
  have other : (modelled? [locatedAt "s" "r", locatedAt "r" "s"]).isSome = true := by
    decide +kernel
  obtain ⟨⟨tree, m⟩, found, declares⟩ := Option.map_eq_some_iff.1 declares
  obtain ⟨⟨tree', m'⟩, found'⟩ := Option.isSome_iff_exists.1 other
  obtain ⟨lowered, built⟩ := modelled_ok found
  obtain ⟨lowered', built'⟩ := modelled_ok found'
  have perm : [locatedAt "r" "s", locatedAt "s" "r"].Perm [locatedAt "s" "r", locatedAt "r" "s"] :=
    .swap ..
  have distinct : [locatedAt "r" "s", locatedAt "s" "r"].Pairwise
      fun d e => Name.same d.name e.name = false := by
    decide +kernel
  have split : [locatedAt "r" "s", locatedAt "s" "r"] =
      [] ++ locatedAt "r" "s" :: [locatedAt "s" "r"] := rfl
  have split' : [locatedAt "s" "r", locatedAt "r" "s"] =
      [locatedAt "s" "r"] ++ locatedAt "r" "s" :: [] := rfl
  have named : (locatedAt "r" "s").symbolNames[0]? = some "r" := rfl
  obtain ⟨symbol, _, here, _, _, _, _, bodies⟩ := permuted_bodies perm distinct lowered lowered' built
    built' split split' named rfl rfl
  have declared : symbol.isResourceOrModule = true := by
    rw [Declaration.allSymbolNames] at here
    rw [show m.bound.symbol? 0 = some symbol from here] at declares
    exact Option.some.inj declares
  obtain ⟨type, type', ran, ran', agree, _⟩ := bodies declared
  exact ⟨tree, tree', m, m', found, found', type, type', ran, ran', agree⟩

/-- In either order the run loses the name of the second of two resources that are
named by each other's location: it is readable if it comes first only. -/
theorem located_order : ∃ tree tree' m m' symbol symbol' type type',
    modelled? [locatedAt "r" "s", locatedAt "s" "r"] = some (tree, m) ∧
    modelled? [locatedAt "s" "r", locatedAt "r" "s"] = some (tree', m') ∧
    m.bound.symbol? 0 = some symbol ∧ m'.bound.symbol? 1 = some symbol' ∧
    symbol.name = symbol'.name ∧ m.body? 0 = some type ∧ m'.body? 1 = some type' ∧
    type.isReadable ObjectType.nameProperty = true ∧
    type'.isReadable ObjectType.nameProperty = false := by
  have first : ((modelled? [locatedAt "r" "s", locatedAt "s" "r"]).bind fun p =>
      (p.2.bound.symbol? 0).bind fun symbol => (p.2.body? 0).map fun type =>
        (symbol.name, type.isReadable ObjectType.nameProperty)) = some ("r", true) := by
    decide +kernel
  have second : ((modelled? [locatedAt "s" "r", locatedAt "r" "s"]).bind fun p =>
      (p.2.bound.symbol? 1).bind fun symbol => (p.2.body? 1).map fun type =>
        (symbol.name, type.isReadable ObjectType.nameProperty)) = some ("r", false) := by
    decide +kernel
  obtain ⟨⟨tree, m⟩, found, first⟩ := Option.bind_eq_some_iff.1 first
  obtain ⟨symbol, here, first⟩ := Option.bind_eq_some_iff.1 first
  obtain ⟨type, ran, first⟩ := Option.map_eq_some_iff.1 first
  obtain ⟨⟨tree', m'⟩, found', second⟩ := Option.bind_eq_some_iff.1 second
  obtain ⟨symbol', here', second⟩ := Option.bind_eq_some_iff.1 second
  obtain ⟨type', ran', second⟩ := Option.map_eq_some_iff.1 second
  obtain ⟨spelled, readable⟩ := Prod.mk.inj first
  obtain ⟨spelled', missing⟩ := Prod.mk.inj second
  exact ⟨tree, tree', m, m', symbol, symbol', type, type', found, found', here, here',
    spelled.trans spelled'.symm, ran, ran', readable, missing⟩

end DeployCheck.Analysis
