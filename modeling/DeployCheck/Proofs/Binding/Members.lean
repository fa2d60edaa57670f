import DeployCheck.Proofs.Binding.Sorts
import DeployCheck.Proofs.Tree.Pairing

/-!
# The members of scopes

A scope introduces names in the order of the source, and every name that it
introduces has a symbol. The symbols that belong to the owner of a scope are those
of its names, in the same order, so the first symbol of a name is that of the first
of the names.
-/

set_option autoImplicit false

namespace DeployCheck

/-- What introduces names: the program, its outputs apart, a resource with the
declarations nested in it, a module with the resources that it returns, a loop. -/
inductive Scope where
  | program
  | outputs
  | resource (declaration : NodeId)
  | module (declaration : NodeId)
  | loop (node : NodeId)
  deriving DecidableEq

def NodeData.isOutput : NodeData → Bool
  | output .. => true
  | _ => false

theorem NodeData.isDeclaration_of_declaredName? {data : NodeData} {name : Identifier}
    (h : data.declaredName? = some name) : data.isDeclaration = true := by
  cases data <;> first | rfl | cases h

def OutputSignature.returned (outputs : List OutputSignature) : List Identifier :=
  outputs.filterMap fun o => o.resource.map fun _ => o.name

namespace Tree

variable (t : Tree)

def declaredName? (id : NodeId) : Option Identifier :=
  (t.arena.data? id).bind NodeData.declaredName?

def isOutput (id : NodeId) : Bool := (t.arena.data? id).any NodeData.isOutput

end Tree

def Bound.symbolOf? (b : Bound) (symbol : Symbol) : Option SymbolId :=
  b.symbols.findIdx? (· == symbol)

namespace Scope

variable (t : Tree) (b : Bound)

def declarations : Scope → List NodeId
  | program => t.declarations.filter fun id => !t.isOutput id
  | outputs => t.declarations.filter t.isOutput
  | resource declaration => match t.arena.data? declaration with
    | some (.resource _ _ _ _ nested) => nested
    | _ => []
  | _ => []

/-- The variables of a loop with their records. -/
def locals (node : NodeId) (item : Identifier) (index : Option Identifier) :
    List (Identifier × Symbol) :=
  (item, ⟨item.name, node, .loop node, .loopItem node⟩) ::
    index.toList.map fun i => (i, ⟨i.name, node, .loop node, .loopIndex node⟩)

def names : Scope → List Identifier
  | module declaration => match t.arena.data? declaration with
    | some (.module _ _ _ os) => OutputSignature.returned os
    | _ => []
  | loop node => match t.arena.data? node with
    | some (.loop item index _ _) => item :: index.toList
    | _ => []
  | scope => (scope.declarations t).filterMap t.declaredName?

def marked? (id : NodeId) : Option (Identifier × SymbolId) :=
  (t.declaredName? id).bind fun name => (b.declarationSymbol? id).map (name, ·)

/-- The names that a scope introduces with their symbols: the symbols of its
declarations, those right behind the symbol of a module, those of the variables of a
loop. -/
def members : Scope → List (Identifier × SymbolId)
  | module declaration => match t.arena.data? declaration, b.declarationSymbol? declaration with
    | some (.module _ _ _ os), some id => (OutputSignature.returned os).zipIdx (id + 1)
    | _, _ => []
  | loop node => match t.arena.data? node with
    | some (.loop item index _ _) =>
      (locals node item index).filterMap fun v => (b.symbolOf? v.2).map (v.1, ·)
    | _ => []
  | scope => (scope.declarations t).filterMap (marked? t b)

def first? (members : List (Identifier × SymbolId)) (name : String) : Option SymbolId :=
  (members.find? fun m => Name.same m.1.name name).map Prod.snd

/-- The symbol that a name has in a scope: that of the first declaration of the name.
In a loop the index goes before the item. -/
def find? (name : String) : Scope → Option SymbolId
  | loop node => first? ((loop node).members t b).reverse name
  | scope => first? (scope.members t b) name

/-- What the symbols of a scope belong to. -/
def owner? : Scope → Option Owner
  | program => some .program
  | outputs => some .outputs
  | resource declaration => (b.declarationSymbol? declaration).map .resource
  | module declaration => (b.declarationSymbol? declaration).map .module
  | loop node => some (.loop node)

end Scope

def NodeData.scope? (id : NodeId) : NodeData → Option Scope
  | resource .. => some (.resource id)
  | module .. => some (.module id)
  | loop .. => some (.loop id)
  | _ => none

def Tree.scopes (t : Tree) : List Scope :=
  .program :: .outputs ::
    (List.range t.arena.size).filterMap fun id => (t.arena.data? id).bind (NodeData.scope? id)

theorem Tree.mem_scopes {t : Tree} {scope : Scope} : scope ∈ t.scopes ↔ scope = .program ∨
    scope = .outputs ∨ ∃ id data, t.arena.data? id = some data ∧ data.scope? id = some scope := by
  simp only [Tree.scopes, List.mem_cons, List.mem_filterMap, Option.bind_eq_some_iff]
  constructor
  · rintro (h | h | ⟨id, _, data, here, h⟩)
    · exact .inl h
    · exact .inr (.inl h)
    · exact .inr (.inr ⟨id, data, here, h⟩)
  · rintro (h | h | ⟨id, data, here, h⟩)
    · exact .inl h
    · exact .inr (.inl h)
    · exact .inr (.inr ⟨id, List.mem_range.2 (Arena.data?_lt here), data, here, h⟩)

theorem Tree.mem_scopes_resource {t : Tree} {d : NodeId} : Scope.resource d ∈ t.scopes ↔
    ∃ name type existing body nested,
      t.arena.data? d = some (.resource name type existing body nested) := by
  simp only [mem_scopes, reduceCtorEq, false_or]
  constructor
  · rintro ⟨id, data, here, opens⟩
    cases data <;> cases opens
    exact ⟨_, _, _, _, _, here⟩
  · rintro ⟨name, type, existing, body, nested, here⟩
    exact ⟨d, _, here, rfl⟩

theorem Tree.mem_scopes_module {t : Tree} {d : NodeId} : Scope.module d ∈ t.scopes ↔
    ∃ name path body outputs, t.arena.data? d = some (.module name path body outputs) := by
  simp only [mem_scopes, reduceCtorEq, false_or]
  constructor
  · rintro ⟨id, data, here, opens⟩
    cases data <;> cases opens
    exact ⟨_, _, _, _, here⟩
  · rintro ⟨name, path, body, outputs, here⟩
    exact ⟨d, _, here, rfl⟩

theorem Tree.declaredName?_of_mem_scopes {t : Tree} {id : NodeId}
    (h : Scope.resource id ∈ t.scopes ∨ Scope.module id ∈ t.scopes) :
    ∃ name, t.declaredName? id = some name := by
  rw [mem_scopes_resource, mem_scopes_module] at h
  rcases h with ⟨name, _, _, _, _, here⟩ | ⟨name, _, _, _, here⟩
  · exact ⟨name, by rw [declaredName?, here]; rfl⟩
  · exact ⟨name, by rw [declaredName?, here]; rfl⟩

theorem Scope.owner?_eq_some_iff {b : Bound} {scope : Scope} {owner : Owner} :
    scope.owner? b = some owner ↔ match owner with
      | .program => scope = .program
      | .outputs => scope = .outputs
      | .resource p => ∃ d, scope = .resource d ∧ b.declarationSymbol? d = some p
      | .module p => ∃ d, scope = .module d ∧ b.declarationSymbol? d = some p
      | .loop n => scope = .loop n := by
  cases owner <;> cases scope <;> simp [owner?]

namespace Binder

/-- The symbols that belong to an owner are those of the members, in their order. -/
structure Lists (b : Bound) (owner : Owner) (members : List (Identifier × SymbolId)) : Prop where
  found : ∀ m ∈ members, ∃ symbol, b.symbol? m.2 = some symbol ∧ symbol.owner = owner ∧
    symbol.name = m.1.name
  sorted : members.Pairwise fun m m' => m.2 < m'.2
  all : ∀ (k : Nat) (symbol : Symbol), b.symbol? k = some symbol → symbol.owner = owner →
    k ∈ members.map Prod.snd

theorem lists_bears {b : Bound} {owner : Owner} {members : List (Identifier × SymbolId)}
    (lists : Lists b owner members) {m : Identifier × SymbolId} (member : m ∈ members)
    (name : String) : Bound.Bears b owner name m.2 ↔ Name.same m.1.name name = true := by
  obtain ⟨symbol, found, own, same⟩ := lists.found m member
  simp [Bound.Bears, found, own, same]

theorem lists_member? {b : Bound} {owner : Owner} {members : List (Identifier × SymbolId)}
    (lists : Lists b owner members) (name : String) :
    b.member? owner name = Scope.first? members name := by
  -- The table and the list have the same order, so whatever comes first in one of them
  -- comes first in the other.
  have among : ∀ k, Bound.Bears b owner name k → ∃ m ∈ members, m.2 = k := by
    rintro k ⟨symbol, found, own, _⟩
    exact List.mem_map.1 (lists.all k symbol found own)
  rw [Scope.first?]
  cases search : members.find? fun m => Name.same m.1.name name with
  | none =>
    apply Bound.member?_eq_none_iff.2
    intro k bears
    obtain ⟨m, member, rfl⟩ := among k bears
    exact List.find?_eq_none.1 search m member ((lists_bears lists member name).1 bears)
  | some m =>
    obtain ⟨same, before, after, split, earlier⟩ := List.find?_eq_some_iff_append.1 search
    have member : m ∈ members := by simp [split]
    apply Bound.member?_eq_some_iff.2
    refine ⟨(lists_bears lists member name).2 same, fun k less bears => ?_⟩
    obtain ⟨m', member', rfl⟩ := among k bears
    have same' := (lists_bears lists member' name).1 bears
    have sorted := lists.sorted
    rw [split] at member' sorted
    rcases List.mem_append.1 member' with early | late
    · simpa [same'] using earlier m' early
    · rcases List.mem_cons.1 late with rfl | late
      · exact Nat.lt_irrefl _ less
      · have behind := (List.pairwise_append.1 sorted).2.1
        exact Nat.lt_asymm less (List.rel_of_pairwise_cons behind late)

inductive Enters (a : Arena) (b : Bound) (around : Option (SymbolId × TypeReference)) (id k : Nat) :
    Identifier → Prop where
  | intro {data : NodeData} {name : Identifier} {kind : SymbolKind} (here : a.data? id = some data)
      (named : data.declaredName? = some name) (marked : Marked b around id k name.name kind)
      (output : kind = .output ↔ data.isOutput = true) : Enters a b around id k name

def Belongs (t : Tree) (b : Bound) (k : Nat) (symbol : Symbol) : Prop :=
  ∃ scope : Scope, scope.owner? b = some symbol.owner ∧ k ∈ (scope.members t b).map Prod.snd

section Declares

variable {t : Tree} {b : Bound} {around : Option (SymbolId × TypeReference)} {lo mid hi id k : Nat}
  {ids : List Nat} {name : Identifier}

theorem enters_plain {data : NodeData} {kind : SymbolKind} (here : t.arena.data? id = some data)
    (sort : plain? data = some (name, kind)) (marked : Marked b around id k name.name kind) :
    Enters t.arena b around id k name := by
  cases data <;> cases sort <;> exact .intro here rfl marked (by simp [NodeData.isOutput])

theorem marked?_enters (h : Enters t.arena b around id k name) :
    Scope.marked? t b id = some (name, k) := by
  cases h with
  | intro here named marked output => simp [Scope.marked?, Tree.declaredName?, here, named, marked.mark]

theorem outputs_hi {module : Nat} {os : List OutputSignature} (h : Outputs b id module lo os hi) :
    hi = lo + (OutputSignature.returned os).length := by
  induction h with
  | nil => rfl
  | value untyped _ ih => simpa [OutputSignature.returned, untyped] using ih
  | resource typed _ _ ih =>
    simp only [OutputSignature.returned] at ih
    simp [OutputSignature.returned, typed, ih]
    omega

theorem outputs_found {module : Nat} {os : List OutputSignature} (h : Outputs b id module lo os hi) :
    ∀ m ∈ (OutputSignature.returned os).zipIdx lo, ∃ symbol, b.symbol? m.2 = some symbol ∧
      symbol.owner = .module module ∧ symbol.name = m.1.name := by
  induction h with
  | nil => simp [OutputSignature.returned]
  | value untyped _ ih => simpa [OutputSignature.returned, untyped] using ih
  | resource typed found _ ih =>
    simp only [OutputSignature.returned, List.filterMap_cons, typed, Option.map_some,
      List.zipIdx_cons, List.forall_mem_cons]
    exact ⟨⟨_, found, rfl, rfl⟩, ih⟩

theorem declares_row (h : Declares t.arena b around lo ids hi) : lo ≤ hi ∧
    ∃ row : List (Identifier × Nat), List.Forall₂ (fun id m =>
      Enters t.arena b around id m.2 m.1 ∧ lo ≤ m.2 ∧ m.2 < hi) ids row ∧
      row.Pairwise fun m m' => m.2 < m'.2 := by
  have step : ∀ {around : Option (SymbolId × TypeReference)} {lo mid hi id : Nat} {ids : List Nat}
      {name : Identifier}, Enters t.arena b around id lo name → lo < mid →
      (mid ≤ hi ∧ ∃ row : List (Identifier × Nat), List.Forall₂ (fun id m =>
        Enters t.arena b around id m.2 m.1 ∧ mid ≤ m.2 ∧ m.2 < hi) ids row ∧
        row.Pairwise fun m m' => m.2 < m'.2) →
      lo ≤ hi ∧ ∃ row : List (Identifier × Nat), List.Forall₂ (fun id m =>
        Enters t.arena b around id m.2 m.1 ∧ lo ≤ m.2 ∧ m.2 < hi) (id :: ids) row ∧
        row.Pairwise fun m m' => m.2 < m'.2 := by
    rintro around lo mid hi id ids name enters start ⟨le, row, rest, sorted⟩
    refine ⟨by omega, (name, lo) :: row, .cons ⟨enters, Nat.le_refl _, by omega⟩ ?_, ?_⟩
    · exact rest.imp fun i m inner => ⟨inner.1, by omega, inner.2.2⟩
    · refine List.pairwise_cons.2 ⟨fun m member => ?_, sorted⟩
      obtain ⟨i, _, inner⟩ := paired_mem rest m member
      exact Nat.lt_of_lt_of_le start inner.2.1
  induction h with
  | nil => exact ⟨Nat.le_refl _, [], .nil, .nil⟩
  | plain here sort marked _ ih => exact step (enters_plain here sort marked) (Nat.lt_succ_self _) ih
  | module here _ marked under _ ih =>
    have behind := outputs_hi under
    exact step (.intro here rfl marked (by simp [NodeData.isOutput])) (by omega) ih
  | resource here _ marked _ _ ihu ihb =>
    exact step (.intro here rfl marked (by simp [NodeData.isOutput])) ihu.1 ihb

theorem row_marked {row : List (Identifier × Nat)} (h : List.Forall₂ (fun id m =>
    Enters t.arena b around id m.2 m.1 ∧ lo ≤ m.2 ∧ m.2 < hi) ids row) :
    ids.filterMap (Scope.marked? t b) = row := by
  induction h with
  | nil => rfl
  | cons one _ ih => rw [List.filterMap_cons, marked?_enters one.1, ih]

theorem declares_belongs (h : Declares t.arena b around lo ids hi) : ∀ k, lo ≤ k → k < hi →
    (∃ id ∈ ids, ∃ name, Enters t.arena b around id k name) ∨
      ∃ symbol, b.symbol? k = some symbol ∧ Belongs t b k symbol := by
  induction h with
  | nil => omega
  | @plain around lo hi id ids data name kind here sort marked _ ih =>
    intro k above under
    by_cases first : k = lo
    · subst first
      exact .inl ⟨id, List.mem_cons_self, name, enters_plain here sort marked⟩
    · rcases ih k (by omega) under with ⟨i, member, rest⟩ | inner
      · exact .inl ⟨i, List.mem_cons_of_mem id member, rest⟩
      · exact .inr inner
  | @module around lo mid hi id body ids name path outputs inner here inside marked returned _ ih =>
    intro k above under
    by_cases first : k = lo
    · subst first
      exact .inl ⟨id, List.mem_cons_self, name, .intro here rfl marked (by simp [NodeData.isOutput])⟩
    -- Behind the symbol of a module come those of what it returns.
    · by_cases own : k < mid
      · have behind := outputs_hi returned
        have place : k ∈ ((Scope.module id).members t b).map Prod.snd := by
          simp [Scope.members, here, marked.mark]
          omega
        obtain ⟨m, member, rfl⟩ := List.mem_map.1 place
        simp only [Scope.members, here, marked.mark] at member
        obtain ⟨symbol, found, owner, _⟩ := outputs_found returned m member
        refine .inr ⟨symbol, found, .module id, ?_, place⟩
        simp [Scope.owner?, marked.mark, owner]
      · rcases ih k (by omega) under with ⟨i, member, rest⟩ | inner
        · exact .inl ⟨i, List.mem_cons_of_mem id member, rest⟩
        · exact .inr inner
  | @resource around lo mid hi id body ids nested name type existing inner here inside marked _ _ ihu
      ihb =>
    intro k above under
    by_cases first : k = lo
    · subst first
      exact .inl ⟨id, List.mem_cons_self, name, .intro here rfl marked (by simp [NodeData.isOutput])⟩
    · by_cases own : k < mid
      · rcases ihu k (by omega) own with ⟨i, member, name, enters⟩ | inner
        · have place : k ∈ ((Scope.resource id).members t b).map Prod.snd := by
            simp only [Scope.members, Scope.declarations, here]
            exact List.mem_map.2 ⟨_, List.mem_filterMap.2 ⟨i, member, marked?_enters enters⟩, rfl⟩
          cases enters with
          | intro _ _ marked' _ =>
            refine .inr ⟨_, marked'.found, .resource id, ?_, place⟩
            simp [Scope.owner?, marked.mark, ownerOf]
        · exact .inr inner
      · rcases ihb k (by omega) under with ⟨i, member, rest⟩ | inner
        · exact .inl ⟨i, List.mem_cons_of_mem id member, rest⟩
        · exact .inr inner

theorem declares_each (h : Declares t.arena b around lo ids hi) : ∀ id ∈ ids, ∃ lo' hi',
    Declares t.arena b around lo' [id] hi' ∧ hi' ≤ hi := by
  induction h with
  | nil => exact List.forall_mem_nil _
  | plain here sort marked beside ih =>
    exact List.forall_mem_cons.2
      ⟨⟨_, _, .plain here sort marked (.nil _ _), (declares_row beside).1⟩, ih⟩
  | module here inside marked under beside ih =>
    exact List.forall_mem_cons.2
      ⟨⟨_, _, .module here inside marked under (.nil _ _), (declares_row beside).1⟩, ih⟩
  | resource here inside marked under beside _ ih =>
    exact List.forall_mem_cons.2
      ⟨⟨_, _, .resource here inside marked under (.nil _ _), (declares_row beside).1⟩, ih⟩

theorem declares_enters (h : Declares t.arena b around lo [id] hi) :
    ∃ name, Enters t.arena b around id lo name := by
  cases h with
  | plain here sort marked beside => exact ⟨_, enters_plain here sort marked⟩
  | module here _ marked _ _ => exact ⟨_, .intro here rfl marked (by simp [NodeData.isOutput])⟩
  | resource here _ marked _ _ => exact ⟨_, .intro here rfl marked (by simp [NodeData.isOutput])⟩

end Declares

def Placed (t : Tree) (b : Bound) (total n : Nat) : Prop :=
  t.arena.IsExpression n ∨ t.arena.IsDeclaration n ∧ ∃ around lo hi,
    Declares t.arena b around lo [n] hi ∧ hi ≤ total

structure Settled (t : Tree) (b : Bound) (ids : List Nat) (total : Nat) : Prop where
  root : t.arena.data? t.root = some (.program ids)
  size : t.arena.size = t.root + 1
  resolves : Resolves t b ids total
  placed : ∀ n < t.root, Placed t b total n

section Settled

variable {t : Tree} {b : Bound} {ids : List Nat} {total : Nat}

theorem placed_children {n : Nat} {data : NodeData} (h : Placed t b total n)
    (here : t.arena.data? n = some data) : ∀ c : Nat, c ∈ data.children → Placed t b total c := by
  intro c child
  rcases h with expression | ⟨declaration, around, lo, hi, declares, low⟩
  · cases expression with
    | intro here' _ inner =>
      cases here.symm.trans here'
      exact .inl (inner c child)
  · cases declaration with
    | simple here' _ inner =>
      cases here.symm.trans here'
      exact .inl (inner c child)
    | resource here' inner under =>
      cases here.symm.trans here'
      rcases List.mem_cons.1 child with rfl | child
      · exact .inl inner
      · cases declares with
        | plain here'' sort _ _ =>
          cases here.symm.trans here''
          cases sort
        | module here'' _ _ _ _ => cases here.symm.trans here''
        | resource here'' _ _ nested beside =>
          cases here.symm.trans here''
          cases beside
          obtain ⟨lo', hi', single, le⟩ := declares_each nested c child
          exact .inr ⟨under c child, _, lo', hi', single, Nat.le_trans le low⟩

theorem settled_ofTree {file : String} {program : List Declaration}
    (lowered : Tree.ofProgram file program = .ok t) (bound : Bound.ofTree t = .ok b) :
    ∃ ids total, Settled t b ids total := by
  obtain ⟨ids, root, laid, size⟩ := Tree.ofProgram_lays lowered
  obtain ⟨total, resolves⟩ := resolves_ofTree root laid size bound
  have sorts := Tree.ofProgram_sorts lowered
  rw [Tree.declarations, root] at sorts
  have placed := Arena.lays_closed (p := Placed t b total) laid
    (fun n data h here => placed_children h here) (fun id member => by
      obtain ⟨lo, hi, single, le⟩ := declares_each resolves.declares id member
      exact .inr ⟨sorts id member, none, lo, hi, single, le⟩)
  exact ⟨ids, total, root, size, resolves, fun n low => placed n (Nat.zero_le n) low⟩

theorem settled_declarations (h : Settled t b ids total) : t.declarations = ids := by
  rw [Tree.declarations, h.root]

theorem settled_declares (h : Settled t b ids total) {d : Nat} {data : NodeData} {name : Identifier}
    (here : t.arena.data? d = some data) (named : data.declaredName? = some name) :
    ∃ around lo hi, Declares t.arena b around lo [d] hi ∧ hi ≤ total := by
  have inside := Arena.data?_lt here
  have other : d ≠ t.root := by
    rintro rfl
    cases here.symm.trans h.root
    cases named
  have low : d < t.root := by
    rw [h.size] at inside
    omega
  rcases h.placed d low with expression | ⟨_, placed⟩
  · cases expression with
    | intro here' sort _ =>
      cases here.symm.trans here'
      rw [NodeData.isDeclaration_of_declaredName? named] at sort
      cases sort
  · exact placed

theorem settled_resource (h : Settled t b ids total) {d body : Nat} {name : Identifier} {type : String}
    {existing : Bool} {nested : List Nat}
    (here : t.arena.data? d = some (.resource name type existing body nested)) :
    ∃ p type' hi, b.declarationSymbol? d = some p ∧ hi ≤ total ∧
      Declares t.arena b (some (p, type')) (p + 1) nested hi := by
  obtain ⟨around, lo, hi, declares, low⟩ := settled_declares h here rfl
  cases declares with
  | plain here' sort _ _ =>
    cases here.symm.trans here'
    cases sort
  | module here' _ _ _ _ => cases here.symm.trans here'
  | resource here' _ marked under beside =>
    cases here.symm.trans here'
    have le := (declares_row beside).1
    exact ⟨lo, _, _, marked.mark, by omega, under⟩

theorem settled_module (h : Settled t b ids total) {d body : Nat} {name : Identifier} {path : String}
    {outputs : List OutputSignature} (here : t.arena.data? d = some (.module name path body outputs)) :
    ∃ p hi, b.declarationSymbol? d = some p ∧ Outputs b d p (p + 1) outputs hi := by
  obtain ⟨around, lo, hi, declares, low⟩ := settled_declares h here rfl
  cases declares with
  | plain here' sort _ _ =>
    cases here.symm.trans here'
    cases sort
  | resource here' _ _ _ _ => cases here.symm.trans here'
  | module here' _ marked under _ =>
    cases here.symm.trans here'
    exact ⟨lo, _, marked.mark, under⟩

theorem settled_enters (h : Settled t b ids total) {d : Nat} {data : NodeData} {name : Identifier}
    (here : t.arena.data? d = some data) (named : data.declaredName? = some name) :
    ∃ around k, Enters t.arena b around d k name := by
  obtain ⟨around, lo, hi, declares, _⟩ := settled_declares h here named
  obtain ⟨name', enters⟩ := declares_enters declares
  cases enters with
  | intro here' named' marked output =>
    cases here.symm.trans here'
    cases named.symm.trans named'
    exact ⟨around, lo, .intro here named marked output⟩

theorem settled_unique (h : Settled t b ids total) {d d' k : Nat} {name name' : Identifier}
    (declared : t.declaredName? d = some name) (declared' : t.declaredName? d' = some name')
    (mark : b.declarationSymbol? d = some k) (mark' : b.declarationSymbol? d' = some k) : d = d' := by
  have found : ∀ {d : Nat} {name : Identifier}, t.declaredName? d = some name →
      b.declarationSymbol? d = some k → (b.symbol? k).map Symbol.declaration = some d := by
    intro d name declared mark
    obtain ⟨data, here, named⟩ := Option.bind_eq_some_iff.1 declared
    obtain ⟨around, k', enters⟩ := settled_enters h here named
    cases enters with
    | intro _ _ marked _ =>
      cases mark.symm.trans marked.mark
      rw [marked.found]
      rfl
  exact Option.some.inj ((found declared mark).symm.trans (found declared' mark'))

theorem settled_belongs (h : Settled t b ids total) {k : Nat} {symbol : Symbol}
    (found : b.symbol? k = some symbol) (other : ∀ loop, symbol.owner ≠ .loop loop) :
    Belongs t b k symbol := by
  have low : k < total := by
    by_contra high
    obtain ⟨loop, own⟩ := h.resolves.locals k symbol (Nat.le_of_not_lt high) found
    exact other loop own
  rcases declares_belongs h.resolves.declares k (Nat.zero_le k) low with
    ⟨id, member, name, enters⟩ | ⟨symbol', found', belongs⟩
  · have listed := marked?_enters enters
    cases enters with
    | @intro data name kind here named marked output =>
      cases found.symm.trans marked.found
      have place : ∀ scope : Scope, id ∈ scope.declarations t →
          scope.members t b = (scope.declarations t).filterMap (Scope.marked? t b) →
          k ∈ (scope.members t b).map Prod.snd := by
        intro scope inside members
        rw [members]
        exact List.mem_map.2 ⟨_, List.mem_filterMap.2 ⟨id, inside, listed⟩, rfl⟩
      have sort : t.isOutput id = data.isOutput := by simp [Tree.isOutput, here]
      by_cases result : kind = .output
      · refine ⟨.outputs, ?_, place .outputs ?_ rfl⟩
        · simp [result, ownerOf, Scope.owner?]
        · simp [Scope.declarations, settled_declarations h, member, sort, output.1 result]
      · refine ⟨.program, ?_, place .program ?_ rfl⟩
        · cases kind <;> first | rfl | exact absurd rfl result
        · have known : data.isOutput = false := by simpa [result] using output
          simp [Scope.declarations, settled_declarations h, member, sort, known]
  · cases found.symm.trans found'
    exact belongs

theorem declaredName?_of_mem_members {d k : Nat}
    (h : k ∈ ((Scope.resource d).members t b).map Prod.snd ∨
      k ∈ ((Scope.module d).members t b).map Prod.snd) : ∃ name, t.declaredName? d = some name := by
  cases here : t.arena.data? d with
  | none => simp [Scope.members, Scope.declarations, here] at h
  | some data =>
    cases data with
    | resource name _ _ _ _ | module name _ _ _ =>
      exact ⟨name, by simp [Tree.declaredName?, here, NodeData.declaredName?]⟩
    | _ => simp [Scope.members, Scope.declarations, here] at h

theorem settled_all (h : Settled t b ids total) {scope : Scope} {owner : Owner}
    (stands : scope ∈ t.scopes) (owned : scope.owner? b = some owner)
    (other : ∀ loop, owner ≠ .loop loop) (k : Nat) (symbol : Symbol)
    (found : b.symbol? k = some symbol) (own : symbol.owner = owner) :
    k ∈ (scope.members t b).map Prod.snd := by
  subst own
  -- The symbol is a member of some scope; that has the same owner, so it is the given one.
  obtain ⟨scope', owned', place⟩ := settled_belongs h found other
  suffices same : scope = scope' by
    rw [same]
    exact place
  rw [Scope.owner?_eq_some_iff] at owned owned'
  cases own : symbol.owner with
  | loop loop => exact absurd own (other loop)
  | program | outputs =>
    simp only [own] at owned owned'
    rw [owned, owned']
  | resource p =>
    simp only [own] at owned owned'
    obtain ⟨d, rfl, mark⟩ := owned
    obtain ⟨d', rfl, mark'⟩ := owned'
    obtain ⟨name, declared⟩ := Tree.declaredName?_of_mem_scopes (.inl stands)
    obtain ⟨name', declared'⟩ := declaredName?_of_mem_members (.inl place)
    rw [settled_unique h declared declared' mark mark']
  | module p =>
    simp only [own] at owned owned'
    obtain ⟨d, rfl, mark⟩ := owned
    obtain ⟨d', rfl, mark'⟩ := owned'
    obtain ⟨name, declared⟩ := Tree.declaredName?_of_mem_scopes (.inr stands)
    obtain ⟨name', declared'⟩ := declaredName?_of_mem_members (.inr place)
    rw [settled_unique h declared declared' mark mark']

theorem declares_lists {around : Option (SymbolId × TypeReference)} {lo hi : Nat} {ds : List Nat}
    (declares : Declares t.arena b around lo ds hi) (keep : Nat → Bool) (owner : Owner)
    (owned : ∀ id k name, id ∈ ds → keep id = true → Enters t.arena b around id k name →
      ∃ symbol, b.symbol? k = some symbol ∧ symbol.owner = owner ∧ symbol.name = name.name)
    (all : ∀ (k : Nat) (symbol : Symbol), b.symbol? k = some symbol → symbol.owner = owner →
      k ∈ ((ds.filter keep).filterMap (Scope.marked? t b)).map Prod.snd) :
    Lists b owner ((ds.filter keep).filterMap (Scope.marked? t b)) := by
  refine ⟨fun m member => ?_, ?_, all⟩
  · obtain ⟨id, kept, marked⟩ := List.mem_filterMap.1 member
    obtain ⟨inside, kept⟩ := List.mem_filter.1 kept
    obtain ⟨lo', hi', single, _⟩ := declares_each declares id inside
    obtain ⟨name, enters⟩ := declares_enters single
    cases marked.symm.trans (marked?_enters enters)
    exact owned id _ _ inside kept enters
  · obtain ⟨_, row, rest, sorted⟩ := declares_row declares
    rw [← row_marked rest] at sorted
    exact sorted.sublist (List.filter_sublist.filterMap _)

theorem settled_owner (h : Settled t b ids total) {scope : Scope} (stands : scope ∈ t.scopes)
    (other : ∀ loop, scope ≠ .loop loop) :
    ∃ owner, scope.owner? b = some owner ∧ ∀ loop, owner ≠ .loop loop := by
  cases scope with
  | program => exact ⟨.program, rfl, fun _ own => by cases own⟩
  | outputs => exact ⟨.outputs, rfl, fun _ own => by cases own⟩
  | resource d =>
    obtain ⟨_, _, _, _, _, here⟩ := Tree.mem_scopes_resource.1 stands
    obtain ⟨p, _, _, mark, _, _⟩ := settled_resource h here
    exact ⟨.resource p, Scope.owner?_eq_some_iff.2 ⟨d, rfl, mark⟩, fun _ own => by cases own⟩
  | module d =>
    obtain ⟨_, _, _, _, here⟩ := Tree.mem_scopes_module.1 stands
    obtain ⟨p, _, mark, _⟩ := settled_module h here
    exact ⟨.module p, Scope.owner?_eq_some_iff.2 ⟨d, rfl, mark⟩, fun _ own => by cases own⟩
  | loop loop => exact absurd rfl (other loop)

theorem settled_lists (h : Settled t b ids total) {scope : Scope} {owner : Owner}
    (stands : scope ∈ t.scopes) (owned : scope.owner? b = some owner)
    (other : ∀ loop, owner ≠ .loop loop) : Lists b owner (scope.members t b) := by
  have all := settled_all h stands owned other
  have top : t.declarations = ids := settled_declarations h
  -- At the top only an output belongs to the other scope.
  have output : ∀ {id k : Nat} {name : Identifier}, Enters t.arena b none id k name →
      ∃ symbol, b.symbol? k = some symbol ∧
        symbol.owner = (if t.isOutput id then .outputs else .program) ∧ symbol.name = name.name := by
    intro id k name enters
    cases enters with
    | @intro data name kind here named marked output =>
      refine ⟨_, marked.found, ?_, rfl⟩
      have sort : t.isOutput id = data.isOutput := by simp [Tree.isOutput, here]
      by_cases result : kind = .output
      · simp [result, ownerOf, sort, output.1 result]
      · have known : data.isOutput = false := by simpa [result] using output
        cases kind <;> first | exact absurd rfl result | simp [ownerOf, sort, known]
  cases scope with
  | program =>
    cases owned
    simp only [Scope.members, Scope.declarations, top] at all ⊢
    refine declares_lists h.resolves.declares _ _ (fun id k name _ kept enters => ?_) all
    have known : t.isOutput id = false := by simpa using kept
    simpa [known] using output enters
  | outputs =>
    cases owned
    simp only [Scope.members, Scope.declarations, top] at all ⊢
    refine declares_lists h.resolves.declares _ _ (fun id k name _ kept enters => ?_) all
    simpa [kept] using output enters
  | loop loop =>
    cases owned
    exact absurd rfl (other loop)
  | resource d =>
    obtain ⟨p, mark, rfl⟩ := Option.map_eq_some_iff.1 owned
    obtain ⟨name, type, existing, body, nested, here⟩ := Tree.mem_scopes_resource.1 stands
    obtain ⟨p', type', hi, mark', _, declares⟩ := settled_resource h here
    cases mark.symm.trans mark'
    simp only [Scope.members, Scope.declarations, here] at all ⊢
    have lists := declares_lists declares (fun _ => true) (.resource p)
      (fun id k name _ _ enters => by
        cases enters with
        | intro _ _ marked _ => exact ⟨_, marked.found, rfl, rfl⟩)
    simp only [List.filter_true] at lists
    exact lists all
  | module d =>
    obtain ⟨p, mark, rfl⟩ := Option.map_eq_some_iff.1 owned
    obtain ⟨name, path, body, outputs, here⟩ := Tree.mem_scopes_module.1 stands
    obtain ⟨p', hi, mark', returned⟩ := settled_module h here
    cases mark.symm.trans mark'
    simp only [Scope.members, here, mark] at all ⊢
    refine ⟨outputs_found returned, List.pairwise_map.1 ?_, all⟩
    rw [List.zipIdx_map_snd]
    exact List.pairwise_lt_range'

theorem settled_member? (h : Settled t b ids total) {scope : Scope} {owner : Owner}
    (stands : scope ∈ t.scopes) (owned : scope.owner? b = some owner)
    (other : ∀ loop, owner ≠ .loop loop) (name : String) :
    b.member? owner name = scope.find? t b name := by
  rw [lists_member? (settled_lists h stands owned other)]
  cases scope with
  | loop loop =>
    cases owned
    exact absurd rfl (other loop)
  | _ => rfl

theorem settled_names (h : Settled t b ids total) {scope : Scope} (stands : scope ∈ t.scopes)
    (other : ∀ loop, scope ≠ .loop loop) : (scope.members t b).map Prod.fst = scope.names t := by
  have rows : ∀ {around : Option (SymbolId × TypeReference)} {lo hi : Nat} {ds : List Nat}
      (keep : Nat → Bool), Declares t.arena b around lo ds hi →
      ((ds.filter keep).filterMap (Scope.marked? t b)).map Prod.fst =
        (ds.filter keep).filterMap t.declaredName? := by
    intro around lo hi ds keep declares
    rw [List.map_filterMap]
    apply List.filterMap_congr
    intro id kept
    obtain ⟨lo', hi', single, _⟩ := declares_each declares id (List.mem_filter.1 kept).1
    obtain ⟨name, enters⟩ := declares_enters single
    rw [marked?_enters enters]
    cases enters with
    | intro here named _ _ => simp [Tree.declaredName?, here, named]
  cases scope with
  | program =>
    simp only [Scope.members, Scope.names, Scope.declarations, settled_declarations h]
    exact rows _ h.resolves.declares
  | outputs =>
    simp only [Scope.members, Scope.names, Scope.declarations, settled_declarations h]
    exact rows _ h.resolves.declares
  | resource d =>
    obtain ⟨name, type, existing, body, nested, here⟩ := Tree.mem_scopes_resource.1 stands
    obtain ⟨p, type', hi, _, _, declares⟩ := settled_resource h here
    simp only [Scope.members, Scope.names, Scope.declarations, here]
    simpa using rows (fun _ => true) declares
  | module d =>
    obtain ⟨name, path, body, outputs, here⟩ := Tree.mem_scopes_module.1 stands
    obtain ⟨p, hi, mark, _⟩ := settled_module h here
    simp only [Scope.members, Scope.names, here, mark]
    rw [List.zipIdx_map_fst]
  | loop loop => exact absurd rfl (other loop)

end Settled

end Binder

end DeployCheck
