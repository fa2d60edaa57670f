import DeployCheck.Proofs.Binding.Duplicates
import DeployCheck.Proofs.Binding.Permuting
import Mathlib.Data.List.Nodup

/-!
# Lexical scoping

The scopes around a node are read off the tree: the loops whose bodies and the
resources inside of which it stands, the innermost first, then the program. An
identifier is bound to what the first of these scopes has under its name that has
anything.
-/

set_option autoImplicit false

namespace DeployCheck

open Binder

def NodeData.isResource : NodeData → Bool
  | resource .. => true
  | _ => false

/-- A node stands within scopes, the innermost first. -/
inductive Within (t : Tree) : List Scope → NodeId → Prop where
  | program {d : Nat} (top : d ∈ t.declarations) : Within t [.program] d
  | resource {scopes : List Scope} {d c : Nat} {data : NodeData} (outer : Within t scopes d)
      (here : t.arena.data? d = some data) (resource : data.isResource = true)
      (inside : c ∈ data.children) : Within t (.resource d :: scopes) c
  | loop {scopes : List Scope} {n iterated body : Nat} {item : Identifier} {index : Option Identifier}
      (outer : Within t scopes n) (here : t.arena.data? n = some (.loop item index iterated body)) :
      Within t (.loop n :: scopes) body
  | iterated {scopes : List Scope} {n iterated body : Nat} {item : Identifier}
      {index : Option Identifier} (outer : Within t scopes n)
      (here : t.arena.data? n = some (.loop item index iterated body)) : Within t scopes iterated
  | child {scopes : List Scope} {n c : Nat} {data : NodeData} (outer : Within t scopes n)
      (here : t.arena.data? n = some data) (resource : data.isResource = false)
      (loop : data.isLoop = false) (inside : c ∈ data.children) : Within t scopes c

/-- What scopes have under a name, the first of them first. -/
def Scope.resolve? (t : Tree) (b : Bound) (scopes : List Scope) (name : String) : Option SymbolId :=
  scopes.findSome? (Scope.find? t b name)

namespace Binder

section Locals

variable {t : Tree} {b : Bound}

theorem loopSymbols_loop {n : Nat} {s : Symbol} (h : s ∈ t.loopSymbols n) : s.owner = .loop n := by
  rw [Tree.loopSymbols] at h
  cases here : t.arena.data? n with
  | none => simp [here] at h
  | some data =>
    cases data with
    | loop item index iterated body =>
      cases index <;> simp [here, Scope.locals] at h
      · rw [h]
      · rcases h with rfl | rfl <;> rfl
    | _ => simp [here] at h

theorem loopSymbols_nodup (n : Nat) : (t.loopSymbols n).Nodup := by
  rw [Tree.loopSymbols]
  cases t.arena.data? n with
  | none => exact List.nodup_nil
  | some data =>
    cases data with
    | loop item index iterated body => cases index <;> simp [Scope.locals]
    | _ => exact List.nodup_nil

theorem locals_nodup (hi : Nat) : ((List.range hi).flatMap t.loopSymbols).Nodup := by
  rw [List.nodup_flatMap]
  refine ⟨fun n _ => loopSymbols_nodup n, ?_⟩
  refine List.nodup_range.imp fun {n m} other => ?_
  intro s left right
  have same := (loopSymbols_loop left).symm.trans (loopSymbols_loop right)
  cases same
  exact other rfl

theorem symbolOf?_local (accounts : Accounts t b) {k : Nat} {s : Symbol} {n : NodeId}
    (found : b.symbol? k = some s) (own : s.owner = .loop n) : b.symbolOf? s = some k := by
  obtain ⟨declared, locals, all, other, perm⟩ := accounts.symbols
  -- No declared symbol belongs to a loop, and among the variables every record is there once.
  have nodup : locals.Nodup := perm.nodup_iff.2 (locals_nodup t.root)
  have place : ∀ {j : Nat}, b.symbol? j = some s →
      declared.length ≤ j ∧ locals[j - declared.length]? = some s := by
    intro j found
    rw [Bound.symbol?, ← Array.getElem?_toList, all] at found
    by_cases low : j < declared.length
    · rw [List.getElem?_append_left low] at found
      exact absurd own (other s (List.mem_of_getElem? found) n)
    · rw [List.getElem?_append_right (Nat.le_of_not_lt low)] at found
      exact ⟨Nat.le_of_not_lt low, found⟩
  obtain ⟨above, here⟩ := place found
  cases search : b.symbolOf? s with
  | none =>
    rw [Bound.symbolOf?, Array.findIdx?_eq_none_iff] at search
    simpa using search s (Array.mem_of_getElem? found)
  | some j =>
    rw [Bound.symbolOf?, Array.findIdx?_eq_some_iff_getElem] at search
    obtain ⟨inside, same, _⟩ := search
    have found' : b.symbol? j = some s := by
      rw [Bound.symbol?, Array.getElem?_eq_getElem inside, beq_iff_eq.1 same]
    obtain ⟨above', here'⟩ := place found'
    have index := (List.getElem?_inj (List.getElem?_eq_some_iff.1 here).1 nodup).1
      (here.trans here'.symm)
    have equal : k = j := by omega
    rw [equal]

theorem loop_members (accounts : Accounts t b) {n iterated body : Nat} {item : Identifier}
    {index : Option Identifier} {frame : Frame}
    (here : t.arena.data? n = some (.loop item index iterated body))
    (locals : Locals b n item index frame) :
    ((Scope.loop n).members t b).map Prod.fst = item :: index.toList ∧
      frame = .locals (((Scope.loop n).members t b).reverse.map fun m => (m.1.name, m.2)) := by
  cases locals with
  | @item id found =>
    have one := symbolOf?_local accounts found rfl
    simp [Scope.members, here, Scope.locals, one]
  | @index id id' index found found' =>
    have one := symbolOf?_local accounts found rfl
    have two := symbolOf?_local accounts found' rfl
    simp [Scope.members, here, Scope.locals, one, two]

theorem frame_lookup (accounts : Accounts t b) {n iterated body : Nat} {item : Identifier}
    {index : Option Identifier} {frame : Frame}
    (here : t.arena.data? n = some (.loop item index iterated body))
    (locals : Locals b n item index frame) (name : String) :
    frame.lookup b name = (Scope.loop n).find? t b name := by
  rw [(loop_members accounts here locals).2, Frame.lookup, Scope.find?, Scope.first?,
    List.find?_map, Option.map_map]
  rfl

end Locals

section Lexical

variable {t : Tree} {b : Bound} {ids : List Nat} {total : Nat}

def Searches (t : Tree) (b : Bound) (around : List Frame) (scopes : List Scope) : Prop :=
  ∀ name, lookup b around name = Scope.resolve? t b scopes name

theorem searches_cons {around : List Frame} {scopes : List Scope} {frame : Frame} {scope : Scope}
    (outer : Searches t b around scopes)
    (same : ∀ name, frame.lookup b name = scope.find? t b name) :
    Searches t b (frame :: around) (scope :: scopes) := by
  intro name
  rw [lookup_cons, outer name, same name, Scope.resolve?, Scope.resolve?, List.findSome?_cons]
  cases scope.find? t b name <;> rfl

theorem searches_program (settled : Settled t b ids total) : Searches t b [] [.program] := by
  intro name
  have global : b.global? name = Scope.find? t b name .program :=
    settled_member? settled List.mem_cons_self rfl (fun _ own => by cases own) name
  rw [lookup, Scope.resolve?, global, List.findSome?_singleton]
  rfl

theorem searches_resource (settled : Settled t b ids total) {d body : Nat} {name : Identifier}
    {type : String} {existing : Bool} {nested : List Nat} {around : List Frame} {scopes : List Scope}
    (here : t.arena.data? d = some (.resource name type existing body nested))
    (outer : Searches t b around scopes) :
    Searches t b (inside b d around) (.resource d :: scopes) := by
  obtain ⟨p, type', hi, mark, _, _⟩ := settled_resource settled here
  rw [inside, mark]
  refine searches_cons outer fun name => ?_
  exact settled_member? settled (Tree.mem_scopes_resource.2 ⟨_, _, _, _, _, here⟩)
    (by simp [Scope.owner?, mark]) (fun _ own => by cases own) name

theorem scoped_sort {a : Arena} {around : List Frame} {n : Nat} {data : NodeData}
    (here : a.data? n = some data) (h : Scoped a b around n) : data.isDeclaration = false := by
  cases h with
  | ident here' _ | access here' _ _ | loop here' _ _ _ _ =>
    cases here.symm.trans here'
    rfl
  | plain here' plain _ _ =>
    cases here.symm.trans here'
    cases data <;> first | rfl | cases plain

/-- A node and all names below it are bound as the scopes around it say. -/
def Obeys (a : Arena) (b : Bound) (around : List Frame) (n : Nat) : Prop :=
  Scoped a b around n ∨ ScopedDeclaration a b around n

theorem isDeclaration_of_isSimple {data : NodeData} (h : isSimple data = true) :
    data.isDeclaration = true := by
  cases data <;> first | rfl | cases h

theorem obeys_expression {around : List Frame} {n : Nat} {data : NodeData}
    (here : t.arena.data? n = some data) (sort : data.isDeclaration = false)
    (h : Obeys t.arena b around n) : Scoped t.arena b around n := by
  rcases h with expression | declaration
  · exact expression
  · cases declaration with
    | simple here' simple _ _ =>
      cases here.symm.trans here'
      rw [isDeclaration_of_isSimple simple] at sort
      cases sort
    | resource here' _ _ _ =>
      cases here.symm.trans here'
      cases sort

theorem obeys_resource {around : List Frame} {d body : Nat} {name : Identifier} {type : String}
    {existing : Bool} {nested : List Nat}
    (here : t.arena.data? d = some (.resource name type existing body nested))
    (h : Obeys t.arena b around d) :
    ∀ c ∈ body :: nested, Obeys t.arena b (inside b d around) c := by
  rcases h with expression | declaration
  · cases scoped_sort here expression
  · obtain ⟨inner, under⟩ := scoped_resource here declaration
    exact List.forall_mem_cons.2 ⟨.inl inner, fun c nested => .inr (under c nested)⟩

theorem obeys_loop {around : List Frame} {n iterated body : Nat} {item : Identifier}
    {index : Option Identifier} (here : t.arena.data? n = some (.loop item index iterated body))
    (h : Obeys t.arena b around n) : Obeys t.arena b around iterated ∧
      ∃ frame, Locals b n item index frame ∧ Obeys t.arena b (frame :: around) body := by
  have bindings := obeys_expression here rfl h
  obtain ⟨source, _, frame, locals, inner⟩ := resolved_of_scoped bindings here
  exact ⟨.inl source, frame, locals, .inl inner⟩

theorem obeys_child {around : List Frame} {n : Nat} {data : NodeData}
    (here : t.arena.data? n = some data) (resource : data.isResource = false)
    (loop : data.isLoop = false) (h : Obeys t.arena b around n) :
    ∀ c : Nat, c ∈ data.children → Obeys t.arena b around c := by
  intro c child
  rcases h with expression | declaration
  · have resolved := resolved_of_scoped expression here
    cases data with
    | ident _ => cases child
    | loop _ _ _ _ => cases loop
    | resourceAccess base name =>
      cases List.mem_singleton.1 child
      exact .inl resolved.1
    | _ => exact .inl (resolved.1 c child)
  · cases declaration with
    | simple here' _ inner _ =>
      cases here.symm.trans here'
      exact .inl (inner c child)
    | resource here' _ _ _ =>
      cases here.symm.trans here'
      cases resource

theorem within_obeys (settled : Settled t b ids total) (accounts : Accounts t b)
    {scopes : List Scope} {n : Nat} (within : Within t scopes n) :
    ∃ around, Searches t b around scopes ∧ Obeys t.arena b around n := by
  -- On the way down to the node a frame is added exactly where a scope is.
  induction within with
  | program top =>
    rw [settled_declarations settled] at top
    exact ⟨[], searches_program settled, .inr (settled.resolves.nodes _ top)⟩
  | @resource scopes d c data _ here resource child ih =>
    obtain ⟨around, searches, obeys⟩ := ih
    cases data <;> cases resource
    exact ⟨_, searches_resource settled here searches, obeys_resource here obeys c child⟩
  | loop _ here ih =>
    obtain ⟨around, searches, obeys⟩ := ih
    obtain ⟨_, frame, locals, inner⟩ := obeys_loop here obeys
    exact ⟨_, searches_cons searches (frame_lookup accounts here locals), inner⟩
  | iterated _ here ih =>
    obtain ⟨around, searches, obeys⟩ := ih
    exact ⟨around, searches, (obeys_loop here obeys).1⟩
  | @child scopes n c data _ here resource loop child ih =>
    obtain ⟨around, searches, obeys⟩ := ih
    exact ⟨around, searches, obeys_child here resource loop obeys c child⟩

theorem within_exists {file : String} {program : List Declaration}
    (lowered : Tree.ofProgram file program = .ok t) {n : Nat} (low : n < t.root) :
    ∃ scopes, Within t scopes n := by
  obtain ⟨ids, root, laid, size⟩ := Tree.ofProgram_lays lowered
  have top : t.declarations = ids := by rw [Tree.declarations, root]
  refine Arena.lays_closed (p := fun n => ∃ scopes, Within t scopes n) laid ?_ ?_ n
    (Nat.zero_le n) low
  · rintro n data ⟨scopes, within⟩ here c child
    by_cases resource : data.isResource = true
    · exact ⟨_, .resource within here resource child⟩
    · by_cases loop : data.isLoop = true
      · cases data <;> cases loop
        rcases List.mem_cons.1 child with rfl | child
        · exact ⟨_, .iterated within here⟩
        · cases List.mem_singleton.1 child
          exact ⟨_, .loop within here⟩
      · exact ⟨_, .child within here (Bool.eq_false_iff.2 resource) (Bool.eq_false_iff.2 loop) child⟩
  · intro id member
    exact ⟨_, .program (top ▸ member)⟩

theorem mem_scopes_of_member {scope : Scope} {k : SymbolId}
    (h : k ∈ (scope.members t b).map Prod.snd) : scope ∈ t.scopes := by
  cases scope with
  | program => exact List.mem_cons_self
  | outputs => exact List.mem_cons_of_mem _ List.mem_cons_self
  | resource d | module d | loop d =>
    refine Tree.mem_scopes.2 (.inr (.inr ⟨d, ?_⟩))
    cases here : t.arena.data? d with
    | none => simp [Scope.members, Scope.declarations, here] at h
    | some data =>
      refine ⟨data, rfl, ?_⟩
      cases data <;> first | rfl | simp [Scope.members, Scope.declarations, here] at h

theorem mem_members_of_find? {scope : Scope} {name : String} {k : SymbolId}
    (h : scope.find? t b name = some k) : k ∈ (scope.members t b).map Prod.snd := by
  have first : ∀ {members : List (Identifier × SymbolId)}, Scope.first? members name = some k →
      k ∈ members.map Prod.snd := by
    intro members h
    obtain ⟨m, search, rfl⟩ := Option.map_eq_some_iff.1 h
    exact List.mem_map_of_mem (List.mem_of_find?_eq_some search)
  cases scope with
  | loop n => simpa using first h
  | _ => exact first h

theorem member?_iff_find? (settled : Settled t b ids total) {owner : Owner}
    (other : ∀ loop, owner ≠ .loop loop) (name : String) (k : SymbolId) :
    b.member? owner name = some k ↔
      ∃ scope : Scope, scope.owner? b = some owner ∧ scope.find? t b name = some k := by
  constructor
  · intro found
    obtain ⟨symbol, here, rfl, _⟩ := (Bound.member?_eq_some_iff.1 found).1
    obtain ⟨scope, owned, place⟩ := settled_belongs settled here other
    rw [settled_member? settled (mem_scopes_of_member place) owned other] at found
    exact ⟨scope, owned, found⟩
  · rintro ⟨scope, owned, found⟩
    have place := mem_scopes_of_member (mem_members_of_find? found)
    rwa [settled_member? settled place owned other]

theorem child?_iff_find? (settled : Settled t b ids total) (p : SymbolId) (name : String)
    (k : SymbolId) : b.child? p name = some k ↔
      ∃ d, b.declarationSymbol? d = some p ∧ (Scope.resource d).find? t b name = some k := by
  rw [Bound.child?, member?_iff_find? settled (fun _ own => by cases own)]
  constructor
  · rintro ⟨scope, owned, found⟩
    obtain ⟨d, rfl, mark⟩ := Scope.owner?_eq_some_iff.1 owned
    exact ⟨d, mark, found⟩
  · rintro ⟨d, mark, found⟩
    exact ⟨_, Scope.owner?_eq_some_iff.2 ⟨d, rfl, mark⟩, found⟩

end Lexical

section Programs

variable {t : Tree} {b : Bound} {file : String} {program : List Declaration}

theorem obeys_of_lt (lowered : Tree.ofProgram file program = .ok t) (bound : Bound.ofTree t = .ok b)
    {n : Nat} (low : n < t.root) : ∃ around, Obeys t.arena b around n := by
  obtain ⟨ids, total, settled⟩ := settled_ofTree lowered bound
  obtain ⟨scopes, within⟩ := within_exists lowered low
  obtain ⟨around, _, obeys⟩ := within_obeys settled (accounts_ofTree lowered bound) within
  exact ⟨around, obeys⟩

theorem lt_root (lowered : Tree.ofProgram file program = .ok t) {n : Nat} {data : NodeData}
    (here : t.arena.data? n = some data) (other : ∀ ids, data ≠ .program ids) : n < t.root := by
  obtain ⟨ids, root, _, size⟩ := Tree.ofProgram_lays lowered
  have inside := Arena.data?_lt here
  rw [size] at inside
  refine Nat.lt_of_le_of_ne (Nat.le_of_lt_succ inside) ?_
  rintro rfl
  cases here.symm.trans root
  exact other ids rfl

theorem scoped_of_bound (lowered : Tree.ofProgram file program = .ok t)
    (bound : Bound.ofTree t = .ok b) {n : Nat} {k : SymbolId} (found : b.nameSymbol? n = some k) :
    ∃ around, Scoped t.arena b around n := by
  have low : n < t.root := by
    by_contra high
    rw [(accounts_ofTree lowered bound).free n (Nat.le_of_not_lt high)] at found
    cases found
  obtain ⟨around, expression | declaration⟩ := obeys_of_lt lowered bound low
  · exact ⟨around, expression⟩
  · cases declaration with
    | simple _ _ _ free | resource _ _ _ free =>
      rw [free] at found
      cases found

theorem name_of_bound (lowered : Tree.ofProgram file program = .ok t)
    (bound : Bound.ofTree t = .ok b) {n : Nat} {k : SymbolId} (found : b.nameSymbol? n = some k) :
    ∃ name, t.arena.data? n = some (.ident name) ∨
      ∃ base, t.arena.data? n = some (.resourceAccess base name) := by
  obtain ⟨around, expression⟩ := scoped_of_bound lowered bound found
  cases expression with
  | ident here _ => exact ⟨_, .inl here⟩
  | access here _ _ => exact ⟨_, .inr ⟨_, here⟩⟩
  | loop _ _ _ _ free | plain _ _ _ free =>
    rw [free] at found
    cases found

theorem ident_resolved (lowered : Tree.ofProgram file program = .ok t)
    (bound : Bound.ofTree t = .ok b) {n : Nat} {name : Identifier}
    (here : t.arena.data? n = some (.ident name)) : (∃ scopes, Within t scopes n) ∧
      ∀ scopes, Within t scopes n → b.nameSymbol? n = Scope.resolve? t b scopes name.name := by
  obtain ⟨ids, total, settled⟩ := settled_ofTree lowered bound
  have accounts := accounts_ofTree lowered bound
  refine ⟨within_exists lowered (lt_root lowered here (by simp)), fun scopes within => ?_⟩
  obtain ⟨around, searches, obeys⟩ := within_obeys settled accounts within
  have bindings := obeys_expression here rfl obeys
  exact (resolved_of_scoped bindings here).trans (searches name.name)

theorem members_names (lowered : Tree.ofProgram file program = .ok t)
    (bound : Bound.ofTree t = .ok b) {scope : Scope} (stands : scope ∈ t.scopes) :
    (scope.members t b).map Prod.fst = scope.names t := by
  obtain ⟨ids, total, settled⟩ := settled_ofTree lowered bound
  by_cases loop : ∃ n, scope = .loop n
  · obtain ⟨n, rfl⟩ := loop
    rcases Tree.mem_scopes.1 stands with ⟨⟨⟩⟩ | ⟨⟨⟩⟩ | ⟨id, data, here, opens⟩
    cases data <;> cases opens
    obtain ⟨around, obeys⟩ := obeys_of_lt lowered bound (lt_root lowered here (by simp))
    obtain ⟨_, frame, locals, _⟩ := obeys_loop here obeys
    rw [(loop_members (accounts_ofTree lowered bound) here locals).1]
    simp [Scope.names, here]
  · exact settled_names settled stands fun n same => loop ⟨n, same⟩

theorem members_found (lowered : Tree.ofProgram file program = .ok t)
    (bound : Bound.ofTree t = .ok b) {scope : Scope} (stands : scope ∈ t.scopes) :
    ∀ m ∈ scope.members t b, ∃ symbol, b.symbol? m.2 = some symbol ∧ symbol.name = m.1.name ∧
      scope.owner? b = some symbol.owner := by
  obtain ⟨ids, total, settled⟩ := settled_ofTree lowered bound
  intro m member
  by_cases loop : ∃ n, scope = .loop n
  · obtain ⟨n, rfl⟩ := loop
    simp only [Scope.members] at member
    split at member
    · obtain ⟨v, inside, found⟩ := List.mem_filterMap.1 member
      obtain ⟨k, search, rfl⟩ := Option.map_eq_some_iff.1 found
      rw [Bound.symbolOf?, Array.findIdx?_eq_some_iff_getElem] at search
      obtain ⟨low, same, _⟩ := search
      refine ⟨v.2, ?_, ?_⟩
      · rw [Bound.symbol?, Array.getElem?_eq_getElem low, beq_iff_eq.1 same]
      · rcases List.mem_cons.1 inside with rfl | inside
        · exact ⟨rfl, rfl⟩
        · obtain ⟨i, _, rfl⟩ := List.mem_map.1 inside
          exact ⟨rfl, rfl⟩
    · cases member
  · obtain ⟨owner, owned, other⟩ := settled_owner settled stands fun n same => loop ⟨n, same⟩
    obtain ⟨symbol, found, own, name⟩ := (settled_lists settled stands owned other).found m member
    exact ⟨symbol, found, name, by rw [own, owned]⟩

theorem declared_found (lowered : Tree.ofProgram file program = .ok t)
    (bound : Bound.ofTree t = .ok b) {d : NodeId} {name : Identifier}
    (declared : t.declaredName? d = some name) : ∃ k symbol, b.declarationSymbol? d = some k ∧
      b.symbol? k = some symbol ∧ symbol.declaration = d ∧ symbol.name = name.name := by
  obtain ⟨ids, total, settled⟩ := settled_ofTree lowered bound
  obtain ⟨data, here, named⟩ := Option.bind_eq_some_iff.1 declared
  obtain ⟨around, k, enters⟩ := settled_enters settled here named
  cases enters with
  | intro here' named' marked output => exact ⟨k, _, marked.mark, marked.found, rfl, rfl⟩

theorem breaks_clash {m : Identifier × SymbolId} {d : Diagnostic} (h : t.clash? b m = some d) :
    d.Breaks .duplicateName := by
  obtain ⟨s, _, reported⟩ := Option.bind_eq_some_iff.1 h
  split at reported
  · cases reported
  · cases reported
    exact Diagnostic.breaks_ofRule ..

theorem breaks_unknown {n : NodeId} {d : Diagnostic} (h : t.unknown? b n = some d) :
    d.Breaks .unknownName := by
  rw [Tree.unknown?] at h
  split at h
  all_goals first | cases h | skip
  all_goals
    split at h
    · cases h
      exact Diagnostic.breaks_ofRule ..
    · cases h

theorem reports_break (accounts : Accounts t b) : ∃ ds ds', b.diagnostics.toList = ds ++ ds' ∧
    ds.Perm (t.headClashes b t.declarations ++ (List.range t.root).flatMap (t.innerClashes b)) ∧
    ds'.Perm ((List.range t.root).filterMap (t.unknown? b)) ∧
    (∀ d ∈ ds, d.Breaks .duplicateName) ∧ ∀ d ∈ ds', d.Breaks .unknownName := by
  have twice : ∀ members, ∀ d ∈ t.clashes b members, d.Breaks .duplicateName := by
    intro members d member
    obtain ⟨m, _, reported⟩ := List.mem_filterMap.1 member
    exact breaks_clash reported
  obtain ⟨ds, ds', all, clashes, unknown⟩ := accounts.reports
  refine ⟨ds, ds', all, clashes, unknown, ?_, ?_⟩
  · intro d member
    rcases List.mem_append.1 (clashes.mem_iff.1 member) with top | inner
    · exact twice _ d top
    · obtain ⟨n, _, inner⟩ := List.mem_flatMap.1 inner
      rw [Tree.innerClashes] at inner
      split at inner
      · exact twice _ d inner
      · exact twice _ d inner
      · cases inner
  · intro d member
    obtain ⟨n, _, reported⟩ := List.mem_filterMap.1 (unknown.mem_iff.1 member)
    exact breaks_unknown reported

theorem breaks_bound (accounts : Accounts t b) {d : Diagnostic}
    (member : d ∈ b.diagnostics.toList) : d.Breaks .duplicateName ∨ d.Breaks .unknownName := by
  obtain ⟨ds, ds', all, _, _, twice, unknown⟩ := reports_break accounts
  rw [all, List.mem_append] at member
  exact member.imp (twice d) (unknown d)

theorem reports_split (accounts : Accounts t b) :
    (b.diagnostics.toList.filter fun d => d.code == Rule.duplicateName.code).Perm
      (t.headClashes b t.declarations ++ (List.range t.root).flatMap (t.innerClashes b)) ∧
    (b.diagnostics.toList.filter fun d => d.code == Rule.unknownName.code).Perm
      ((List.range t.root).filterMap (t.unknown? b)) := by
  obtain ⟨ds, ds', all, clashes, unknown, first, second⟩ := reports_break accounts
  have keep : ∀ {l : List Diagnostic} {rule : Rule}, (∀ d ∈ l, d.Breaks rule) →
      (l.filter fun d => d.code == rule.code) = l := by
    intro l rule same
    exact List.filter_eq_self.2 fun d member => by simp [(same d member).code]
  have drop : ∀ {l : List Diagnostic} {rule other : Rule}, (∀ d ∈ l, d.Breaks rule) →
      rule.code ≠ other.code → (l.filter fun d => d.code == other.code) = [] := by
    intro l rule other same differ
    exact List.filter_eq_nil_iff.2 fun d member => by simp [(same d member).code, differ]
  rw [all, List.filter_append, List.filter_append, keep first, keep second,
    drop second (by decide), drop first (by decide), List.append_nil, List.nil_append]
  exact ⟨clashes, unknown⟩

end Programs

end Binder

namespace Bound

/-- Every declaration, and every name of a scope, has a symbol of its own. An identifier
is bound to what the scopes around it have under its name, the innermost scope that has
anything; a `::` node is bound to the declaration of its name that is nested in what its
base is bound to, and only these nodes are bound. What stays unbound is reported once,
as are the calls of functions that are not known, and nothing else is. -/
theorem ofTree_lexical {file : String} {program : List Declaration} {t : Tree} {b : Bound}
    (lowered : Tree.ofProgram file program = .ok t) (bound : ofTree t = .ok b) :
    (∀ d name, t.declaredName? d = some name → ∃ k symbol, b.declarationSymbol? d = some k ∧
      b.symbol? k = some symbol ∧ symbol.declaration = d ∧ symbol.name = name.name) ∧
    (∀ scope ∈ t.scopes, (scope.members t b).map Prod.fst = scope.names t ∧
      ∀ m ∈ scope.members t b, ∃ symbol, b.symbol? m.2 = some symbol ∧ symbol.name = m.1.name ∧
        scope.owner? b = some symbol.owner) ∧
    (∀ n name, t.arena.data? n = some (.ident name) → (∃ scopes, Within t scopes n) ∧
      ∀ scopes, Within t scopes n → b.nameSymbol? n = Scope.resolve? t b scopes name.name) ∧
    (∀ n base name k, t.arena.data? n = some (.resourceAccess base name) →
      (b.nameSymbol? n = some k ↔ ∃ p d, b.nameSymbol? base = some p ∧
        b.declarationSymbol? d = some p ∧ (Scope.resource d).find? t b name.name = some k)) ∧
    (∀ n k, b.nameSymbol? n = some k → ∃ name, t.arena.data? n = some (.ident name) ∨
      ∃ base, t.arena.data? n = some (.resourceAccess base name)) ∧
    (b.diagnostics.toList.filter fun d => d.code == Rule.unknownName.code).Perm
      ((List.range t.arena.size).filterMap (t.unknown? b)) := by
  obtain ⟨ids, total, settled⟩ := settled_ofTree lowered bound
  have accounts := accounts_ofTree lowered bound
  refine ⟨fun d name => declared_found lowered bound, fun scope stands =>
    ⟨members_names lowered bound stands, members_found lowered bound stands⟩,
    fun n name here => ident_resolved lowered bound here, ?_,
    fun n k => name_of_bound lowered bound, ?_⟩
  · intro n base name k here
    obtain ⟨around, obeys⟩ := obeys_of_lt lowered bound (lt_root lowered here (by simp))
    have bindings := obeys_expression here rfl obeys
    rw [(resolved_of_scoped bindings here).2, Option.bind_eq_some_iff]
    simp only [child?_iff_find? settled, exists_and_left]
  · have root : t.unknown? b t.root = none := by simp [Tree.unknown?, settled.root]
    rw [settled.size, List.range_succ, List.filterMap_append]
    simpa [root] using (reports_split accounts).2

def shadowing : List Declaration :=
  [.resource "r" "T@1" false (.loop "x" none (.ident "x" none)
      (.object [("name", .ident "X" none)] none) none)
    [.resource "c" "C@1" false (.ident "R" none) [] none] none,
    .output "o" (.resourceAccess (.ident "r" none) "C" none) none]

theorem ofTree_lexical_shadowing : ∃ t b, Tree.ofProgram "main.json" shadowing = .ok t ∧
    ofTree t = .ok b ∧ b.nameSymbol? 0 = none ∧ b.nameSymbol? 1 = some 3 ∧
    b.nameSymbol? 4 = some 0 ∧ b.nameSymbol? 8 = some 1 ∧
    (b.diagnostics.toList.filter fun d => d.code == Rule.unknownName.code).Perm
      ((List.range t.arena.size).filterMap (t.unknown? b)) := by
  have run : ((Tree.ofProgram "main.json" shadowing).toOption.bind fun t =>
      (ofTree t).toOption.map fun b =>
        (b.nameSymbol? 0, b.nameSymbol? 1, b.nameSymbol? 4, b.nameSymbol? 8)) =
      some (none, some 3, some 0, some 1) := by
    decide +kernel
  obtain ⟨t, lowered, run⟩ := Option.bind_eq_some_iff.1 run
  obtain ⟨b, bound, names⟩ := Option.map_eq_some_iff.1 run
  have lowered := ok_of_toOption lowered
  have bound := ok_of_toOption bound
  simp only [Prod.mk.injEq] at names
  obtain ⟨source, item, outer, nested⟩ := names
  have reports := (ofTree_lexical lowered bound).2.2.2.2.2
  exact ⟨t, b, lowered, bound, source, item, outer, nested, reports⟩

end Bound

end DeployCheck
