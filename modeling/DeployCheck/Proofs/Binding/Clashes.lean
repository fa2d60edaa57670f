import DeployCheck.Proofs.Binding.Lexical
import Mathlib.Data.Finset.Card

/-!
# Clashes of names

In a scope that declarations fill, every name that comes after one that is the same
is reported, and lookups find the first one. The variables of a loop are brought into
scope without this check: an index of the same name hides the item, and nothing is
reported.
-/

set_option autoImplicit false

namespace DeployCheck

open Binder

namespace Scope

/-- The names that are the same as an earlier one, ignoring case. -/
def repeated (earlier : List Identifier) : List Identifier → List Identifier
  | [] => []
  | i :: rest =>
    if earlier.any fun j => Name.same j.name i.name then i :: repeated (earlier ++ [i]) rest
    else repeated (earlier ++ [i]) rest

def repeats (names : List Identifier) : List Identifier := repeated [] names

/-- The different names, ignoring case. -/
def distinct (names : List Identifier) : Finset String :=
  (names.map fun i => Name.key i.name).toFinset

def isLoop : Scope → Bool
  | loop _ => true
  | _ => false

theorem isLoop_iff {scope : Scope} : scope.isLoop = true ↔ ∃ n, scope = .loop n := by
  cases scope <;> simp [isLoop]

theorem any_same {earlier : List Identifier} {i : Identifier} :
    (earlier.any fun j => Name.same j.name i.name) = true ↔ Name.key i.name ∈ distinct earlier := by
  simp [distinct, Name.same_iff]

theorem repeated_card (earlier names : List Identifier) :
    (repeated earlier names).length + (distinct names \ distinct earlier).card = names.length := by
  induction names generalizing earlier with
  | nil => simp [repeated, distinct]
  | cons i rest ih =>
    have whole : distinct (i :: rest) = insert (Name.key i.name) (distinct rest) := by
      simp [distinct]
    have longer : distinct (earlier ++ [i]) = insert (Name.key i.name) (distinct earlier) := by
      simp [distinct, Finset.union_comm]
    -- Either `i` is repeated, or it is one more of the names that are new.
    have count := ih (earlier ++ [i])
    rw [longer] at count
    rw [repeated, whole]
    by_cases known : Name.key i.name ∈ distinct earlier
    · rw [Finset.insert_eq_of_mem known] at count
      rw [if_pos (any_same.2 known), Finset.insert_sdiff_of_mem _ known]
      simp only [List.length_cons]
      omega
    · have split : insert (Name.key i.name) (distinct rest) \ distinct earlier =
          insert (Name.key i.name) (distinct rest \ insert (Name.key i.name) (distinct earlier)) := by
        ext key
        by_cases same : key = Name.key i.name <;> simp [same, known]
      rw [if_neg (mt any_same.1 known), split, Finset.card_insert_of_notMem (by simp)]
      simp only [List.length_cons]
      omega

theorem repeats_card (names : List Identifier) :
    (repeats names).length = names.length - (distinct names).card := by
  have count := repeated_card [] names
  simp only [distinct, List.map_nil, List.toFinset_nil, Finset.sdiff_empty] at count
  rw [repeats, distinct]
  omega

theorem mem_repeated {earlier names : List Identifier} {i : Identifier}
    (h : i ∈ repeated earlier names) : ∃ before after j, names = before ++ i :: after ∧
      j ∈ earlier ++ before ∧ Name.same j.name i.name = true := by
  induction names generalizing earlier with
  | nil => cases h
  | cons k rest ih =>
    have later : i ∈ repeated (earlier ++ [k]) rest → ∃ before after j,
        k :: rest = before ++ i :: after ∧ j ∈ earlier ++ before ∧
          Name.same j.name i.name = true := by
      intro h
      obtain ⟨before, after, j, rfl, member, same⟩ := ih h
      exact ⟨k :: before, after, j, rfl, by simpa using member, same⟩
    rw [repeated] at h
    split at h
    · rename_i known
      rcases List.mem_cons.1 h with rfl | h
      · obtain ⟨j, member, same⟩ := List.any_eq_true.1 known
        exact ⟨[], rest, j, rfl, by simpa using member, same⟩
      · exact later h
    · exact later h

end Scope

namespace Tree

/-- The reports about a scope: every name that is the same as an earlier one. -/
def duplicates (t : Tree) (scope : Scope) : List Diagnostic :=
  (Scope.repeats (scope.names t)).map t.duplicateName

end Tree

namespace Binder

section Clashes

variable {t : Tree} {b : Bound}

theorem first?_append (before after : List (Identifier × SymbolId)) (m : Identifier × SymbolId)
    (other : ∀ m' ∈ before, m'.2 ≠ m.2) :
    Scope.first? (before ++ m :: after) m.1.name = some m.2 ↔
      (before.any fun m' => Name.same m'.1.name m.1.name) = false := by
  rw [Scope.first?, List.find?_append, List.find?_cons, Name.same_refl]
  cases search : before.find? fun m' => Name.same m'.1.name m.1.name with
  | none =>
    have none : (before.any fun m' => Name.same m'.1.name m.1.name) = false := by
      simpa using search
    simp [none]
  | some m' =>
    have member := List.mem_of_find?_eq_some search
    have same := List.find?_some search
    have some : (before.any fun m' => Name.same m'.1.name m.1.name) = true :=
      List.any_eq_true.2 ⟨m', member, same⟩
    simp [some, other m' member]

theorem clashes_repeated {owner : Owner} {members : List (Identifier × SymbolId)}
    (lists : Lists b owner members) (before after : List (Identifier × SymbolId))
    (split : members = before ++ after) : t.clashes b after =
      (Scope.repeated (before.map Prod.fst) (after.map Prod.fst)).map t.duplicateName := by
  induction after generalizing before with
  | nil => rfl
  | cons m rest ih =>
    have next := ih (before ++ [m]) (by simp [split])
    rw [List.map_append] at next
    have member : m ∈ members := by simp [split]
    obtain ⟨symbol, found, rfl, name⟩ := lists.found m member
    have sorted := lists.sorted
    rw [split, List.pairwise_append] at sorted
    have first := lists_member? lists symbol.name
    rw [name, split] at first
    have known := first?_append before rest m fun m' inside =>
      Nat.ne_of_lt (sorted.2.2 m' inside m List.mem_cons_self)
    rw [← first, ← Bool.not_eq_true] at known
    have any : (before.map Prod.fst).any (fun j => Name.same j.name m.1.name) =
        before.any fun m' => Name.same m'.1.name m.1.name := by
      rw [List.any_map]
      rfl
    rw [Tree.clashes, List.filterMap_cons, Tree.clash?, found, Option.bind_some, name,
      List.map_cons, Scope.repeated, any]
    by_cases same : b.member? symbol.owner m.1.name = some m.2
    · rw [if_pos same, if_neg (known.1 same)]
      exact next
    · rw [if_neg same, if_pos (by_contra fun none => same (known.2 none)), List.map_cons]
      exact congrArg (_ :: ·) next

end Clashes

section Programs

variable {t : Tree} {b : Bound} {file : String} {program : List Declaration}

theorem clashes_scope (lowered : Tree.ofProgram file program = .ok t)
    (bound : Bound.ofTree t = .ok b) {scope : Scope} (stands : scope ∈ t.scopes)
    (other : scope.isLoop = false) : t.clashes b (scope.members t b) = t.duplicates scope := by
  obtain ⟨ids, total, settled⟩ := settled_ofTree lowered bound
  obtain ⟨owner, owned, apart⟩ := settled_owner settled stands fun n same => by
    rw [same] at other
    cases other
  have reported :=
    clashes_repeated (t := t) (settled_lists settled stands owned apart) [] _
      (List.nil_append _).symm
  rwa [members_names lowered bound stands] at reported

theorem innerClashes_scopes (lowered : Tree.ofProgram file program = .ok t)
    (bound : Bound.ofTree t = .ok b) (ids : List NodeId) : ids.flatMap (t.innerClashes b) =
      ((ids.filterMap fun id => (t.arena.data? id).bind (NodeData.scope? id)).filter
        fun scope => !scope.isLoop).flatMap t.duplicates := by
  induction ids with
  | nil => rfl
  | cons id rest ih =>
    rw [List.flatMap_cons, ih, List.filterMap_cons, Tree.innerClashes]
    cases here : t.arena.data? id with
    | none => simp
    | some data =>
      cases data with
      | resource name type existing body nested =>
        have own := clashes_scope lowered bound
          (Tree.mem_scopes_resource.2 ⟨name, type, existing, body, nested, here⟩) rfl
        simp [NodeData.scope?, Scope.isLoop, own]
      | module name path body outputs =>
        have own := clashes_scope lowered bound
          (Tree.mem_scopes_module.2 ⟨name, path, body, outputs, here⟩) rfl
        simp [NodeData.scope?, Scope.isLoop, own]
      | _ => simp [NodeData.scope?, Scope.isLoop]

theorem headClashes_program (lowered : Tree.ofProgram file program = .ok t)
    (bound : Bound.ofTree t = .ok b) :
    (t.headClashes b t.declarations).Perm (t.duplicates .program ++ t.duplicates .outputs) := by
  have split := List.filter_append_perm (fun id => !t.isOutput id) t.declarations
  simp only [Bool.not_not] at split
  rw [← clashes_scope lowered bound List.mem_cons_self rfl,
    ← clashes_scope lowered bound (List.mem_cons_of_mem _ List.mem_cons_self) rfl, Tree.headClashes,
    Tree.clashes, Tree.clashes, Tree.clashes, ← List.filterMap_append]
  have members := (split.filterMap (Scope.marked? t b)).filterMap (t.clash? b)
  rw [List.filterMap_append] at members
  exact members.symm

theorem duplicates_reported (lowered : Tree.ofProgram file program = .ok t)
    (bound : Bound.ofTree t = .ok b) :
    (b.diagnostics.toList.filter fun d => d.code == Rule.duplicateName.code).Perm
      ((t.scopes.filter fun scope => !scope.isLoop).flatMap t.duplicates) := by
  obtain ⟨ids, root, _, size⟩ := Tree.ofProgram_lays lowered
  have none : t.innerClashes b t.root = [] := by simp [Tree.innerClashes, root]
  have nodes : (List.range t.arena.size).flatMap (t.innerClashes b) =
      (List.range t.root).flatMap (t.innerClashes b) := by
    rw [size, List.range_succ, List.flatMap_append, List.flatMap_singleton, none, List.append_nil]
  refine (reports_split (accounts_ofTree lowered bound)).1.trans ?_
  rw [← nodes, innerClashes_scopes lowered bound]
  simp only [Tree.scopes, List.filter_cons, Scope.isLoop, Bool.not_false, if_true, List.flatMap_cons]
  rw [← List.append_assoc]
  exact (headClashes_program lowered bound).append_right _

theorem duplicates_unique (lowered : Tree.ofProgram file program = .ok t)
    (bound : Bound.ofTree t = .ok b)
    (unique : ∀ n, Scope.loop n ∈ t.scopes → t.duplicates (.loop n) = []) :
    (b.diagnostics.toList.filter fun d => d.code == Rule.duplicateName.code).Perm
      (t.scopes.flatMap t.duplicates) := by
  have silent : ∀ scope ∈ t.scopes, scope.isLoop = true → t.duplicates scope = [] := by
    intro scope stands loop
    obtain ⟨n, rfl⟩ := Scope.isLoop_iff.1 loop
    exact unique n stands
  refine (duplicates_reported lowered bound).trans (List.Perm.of_eq ?_)
  generalize t.scopes = scopes at silent
  induction scopes with
  | nil => rfl
  | cons scope rest ih =>
    obtain ⟨first, later⟩ := List.forall_mem_cons.1 silent
    rw [List.filter_cons, List.flatMap_cons]
    cases loop : scope.isLoop with
    | false => simp [ih later]
    | true => simp [ih later, first loop]

theorem find?_declared {scope : Scope} (other : scope.isLoop = false) (name : String) :
    scope.find? t b name = Scope.first? (scope.members t b) name := by
  cases scope with
  | loop n => cases other
  | _ => rfl

theorem first?_swap {m m' : Identifier × SymbolId} (other : Name.same m.1.name m'.1.name = false)
    (name : String) : Scope.first? [m', m] name = Scope.first? [m, m'] name := by
  rw [Scope.first?, Scope.first?]
  simp only [List.find?_cons, List.find?_nil]
  cases same : Name.same m.1.name name with
  | false => cases Name.same m'.1.name name <;> rfl
  | true =>
    cases same' : Name.same m'.1.name name with
    | false => rfl
    | true =>
      rw [Name.same_trans same (Name.same_comm m'.1.name name ▸ same')] at other
      cases other

theorem find?_loop (lowered : Tree.ofProgram file program = .ok t) (bound : Bound.ofTree t = .ok b)
    {n : NodeId} (stands : .loop n ∈ t.scopes) (unique : t.duplicates (.loop n) = []) (name : String) :
    (Scope.loop n).find? t b name = Scope.first? ((Scope.loop n).members t b) name := by
  have names := members_names lowered bound stands
  rcases Tree.mem_scopes.1 stands with ⟨⟨⟩⟩ | ⟨⟨⟩⟩ | ⟨id, data, here, opens⟩
  cases data <;> cases opens
  rename_i item index iterated body
  have own : (Scope.loop n).names t = item :: index.toList := by simp [Scope.names, here]
  rw [own] at names
  rw [Tree.duplicates, List.map_eq_nil_iff, own, Scope.repeats] at unique
  obtain ⟨m, rest, row, rfl, others⟩ := List.map_eq_cons_iff.1 names
  rw [Scope.find?, row]
  cases index with
  | none =>
    rw [List.map_eq_nil_iff.1 others]
    rfl
  | some index =>
    obtain ⟨m', rest', rfl, rfl, none⟩ := List.map_eq_cons_iff.1 others
    rw [List.map_eq_nil_iff.1 none]
    refine first?_swap ?_ name
    cases same : Name.same m.1.name m'.1.name with
    | false => rfl
    | true => simp [Scope.repeated, same] at unique

end Programs

end Binder

namespace Bound

/-- In every scope that declarations fill, each name that is the same as an earlier one
is reported once, and nothing else is: as many names as there are more names than
different ones. Lookups in such a scope find the first of several names, and every
name that is bound is found in a scope around it. The variables of loops are not
checked, and the later of two is found; if no loop has two variables of one name, all
of this holds of loops too. -/
theorem ofTree_duplicates {file : String} {program : List Declaration} {t : Tree}
    (lowered : Tree.ofProgram file program = .ok t) : ∃ b, ofTree t = .ok b ∧
      (b.diagnostics.toList.filter fun d => d.code == Rule.duplicateName.code).Perm
        ((t.scopes.filter fun scope => !scope.isLoop).flatMap t.duplicates) ∧
      (∀ scope ∈ t.scopes, (t.duplicates scope).length =
          (scope.names t).length - (Scope.distinct (scope.names t)).card ∧
        ∀ i ∈ Scope.repeats (scope.names t), ∃ before after j,
          scope.names t = before ++ i :: after ∧ j ∈ before ∧ Name.same j.name i.name = true) ∧
      (∀ scope ∈ t.scopes, ∀ owner, scope.owner? b = some owner → scope.isLoop = false →
        ∀ name, b.member? owner name = Scope.first? (scope.members t b) name) ∧
      (∀ n name k, t.arena.data? n = some (.ident name) → b.nameSymbol? n = some k →
        ∃ scopes, Within t scopes n ∧ ∃ scope ∈ scopes, scope ∈ t.scopes ∧
          scope.find? t b name.name = some k ∧
          (scope.isLoop = false → Scope.first? (scope.members t b) name.name = some k)) ∧
      ((∀ n, Scope.loop n ∈ t.scopes → t.duplicates (.loop n) = []) →
        (b.diagnostics.toList.filter fun d => d.code == Rule.duplicateName.code).Perm
          (t.scopes.flatMap t.duplicates) ∧
        ∀ scope ∈ t.scopes, ∀ name,
          scope.find? t b name = Scope.first? (scope.members t b) name) := by
  obtain ⟨b, bound⟩ := ofTree_total lowered
  obtain ⟨ids, total, settled⟩ := settled_ofTree lowered bound
  refine ⟨b, bound, duplicates_reported lowered bound, ?_, ?_, ?_,
    fun unique => ⟨duplicates_unique lowered bound unique, ?_⟩⟩
  · intro scope _
    refine ⟨?_, fun i => Scope.mem_repeated⟩
    rw [Tree.duplicates, List.length_map, Scope.repeats_card]
  · intro scope stands owner owned other name
    have apart : ∀ n, owner ≠ .loop n := by
      rintro n rfl
      rw [Scope.owner?_eq_some_iff.1 owned] at other
      cases other
    rw [settled_member? settled stands owned apart, find?_declared other]
  · intro n name k here found
    obtain ⟨⟨scopes, within⟩, resolved⟩ := ident_resolved lowered bound here
    rw [resolved scopes within] at found
    obtain ⟨scope, member, first⟩ := List.exists_of_findSome?_eq_some found
    refine ⟨scopes, within, scope, member, mem_scopes_of_member (mem_members_of_find? first), first,
      fun other => ?_⟩
    rwa [← find?_declared other]
  · intro scope stands name
    cases loop : scope.isLoop with
    | false => exact find?_declared loop name
    | true =>
      obtain ⟨n, rfl⟩ := Scope.isLoop_iff.1 loop
      exact find?_loop lowered bound stands (unique n stands) name

def clashing : List Declaration :=
  [.param "p" none none,
    .resource "r" "T@1" true (.object [] none)
      [.resource "q" "U" true (.object [] none) [] none,
        .resource "Q" "U" true (.object [] none) [] none] none,
    .var "P" (.loop "x" (some "i") (.array [] none) (.ident "p" none) none) none]

theorem ofTree_duplicates_clashing : ∃ t b, Tree.ofProgram "main.json" clashing = .ok t ∧
    ofTree t = .ok b ∧ (t.scopes.flatMap t.duplicates).map (·.start) = [73, 40] ∧
      (b.diagnostics.toList.filter fun d => d.code == Rule.duplicateName.code).Perm
        (t.scopes.flatMap t.duplicates) := by
  have run : ((Tree.ofProgram "main.json" clashing).toOption.map fun t =>
      ((t.scopes.filter Scope.isLoop).flatMap t.duplicates,
        (t.scopes.flatMap t.duplicates).map (·.start))) = some ([], [73, 40]) := by
    decide +kernel
  obtain ⟨t, lowered, lists⟩ := Option.map_eq_some_iff.1 run
  obtain ⟨none, starts⟩ := Prod.mk.inj lists
  have lowered := ok_of_toOption lowered
  obtain ⟨b, bound, -, -, -, -, unique⟩ := ofTree_duplicates lowered
  have silent : ∀ n, Scope.loop n ∈ t.scopes → t.duplicates (.loop n) = [] := fun n stands =>
    List.flatMap_eq_nil_iff.1 none _ (List.mem_filter.2 ⟨stands, rfl⟩)
  exact ⟨t, b, lowered, bound, starts, (unique silent).1⟩

def looped : List Declaration :=
  [.output "o" (.loop "x" (some "X") (.array [] none) (.ident "x" none) none) none]

/-- The loop introduces two names of which one is different, but nothing is reported, and
the name is bound to the later variable. -/
theorem looped_unreported : ∃ t b, Tree.ofProgram "main.json" looped = .ok t ∧
    ofTree t = .ok b ∧ Scope.loop 2 ∈ t.scopes ∧
    ((Scope.loop 2).names t).map Identifier.name = ["x", "X"] ∧
    (Scope.distinct ((Scope.loop 2).names t)).card = 1 ∧ b.diagnostics = #[] ∧
    Scope.first? ((Scope.loop 2).members t b) "x" = some 1 ∧ b.nameSymbol? 1 = some 2 := by
  have run : ((Tree.ofProgram "main.json" looped).toOption.bind fun t =>
      (ofTree t).toOption.map fun b =>
        ((t.scopes.contains (.loop 2), ((Scope.loop 2).names t).map Identifier.name,
            (Scope.distinct ((Scope.loop 2).names t)).card),
          (b.diagnostics.size, Scope.first? ((Scope.loop 2).members t b) "x", b.nameSymbol? 1))) =
      some ((true, ["x", "X"], 1), (0, some 1, some 2)) := by
    decide +kernel
  obtain ⟨t, lowered, run⟩ := Option.bind_eq_some_iff.1 run
  obtain ⟨b, bound, facts⟩ := Option.map_eq_some_iff.1 run
  simp only [Prod.mk.injEq, List.contains_iff_mem] at facts
  obtain ⟨⟨stands, names, one⟩, silent, first, later⟩ := facts
  exact ⟨t, b, ok_of_toOption lowered, ok_of_toOption bound, stands, names, one,
    Array.eq_empty_of_size_eq_zero silent, first, later⟩

end Bound

end DeployCheck
