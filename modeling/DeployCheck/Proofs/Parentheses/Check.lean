import DeployCheck.Proofs.Analysis.Order
import DeployCheck.Proofs.Insertion.Check
import DeployCheck.Proofs.Parentheses.Analysis
import DeployCheck.Proofs.Parentheses.Documents
import DeployCheck.Proofs.Violations

/-!
# Checking with an operand in parentheses

Putting the base or the index of an access in parentheses changes nothing for the check,
except where the shape of the operand is looked at.
-/

set_option autoImplicit false

namespace DeployCheck

namespace Arena

variable {a a' : Arena} {ids order : List Nat}

theorem places_others (e : Nat) (order : List Nat) :
    (order.flatMap fun x => (places e x).reverse).filter (· ≠ e + 1) = order.map (twin e) := by
  induction order with
  | nil => rfl
  | cons x order ih =>
    rw [List.flatMap_cons, List.filter_append, ih, List.map_cons, ← List.singleton_append]
    congr 1
    by_cases wrapped : x = e
    · rw [wrapped, places_self, twin_self]
      simp
    · rw [places_of_ne wrapped]
      simp [twin_ne]

namespace Parenthesized

variable {p e : Nat} (h : a.Parenthesized a' p e)

include h

theorem preOrder (walk : PreOrder a ids order) :
    PreOrder a' (ids.map (outer e)) (order.flatMap fun x => (places e x).reverse) := by
  induction walk with
  | nil => exact .nil
  | @cons id ids below rest _ _ under beside =>
    rw [List.map_cons, List.flatMap_cons, List.flatMap_append]
    rw [← h.enlarged.children_twin trivial] at under
    by_cases wrapped : id = e
    · rw [wrapped, twin_self] at under
      rw [wrapped, outer_self, places_self]
      have inner : a'.children (e + 1) = [e] := children_of_data h.paren
      have operand := PreOrder.cons under .nil
      rw [← inner, List.append_nil] at operand
      have whole := PreOrder.cons operand beside
      exact whole
    · rw [outer_of_ne wrapped, places_of_ne wrapped]
      have whole := PreOrder.cons under beside
      exact whole

end Parenthesized

end Arena

namespace Model

section Operands

variable {m m' : Model} {p e : Nat} (h : m.Enlarged m' e (outer e) fun _ => True)
  (arena : m.tree.arena.Parenthesized m'.tree.arena p e)

include arena

theorem violation?_quoted {x base : Nat} (here : m.tree.arena.data? x = some (.index base e)) :
    m'.violation? (twin e x) = none := by
  obtain ⟨data', there, _, paired⟩ := arena.twin_paired here
  have allowed : ∀ a, m'.forbidsIndex a (e + 1) = false := by
    intro a
    rw [forbidsIndex, arena.paren]
  rw [violation?, there]
  cases paired with
  | index moved moved' =>
    rw [moved', outer_self]
    show (m'.constrained? _).filter _ = none
    simp only [allowed]
    cases m'.constrained? _ <;> rfl

theorem violation?_paren : m'.violation? (e + 1) = none := by
  rw [violation?, arena.paren]
  rfl

include h

theorem check_parenthesized
    (quiet : ∀ x base, m.tree.arena.data? x = some (.index base e) → m.violation? x = none)
    (walk : m'.tree.arena.visit m'.tree.root =
      (m.tree.arena.visit m.tree.root).flatMap fun x => (places e x).reverse) :
    m'.check.map Diagnostic.text = m.check.map Diagnostic.text := by
  refine check_enlarged (fun x => ?_) (violation?_paren arena) ?_
  · by_cases quoted : ∃ base, m.tree.arena.data? x = some (.index base e)
    · obtain ⟨base, here⟩ := quoted
      rw [violation?_quoted arena here, quiet x base here]
      rfl
    · exact h.violation?_twin trivial fun base here => quoted ⟨base, here⟩
  · rw [walk, Arena.places_others]

end Operands

theorem build_limits {file : String} {ds : List Declaration} {tree : Tree} {catalog : Catalog}
    {m : Model} (lowered : Tree.ofProgram file ds = .ok tree)
    (built : Model.build tree catalog = .ok m) (small : tree.arena.size ≤ targetLimit) :
    m.bound.Near m.tree.arena ∧ Analysis.Shallow (.ofModel m catalog) := by
  obtain rfl := build_tree built
  exact ⟨Bound.near_of_size (Tree.ofProgram_descends lowered) small,
    Analysis.shallow_of_size (Nat.lt_of_le_of_lt small (by decide))⟩

/-- In a program the base or the index of an access is put in parentheses. The result has
the same symbols, and a node is bound to the symbol that it was bound to, unless it is a
`::` node with the parentheses as its base. If nothing but the value of the operand is
looked at, no target is further away than the limit, and the analysis stays below its
limit, all bodies are the same. An access is reported if it was, with the same text, but for
one whose index is in parentheses now, which is not reported. -/
theorem build_parenthesized {file : String} {ds ds' : List Declaration} {tree : Tree}
    {catalog : Catalog} {m : Model} (put : Declaration.Parenthesized ds ds')
    (lowered : Tree.ofProgram file ds = .ok tree) (built : Model.build tree catalog = .ok m) :
    ∃ tree' m' p e, Tree.ofProgram file ds' = .ok tree' ∧ Model.build tree' catalog = .ok m' ∧
      m.tree.arena.Parenthesized m'.tree.arena p e ∧
      (∀ id, m'.bound.symbol? id = (m.bound.symbol? id).map (Symbol.moved e)) ∧
      (∀ x, m'.bound.declarationSymbol? (twin e x) = m.bound.declarationSymbol? x) ∧
      (m.bound.Spares m.tree.arena e →
        ∀ x, m'.bound.nameSymbol? (twin e x) = m.bound.nameSymbol? x) ∧
      m'.bound.nameSymbol? (e + 1) = none ∧
      (m.bound.Transparent m.tree.arena e → m'.bound.Near m'.tree.arena →
        Analysis.Shallow (.ofModel m' catalog) →
        (∀ x, m'.target? (twin e x) = m.target? x) ∧
        (∀ id, m'.body? id = m.body? id) ∧
        (∀ x, (∀ base, m.tree.arena.data? x ≠ some (.index base e)) →
          m'.violation? (twin e x) = (m.violation? x).map (Access.moved e)) ∧
        (∀ x base, m.tree.arena.data? x = some (.index base e) →
          m'.violation? (twin e x) = none) ∧
        m'.violation? (e + 1) = none ∧
        ((∀ x base, m.tree.arena.data? x = some (.index base e) → m.violation? x = none) →
          m'.check.map Diagnostic.text = m.check.map Diagnostic.text)) := by
  obtain ⟨tree', p, e, lowered', arena, root⟩ := Tree.ofProgram_enclosed put lowered
  obtain ⟨m', built'⟩ := Model.build_total lowered' catalog
  obtain ⟨rfl, bound, ran⟩ := Analysis.build_ok built
  obtain ⟨rfl, bound', ran'⟩ := Analysis.build_ok built'
  obtain ⟨_, laid⟩ := Tree.ofProgram_root lowered
  obtain ⟨_, laid'⟩ := Tree.ofProgram_root lowered'
  obtain ⟨_, _, _, size⟩ := Tree.ofProgram_lays lowered
  have below : e < m.tree.root := by
    obtain ⟨data, _, here, _, _⟩ := arena.operand
    have inside := Arena.data?_lt here
    have less := arena.descends p e (Arena.operand_child arena.operand)
    omega
  have around : m'.tree.root = outer e m.tree.root := by
    rw [root, outer_of_ne (Nat.ne_of_gt below)]
  have walk : m'.tree.arena.visit m'.tree.root =
      (m.tree.arena.visit m.tree.root).flatMap fun x => (places e x).reverse := by
    have before := arena.preOrder (Arena.lays_preOrder laid (Nat.le_succ _))
    rw [List.map_singleton, ← around] at before
    exact Arena.preOrder_unique (Arena.lays_preOrder laid' (Nat.le_succ _)) before
  obtain ⟨b', same, follows⟩ :=
    Bound.ofTree_enlarged arena.enlarged (Binder.follows_parenthesized arena) root bound
  rw [bound'] at same
  cases same
  refine ⟨m'.tree, m', p, e, lowered', built', arena, follows.symbol?, follows.declarations,
    follows.names, follows.nameless, fun transparent near shallow => ?_⟩
  have h : (Analysis.Subject.ofModel m catalog).Parenthesized (.ofModel m' catalog) p e :=
    ⟨arena, follows, transparent, near, rfl⟩
  have bodies : ∀ id, m'.body? id = m.body? id := by
    intro id
    rw [ran, ran', Analysis.run_parenthesized h shallow]
  have models : m.Enlarged m' e (outer e) fun _ => True :=
    ⟨arena.enlarged, follows.symbol?, h.target?_outer, bodies⟩
  exact ⟨h.target?_twin, bodies, fun x => models.violation?_twin trivial,
    fun x base => violation?_quoted arena, violation?_paren arena,
    fun quiet => check_parenthesized models arena quiet walk⟩

def tagsInParentheses : List Declaration :=
  [.resource "r" "T@1" true (.object [("name", .call "reference" [] none)] none) [] none,
    .output "o" (.property (.paren (.ident "r" none) none) "tags" none) none]

theorem build_parenthesized_tagsOfUnknown : ∃ tree m tree' m',
    Tree.ofProgram "main.json" tagsOfUnknown = .ok tree ∧ build tree .empty = .ok m ∧
      Tree.ofProgram "main.json" tagsInParentheses = .ok tree' ∧ build tree' .empty = .ok m' ∧
      m.check.length = 1 ∧ (∀ id, m'.body? id = m.body? id) ∧
      m'.check.map Diagnostic.text = m.check.map Diagnostic.text := by
  have accesses : (Analysis.modelled? tagsOfUnknown).map (fun t =>
      (List.range t.1.arena.size).filter fun q =>
        (t.1.arena.data? q).any fun data => decide (0 < data.operandCount)) = some [4] := by
    decide +kernel
  have reads : (Analysis.modelled? tagsOfUnknown).map (fun t =>
      (t.1.arena.data? 4).map NodeData.kindName) = some (some "property") := by
    decide +kernel
  have small : (Analysis.modelled? tagsOfUnknown).map (fun t => t.1.arena.size) = some 7 := by
    decide +kernel
  have flagged : (Analysis.modelled? tagsOfUnknown).map (fun t => (t.2.target? 4, t.2.check.length)) =
      some (none, 1) := by
    decide +kernel
  obtain ⟨⟨tree, m⟩, found, small⟩ := Option.map_eq_some_iff.1 small
  rw [found] at accesses reads flagged
  obtain ⟨plain, one⟩ := Prod.mk.inj (Option.some.inj flagged)
  obtain ⟨lowered, built⟩ := Analysis.modelled_ok found
  have put : Declaration.Parenthesized tagsOfUnknown tagsInParentheses :=
    .beside _ (.output _ _ _ (.operand (.propertyBase "tags" none) rfl (.ident "r" none) none))
  obtain ⟨tree', m', p, e, lowered', built', arena, _, _, _, _, rest⟩ :=
    build_parenthesized put lowered built
  rw [build_tree built, build_tree built'] at arena
  rw [build_tree built] at rest
  obtain ⟨data, k, here, slot, child⟩ := arena.operand
  -- The only access of the program is its fifth node.
  obtain rfl : p = 4 := by
    have access : p ∈ [4] := by
      rw [← Option.some.inj accesses]
      refine List.mem_filter.2 ⟨List.mem_range.2 (Arena.data?_lt here), ?_⟩
      show (tree.arena.data? p).any _ = true
      rw [here]
      exact decide_eq_true (Nat.zero_lt_of_lt slot)
    exact List.mem_singleton.1 access
  replace reads : (tree.arena.data? 4).map NodeData.kindName = some "property" :=
    Option.some.inj reads
  rw [here] at reads
  replace reads := Option.some.inj reads
  cases data with
  | property base name =>
    obtain rfl : k = 0 := Nat.lt_one_iff.1 slot
    cases child
    have transparent : m.bound.Transparent tree.arena e := by
      refine Bound.transparent_of_property arena here ?_
      rw [← build_tree built]
      exact plain
    have size : tree'.arena.size = 8 := arena.size.trans (congrArg Nat.succ small)
    obtain ⟨near, shallow⟩ := build_limits lowered' built' (by rw [size]; decide)
    obtain ⟨_, bodies, _, _, _, check⟩ := rest transparent near shallow
    refine ⟨tree, m, tree', m', lowered, built, lowered', built', one, bodies, check ?_⟩
    intro x base index
    obtain rfl := arena.parent x (by
      rw [Arena.IsChild, Arena.children_of_data index]
      exact List.mem_cons_of_mem _ List.mem_cons_self)
    cases here.symm.trans index
  | _ => simp [NodeData.kindName] at reads

def tagsByIndex : List Declaration :=
  [.resource "r" "T@1" true (.object [("name", .call "reference" [] none)] none) [] none,
    .output "o" (.index (.ident "r" none) (.string (some "tags") [] none) none) none]

def tagsByIndexInParentheses : List Declaration :=
  [.resource "r" "T@1" true (.object [("name", .call "reference" [] none)] none) [] none,
    .output "o" (.index (.ident "r" none) (.paren (.string (some "tags") [] none) none) none) none]

/-- The access is reported, and it is not if the string is in parentheses. -/
theorem tagsByIndex_parenthesized : ∃ tree m tree' m',
    Declaration.Parenthesized tagsByIndex tagsByIndexInParentheses ∧
      Analysis.modelled? tagsByIndex = some (tree, m) ∧
      Analysis.modelled? tagsByIndexInParentheses = some (tree', m') ∧
      m'.bound.Near m'.tree.arena ∧ Analysis.Shallow (.ofModel m' .empty) ∧
      m.check.length = 1 ∧ m'.check = [] := by
  have put : Declaration.Parenthesized tagsByIndex tagsByIndexInParentheses :=
    .beside _ (.output _ _ _ (.operand (.indexSelector (.ident "r" none) none) rfl _ none))
  have reported : (Analysis.modelled? tagsByIndex).map (fun t => t.2.check.length) = some 1 := by
    decide +kernel
  have missing : (Analysis.modelled? tagsByIndexInParentheses).map (fun t =>
      (t.2.check, t.1.arena.size)) = some ([], 9) := by
    decide +kernel
  obtain ⟨⟨tree, m⟩, found, one⟩ := Option.map_eq_some_iff.1 reported
  obtain ⟨⟨tree', m'⟩, found', missing⟩ := Option.map_eq_some_iff.1 missing
  obtain ⟨none, size⟩ := Prod.mk.inj missing
  obtain ⟨lowered', built'⟩ := Analysis.modelled_ok found'
  have small : tree'.arena.size ≤ targetLimit := by
    rw [show tree'.arena.size = 9 from size]
    decide
  obtain ⟨near, shallow⟩ := build_limits lowered' built' small
  exact ⟨tree, m, tree', m', put, found, found', near, shallow, one, none⟩

end Model

end DeployCheck
