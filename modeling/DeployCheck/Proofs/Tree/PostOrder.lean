import DeployCheck.Proofs.Tree.Lowering
import Mathlib.Data.List.Perm.Basic
import Mathlib.Logic.Relation

/-!
# Trees in post-order

An arena in post-order is one tree: its last node is the root, every other node is
the child of exactly one node, and what is below a node are the numbers of an
interval that ends at the node. Lowering makes such an arena, and a walk from the
root visits every node of it once.
-/

set_option autoImplicit false

namespace DeployCheck

namespace Arena

def IsChild (a : Arena) (parent child : Nat) : Prop := child ∈ a.children parent

/-- A node belongs to the subtree of another one: it is that node, or it is reached
from it by going to children. -/
def Below (a : Arena) : Nat → Nat → Prop := Relation.ReflTransGen a.IsChild

/-- The arena holds one tree, numbered in post-order. -/
structure PostOrder (a : Arena) (root : Nat) : Prop where
  last : a.size = root + 1
  inside : ∀ parent child, a.IsChild parent child → child < a.size
  ascending : ∀ parent, (a.children parent).Pairwise (· < ·)
  parent : ∀ n < a.size, n ≠ root → ∃! p, a.IsChild p n
  top : ∀ p, ¬a.IsChild p root
  interval : ∀ n < a.size, ∃ first ≤ n, ∀ m, a.Below n m ↔ first ≤ m ∧ m ≤ n

variable {a : Arena} {lo hi : Nat} {shapes : List Shape} {ids : List Nat}

theorem below_iff {n m : Nat} : a.Below n m ↔ m = n ∨ ∃ c ∈ a.children n, a.Below c m := by
  rw [Below, Relation.ReflTransGen.cases_head_iff]
  simp only [eq_comm (a := n), IsChild]

theorem isChild_of_data {p n : Nat} {data : NodeData} (here : a.data? p = some data)
    (child : n ∈ data.children) : a.IsChild p n := by
  rwa [IsChild, children_of_data here]

theorem children_of_size_le {n : Nat} (h : a.size ≤ n) : a.children n = [] := by
  cases here : a.data? n with
  | none => simp only [children, here]
  | some data => exact absurd (data?_lt here) (Nat.not_lt_of_le h)

theorem lays_below (h : Lays a lo shapes ids hi) (m : Nat) :
    (∃ id ∈ ids, a.Below id m) ↔ lo ≤ m ∧ m < hi := by
  induction h with
  | nil =>
    simp only [List.not_mem_nil, false_and, exists_false, false_iff]
    omega
  | @cons lo id hi data below shapes ids here whole under beside ihu ihb =>
    have hu := lays_le under
    have hb := lays_le beside
    have first : a.Below id m ↔ lo ≤ m ∧ m ≤ id := by
      rw [below_iff, children_of_data here, ihu]
      omega
    simp only [List.mem_cons, exists_eq_or_imp, first, ihb]
    omega

theorem lays_interval (h : Lays a lo shapes ids hi) {n : Nat} (above : lo ≤ n) (behind : n < hi) :
    ∃ first ≤ n, ∀ m, a.Below n m ↔ first ≤ m ∧ m ≤ n := by
  induction h with
  | nil => omega
  | @cons lo id hi data below shapes ids here whole under beside ihu ihb =>
    rcases Nat.lt_trichotomy n id with before | rfl | after
    · exact ihu above before
    · use lo, above
      intro m
      rw [below_iff, children_of_data here, lays_below under]
      omega
    · exact ihb after behind

theorem lays_pairwise (h : Lays a lo shapes ids hi) : ids.Pairwise (· < ·) := by
  induction h with
  | nil => exact .nil
  | @cons lo id hi data below shapes ids here whole under beside ihu ihb =>
    rw [List.pairwise_cons]
    constructor
    · intro other member
      have := lays_mem beside other member
      omega
    · exact ihb

theorem lays_ascending (h : Lays a lo shapes ids hi) {n : Nat} (above : lo ≤ n) (behind : n < hi) :
    (a.children n).Pairwise (· < ·) := by
  induction h with
  | nil => omega
  | @cons lo id hi data below shapes ids here whole under beside ihu ihb =>
    rcases Nat.lt_trichotomy n id with before | rfl | after
    · exact ihu above before
    · rw [children_of_data here]
      exact lays_pairwise under
    · exact ihb after behind

theorem lays_child (h : Lays a lo shapes ids hi) {p n : Nat} (above : lo ≤ p) (behind : p < hi)
    (child : a.IsChild p n) : lo ≤ n ∧ n < p := by
  obtain ⟨data, here, _, inside⟩ := lays_node h above behind
  rw [IsChild, children_of_data here] at child
  exact inside n child

theorem lays_top (h : Lays a lo shapes ids hi) {p n : Nat} (above : lo ≤ p) (behind : p < hi)
    (child : a.IsChild p n) : n ∉ ids := by
  induction h with
  | nil => simp
  | @cons lo id hi data below shapes ids here whole under beside ihu ihb =>
    have hu := lays_le under
    have other := fun member => (lays_mem beside n member).1
    rw [List.mem_cons, not_or]
    by_cases after : id < p
    · have := lays_child beside after behind child
      exact ⟨by omega, ihb after behind⟩
    · have before : n < p := (lays_child (lays_single here whole under) above (by omega) child).2
      exact ⟨by omega, fun member => by have := other member; omega⟩

theorem lays_parent (h : Lays a lo shapes ids hi) {n : Nat} (above : lo ≤ n) (behind : n < hi)
    (inner : n ∉ ids) : ∃ p, p < hi ∧ a.IsChild p n ∧
      ∀ q, lo ≤ q → q < hi → a.IsChild q n → q = p := by
  induction h with
  | nil => omega
  | @cons lo id hi data below shapes ids here whole under beside ihu ihb =>
    have hb := lays_le beside
    rw [List.mem_cons, not_or] at inner
    have later : ∀ q, id < q → q < hi → a.IsChild q n → id < n :=
      fun q after inside child => (lays_child beside after inside child).1
    rcases Nat.lt_or_gt_of_ne inner.1 with before | after
    · by_cases top : n ∈ data.children
      · refine ⟨id, by omega, isChild_of_data here top, fun q low high child => ?_⟩
        rcases Nat.lt_trichotomy q id with less | same | greater
        · exact absurd top (lays_top under low less child)
        · exact same
        · have := later q greater high child
          omega
      · obtain ⟨p, less, child, unique⟩ := ihu above before top
        refine ⟨p, by omega, child, fun q low high child' => ?_⟩
        rcases Nat.lt_trichotomy q id with less' | rfl | greater
        · exact unique q low less' child'
        · rw [IsChild, children_of_data here] at child'
          exact absurd child' top
        · have := later q greater high child'
          omega
    · obtain ⟨p, less, child, unique⟩ := ihb after behind inner.2
      refine ⟨p, less, child, fun q low high child' => ?_⟩
      by_cases greater : id < q
      · exact unique q greater high child'
      · have := lays_child (lays_single here whole under) low (by omega) child'
        omega

theorem preOrder_sublist {order : List Nat} (walk : PreOrder a ids order) : ids.Sublist order := by
  induction walk with
  | nil => exact .slnil
  | @cons id ids below rest under beside ihu ihb =>
    exact (ihb.trans (List.sublist_append_right below rest)).cons_cons id

theorem preOrder_append {ids' order order' : List Nat} (walk : PreOrder a ids order)
    (walk' : PreOrder a ids' order') : PreOrder a (ids ++ ids') (order ++ order') := by
  induction walk with
  | nil => exact walk'
  | cons under _ _ ih =>
    rw [List.cons_append, List.cons_append, List.append_assoc]
    exact .cons under ih

theorem preOrder_unique {order order' : List Nat} (walk : PreOrder a ids order)
    (walk' : PreOrder a ids order') : order = order' := by
  induction walk generalizing order' with
  | nil =>
    cases walk'
    rfl
  | cons _ _ ihu ihb =>
    cases walk' with
    | cons under beside => rw [ihu under, ihb beside]

theorem preOrder_family {order : List Nat} (walk : PreOrder a ids order) {n : Nat}
    (member : n ∈ order) : (n :: a.children n).Sublist order := by
  induction walk with
  | nil => cases member
  | @cons id ids below rest under beside ihu ihb =>
    rw [List.mem_cons, List.mem_append] at member
    rcases member with rfl | inner | outer
    · exact ((preOrder_sublist under).trans (List.sublist_append_left below rest)).cons_cons n
    · exact ((ihu inner).trans (List.sublist_append_left below rest)).cons id
    · exact ((ihb outer).trans (List.sublist_append_right below rest)).cons id

theorem preOrder_closed {order : List Nat} (walk : PreOrder a ids order) {n m : Nat}
    (member : n ∈ order) (below : a.Below n m) : m ∈ order := by
  induction below with
  | refl => exact member
  | tail _ child ih => exact (preOrder_family walk ih).subset (List.mem_cons_of_mem _ child)

theorem preOrder_below {order : List Nat} (walk : PreOrder a ids order) {n m : Nat}
    (member : n ∈ order) (below : a.Below n m) (other : m ≠ n) : [n, m].Sublist order := by
  induction walk with
  | nil => cases member
  | @cons id ids inner rest under beside ihu ihb =>
    rw [List.mem_cons, List.mem_append] at member
    rcases member with rfl | inside | outside
    · rw [below_iff] at below
      obtain ⟨c, child, below⟩ := below.resolve_left other
      have reached := preOrder_closed under ((preOrder_sublist under).subset child) below
      exact (List.singleton_sublist.2 (List.mem_append_left rest reached)).cons_cons n
    · exact ((ihu inside).trans (List.sublist_append_left inner rest)).cons id
    · exact ((ihb outside).trans (List.sublist_append_right inner rest)).cons id

/-- A layout of one shape that fills the arena is one tree in post-order. -/
theorem lays_postOrder {shape : Shape} {root : Nat} (h : Lays a 0 [shape] [root] a.size) :
    a.PostOrder root := by
  have last : a.size = root + 1 := by
    cases h with
    | cons here whole under beside =>
      generalize a.size = size at beside
      cases beside
      rfl
  have parents : ∀ p n, a.IsChild p n → p < a.size := by
    intro p n child
    by_contra outside
    rw [IsChild, children_of_size_le (Nat.le_of_not_lt outside)] at child
    cases child
  apply PostOrder.mk last
  · intro p n child
    have inside := parents p n child
    have := lays_child h (Nat.zero_le p) inside child
    omega
  · intro p
    by_cases inside : p < a.size
    · exact lays_ascending h (Nat.zero_le p) inside
    · rw [children_of_size_le (Nat.le_of_not_lt inside)]
      exact .nil
  · intro n inside other
    obtain ⟨p, _, child, unique⟩ := lays_parent h (Nat.zero_le n) inside (by simpa using other)
    exact ⟨p, child, fun q child' => unique q (Nat.zero_le q) (parents q n child') child'⟩
  · intro p child
    have inside := parents p root child
    exact lays_top h (Nat.zero_le p) inside child (List.mem_singleton.2 rfl)
  · exact fun n inside => lays_interval h (Nat.zero_le n) inside

end Arena

theorem Tree.ofProgram_descends {file : String} {ds : List Declaration} {tree : Tree}
    (lowered : Tree.ofProgram file ds = .ok tree) (q c : Nat) (child : tree.arena.IsChild q c) :
    c < q := by
  rw [Arena.IsChild, Arena.children] at child
  cases here : tree.arena.data? q with
  | none =>
    rw [here] at child
    cases child
  | some data =>
    rw [here] at child
    exact (Tree.ofProgram_node lowered here).2 c child

/-- Lowering numbers the nodes of a program in post-order. A walk from the root visits
every node of the arena once, each before its children and these in their order. -/
theorem Tree.ofProgram_postOrder {file : String} {program : List Declaration} {tree : Tree}
    (lowered : Tree.ofProgram file program = .ok tree) :
    tree.arena.PostOrder tree.root ∧
      (tree.arena.visit tree.root).Perm (List.range tree.arena.size) ∧
      ∀ n < tree.arena.size, (n :: tree.arena.children n).Sublist (tree.arena.visit tree.root) := by
  obtain ⟨label, laid⟩ := Tree.ofProgram_root lowered
  have walk : tree.arena.PreOrder [tree.root] (tree.arena.visit tree.root) :=
    Arena.lays_preOrder laid (Nat.le_succ _)
  have perm : (tree.arena.visit tree.root).Perm (List.range tree.arena.size) := by
    rw [List.range_eq_range']
    exact Arena.lays_perm laid walk
  refine ⟨Arena.lays_postOrder laid, perm, fun n inside => ?_⟩
  apply Arena.preOrder_family walk
  rw [perm.mem_iff, List.mem_range]
  exact inside

def loopOfResources : List Declaration :=
  [.resource "r" "T@1" false
    (.loop "i" (some "n") (.array [.string none [.text "a", .hole (.ident "p" none)] none] none)
      (.object [("name", .index (.ident "i" none) (.ident "n" none) none)] none) none)
    [.resource "c" "U" true (.object [("name", .ident "p" none)] none) [] none] none,
    .param "p" (some (.call "concat" [.int 1 none, .null none] none)) none]

theorem Tree.ofProgram_postOrder_loopOfResources :
    ∃ tree, Tree.ofProgram "main.json" loopOfResources = .ok tree ∧ tree.arena.PostOrder tree.root ∧
      (tree.arena.visit tree.root).Perm (List.range tree.arena.size) ∧ tree.arena.size = 17 := by
  have size : ((Tree.ofProgram "main.json" loopOfResources).toOption.map fun tree =>
      tree.arena.size) = some 17 := by
    decide +kernel
  obtain ⟨tree, lowered, size⟩ := Option.map_eq_some_iff.1 size
  have lowered := ok_of_toOption lowered
  obtain ⟨postOrder, perm, _⟩ := Tree.ofProgram_postOrder lowered
  exact ⟨tree, lowered, postOrder, perm, size⟩

end DeployCheck
