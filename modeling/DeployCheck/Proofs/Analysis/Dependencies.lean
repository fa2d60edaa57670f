import DeployCheck.Proofs.Analysis.Derivation
import Mathlib.Logic.Relation

/-!
# Dependencies

What is worked out are expressions and bodies. One consults another if its rule
has a premise about that other. A dependency is settled if no cycle can be
reached from it, and if no chain that leads there is longer than the limit.
-/

set_option autoImplicit false

namespace DeployCheck.Analysis

inductive Item where
  | expression (id : NodeId)
  | body (id : SymbolId)

def Fact.item : Fact → Item
  | .constant id => .expression id
  | .readable target _ => .body target
  | .identity resource => .body resource

/-- An expression consults its parts, what defines it, and the resources it
reads; an existing resource consults its name, its scope and its parent. -/
inductive Consults (s : Subject) : Item → Item → Prop where
  | expression {id : NodeId} {ps : List Fact} {premise : Fact} (rule : Rule s (.constant id) ps)
      (member : premise ∈ ps) : Consults s (.expression id) premise.item
  | body {id : SymbolId} {symbol : Symbol} {type : TypeReference} {collection : Bool}
      {ps : List Fact} {premise : Fact} (found : s.bound.symbol? id = some symbol)
      (kind : symbol.kind = .resource type true collection) (rule : Rule s (.identity id) ps)
      (member : premise ∈ ps) : Consults s (.body id) premise.item

/-- Only expressions count for the limit. -/
def Item.weight : Item → Nat
  | .expression _ => 1
  | .body _ => 0

/-- A chain ends at an item and goes through a number of expressions. -/
inductive Chain (s : Subject) : Item → Nat → Prop where
  | start (x : Item) : Chain s x x.weight
  | step {x y : Item} {n : Nat} (before : Chain s x n) (next : Consults s x y) :
      Chain s y (n + y.weight)

/-- Nothing below an item is on a cycle or at the end of too long a chain. -/
structure Settled (s : Subject) (x : Item) : Prop where
  acyclic : ∀ y, Relation.ReflTransGen (Consults s) x y → ¬Relation.TransGen (Consults s) y y
  shallow : ∀ y n, Relation.ReflTransGen (Consults s) x y → Chain s y n → n ≤ depthLimit

variable {s : Subject} {x y : Item}

theorem settled_consults (settled : Settled s x) (next : Consults s x y) : Settled s y :=
  ⟨fun z h => settled.acyclic z (.head next h), fun z n h => settled.shallow z n (.head next h)⟩

section Rank

variable {rank : Item → Nat} (descends : ∀ x y, Consults s x y → rank y < rank x)

include descends

theorem rank_transGen (h : Relation.TransGen (Consults s) x y) : rank y < rank x := by
  induction h with
  | single next => exact descends _ _ next
  | tail _ next ih => exact Nat.lt_trans (descends _ _ next) ih

theorem acyclic_of_rank : ∀ x, ¬Relation.TransGen (Consults s) x x :=
  fun _ cycle => Nat.lt_irrefl _ (rank_transGen descends cycle)

theorem shallow_of_rank {limit : Nat} (bounded : ∀ x, rank x < limit) {n : Nat}
    (chain : Chain s x n) : n ≤ limit := by
  have room : n + rank x ≤ limit := by
    induction chain with
    | start x =>
      have := bounded x
      cases x <;> simp only [Item.weight] <;> omega
    | @step x y n _ next ih =>
      have := descends x y next
      cases y <;> simp only [Item.weight] <;> omega
  exact Nat.le_trans (Nat.le_add_right _ _) room

end Rank

def Subject.checks (s : Subject) (test : Item → Item → Bool) : Bool :=
  let passes (fact : Fact) : Bool :=
    ((s.premises fact).getD []).all fun premise => test fact.item premise.item
  ((List.range s.tree.arena.size).all fun id => passes (.constant id)) &&
    (List.range s.bound.symbols.size).all fun id => passes (.identity id)

theorem checks_consults {test : Item → Item → Bool} (h : s.checks test = true) (x y : Item)
    (next : Consults s x y) : test x y = true := by
  obtain ⟨expressions, bodies⟩ := Bool.and_eq_true_iff.1 h
  have passes : ∀ {fact : Fact} {ps : List Fact} {premise : Fact},
      (((s.premises fact).getD []).all fun p => test fact.item p.item) = true →
      Rule s fact ps → premise ∈ ps → test fact.item premise.item = true := by
    intro fact ps premise all rule member
    rw [rule_iff.1 rule] at all
    exact List.all_eq_true.1 all premise member
  cases next with
  | @expression id ps premise rule member =>
    obtain ⟨data, here⟩ := data_of_rule rule
    have inside : id < s.tree.arena.size := Arena.data?_lt here
    exact passes (List.all_eq_true.1 expressions id (List.mem_range.2 inside)) rule member
  | @body id symbol type collection ps premise found kind rule member =>
    have inside : id < s.bound.symbols.size := (Array.getElem?_eq_some_iff.1 found).1
    exact passes (List.all_eq_true.1 bodies id (List.mem_range.2 inside)) rule member

def Subject.descends (s : Subject) (rank : Item → Nat) : Bool :=
  let below (fact : Fact) : Bool :=
    ((s.premises fact).getD []).all fun premise => rank premise.item < rank fact.item
  ((List.range s.tree.arena.size).all fun id => below (.constant id)) &&
    (List.range s.bound.symbols.size).all fun id => below (.identity id)

theorem descends_consults {rank : Item → Nat} (h : s.descends rank = true) (x y : Item)
    (next : Consults s x y) : rank y < rank x := by
  have checked : s.checks (fun x y => rank y < rank x) = true := h
  exact of_decide_eq_true (checks_consults checked x y next)

inductive Trail (s : Subject) : Path → Item → Prop where
  | start (x : Item) : Trail s ⟨[], []⟩ x
  | expression {path : Path} {id : NodeId} {y : Item} (before : Trail s path (.expression id))
      (next : Consults s (.expression id) y) : Trail s ⟨id :: path.nodes, path.symbols⟩ y
  | body {path : Path} {id : SymbolId} {y : Item} (before : Trail s path (.body id))
      (next : Consults s (.body id) y) : Trail s ⟨path.nodes, id :: path.symbols⟩ y

variable {path : Path}

theorem trail_chain (h : Trail s path x) : Chain s x (path.nodes.length + x.weight) := by
  induction h with
  | start x =>
    rw [List.length_nil, Nat.zero_add]
    exact .start x
  | expression _ next ih => exact .step ih next
  | body _ next ih => exact .step ih next

theorem trail_nodes (h : Trail s path x) :
    ∀ id ∈ path.nodes, Relation.TransGen (Consults s) (.expression id) x := by
  induction h with
  | start => simp
  | expression _ next ih =>
    intro id hid
    rcases List.mem_cons.1 hid with rfl | hid
    · exact .single next
    · exact .tail (ih id hid) next
  | body _ next ih => exact fun id hid => .tail (ih id hid) next

theorem trail_symbols (h : Trail s path x) :
    ∀ id ∈ path.symbols, Relation.TransGen (Consults s) (.body id) x := by
  induction h with
  | start => simp
  | expression _ next ih => exact fun id hid => .tail (ih id hid) next
  | body _ next ih =>
    intro id hid
    rcases List.mem_cons.1 hid with rfl | hid
    · exact .single next
    · exact .tail (ih id hid) next

end DeployCheck.Analysis
