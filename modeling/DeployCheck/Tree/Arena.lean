import DeployCheck.Tree.Node

/-!
# Arenas and trees

An arena numbers its nodes in the order in which they were added. A tree is an
arena with a root; going through it visits every node before its children.
-/

set_option autoImplicit false

namespace DeployCheck

structure Arena where
  nodes : Array Node

namespace Arena

def empty : Arena := ⟨#[]⟩

instance : Inhabited Arena := ⟨empty⟩

def size (a : Arena) : Nat := a.nodes.size

def data? (a : Arena) (id : NodeId) : Option NodeData := a.nodes[id]?.map Node.data

/-- The span of a node; a number without a node has the empty span at zero. -/
def span (a : Arena) (id : NodeId) : Span := (a.nodes[id]?.map Node.span).getD (.point 0)

def children (a : Arena) (id : NodeId) : List NodeId :=
  match a.data? id with
  | some data => data.children
  | none => []

def add (a : Arena) (span : Span) (data : NodeData) : Arena := ⟨a.nodes.push ⟨span, data⟩⟩

def setSpan (a : Arena) (id : NodeId) (span : Span) : Arena :=
  ⟨a.nodes.modify id fun node => { node with span }⟩

def visitOnto (a : Arena) : Nat → NodeId → List NodeId → List NodeId
  | 0, id, rest => id :: rest
  | depth + 1, id, rest => id :: (a.children id).foldr (visitOnto a depth) rest

/-- The nodes below a node, each before its children. No path without a cycle is
longer than the arena. -/
def visit (a : Arena) (id : NodeId) : List NodeId := a.visitOnto (a.size + 1) id []

theorem visitOnto_append (a : Arena) (depth : Nat) (id : NodeId) (rest : List NodeId) :
    a.visitOnto depth id rest = a.visitOnto depth id [] ++ rest := by
  induction depth generalizing id rest with
  | zero => rfl
  | succ depth ih =>
    simp only [visitOnto, List.cons_append, List.cons.injEq, true_and]
    induction a.children id with
    | nil => rfl
    | cons c cs ihc =>
      rw [List.foldr_cons, List.foldr_cons, ih, ihc, ih c (cs.foldr _ []), List.append_assoc]

end Arena

structure Tree where
  file : String
  arena : Arena
  root : NodeId

namespace Tree

def declarations (t : Tree) : List NodeId :=
  match t.arena.data? t.root with
  | some (.program declarations) => declarations
  | _ => []

end Tree

end DeployCheck
