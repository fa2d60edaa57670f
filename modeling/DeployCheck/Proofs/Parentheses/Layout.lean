import DeployCheck.Proofs.Insertion.Layout

/-!
# Operands in parentheses

If one operand of a program is put in parentheses, the arena gets one node more, right
behind the operand. What the operand was a child of has the parentheses as a child instead.
-/

set_option autoImplicit false

namespace DeployCheck

namespace Shape

def parenthesized (shape : Shape) : Shape := .node (.paren 0) [shape]

inductive Encloses : Shape → Shape → Prop where
  | operand {label : NodeData} {before after : List Shape} {shape : Shape}
      (slot : before.length < label.operandCount) :
      Encloses (.node label (before ++ shape :: after))
        (.node label (before ++ shape.parenthesized :: after))

end Shape

namespace Arena

variable {a a' : Arena} {lo hi hi' : Nat} {shapes shapes' : List Shape} {ids ids' : List Nat}
  {e : Nat}

def Operand (a : Arena) (p e : Nat) : Prop :=
  ∃ data k, a.data? p = some data ∧ k < data.operandCount ∧ data.children[k]? = some e

theorem lays_operand {before after : List Shape} {shape : Shape} {p p' : Nat}
    (h : Lays a lo (before ++ shape :: after) ids p)
    (h' : Lays a' lo (before ++ shape.parenthesized :: after) ids' p') :
    ∃ e, lo ≤ e ∧ e < p ∧ ids[before.length]? = some e ∧ a'.data? (e + 1) = some (.paren e) ∧
      p' = p + 1 ∧ ids' = ids.map (outer e) ∧ ∀ x, lo ≤ x → x < p → Twinned a a' e x := by
  obtain ⟨front, back, mid, rfl, first, second⟩ := lays_unappend h
  obtain ⟨front', back', mid', rfl, first', second'⟩ := lays_unappend h'
  obtain ⟨name, inner⟩ := shape
  obtain ⟨e, tail, rfl, operand, third⟩ := lays_cons second
  obtain ⟨q, tail', rfl, paren, third'⟩ := lays_cons second'
  obtain ⟨wrapper, wrapped, label, under⟩ := lays_node_data paren
  cases wrapper with
  | paren inside =>
    -- What is in the parentheses ends what has not moved.
    obtain ⟨last, tops, twins⟩ := lays_before (lays_append first operand)
      (lays_append first' under) (Nat.le_refl (e + 1))
    obtain ⟨rfl, same⟩ := List.append_inj' tops rfl
    obtain rfl : inside = e := List.singleton_inj.1 same
    obtain rfl : q = inside + 1 := last
    obtain ⟨rfl, rfl, -, others⟩ := lays_behind third third' (Nat.lt_succ_self _)
    have above : mid ≤ inside := (lays_mem operand inside (List.mem_singleton.2 rfl)).1
    have kept : front'.map (outer inside) = front' :=
      map_outer_lt fun c member => Nat.lt_of_lt_of_le (lays_mem first c member).2 above
    refine ⟨inside, Nat.le_trans (lays_le first) above, lays_le third, ?_, wrapped, rfl, ?_,
      fun x low high => ?_⟩
    · rw [← lays_length first, List.getElem?_append_right (Nat.le_refl _), Nat.sub_self]
      rfl
    · rw [List.map_append, List.map_cons, outer_self, kept]
    · by_cases early : x < inside + 1
      · exact twins x low early
      · exact others x (Nat.le_of_not_lt early) high
  | _ => cases label

theorem lays_enclosed {shape shape' : Shape} {p p' : Nat} (put : shape.Encloses shape')
    (h : Lays a lo [shape] [p] (p + 1)) (h' : Lays a' lo [shape'] [p'] (p' + 1)) :
    ∃ e, p' = p + 1 ∧ e < p ∧ Grown a a'
      (fun e => (∃ p, a.Operand p e) ∧ a'.data? (e + 1) = some (.paren e)) (fun _ _ => True)
      lo (p + 1) e := by
  cases put with
  | @operand label before after shape slot =>
    obtain ⟨data, here, labelled, under⟩ := lays_node_data h
    obtain ⟨data', here', labelled', under'⟩ := lays_node_data h'
    obtain ⟨e, above, inside, place, paren, rfl, children, twins⟩ := lays_operand under under'
    have operand : a.Operand p e :=
      ⟨data, before.length, here, by rwa [← data.operandCount_label, labelled], place⟩
    refine ⟨e, rfl, inside, Grown.node ?_ here here' (labelled.trans labelled'.symm) children⟩
    exact ⟨above, inside, ⟨⟨p, operand⟩, paren⟩, fun x low high _ => twins x low high⟩

/-- The second arena is the first one with the operand `e` of the node `p` in parentheses. -/
structure Parenthesized (a a' : Arena) (p e : Nat) : Prop where
  operand : a.Operand p e
  parent : ∀ q, a.IsChild q e → q = p
  paren : a'.data? (e + 1) = some (.paren e)
  twins : ∀ x < a.size, Twinned a a' e x
  descends : ∀ q c, a.IsChild q c → c < q
  size : a'.size = a.size + 1

theorem operand_child {p : Nat} (h : a.Operand p e) : a.IsChild p e := by
  obtain ⟨data, k, here, _, child⟩ := h
  exact isChild_of_data here (List.mem_of_getElem? child)

namespace Parenthesized

variable {p x : Nat} {data : NodeData} (h : Parenthesized a a' p e)
include h

theorem plain (here : a.data? x = some data) (none : data.operandCount = 0) : e ∉ data.children := by
  intro child
  obtain rfl : x = p := h.parent x (isChild_of_data here child)
  obtain ⟨data', k, here', slot, _⟩ := h.operand
  rw [here] at here'
  cases here'
  omega

theorem enlarged : a.Enlarged a' e (outer e) fun _ => True where
  twins x inside _ := h.twins x inside
  members x _ lost := absurd trivial lost
  others c other := outer_of_ne other
  operand x data _ here child :=
    ⟨outer_self, Nat.pos_of_ne_zero fun none => h.plain here none child⟩
  inside := by
    obtain ⟨data, _, here, _, _⟩ := h.operand
    exact Nat.lt_trans (h.descends p e (operand_child h.operand)) (data?_lt here)
  descends := h.descends
  size := h.size

theorem twin_paired (here : a.data? x = some data) : ∃ data', a'.data? (twin e x) = some data' ∧
    data'.children = data.children.map (outer e) ∧
    NodeData.Paired (fun c c' => c' = outer e c) data data' := h.enlarged.twin_paired trivial here

theorem twin_missing (missing : a.data? x = none) : a'.data? (twin e x) = none :=
  h.enlarged.twin_missing missing

end Parenthesized

end Arena

theorem Tree.ofProgram_parenthesized {file : String} {ds ds' : List Declaration} {tree tree' : Tree}
    (put : Shape.Replaced Shape.Encloses (Declaration.shapes ds) (Declaration.shapes ds'))
    (lowered : Tree.ofProgram file ds = .ok tree) (lowered' : Tree.ofProgram file ds' = .ok tree') :
    ∃ p e, tree.arena.Parenthesized tree'.arena p e ∧ tree'.root = twin e tree.root := by
  obtain ⟨e, ⟨⟨p, operand⟩, paren⟩, unique, twins, size, root⟩ :=
    ofProgram_replaced Arena.lays_enclosed put lowered lowered'
  exact ⟨p, e, ⟨operand, fun q => unique p q (Arena.operand_child operand), paren,
    fun x inside => twins x inside trivial, Tree.ofProgram_descends lowered, size⟩, root⟩

end DeployCheck
