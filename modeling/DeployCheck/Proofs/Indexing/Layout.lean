import DeployCheck.Proofs.Insertion.Layout

/-!
# Members selected by an index

If a property access becomes an index of a string, the arena gets one node more, the string,
right behind the base. The access moves on by one and has the string as a second child.
-/

set_option autoImplicit false

namespace DeployCheck

inductive Shape.Selects (name : String) : Shape → Shape → Prop where
  | access (base : Shape) : Selects name (.node (.property 0 (.named name)) [base])
      (.node (.index 0 0) [base, .node (.string [name] []) []])

namespace Arena

variable {a a' : Arena} {lo hi hi' : Nat} {shapes shapes' : List Shape} {ids ids' : List Nat}
  {e : Nat} {name : String}

/-- The node behind `e` reads a property of `e`, and in the other arena there is a string in
front of it, which selects the property. -/
structure Rewritten (a a' : Arena) (e : Nat) (name : String) : Prop where
  property : ∃ i : Identifier, a.data? (e + 1) = some (.property e i) ∧ i.name = name
  string : a'.data? (e + 1) = some (.string [name] [])
  index : a'.data? (e + 2) = some (.index e (e + 1))

theorem lays_selected {shape shape' : Shape} {p p' : Nat} (put : shape.Selects name shape')
    (h : Lays a lo [shape] [p] (p + 1)) (h' : Lays a' lo [shape'] [p'] (p' + 1)) :
    ∃ e, p' = p + 1 ∧ e < p ∧
      Grown a a' (Rewritten a a' · name) (fun e x => x ≠ e + 1) lo (p + 1) e := by
  obtain ⟨base⟩ := put
  obtain ⟨data, here, label, under⟩ := lays_node_data h
  obtain ⟨data', here', label', under'⟩ := lays_node_data h'
  cases data with
  | property e i =>
    cases data' with
    | index e' text =>
      obtain ⟨_, _, first, base, next⟩ := lays_cons under
      obtain ⟨_, _, first', base', next'⟩ := lays_cons under'
      cases first
      cases first'
      cases next
      obtain ⟨_, _, last, string, next'⟩ := lays_cons next'
      cases last
      cases next'
      obtain ⟨data, there, selects, none⟩ := lays_node_data string
      generalize inner : data.children = holes at none
      cases none
      obtain ⟨last, same, twins⟩ := lays_before base base' (Nat.le_refl (e + 1))
      cases last
      refine ⟨e, rfl, Nat.lt_succ_self e, (lays_mem base e List.mem_cons_self).1,
        Nat.lt_succ_of_lt (Nat.lt_succ_self e), ?_, ?_⟩
      · refine ⟨⟨i, here, ?_⟩, ?_, here'⟩
        · injection label with _ bare
          exact congrArg Identifier.name bare
        · cases data with
          | string segments holes =>
            injection selects with texts
            cases texts
            cases inner
            exact there
          | _ => cases selects
      · intro x low high other
        exact twins x low (by omega)
    | _ => cases label'
  | _ => cases label

structure Indexed (a a' : Arena) (e : Nat) (name : String) : Prop where
  access : a.Rewritten a' e name
  parent : ∀ q, a.IsChild q e → q = e + 1
  twins : ∀ x < a.size, x ≠ e + 1 → Twinned a a' e x
  descends : ∀ q c, a.IsChild q c → c < q
  size : a'.size = a.size + 1

theorem Indexed.enlarged (h : a.Indexed a' e name) : a.Enlarged a' e (twin e) (· ≠ e + 1) := by
  obtain ⟨i, property, _⟩ := h.access.property
  have only : ∀ {x data}, a.data? x = some data → x ≠ e + 1 → e ∉ data.children := by
    intro x data here other child
    exact other (h.parent x (isChild_of_data here child))
  refine ⟨fun x inside other => ?_, fun x _ access => ?_, fun _ _ => rfl, ?_, ?_, h.descends, h.size⟩
  · obtain ⟨data, data', here, there, label, children⟩ := h.twins x inside other
    exact ⟨data, data', here, there, label, children.trans (map_outer (only here other))⟩
  · obtain rfl : x = e + 1 := not_not.1 access
    refine ⟨_, _, property, ?_, .property e i, .index e (e + 1)⟩
    rw [twin_succ]
    exact h.access.index
  · exact fun x data other here child => absurd child (only here other)
  · exact Nat.lt_of_succ_lt (data?_lt property)

end Arena

theorem Tree.ofProgram_indexed {file name : String} {ds ds' : List Declaration} {tree tree' : Tree}
    (put : Shape.Replaced (Shape.Selects name) (Declaration.shapes ds) (Declaration.shapes ds'))
    (lowered : Tree.ofProgram file ds = .ok tree) (lowered' : Tree.ofProgram file ds' = .ok tree') :
    ∃ e, tree.arena.Indexed tree'.arena e name ∧ tree'.root = twin e tree.root := by
  obtain ⟨e, access, unique, twins, size, root⟩ :=
    ofProgram_replaced Arena.lays_selected put lowered lowered'
  obtain ⟨i, property, _⟩ := access.property
  exact ⟨e, ⟨access, fun q => unique (e + 1) q (Arena.isChild_of_data property List.mem_cons_self),
    twins, Tree.ofProgram_descends lowered, size⟩, root⟩

end DeployCheck
