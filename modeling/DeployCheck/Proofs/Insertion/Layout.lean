import DeployCheck.Proofs.Tree.PostOrder
import DeployCheck.Proofs.Tree.Pairing

/-!
# A node more

If a program gets one node more, nodes up to a place keep their numbers and all others move
on by one. What is laid out beside the place and around it does not change otherwise.
-/

set_option autoImplicit false

namespace DeployCheck

/-- How many of the children, counted from the first one, are the base and the index of an
access. -/
def NodeData.operandCount : NodeData → Nat
  | property .. | resourceAccess .. | instanceCall .. => 1
  | index .. => 2
  | _ => 0

theorem NodeData.operandCount_label (data : NodeData) :
    data.label.operandCount = data.operandCount := by
  cases data <;> rfl

inductive NodeData.IsMember : NodeData → Prop where
  | property (base : NodeId) (name : Identifier) : IsMember (.property base name)
  | index (base selector : NodeId) : IsMember (.index base selector)

inductive Shape.Replaced (r : Shape → Shape → Prop) : List Shape → List Shape → Prop where
  | here {shape shape' : Shape} (beside : List Shape) (related : r shape shape') :
      Replaced r (shape :: beside) (shape' :: beside)
  | inside {label : NodeData} {below below' : List Shape} (beside : List Shape)
      (inner : Replaced r below below') :
      Replaced r (.node label below :: beside) (.node label below' :: beside)
  | beside (shape : Shape) {shapes shapes' : List Shape} (rest : Replaced r shapes shapes') :
      Replaced r (shape :: shapes) (shape :: shapes')

/-- The number of a node when another node has been put in behind `e`. -/
def twin (e x : Nat) : Nat := if x ≤ e then x else x + 1

/-- The number of what stands in the place of a node: of `e` the parentheses. -/
def outer (e x : Nat) : Nat := if x < e then x else x + 1

def places (e x : Nat) : List Nat := if x = e then [e, e + 1] else [twin e x]

section Numbers

variable {e x y : Nat}

theorem twin_self : twin e e = e := if_pos (Nat.le_refl e)

theorem twin_succ (e : Nat) : twin e (e + 1) = e + 2 := if_neg (Nat.not_succ_le_self e)

theorem outer_self : outer e e = e + 1 := if_neg (Nat.lt_irrefl e)

theorem twin_inj : twin e x = twin e y ↔ x = y := by
  rw [twin, twin]
  split <;> split <;> omega

theorem twin_lt_twin (h : x < y) : twin e x < twin e y := by
  rw [twin, twin]
  split <;> split <;> omega

theorem twin_ne (e x : Nat) : twin e x ≠ e + 1 := by
  rw [twin]
  split <;> omega

theorem outer_of_ne (other : x ≠ e) : outer e x = twin e x := by
  rw [outer, twin]
  split <;> split <;> omega

theorem outer_of_lt (h : x < e) : outer e x = x := if_pos h

theorem outer_of_gt (h : e < x) : outer e x = x + 1 := if_neg (Nat.not_lt_of_gt h)

theorem map_outer {xs : List Nat} (others : e ∉ xs) : xs.map (outer e) = xs.map (twin e) :=
  List.map_congr_left fun _ member => outer_of_ne fun same => others (same ▸ member)

theorem map_outer_lt {xs : List Nat} (before : ∀ x ∈ xs, x < e) : xs.map (outer e) = xs :=
  calc xs.map (outer e) = xs.map id :=
        List.map_congr_left fun x member => outer_of_lt (before x member)
    _ = xs := List.map_id xs

theorem places_self : places e e = [e, e + 1] := if_pos rfl

theorem places_of_ne (other : x ≠ e) : places e x = [twin e x] := if_neg other

theorem mem_places : (twin e x ∈ places e y ↔ x = y) ∧ (outer e x ∈ places e y ↔ x = y) := by
  by_cases wrapped : y = e
  · rw [wrapped, places_self, outer, twin]
    constructor <;> split <;> simp <;> omega
  · rw [places_of_ne wrapped, List.mem_singleton, List.mem_singleton, twin_inj]
    refine ⟨Iff.rfl, ?_⟩
    rw [outer, twin]
    split <;> split <;> omega

end Numbers

namespace Arena

variable {a a' : Arena} {lo hi hi' : Nat} {shapes shapes' : List Shape} {ids ids' : List Nat}
  {e : Nat}

def Twinned (a a' : Arena) (e x : Nat) : Prop :=
  ∃ data data', a.data? x = some data ∧ a'.data? (twin e x) = some data' ∧
    data.label = data'.label ∧ data'.children = data.children.map (outer e)

theorem lays_cons {shape : Shape} (h : Lays a lo (shape :: shapes) ids hi) :
    ∃ id rest, ids = id :: rest ∧ Lays a lo [shape] [id] (id + 1) ∧
      Lays a (id + 1) shapes rest hi := by
  cases h with
  | cons here whole under beside =>
    exact ⟨_, _, rfl, lays_single here whole under, beside⟩

theorem lays_node_data {label : NodeData} {below : List Shape} {id : Nat}
    (h : Lays a lo [.node label below] [id] (id + 1)) :
    ∃ data, a.data? id = some data ∧ data.label = label ∧ Lays a lo below data.children id := by
  generalize same : [Shape.node label below] = all at h
  cases h with
  | cons here whole under beside =>
    cases same
    exact ⟨_, here, rfl, under⟩

theorem lays_unappend (h : Lays a lo (shapes ++ shapes') ids hi) : ∃ front back mid,
    ids = front ++ back ∧ Lays a lo shapes front mid ∧ Lays a mid shapes' back hi := by
  induction shapes generalizing lo ids with
  | nil => exact ⟨[], ids, lo, rfl, .nil lo, h⟩
  | cons shape shapes ih =>
    generalize same : shape :: shapes ++ shapes' = all at h
    cases h with
    | nil => cases same
    | cons here whole under beside =>
      cases same
      obtain ⟨front, back, mid, rfl, first, second⟩ := ih beside
      exact ⟨_, back, mid, rfl, .cons here whole under first, second⟩

theorem lays_later {d : Nat} (h : Lays a lo shapes ids hi) (h' : Lays a' (lo + d) shapes ids' hi') :
    hi' = hi + d ∧ ids' = ids.map (· + d) ∧ ∀ x, lo ≤ x → x < hi → ∃ data data',
      a.data? x = some data ∧ a'.data? (x + d) = some data' ∧ data.label = data'.label ∧
        data'.children = data.children.map (· + d) := by
  have same : ∀ {xs ys : List Nat}, List.Forall₂ (Shift 0 d) xs ys → ys = xs.map (· + d) := by
    intro xs ys paired
    induction paired with
    | nil => rfl
    | @cons x y _ _ one _ ih =>
      have moved : y = x + d := one
      rw [List.map_cons, ← ih, moved]
  obtain ⟨last, top, inside⟩ := lays_shift h h' (show Shift 0 d lo (lo + d) from rfl)
  refine ⟨last, same top, fun x above behind => ?_⟩
  obtain ⟨data, data', here, here', label, children⟩ := inside x (x + d) above behind rfl
  exact ⟨data, data', here, here', label, same children⟩

theorem lays_before (h : Lays a lo shapes ids hi) (h' : Lays a' lo shapes ids' hi')
    (before : hi ≤ e + 1) : hi' = hi ∧ ids' = ids ∧ ∀ x, lo ≤ x → x < hi → Twinned a a' e x := by
  obtain ⟨last, top, inside⟩ := lays_later (d := 0) h h'
  refine ⟨last, by simpa using top, fun x above behind => ?_⟩
  obtain ⟨data, data', here, here', label, children⟩ := inside x above behind
  have less : ∀ c ∈ data.children, c < e := by
    intro c member
    have child := (lays_child h above behind (isChild_of_data here member)).2
    exact Nat.lt_of_lt_of_le child (Nat.le_of_lt_succ (Nat.lt_of_lt_of_le behind before))
  refine ⟨data, data', here, ?_, label, ?_⟩
  · rwa [twin, if_pos (by omega)]
  · rw [children, map_outer_lt less]
    simp

theorem lays_behind (h : Lays a lo shapes ids hi) (h' : Lays a' (lo + 1) shapes ids' hi')
    (behind : e < lo) : hi' = hi + 1 ∧ ids' = ids.map (outer e) ∧ e ∉ ids ∧
      ∀ x, lo ≤ x → x < hi → Twinned a a' e x := by
  obtain ⟨last, top, inside⟩ := lays_later h h'
  have greater : ∀ {xs : List Nat}, (∀ c ∈ xs, lo ≤ c) → xs.map (· + 1) = xs.map (outer e) :=
    fun all => List.map_congr_left fun c member =>
      (outer_of_gt (Nat.lt_of_lt_of_le behind (all c member))).symm
  have above : ∀ c ∈ ids, lo ≤ c := fun c member => (lays_mem h c member).1
  refine ⟨last, by rw [top, greater above], fun member => ?_, fun x low high => ?_⟩
  · have := above e member
    omega
  · obtain ⟨data, data', here, here', label, children⟩ := inside x low high
    refine ⟨data, data', here, ?_, label, ?_⟩
    · rwa [twin, if_neg (by omega)]
    · rw [children, greater]
      exact fun c member => (lays_child h low high (isChild_of_data here member)).1

/-- An interval with one node more in the other arena, behind `e`. -/
structure Grown (a a' : Arena) (q : Nat → Prop) (kept : Nat → Nat → Prop) (lo hi e : Nat) : Prop where
  above : lo ≤ e
  inside : e < hi
  change : q e
  twins : ∀ x, lo ≤ x → x < hi → kept e x → Twinned a a' e x

section Grown

variable {q : Nat → Prop} {kept : Nat → Nat → Prop} {p : Nat}

theorem Grown.node (h : Grown a a' q kept lo p e) {data data' : NodeData}
    (here : a.data? p = some data) (here' : a'.data? (p + 1) = some data')
    (label : data.label = data'.label) (children : data'.children = data.children.map (outer e)) :
    Grown a a' q kept lo (p + 1) e := by
  refine ⟨h.above, Nat.lt_succ_of_lt h.inside, h.change, fun x low high keep => ?_⟩
  rcases Nat.lt_succ_iff_lt_or_eq.1 high with before | rfl
  · exact h.twins x low before keep
  · exact ⟨data, data', here, by rwa [twin, if_neg (Nat.not_le_of_gt h.inside)], label, children⟩

theorem Grown.beside (h : Grown a a' q kept lo (p + 1) e) (inside : e < p) {beside : List Shape}
    {rest rest' : List Nat} (next : Lays a (p + 1) beside rest hi)
    (next' : Lays a' (p + 1 + 1) beside rest' hi') :
    Grown a a' q kept lo hi e ∧ e ∉ p :: rest ∧ hi' = hi + 1 ∧
      (p + 1) :: rest' = (p :: rest).map (outer e) := by
  obtain ⟨rfl, rfl, fresh, behind⟩ := lays_behind next next' h.inside
  have low := lays_le next
  refine ⟨⟨h.above, Nat.lt_of_lt_of_le h.inside low, h.change, fun x low high keep => ?_⟩, ?_, rfl, ?_⟩
  · by_cases before : x < p + 1
    · exact h.twins x low before keep
    · exact behind x (Nat.le_of_not_lt before) high
  · rw [List.mem_cons, not_or]
    exact ⟨Nat.ne_of_lt inside, fresh⟩
  · rw [List.map_cons, outer_of_gt inside]

theorem Grown.preceded {shape : Shape} {p' : Nat} (node : Lays a lo [shape] [p] (p + 1))
    (node' : Lays a' lo [shape] [p'] (p' + 1)) : p' = p ∧ ∀ {q : Nat → Prop}
      {kept : Nat → Nat → Prop} {hi e}, Grown a a' q kept (p + 1) hi e → Grown a a' q kept lo hi e := by
  obtain ⟨last, -, -⟩ := lays_later (d := 0) node node'
  refine ⟨Nat.succ.inj last, fun {q kept hi e} h => ?_⟩
  obtain ⟨-, -, before⟩ := lays_before node node' (Nat.le_succ_of_le h.above)
  refine ⟨Nat.le_trans (lays_le node) h.above, h.inside, h.change, fun x low high keep => ?_⟩
  by_cases early : x < p + 1
  · exact before x low early
  · exact h.twins x (Nat.le_of_not_lt early) high keep

/-- If the other arena has a node more wherever a shape is replaced, it has one node more. -/
theorem lays_replaced {r : Shape → Shape → Prop}
    (one : ∀ {shape shape' lo p p'}, r shape shape' → Lays a lo [shape] [p] (p + 1) →
      Lays a' lo [shape'] [p'] (p' + 1) →
        ∃ e, p' = p + 1 ∧ e < p ∧ Grown a a' q kept lo (p + 1) e)
    (put : Shape.Replaced r shapes shapes') {lo hi hi' : Nat} {ids ids' : List Nat}
    (h : Lays a lo shapes ids hi) (h' : Lays a' lo shapes' ids' hi') :
    ∃ e, Grown a a' q kept lo hi e ∧ e ∉ ids ∧ hi' = hi + 1 ∧ ids' = ids.map (outer e) := by
  -- Below the replaced shape nothing has to be known; beside it and above it nodes only move.
  induction put generalizing lo hi hi' ids ids' with
  | @here shape shape' beside related =>
    obtain ⟨p, rest, rfl, node, next⟩ := lays_cons h
    obtain ⟨p', rest', rfl, node', next'⟩ := lays_cons h'
    obtain ⟨e, rfl, inside, grown⟩ := one related node node'
    exact ⟨e, grown.beside inside next next'⟩
  | @inside label below below' beside inner ih =>
    obtain ⟨p, rest, rfl, node, next⟩ := lays_cons h
    obtain ⟨p', rest', rfl, node', next'⟩ := lays_cons h'
    obtain ⟨data, here, labelled, under⟩ := lays_node_data node
    obtain ⟨data', here', labelled', under'⟩ := lays_node_data node'
    obtain ⟨e, grown, -, rfl, children⟩ := ih under under'
    exact ⟨e, (grown.node here here' (labelled.trans labelled'.symm) children).beside grown.inside
      next next'⟩
  | @beside shape shapes shapes' rest ih =>
    obtain ⟨p, tail, rfl, node, next⟩ := lays_cons h
    obtain ⟨p', tail', rfl, node', next'⟩ := lays_cons h'
    obtain ⟨rfl, preceded⟩ := Grown.preceded node node'
    obtain ⟨e, grown, fresh, rfl, tops⟩ := ih next next'
    have above := grown.above
    refine ⟨e, preceded grown, ?_, rfl, ?_⟩
    · rw [List.mem_cons, not_or]
      exact ⟨Nat.ne_of_gt above, fresh⟩
    · rw [List.map_cons, outer_of_lt above, tops]

end Grown

/-- The second arena has one node more, behind `e`. A node that is kept says what it did,
with what stands in the places of its children. Any other node selects a member in both. -/
structure Enlarged (a a' : Arena) (e : Nat) (place : Nat → Nat) (kept : Nat → Prop) : Prop where
  twins : ∀ x < a.size, kept x → ∃ data data', a.data? x = some data ∧
    a'.data? (twin e x) = some data' ∧ data.label = data'.label ∧
      data'.children = data.children.map place
  members : ∀ x < a.size, ¬kept x → ∃ data data', a.data? x = some data ∧
    a'.data? (twin e x) = some data' ∧ data.IsMember ∧ data'.IsMember
  others : ∀ c, c ≠ e → place c = twin e c
  operand : ∀ x data, kept x → a.data? x = some data → e ∈ data.children →
    place e = e + 1 ∧ 0 < data.operandCount
  inside : e < a.size
  descends : ∀ q c, a.IsChild q c → c < q
  size : a'.size = a.size + 1

namespace Enlarged

variable {place : Nat → Nat} {kept : Nat → Prop} {x : Nat} {data : NodeData}
  (h : a.Enlarged a' e place kept)
include h

theorem stays (keep : kept x) (here : a.data? x = some data) (none : data.operandCount = 0) :
    ∀ c ∈ data.children, place c = twin e c := by
  intro c child
  refine h.others c fun same => ?_
  rw [same] at child
  exact Nat.ne_of_gt (h.operand x data keep here child).2 none

theorem twin_data (keep : kept x) (here : a.data? x = some data) :
    ∃ data', a'.data? (twin e x) = some data' ∧ data.label = data'.label ∧
      data'.children = data.children.map place := by
  obtain ⟨found, data', here', there, label, children⟩ := h.twins x (data?_lt here) keep
  rw [here] at here'
  cases here'
  exact ⟨data', there, label, children⟩

theorem twin_paired (keep : kept x) (here : a.data? x = some data) :
    ∃ data', a'.data? (twin e x) = some data' ∧ data'.children = data.children.map place ∧
      NodeData.Paired (fun c c' => c' = place c) data data' := by
  obtain ⟨data', there, label, children⟩ := h.twin_data keep here
  refine ⟨data', there, children, NodeData.paired_of_label label ?_⟩
  rw [children, List.forall₂_map_right_iff]
  exact List.forall₂_same.2 fun _ _ => rfl

theorem twin_member (lost : ¬kept x) (here : a.data? x = some data) : data.IsMember ∧
    ∃ data', a'.data? (twin e x) = some data' ∧ data'.IsMember := by
  obtain ⟨found, data', here', there, member, member'⟩ := h.members x (data?_lt here) lost
  rw [here] at here'
  cases here'
  exact ⟨member, data', there, member'⟩

theorem keeps (here : a.data? x = some data) (none : data.operandCount = 0) : kept x := by
  by_contra lost
  obtain ⟨member, -⟩ := h.twin_member lost here
  cases member <;> cases none

theorem twin_missing (missing : a.data? x = none) : a'.data? (twin e x) = none := by
  have outside : ¬x < a.size := by
    intro inside
    by_cases keep : kept x
    · obtain ⟨data, _, here, _⟩ := h.twins x inside keep
      cases missing.symm.trans here
    · obtain ⟨data, _, here, _⟩ := h.members x inside keep
      cases missing.symm.trans here
  have inside := h.inside
  have size := h.size
  cases there : a'.data? (twin e x) with
  | none => rfl
  | some data =>
    have := data?_lt there
    rw [twin, if_neg (by omega)] at this
    omega

theorem twin_cases (x : Nat) : (a.data? x = none ∧ a'.data? (twin e x) = none) ∨
    (∃ data data', kept x ∧ a.data? x = some data ∧ a'.data? (twin e x) = some data' ∧
      data'.children = data.children.map place ∧
        NodeData.Paired (fun c c' => c' = place c) data data') ∨
    ∃ data data', a.data? x = some data ∧ a'.data? (twin e x) = some data' ∧ data.IsMember ∧
      data'.IsMember := by
  cases here : a.data? x with
  | none => exact .inl ⟨rfl, h.twin_missing here⟩
  | some data =>
    by_cases keep : kept x
    · obtain ⟨data', there, children, paired⟩ := h.twin_paired keep here
      exact .inr (.inl ⟨data, data', keep, rfl, there, children, paired⟩)
    · obtain ⟨member, data', there, member'⟩ := h.twin_member keep here
      exact .inr (.inr ⟨data, data', rfl, there, member, member'⟩)

theorem children_twin (keep : kept x) : a'.children (twin e x) = (a.children x).map place := by
  cases here : a.data? x with
  | none =>
    rw [children, children, here, h.twin_missing here]
    rfl
  | some data =>
    obtain ⟨data', there, _, children⟩ := h.twin_data keep here
    rw [children_of_data here, children_of_data there, children]

theorem twin_lt (inside : x < a.size) : twin e x < a'.size := by
  rw [h.size, twin]
  split <;> omega

theorem place_lt_twin (keep : kept x) (here : a.data? x = some data) {c : Nat}
    (child : c ∈ data.children) : c < x ∧ place c < twin e x := by
  have less : c < x := h.descends x c (isChild_of_data here child)
  refine ⟨less, ?_⟩
  by_cases wrapped : c = e
  · rw [wrapped] at less child ⊢
    rw [(h.operand x data keep here child).1, twin, if_neg (Nat.not_le_of_gt less)]
    exact Nat.succ_lt_succ less
  · rw [h.others c wrapped]
    exact twin_lt_twin less

end Enlarged

end Arena

theorem Tree.ofProgram_replaced {file : String} {ds ds' : List Declaration} {tree tree' : Tree}
    {q : Nat → Prop} {kept : Nat → Nat → Prop} {r : Shape → Shape → Prop}
    (one : ∀ {shape shape' lo p p'}, r shape shape' → tree.arena.Lays lo [shape] [p] (p + 1) →
      tree'.arena.Lays lo [shape'] [p'] (p' + 1) →
        ∃ e, p' = p + 1 ∧ e < p ∧ Arena.Grown tree.arena tree'.arena q kept lo (p + 1) e)
    (put : Shape.Replaced r (Declaration.shapes ds) (Declaration.shapes ds'))
    (lowered : Tree.ofProgram file ds = .ok tree) (lowered' : Tree.ofProgram file ds' = .ok tree') :
    ∃ e, q e ∧ (∀ p p', tree.arena.IsChild p e → tree.arena.IsChild p' e → p' = p) ∧
      (∀ x < tree.arena.size, kept e x → tree.arena.Twinned tree'.arena e x) ∧
      tree'.arena.size = tree.arena.size + 1 ∧ tree'.root = twin e tree.root := by
  obtain ⟨ids, here, laid, size⟩ := Tree.ofProgram_lays lowered
  obtain ⟨ids', here', laid', size'⟩ := Tree.ofProgram_lays lowered'
  obtain ⟨e, grown, fresh, last, tops⟩ := Arena.lays_replaced one put laid laid'
  obtain ⟨_, whole⟩ := Tree.ofProgram_root lowered
  have inside := grown.inside
  have root : twin e tree.root = tree'.root := by
    rw [last, twin, if_neg (Nat.not_le_of_gt inside)]
  refine ⟨e, grown.change, fun p p' child child' => ?_, fun x less keep => ?_, ?_, root.symm⟩
  · obtain ⟨parent, _, unique⟩ := (Arena.lays_postOrder whole).parent e
      (by omega) (Nat.ne_of_lt inside)
    rw [unique p child, unique p' child']
  · by_cases top : x = tree.root
    · rw [top]
      refine ⟨.program ids, .program ids', here, root ▸ here', ?_, tops⟩
      rw [tops, NodeData.label, NodeData.label, List.map_map]
      rfl
    · exact grown.twins x (Nat.zero_le x) (by omega) keep
  · rw [size, size', last]

end DeployCheck
