import DeployCheck.Tree.Arena
import Mathlib.Data.List.Forall2
import Mathlib.Data.List.Range

/-!
# Trees laid out in an arena

Lowering numbers the nodes of a document in post-order: what is below a node
comes right before it. An interval of an arena that is numbered like this lays
out a list of shapes, and a walk over it meets every node of the interval once.
-/

set_option autoImplicit false

namespace DeployCheck

def Identifier.bare (i : Identifier) : Identifier := ⟨i.name, default⟩

namespace NodeData

/-- A node without the numbers of its children and the spans of its names. -/
def label : NodeData → NodeData
  | program declarations => program (declarations.map fun _ => 0)
  | param name default => param name.bare (default.map fun _ => 0)
  | var name _ => var name.bare 0
  | resource name type existing _ nested =>
    resource name.bare type existing 0 (nested.map fun _ => 0)
  | module name path _ outputs =>
    module name.bare path 0 (outputs.map fun o => ⟨o.name.bare, o.resource⟩)
  | output name _ => output name.bare 0
  | string segments holes => string segments (holes.map fun _ => 0)
  | int value => int value
  | bool value => bool value
  | null => null
  | ident name => ident name.bare
  | array items => array (items.map fun _ => 0)
  | object entries => object (entries.map fun e => ⟨e.key.bare, 0⟩)
  | property _ name => property 0 name.bare
  | index _ _ => index 0 0
  | resourceAccess _ name => resourceAccess 0 name.bare
  | call name args => call name.bare (args.map fun _ => 0)
  | instanceCall _ name args => instanceCall 0 name.bare (args.map fun _ => 0)
  | paren _ => paren 0
  | unary operator _ => unary operator 0
  | binary operator _ _ => binary operator 0 0
  | ternary _ _ _ => ternary 0 0 0
  | loop item counter _ _ => loop item.bare (counter.map Identifier.bare) 0 0
  | condition _ _ => condition 0 0

def Whole : NodeData → Prop
  | string segments holes => segments.length = holes.length + 1
  | _ => True

end NodeData

inductive Shape where
  | node (label : NodeData) (below : List Shape)

namespace Arena

/-- The nodes `ids`, with all that is below them, are the numbers from `lo` up to
`hi`, each node behind what is below it. -/
inductive Lays (a : Arena) : Nat → List Shape → List Nat → Nat → Prop where
  | nil (lo : Nat) : Lays a lo [] [] lo
  | cons {lo id hi : Nat} {data : NodeData} {below shapes : List Shape} {ids : List Nat}
      (here : a.data? id = some data) (whole : data.Whole)
      (under : Lays a lo below data.children id) (beside : Lays a (id + 1) shapes ids hi) :
      Lays a lo (.node data.label below :: shapes) (id :: ids) hi

variable {a a' : Arena} {lo mid hi : Nat} {shapes shapes' : List Shape} {ids ids' : List Nat}

theorem lays_le (h : Lays a lo shapes ids hi) : lo ≤ hi := by
  induction h with
  | nil => exact Nat.le_refl _
  | cons _ _ _ _ under beside => omega

theorem lays_append (h : Lays a lo shapes ids mid) (h' : Lays a mid shapes' ids' hi) :
    Lays a lo (shapes ++ shapes') (ids ++ ids') hi := by
  induction h with
  | nil => exact h'
  | cons here whole under _ _ ih => exact .cons here whole under (ih h')

theorem lays_single {id : Nat} {data : NodeData} {below : List Shape}
    (here : a.data? id = some data) (whole : data.Whole)
    (under : Lays a lo below data.children id) :
    Lays a lo [.node data.label below] [id] (id + 1) :=
  .cons here whole under (.nil _)

theorem lays_congr (h : Lays a lo shapes ids hi) (same : ∀ n < hi, a'.data? n = a.data? n) :
    Lays a' lo shapes ids hi := by
  induction h with
  | nil => exact .nil _
  | @cons lo id hi data below shapes ids here whole under beside ihu ihb =>
    have hle := lays_le beside
    refine .cons ?_ whole (ihu fun n hn => same n (by omega)) (ihb same)
    rw [same id (by omega), here]

theorem lays_mem (h : Lays a lo shapes ids hi) : ∀ id : Nat, id ∈ ids → lo ≤ id ∧ id < hi := by
  induction h with
  | nil => simp
  | @cons lo id hi data below shapes ids here whole under beside ihu ihb =>
    have hu := lays_le under
    have hb := lays_le beside
    intro n hn
    rcases List.mem_cons.1 hn with rfl | hn
    · exact ⟨hu, by omega⟩
    · have := ihb n hn
      omega

theorem lays_node (h : Lays a lo shapes ids hi) {n : Nat} (hlo : lo ≤ n) (hhi : n < hi) :
    ∃ data, a.data? n = some data ∧ data.Whole ∧ ∀ c : Nat, c ∈ data.children → lo ≤ c ∧ c < n := by
  induction h with
  | nil => omega
  | @cons lo id hi data below shapes ids here whole under beside ihu ihb =>
    have hu := lays_le under
    rcases Nat.lt_trichotomy n id with hn | rfl | hn
    · exact ihu hlo hn
    · exact ⟨data, here, whole, lays_mem under⟩
    · obtain ⟨d, hd, hw, hc⟩ := ihb (by omega) hhi
      refine ⟨d, hd, hw, fun c hm => ?_⟩
      have := hc c hm
      omega

theorem data?_lt {n : Nat} {data : NodeData} (h : a.data? n = some data) : n < a.size := by
  rw [data?, Option.map_eq_some_iff] at h
  obtain ⟨node, hn, _⟩ := h
  exact (Array.getElem?_eq_some_iff.1 hn).1

def Shift (lo lo' x x' : Nat) : Prop := x' + lo = x + lo'

theorem lays_shift {base base' lo' hi' : Nat} (h : Lays a lo shapes ids hi)
    (h' : Lays a' lo' shapes ids' hi') (start : Shift base base' lo lo') :
    Shift base base' hi hi' ∧ List.Forall₂ (Shift base base') ids ids' ∧
      ∀ x x', lo ≤ x → x < hi → Shift base base' x x' → ∃ data data', a.data? x = some data ∧
        a'.data? x' = some data' ∧ data.label = data'.label ∧
        List.Forall₂ (Shift base base') data.children data'.children := by
  induction h generalizing lo' hi' ids' with
  | nil =>
    cases h'
    exact ⟨start, .nil, fun x x' hlo hhi => absurd hlo (Nat.not_le_of_lt hhi)⟩
  | @cons lo id hi data below shapes ids here whole under beside ihu ihb =>
    generalize hlabel : Shape.node data.label below = first at h'
    cases h' with
    | @cons _ id' _ data' _ _ _ here' whole' under' beside' =>
      injection hlabel with label same
      subst same
      have hu := lays_le under
      obtain ⟨hid, children, inner⟩ := ihu under' start
      have next : Shift base base' (id + 1) (id' + 1) := by
        simp only [Shift] at hid ⊢
        omega
      obtain ⟨hend, others, outer⟩ := ihb beside' next
      refine ⟨hend, .cons hid others, fun x x' hlo hhi shift => ?_⟩
      rcases Nat.lt_trichotomy x id with hx | rfl | hx
      · exact inner x x' hlo hx shift
      · have same : x' = id' := by
          simp only [Shift] at hid shift
          omega
        subst same
        exact ⟨data, data', here, here', label, children⟩
      · exact outer x x' hx hhi shift

/-- The nodes of a list with all that is below them, each before what is below
it, and what is below a node in the order of its children. -/
inductive PreOrder (a : Arena) : List Nat → List Nat → Prop where
  | nil : PreOrder a [] []
  | cons {id : Nat} {ids below rest : List Nat}
      (under : PreOrder a (a.children id) below) (beside : PreOrder a ids rest) :
      PreOrder a (id :: ids) (id :: (below ++ rest))

theorem children_of_data {id : NodeId} {data : NodeData} (h : a.data? id = some data) :
    a.children id = data.children := by
  simp only [children, h]

theorem visitOnto_foldr (depth : Nat) (rest : List NodeId) :
    ids.foldr (a.visitOnto depth) rest = ids.foldr (a.visitOnto depth) [] ++ rest := by
  induction ids with
  | nil => rfl
  | cons id ids ih =>
    rw [List.foldr_cons, List.foldr_cons, visitOnto_append, ih,
      visitOnto_append a depth id (List.foldr _ _ _), List.append_assoc]

theorem lays_preOrder (h : Lays a lo shapes ids hi) {depth : Nat} (deep : hi - lo ≤ depth) :
    PreOrder a ids (ids.foldr (a.visitOnto depth) []) := by
  induction h generalizing depth with
  | nil => exact .nil
  | @cons lo id hi data below shapes ids here whole under beside ihu ihb =>
    have hu := lays_le under
    have hb := lays_le beside
    cases depth with
    | zero => omega
    | succ depth =>
      rw [List.foldr_cons, visitOnto, visitOnto_foldr, children_of_data here]
      refine .cons ?_ (ihb (by omega))
      rw [children_of_data here]
      exact ihu (by omega)

theorem lays_perm (h : Lays a lo shapes ids hi) {order : List Nat}
    (walk : PreOrder a ids order) : order.Perm (List.range' lo (hi - lo)) := by
  induction h generalizing order with
  | nil =>
    cases walk
    simp
  | @cons lo id hi data below shapes ids here whole under beside ihu ihb =>
    have hu := lays_le under
    have hb := lays_le beside
    cases walk with
    | @cons _ _ below rest walkUnder walkBeside =>
      rw [children_of_data here] at walkUnder
      have before := ihu walkUnder
      have behind := ihb walkBeside
      have split : List.range' lo (hi - lo)
          = List.range' lo (id - lo) ++ id :: List.range' (id + 1) (hi - (id + 1)) := by
        have hsum : hi - lo = (id - lo) + (hi - (id + 1) + 1) := by omega
        rw [hsum, ← List.range'_append_1, show lo + (id - lo) = id by omega, List.range'_succ]
      rw [split]
      exact ((before.append behind).cons id).trans List.perm_middle.symm

end Arena

end DeployCheck
