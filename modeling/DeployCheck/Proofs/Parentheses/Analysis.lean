import DeployCheck.Proofs.Insertion.Analysis
import DeployCheck.Proofs.Parentheses.Premises

/-!
# The analysis with an operand in parentheses

The analysis of a program with an operand in parentheses fills its tables in the same
order. It takes one more step whenever it comes to the operand, so it has one expression
more under examination there. As long as the limit is not reached, it gets the same
answers and the same bodies.
-/

set_option autoImplicit false

namespace DeployCheck.Analysis

/-- A path that leads from a body to an item. Nothing that is under examination is asked
for again. -/
inductive Course (s : Subject) : Path → Item → Prop where
  | start (id : SymbolId) : Course s ⟨[], []⟩ (.body id)
  | expression {path : Path} {id : NodeId} {item : Item} (before : Course s path (.expression id))
      (fresh : id ∉ path.nodes) (next : Consults s (.expression id) item) :
      Course s ⟨id :: path.nodes, path.symbols⟩ item
  | body {path : Path} {id : SymbolId} {item : Item} (before : Course s path (.body id))
      (fresh : id ∉ path.symbols) (next : Consults s (.body id) item) :
      Course s ⟨path.nodes, id :: path.symbols⟩ item

/-- Whenever an expression is reached, fewer than the limit are under examination. -/
def Shallow (s : Subject) : Prop :=
  ∀ path id, Course s path (.expression id) → id ∉ path.nodes → path.nodes.length < depthLimit

theorem course_nodes {s : Subject} {path : Path} {item : Item} (course : Course s path item) :
    path.nodes.Nodup ∧ ∀ id ∈ path.nodes, id < s.tree.arena.size := by
  induction course with
  | start => exact ⟨List.nodup_nil, List.forall_mem_nil _⟩
  | body _ _ _ ih => exact ih
  | expression _ fresh next ih =>
    cases next with
    | expression rule member =>
      obtain ⟨data, here⟩ := data_of_rule rule
      exact ⟨List.nodup_cons.2 ⟨fresh, ih.1⟩,
        List.forall_mem_cons.2 ⟨Arena.data?_lt here, ih.2⟩⟩

theorem shallow_of_size {s : Subject} (small : s.tree.arena.size < depthLimit) : Shallow s := by
  intro path id course _
  obtain ⟨distinct, inside⟩ := course_nodes course
  have few : path.nodes.length ≤ (List.range s.tree.arena.size).length :=
    (List.subperm_of_subset distinct fun n member => List.mem_range.2 (inside n member)).length_le
  rw [List.length_range] at few
  exact Nat.lt_of_le_of_lt few small

/-- Where the operand is on a path, its parentheses are right behind it. -/
def Path.moved (e : Nat) (path : Path) : Path := ⟨path.nodes.flatMap (places e), path.symbols⟩

section Paths

variable {e x y : Nat} {path : Path}

theorem Path.mem_moved : (twin e x ∈ (path.moved e).nodes ↔ x ∈ path.nodes) ∧
    (outer e x ∈ (path.moved e).nodes ↔ x ∈ path.nodes) := by
  have places : ∀ {z : Nat}, (∀ y, z ∈ places e y ↔ x = y) →
      (z ∈ (path.moved e).nodes ↔ x ∈ path.nodes) := by
    intro z place
    simp only [moved, List.mem_flatMap, place, exists_eq_right']
  exact ⟨places fun _ => mem_places.1, places fun _ => mem_places.2⟩

theorem Path.moved_self : (⟨e :: path.nodes, path.symbols⟩ : Path).moved e =
    ⟨e :: (e + 1) :: (path.moved e).nodes, path.symbols⟩ := by
  rw [moved, List.flatMap_cons, places_self]
  rfl

theorem Path.moved_of_ne (other : x ≠ e) : (⟨x :: path.nodes, path.symbols⟩ : Path).moved e =
    ⟨twin e x :: (path.moved e).nodes, path.symbols⟩ := by
  rw [moved, List.flatMap_cons, places_of_ne other]
  rfl

theorem Path.length_le_moved : path.nodes.length ≤ (path.moved e).nodes.length := by
  rw [moved, List.length_flatMap]
  induction path.nodes with
  | nil => exact Nat.le_refl 0
  | cons x xs ih =>
    have one : 1 ≤ (places e x).length := by
      rw [places]
      split <;> simp
    rw [List.map_cons, List.sum_cons, List.length_cons]
    omega

end Paths

abbrev Memo.Parenthesized (e : Nat) : Memo → Memo → Prop := Memo.Enlarged e fun o o' => o' = o

theorem Memo.constant?_outer {e : Nat} {memo memo' : Memo} (h : memo.Parenthesized e memo') (x : Nat) :
    memo'.constant? (outer e x) = memo.constant? x := by
  by_cases wrapped : x = e
  · rw [wrapped, outer_self]
    exact h.new
  · rw [outer_of_ne wrapped, h.constants]

theorem Memo.Enlarged.enter {e : Nat} {memo memo' : Memo} (h : memo.Parenthesized e memo')
    (answer : Bool) : (memo.setConstant e answer).Parenthesized e
      ((memo'.setConstant e answer).setConstant (e + 1) answer) := by
  have loose : memo.Enlarged e (fun _ _ => True) memo' := h.mono fun _ _ _ => trivial
  have twins := loose.setConstant e answer fun _ => trivial
  rw [twin_self] at twins
  refine twins.setNew answer ?_
  rw [constant?_setConstant, if_pos ⟨rfl, h.inside⟩]

def Courses (s' : Subject) (e : Nat) (path path' : Path) (item : Item) : Prop :=
  path' = path.moved e ∧ Course s' path' item

section Runs

variable {s s' : Subject} {p e : Nat} (h : s.Parenthesized s' p e) (shallow : Shallow s')

include shallow in
theorem ways_parenthesized : Ways s s' (outer e) (Courses s' e) where
  symbols way := way.1 ▸ rfl
  again way := way.1 ▸ Path.mem_moved.2
  far {path path' x} way fresh := by
    have room := shallow _ _ way.2 fresh
    have longer : path.nodes.length ≤ path'.nodes.length := way.1 ▸ Path.length_le_moved
    omega
  body {path path' id item} way fresh next := by
    obtain ⟨rfl, course⟩ := way
    exact ⟨rfl, .body course fresh next⟩

include h

theorem corresponding_parenthesized :
    Corresponding s s' (twin e) (outer e) id id (Memo.Parenthesized e) Eq :=
  corresponding_enlarged h.enlarged Memo.constant?_outer

theorem expressionIsConstant_paren {m : Type → Type} [Monad m] (constant : NodeId → m Bool)
    (body : SymbolId → m (Option ObjectType)) :
    expressionIsConstant s' constant body (e + 1) = constant e := by
  rw [expressionIsConstant, h.arena.paren]

section Examining

variable {strict : Bool} {fuel fuel' : Nat} {path : Path} (fits : Fits s (fuel + 1) path)
  (together : ∀ path path' fuel', Fits s fuel path → Fits s' fuel' path' →
    Together s s' (outer e) (Memo.Parenthesized e) Eq (Courses s' e) strict fuel fuel' path path')

include fits together

theorem lockstep_twin {before : Path} {x : Nat} (room : path.nodes.length < depthLimit)
    (fits' : Fits s' fuel' ⟨twin e x :: before.nodes, before.symbols⟩)
    (course : Course s' before (.expression (twin e x))) (fresh : twin e x ∉ before.nodes)
    (next : (⟨x :: path.nodes, path.symbols⟩ : Path).moved e =
      ⟨twin e x :: before.nodes, before.symbols⟩) :
    Lockstep (Memo.Parenthesized e) strict Eq
      (expressionIsConstant s (constantWithin s fuel ⟨x :: path.nodes, path.symbols⟩)
        (bodyWithin s fuel ⟨x :: path.nodes, path.symbols⟩) x)
      (expressionIsConstant s' (tryConstant s' strict fuel' ⟨twin e x :: before.nodes, before.symbols⟩)
        (tryBody s' strict fuel' ⟨twin e x :: before.nodes, before.symbols⟩) (twin e x)) :=
  lockstep_expression (corresponding_parenthesized h) (together _ _ _ (fits_node fits room x) fits')
    (h.enlarged.premises_twin trivial) fun _ after => ⟨next.symm, .expression course fresh after⟩

include shallow

/-- To examine the parentheses is to examine the operand one step further on. -/
theorem meets_paren {memo memo' : Memo} (tables : memo.Parenthesized e memo')
    (fits' : Fits s' (fuel' + 1) (path.moved e)) (unknown : memo.constant? e = none)
    (new : e ∉ path.nodes) (course : Course s' (path.moved e) (.expression (e + 1)))
    (fresh : e + 1 ∉ (path.moved e).nodes) (room : path.nodes.length < depthLimit)
    (room' : (path.moved e).nodes.length < depthLimit) :
    Meets strict (fun a b => a.1 = b.1 ∧ Memo.Parenthesized e a.2 b.2)
      ((constantWithin s (fuel + 1) path e).run memo)
      ((tryConstant s' strict (fuel' + 1) (path.moved e) (e + 1)).run memo') := by
  have unknown' : memo'.constant? (e + 1) = none := tables.new.trans unknown
  have outside := fits_node fits' room' (e + 1)
  have below : Course s' ⟨(e + 1) :: (path.moved e).nodes, path.symbols⟩
      (.expression (twin e e)) := by
    rw [twin_self]
    exact .expression course fresh (.expression (.paren h.arena.paren) (List.mem_singleton.2 rfl))
  have low : twin e e ∉ (⟨(e + 1) :: (path.moved e).nodes, path.symbols⟩ : Path).nodes := by
    rw [List.mem_cons, not_or]
    exact ⟨twin_ne e e, fun member => new (Path.mem_moved.1.1 member)⟩
  have next : (⟨e :: path.nodes, path.symbols⟩ : Path).moved e =
      ⟨twin e e :: (e + 1) :: (path.moved e).nodes, path.symbols⟩ := by
    rw [Path.moved_self, twin_self]
  -- The parentheses take one more fuel.
  cases fuel' with
  | zero => exact absurd outside not_fits_zero
  | succ fuel' =>
    have deep := shallow _ _ below low
    have judged := lockstep_twin h fits together room (fits_node outside deep (twin e e)) below low
      next
    have operand := meets_examined judged tables unknown ((tables.constants e).trans unknown) new low
      room deep
    rw [tryConstant_fresh unknown' fresh room', expressionIsConstant_paren h]
    rw [twin_self] at operand
    refine operand.map ?_
    rintro ⟨answer, entered⟩ ⟨same, after, after', related, set, set'⟩
    dsimp only at same set set' ⊢
    rw [set, set', ← same]
    exact ⟨rfl, related.enter _⟩

end Examining

theorem together_parenthesized (shallow : Shallow s') (strict : Bool) (fuel : Nat) :
    ∀ path path' fuel', Fits s fuel path → Fits s' fuel' path' →
      Together s s' (outer e) (Memo.Parenthesized e) Eq (Courses s' e) strict fuel fuel' path
        path' := by
  refine together_works (corresponding_parenthesized h) (ways_parenthesized shallow) ?_ fuel
  intro fuel fuel' path path' x memo memo' way tables unknown unknown' fresh fresh' room room' fits
    fits' together
  obtain ⟨rfl, course⟩ := way
  by_cases wrapped : x = e
  · subst wrapped
    rw [outer_self] at fresh' course ⊢
    exact meets_paren h shallow fits together tables fits' unknown fresh course fresh' room room'
  · rw [outer_of_ne wrapped] at fresh' course unknown' ⊢
    have judged := lockstep_twin h fits together room (fits_node fits' room' _) course fresh'
      (Path.moved_of_ne wrapped)
    exact meets_entered judged (fun related answer => related.setConstant x answer (absurd · wrapped))
      tables unknown unknown' fresh fresh' room room'

theorem run_parenthesized (shallow : Shallow s') (id : SymbolId) :
    (run s').body? id = (run s).body? id := by
  have together := together_parenthesized h shallow false _ ⟨[], []⟩ ⟨[], []⟩ _ fits_start fits_start
  have related := run_related (corresponding_parenthesized h) together (fun id => ⟨rfl, .start id⟩)
    (start_enlarged h.enlarged rfl)
  exact related.body? id

end Runs

end DeployCheck.Analysis
