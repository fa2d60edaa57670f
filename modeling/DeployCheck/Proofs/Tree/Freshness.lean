import DeployCheck.Proofs.Tree.Lowering

/-!
# Spans that the builder makes up

The builder takes the spans of words, punctuation and names from its cursor on, one behind the
other. A node covers some of these and the spans of its children. So the cursor stays behind
every span that was given to a node or to a name, also where nodes are moved in between, and
what is taken next is new.
-/

set_option autoImplicit false

namespace DeployCheck

namespace Span

def Inside (s t : Span) : Prop := t.start ≤ s.start ∧ s.stop ≤ t.stop

structure IsHull (s : Span) (pieces : List Span) : Prop where
  covers : ∀ p ∈ pieces, p.Inside s
  start : ∃ p ∈ pieces, p.start = s.start
  stop : ∃ p ∈ pieces, p.stop = s.stop

variable {s t : Span} {pieces others : List Span}

theorem isHull_single (s : Span) : s.IsHull [s] where
  covers := by simp [Inside]
  start := by simp
  stop := by simp

theorem isHull_congr (hull : s.IsHull pieces) (same : ∀ p, p ∈ pieces ↔ p ∈ others) :
    s.IsHull others := by
  obtain ⟨covers, start, stop⟩ := hull
  simp only [same] at covers start stop
  exact ⟨covers, start, stop⟩

theorem isHull_cover (hull : s.IsHull pieces) (hull' : t.IsHull others) :
    (s.cover t).IsHull (pieces ++ others) := by
  constructor
  · intro p inside
    rcases List.mem_append.1 inside with inside | inside
    · have within := hull.covers p inside
      simp only [Inside, cover] at within ⊢
      omega
    · have within := hull'.covers p inside
      simp only [Inside, cover] at within ⊢
      omega
  · by_cases first : s.start ≤ t.start
    · obtain ⟨p, inside, same⟩ := hull.start
      exact ⟨p, List.mem_append_left _ inside, by simp only [cover]; omega⟩
    · obtain ⟨p, inside, same⟩ := hull'.start
      exact ⟨p, List.mem_append_right _ inside, by simp only [cover]; omega⟩
  · by_cases last : t.stop ≤ s.stop
    · obtain ⟨p, inside, same⟩ := hull.stop
      exact ⟨p, List.mem_append_left _ inside, by simp only [cover]; omega⟩
    · obtain ⟨p, inside, same⟩ := hull'.stop
      exact ⟨p, List.mem_append_right _ inside, by simp only [cover]; omega⟩

theorem isHull_foldl (a : Arena) (ids : List NodeId) (hull : s.IsHull pieces) :
    (ids.foldl (fun s id => s.cover (a.span id)) s).IsHull (pieces ++ ids.map a.span) := by
  induction ids generalizing s pieces with
  | nil => simpa using hull
  | cons id ids ih =>
    have rest := ih (isHull_cover hull (isHull_single (a.span id)))
    simpa using rest

theorem isHull_between (a : Arena) (ids : List NodeId) (opening closing : Span) :
    ((ids.foldl (fun s id => s.cover (a.span id)) opening).cover closing).IsHull
      ([opening, closing] ++ ids.map a.span) := by
  apply isHull_congr (isHull_cover (isHull_foldl a ids (isHull_single opening))
    (isHull_single closing))
  intro p
  simp only [List.mem_append, List.mem_cons, List.not_mem_nil, or_false]
  exact or_right_comm

end Span

theorem Arena.span_add (a : Arena) (span : Span) (data : NodeData) :
    (a.add span data).span a.size = span := by
  simp [Arena.add, Arena.span, Arena.size]

namespace NodeData

def names : NodeData → List Identifier
  | param name _ | var name _ | resource name _ _ _ _ | output name _ | ident name
  | property _ name | resourceAccess _ name | call name _ | instanceCall _ name _ => [name]
  | module name _ _ outputs => name :: outputs.map OutputSignature.name
  | object entries => entries.map ObjectEntry.key
  | loop item counter _ _ => item :: counter.toList
  | _ => []

end NodeData

namespace Build

def leaves : List Nat → Build (List Span)
  | [] => return []
  | width :: rest => do
    let span ← leaf width
    return span :: (← leaves rest)

/-- Spans with something in them lie one behind the other between two offsets. -/
structure Row (low high : Nat) (spans : List Span) : Prop where
  inside : ∀ s ∈ spans, low ≤ s.start ∧ s.start < s.stop ∧ s.stop < high
  ordered : spans.Pairwise fun s t => s.stop < t.start

variable {b : Builder}

theorem leaf_run (width : Nat) (b : Builder) :
    (leaf width).run b = (Span.between b.cursor (b.cursor + leafWidth width),
      ⟨b.arena, min ((Span.between b.cursor (b.cursor + leafWidth width)).stop + 1) lastOffset⟩) := rfl

theorem leafWidth_pos (width : Nat) : 0 < leafWidth width := by
  rw [leafWidth]
  split
  · omega
  · decide

theorem leaf_row {width : Nat} (below : ((leaf width).run b).2.cursor < lastOffset) :
    ((leaf width).run b).1.start = b.cursor ∧
      ((leaf width).run b).1.start < ((leaf width).run b).1.stop ∧
      ((leaf width).run b).1.stop < ((leaf width).run b).2.cursor := by
  have positive := leafWidth_pos width
  simp only [leaf_run, Span.between] at below ⊢
  omega

theorem leaves_cons (width : Nat) (rest : List Nat) (b : Builder) :
    (leaves (width :: rest)).run b =
      (((leaf width).run b).1 :: ((leaves rest).run ((leaf width).run b).2).1,
        ((leaves rest).run ((leaf width).run b).2).2) := rfl

theorem leaves_arena (widths : List Nat) (b : Builder) :
    ((leaves widths).run b).2.arena = b.arena := by
  induction widths generalizing b with
  | nil => rfl
  | cons width rest ih => exact ih ((leaf width).run b).2

theorem row_cons {low middle high : Nat} {s : Span} {spans : List Span}
    (first : low ≤ s.start ∧ s.start < s.stop ∧ s.stop < middle) (later : middle ≤ high)
    (row : Row middle high spans) : Row low high (s :: spans) := by
  constructor
  · intro t inside
    rcases List.mem_cons.1 inside with rfl | inside
    · omega
    · have within := row.inside t inside
      omega
  · refine .cons (fun t inside => ?_) row.ordered
    have within := row.inside t inside
    omega

theorem leaves_row (widths : List Nat) (below : ((leaves widths).run b).2.cursor < lastOffset) :
    b.cursor ≤ ((leaves widths).run b).2.cursor ∧
      Row b.cursor ((leaves widths).run b).2.cursor ((leaves widths).run b).1 := by
  induction widths generalizing b with
  | nil => exact ⟨Nat.le_refl _, fun _ none => absurd none List.not_mem_nil, .nil⟩
  | cons width rest ih =>
    simp only [leaves_cons] at below ⊢
    obtain ⟨later, row⟩ := ih below
    obtain ⟨start, nonempty, stop⟩ := leaf_row (Nat.lt_of_le_of_lt later below)
    constructor
    · omega
    · exact row_cons ⟨Nat.le_of_eq start.symm, nonempty, stop⟩ later row

theorem leaves_append (widths others : List Nat) (b : Builder) :
    (leaves (widths ++ others)).run b =
      (((leaves widths).run b).1 ++ ((leaves others).run ((leaves widths).run b).2).1,
        ((leaves others).run ((leaves widths).run b).2).2) := by
  induction widths generalizing b with
  | nil => rfl
  | cons width rest ih => rw [List.cons_append, leaves_cons, leaves_cons, ih, List.cons_append]

theorem leaves_length (widths : List Nat) (b : Builder) :
    ((leaves widths).run b).1.length = widths.length := by
  induction widths generalizing b with
  | nil => rfl
  | cons width rest ih => exact congrArg Nat.succ (ih ((leaf width).run b).2)

theorem identifiers_cons (name : String) (rest : List String) (b : Builder) :
    (identifiers (name :: rest)).run b =
      (((identifier name).run b).1 :: ((identifiers rest).run ((identifier name).run b).2).1,
        ((identifiers rest).run ((identifier name).run b).2).2) := rfl

theorem identifiers_leaves (names : List String) (b : Builder) :
    (identifiers names).run b =
      (names.zipWith Identifier.mk ((leaves (names.map String.utf8ByteSize)).run b).1,
        ((leaves (names.map String.utf8ByteSize)).run b).2) := by
  induction names generalizing b with
  | nil => rfl
  | cons name rest ih =>
    rw [identifiers_cons, ih, List.map_cons, leaves_cons]
    rfl

/-- A step takes tokens of some widths and then adds a node with some children. The names in the
node are tokens, and the node reaches around some of the tokens and all children. -/
def Makes (step : Build NodeId) (widths : List Nat) (children : List NodeId) : Prop :=
  ∀ b : Builder, ∃ span data own,
    step.run b = (add span data).run ((leaves widths).run b).2 ∧ data.children = children ∧
      (data.names.map Identifier.span).Sublist ((leaves widths).run b).1 ∧
      own ⊆ ((leaves widths).run b).1 ∧ span.IsHull (own ++ children.map b.arena.span)

/-- The steps that add a node, with the widths of the tokens that they take and the children that
they are given. -/
inductive Method : Build NodeId → List Nat → List NodeId → Prop where
  | string (value : String) : Method (string value) [value.utf8ByteSize + 2] []
  | interpolated (segments : List String) (holes : List NodeId) :
      Method (interpolated segments holes) [1, 1] holes
  | int (value : Int) : Method (int value) [(toString value).utf8ByteSize] []
  | bool (value : Bool) : Method (bool value) [if value then 4 else 5] []
  | null : Method null [4] []
  | ident (name : String) : Method (ident name) [name.utf8ByteSize] []
  | array (items : List NodeId) : Method (array items) [1, 1] items
  | object (properties : List (String × NodeId)) :
      Method (object properties) (1 :: ((properties.map Prod.fst).map String.utf8ByteSize ++ [1]))
        (properties.map Prod.snd)
  | property (base : NodeId) (name : String) : Method (property base name) [name.utf8ByteSize] [base]
  | index (base selector : NodeId) : Method (index base selector) [1] [base, selector]
  | resourceAccess (base : NodeId) (name : String) :
      Method (resourceAccess base name) [name.utf8ByteSize] [base]
  | call (name : String) (args : List NodeId) : Method (call name args) [name.utf8ByteSize, 1] args
  | instanceCall (base : NodeId) (name : String) (args : List NodeId) :
      Method (instanceCall base name args) [name.utf8ByteSize, 1] (base :: args)
  | paren (inner : NodeId) : Method (paren inner) [1] [inner]
  | unary (operator : UnaryOperator) (operand : NodeId) : Method (unary operator operand) [] [operand]
  | binary (operator : BinaryOperator) (left right : NodeId) :
      Method (binary operator left right) [] [left, right]
  | ternary (condition whenTrue whenFalse : NodeId) :
      Method (ternary condition whenTrue whenFalse) [] [condition, whenTrue, whenFalse]
  | loop (item : String) (counter : Option String) (iterated body : NodeId) :
      Method (loop item counter iterated body)
        (3 :: ((item :: counter.toList).map String.utf8ByteSize ++ [1])) [iterated, body]
  | condition (condition body : NodeId) : Method (Build.condition condition body) [2] [condition, body]
  | param (name : String) (default : Option NodeId) :
      Method (param name default) ["param".utf8ByteSize, name.utf8ByteSize] default.toList
  | var (name : String) (value : NodeId) :
      Method (var name value) ["var".utf8ByteSize, name.utf8ByteSize] [value]
  | resource (name type : String) (existing : Bool) (body : NodeId) (nested : List NodeId) :
      Method (resource name type existing body nested)
        ["resource".utf8ByteSize, name.utf8ByteSize] (body :: nested)
  | module (name path : String) (body : NodeId) (outputs : List (String × Option String)) :
      Method (module name path body outputs) ("module".utf8ByteSize :: name.utf8ByteSize ::
        (outputs.map Prod.fst).map String.utf8ByteSize) [body]
  | output (name : String) (value : NodeId) :
      Method (output name value) ["output".utf8ByteSize, name.utf8ByteSize] [value]

section Names

variable {α β γ : Type} {make : α → β → γ} {xs : List α} {ys : List β}

theorem map_zipWith_fst {part : γ → α} (exact : ∀ x y, part (make x y) = x)
    (length : xs.length = ys.length) : (xs.zipWith make ys).map part = xs := by
  have same : part ∘ Function.uncurry make = Prod.fst := funext fun p => exact p.1 p.2
  rw [← List.map_uncurry_zip_eq_zipWith, List.map_map, same, List.map_fst_zip (Nat.le_of_eq length)]

theorem map_zipWith_snd {part : γ → β} (exact : ∀ x y, part (make x y) = y)
    (length : xs.length = ys.length) : (xs.zipWith make ys).map part = ys := by
  have same : part ∘ Function.uncurry make = Prod.snd := funext fun p => exact p.1 p.2
  rw [← List.map_uncurry_zip_eq_zipWith, List.map_map, same,
    List.map_snd_zip (Nat.le_of_eq length.symm)]

end Names

theorem identifiers_spans (names : List String) (b : Builder) :
    ((identifiers names).run b).1.map Identifier.span =
      ((leaves (names.map String.utf8ByteSize)).run b).1 := by
  rw [identifiers_leaves]
  apply map_zipWith_snd fun _ _ => rfl
  rw [leaves_length, List.length_map]

theorem identifiers_length (names : List String) (b : Builder) :
    ((identifiers names).run b).1.length = names.length := by
  rw [← List.length_map Identifier.span, identifiers_spans, leaves_length, List.length_map]

theorem identifiers_places (names : List String) (b : Builder) :
    b.arena.span = ((identifiers names).run b).2.arena.span := by
  rw [(identifiers_run names b).1]

theorem leaves_names (names : List String) (b : Builder) :
    (leaves (names.map String.utf8ByteSize)).run b =
      (((identifiers names).run b).1.map Identifier.span, ((identifiers names).run b).2) := by
  rw [identifiers_spans, identifiers_leaves]
  rfl

open DeployCheck.Span

theorem makes_object (properties : List (String × NodeId)) :
    Makes (object properties) (1 :: ((properties.map Prod.fst).map String.utf8ByteSize ++ [1]))
      (properties.map Prod.snd) := by
  intro b
  let keys := (identifiers (properties.map Prod.fst)).run ((leaf 1).run b).2
  have length : keys.1.length = (properties.map Prod.snd).length := by
    rw [identifiers_length, List.length_map, List.length_map]
  have arena : b.arena.span = keys.2.arena.span := identifiers_places _ ((leaf 1).run b).2
  rw [leaves_cons, leaves_append, leaves_names, arena]
  refine ⟨_, .object (keys.1.zipWith ObjectEntry.mk (properties.map Prod.snd)),
    [((leaf 1).run b).1, ((leaf 1).run keys.2).1], rfl, ?_, ?_, ?_, isHull_between _ _ _ _⟩
  · exact map_zipWith_snd (fun _ _ => rfl) length
  · rw [NodeData.names, map_zipWith_fst (fun _ _ => rfl) length]
    exact (List.sublist_append_left ..).cons _
  · simp [leaves_cons, keys]

theorem makes_loop (item : String) (counter : Option String) (iterated body : NodeId) :
    Makes (loop item counter iterated body)
      (3 :: ((item :: counter.toList).map String.utf8ByteSize ++ [1])) [iterated, body] := by
  intro b
  let names := (identifiers (item :: counter.toList)).run ((leaf 3).run b).2
  have arena : b.arena.span = names.2.arena.span := identifiers_places _ ((leaf 3).run b).2
  have own : [((leaf 3).run b).1, ((leaf 1).run names.2).1] ⊆
      ((leaf 3).run b).1 :: (names.1.map Identifier.span ++ [((leaf 1).run names.2).1]) := by
    simp
  rw [leaves_cons, leaves_append, leaves_names, arena]
  cases counter <;>
    exact ⟨_, _, _, rfl, rfl, (List.sublist_append_left ..).cons _, own, isHull_between _ _ _ _⟩

theorem makes_module (name path : String) (body : NodeId) (outputs : List (String × Option String)) :
    Makes (module name path body outputs) ("module".utf8ByteSize :: name.utf8ByteSize ::
      (outputs.map Prod.fst).map String.utf8ByteSize) [body] := by
  intro b
  let keyword := (leaf "module".utf8ByteSize).run b
  let named := (leaf name.utf8ByteSize).run keyword.2
  let names := (identifiers (outputs.map Prod.fst)).run named.2
  have length : names.1.length = (outputs.map Prod.snd).length := by
    rw [identifiers_length, List.length_map, List.length_map]
  have arena : b.arena.span = names.2.arena.span := identifiers_places _ named.2
  rw [leaves_cons, leaves_cons, leaves_names, arena]
  refine ⟨_, .module ⟨name, named.1⟩ path body
      (names.1.zipWith OutputSignature.mk (outputs.map Prod.snd)), [keyword.1, named.1], rfl, rfl, ?_, ?_,
    isHull_foldl _ _ (isHull_cover (isHull_single _) (isHull_single _))⟩
  · rw [NodeData.names, map_zipWith_fst (fun _ _ => rfl) length]
    exact (List.Sublist.refl _).cons _
  · simp [keyword, named]

theorem method_makes {step : Build NodeId} {widths : List Nat} {children : List NodeId}
    (method : Method step widths children) : Makes step widths children := by
  intro b
  cases method with
  | string _ | int _ | bool _ | null =>
    exact ⟨_, _, _, rfl, rfl, List.nil_sublist _, List.Subset.refl _, isHull_single _⟩
  | ident _ =>
    exact ⟨_, _, _, rfl, rfl, List.Sublist.refl _, List.Subset.refl _, isHull_single _⟩
  | interpolated _ _ | array _ =>
    exact ⟨_, _, _, rfl, rfl, List.nil_sublist _, List.Subset.refl _, isHull_between _ _ _ _⟩
  | object properties => exact makes_object properties b
  | property _ _ | resourceAccess _ _ =>
    exact ⟨_, _, _, rfl, rfl, List.Sublist.refl _, List.Subset.refl _,
      isHull_foldl _ _ (isHull_single _)⟩
  | index _ _ | paren _ | condition _ _ =>
    exact ⟨_, _, _, rfl, rfl, List.nil_sublist _, List.Subset.refl _,
      isHull_foldl _ _ (isHull_single _)⟩
  | call _ _ | instanceCall _ _ _ =>
    exact ⟨_, _, _, rfl, rfl, List.singleton_sublist.2 List.mem_cons_self, List.Subset.refl _,
      isHull_between _ _ _ _⟩
  -- Operators take no tokens: the first operand is the first piece.
  | unary _ _ =>
    exact ⟨_, _, [], rfl, rfl, List.nil_sublist _, List.Subset.refl _, isHull_single _⟩
  | binary _ _ _ | ternary _ _ _ =>
    exact ⟨_, _, [], rfl, rfl, List.nil_sublist _, List.Subset.refl _,
      isHull_foldl _ _ (isHull_single _)⟩
  | loop item counter iterated body => exact makes_loop item counter iterated body b
  | param _ _ | var _ _ | resource _ _ _ _ _ | output _ _ =>
    exact ⟨_, _, _, rfl, rfl, (List.Sublist.refl _).cons _, List.Subset.refl _,
      isHull_foldl _ _ (isHull_cover (isHull_single _) (isHull_single _))⟩
  | module name path body outputs => exact makes_module name path body outputs b

inductive Taken (a : Arena) (given : List Span) : Span → Prop where
  | node {id : Nat} (inside : id < a.size) : Taken a given (a.span id)
  | name {id : Nat} {data : NodeData} {i : Identifier} (here : a.data? id = some data)
      (named : i ∈ data.names) : Taken a given i.span
  | given {s : Span} (away : s ∈ given) : Taken a given s

/-- The builders that steps lead to, with the spans that they have given away: those of names,
and those that nodes had before they were moved. A step only refers to nodes that are there, and
no step uses up the offsets. -/
inductive Reached : Builder → List Span → Prop where
  | start : Reached start []
  | node {b : Builder} {given : List Span} {step : Build NodeId} {widths : List Nat}
      {children : List NodeId} (reached : Reached b given) (method : Method step widths children)
      (allocated : ∀ c : Nat, c ∈ children → c < b.arena.size)
      (below : (step.run b).2.cursor < lastOffset) : Reached (step.run b).2 given
  | identifier {b : Builder} {given : List Span} (reached : Reached b given) (name : String)
      (below : ((identifier name).run b).2.cursor < lastOffset) :
      Reached ((identifier name).run b).2 (((identifier name).run b).1.span :: given)
  | setSpan {b : Builder} {given : List Span} (reached : Reached b given) (id : NodeId)
      (span : Span) (allocated : id < b.arena.size)
      (below : ((setSpan id span).run b).2.cursor < lastOffset) :
      Reached ((setSpan id span).run b).2 (b.arena.span id :: given)

def Ahead (b : Builder) (given : List Span) : Prop :=
  ∀ s, Taken b.arena given s → s.stop < b.cursor

/-- Spans with something in them, one behind the other, and all behind those that are taken. -/
structure Fresh (a : Arena) (given : List Span) (spans : List Span) : Prop where
  nonempty : ∀ s ∈ spans, s.start < s.stop
  behind : ∀ s ∈ spans, ∀ t, Taken a given t → t.stop < s.start
  ordered : spans.Pairwise fun s t => s.stop < t.start

/-- A step adds the next node. The tokens it takes are new, and with them the names in the node
and the span of a node without children. The node covers its children where they are now. -/
structure Adds (b : Builder) (given : List Span) (widths : List Nat) (children : List NodeId)
    (id : NodeId) (b' : Builder) : Prop where
  next : id = b.arena.size
  grown : b.arena.Extends b'.arena
  tokens : Fresh b.arena given ((leaves widths).run b).1
  node : ∃ data, b'.arena.data? id = some data ∧ data.children = children ∧
    (data.names.map Identifier.span).Sublist ((leaves widths).run b).1 ∧
    Fresh b.arena given (data.names.map Identifier.span)
  childless : children = [] → Fresh b.arena given [b'.arena.span id]
  covers : ∀ c ∈ children, (b'.arena.span c).Inside (b'.arena.span id)

section Session

variable {a : Arena} {given : List Span} {span s : Span} {data : NodeData}
  {step : Build NodeId} {widths : List Nat} {children : List NodeId}

theorem taken_add (taken : Taken (a.add span data) given s) :
    s = span ∨ (∃ i ∈ data.names, s = i.span) ∨ Taken a given s := by
  have grown := Arena.extends_add a span data
  have size : (a.add span data).size = a.size + 1 := Array.size_push ..
  cases taken with
  | @node id inside =>
    by_cases last : id = a.size
    · rw [last]
      exact .inl (Arena.span_add ..)
    · have less : id < a.size := by omega
      rw [Arena.extends_span grown less]
      exact .inr (.inr (.node less))
  | @name id data' i here named =>
    by_cases last : id = a.size
    · rw [last, Arena.data_add, Option.some.injEq] at here
      rw [← here] at named
      exact .inr (.inl ⟨i, named, rfl⟩)
    · have inside := Arena.data?_lt here
      rw [Arena.extends_data grown (by omega)] at here
      exact .inr (.inr (.name here named))
  | given away => exact .inr (.inr (.given away))

theorem taken_setSpan {id : Nat} (taken : Taken (a.setSpan id span) given s) :
    s = span ∨ Taken a given s := by
  cases taken with
  | @node n inside =>
    rw [Arena.size_setSpan] at inside
    by_cases same : n = id
    · rw [same] at inside ⊢
      exact .inl (Arena.span_setSpan inside span)
    · have kept : (a.setSpan id span).span n = a.span n := by
        simp only [Arena.setSpan, Arena.span, Array.getElem?_modify, if_neg (Ne.symm same)]
      rw [kept]
      exact .inr (.node inside)
  | name here named =>
    rw [Arena.data_setSpan] at here
    exact .inr (.name here named)
  | given away => exact .inr (.given away)

theorem taken_cons (taken : Taken a (span :: given) s) : s = span ∨ Taken a given s := by
  cases taken with
  | node inside => exact .inr (.node inside)
  | name here named => exact .inr (.name here named)
  | given away =>
    rcases List.mem_cons.1 away with same | away
    · exact .inl same
    · exact .inr (.given away)

theorem fresh_of_row {high : Nat} {spans : List Span} (ahead : Ahead b given)
    (row : Row b.cursor high spans) : Fresh b.arena given spans where
  nonempty s inside := (row.inside s inside).2.1
  behind s inside t taken := Nat.lt_of_lt_of_le (ahead t taken) (row.inside s inside).1
  ordered := row.ordered

theorem fresh_sublist {spans some : List Span} (fresh : Fresh a given spans)
    (part : some.Sublist spans) : Fresh a given some where
  nonempty s inside := fresh.nonempty s (part.subset inside)
  behind s inside := fresh.behind s (part.subset inside)
  ordered := fresh.ordered.sublist part

/-- A node without children has a span that is as new as its tokens. -/
theorem fresh_hull {spans own : List Span} (fresh : Fresh a given spans) (part : own ⊆ spans)
    (hull : span.IsHull own) : Fresh a given [span] := by
  obtain ⟨first, inside, same⟩ := hull.start
  constructor
  · intro s only
    have some := fresh.nonempty first (part inside)
    have within := hull.covers first inside
    rw [List.mem_singleton.1 only]
    exact Nat.lt_of_le_of_lt within.1 (Nat.lt_of_lt_of_le some within.2)
  · intro s only t taken
    rw [List.mem_singleton.1 only, ← same]
    exact fresh.behind first (part inside) t taken
  · exact List.pairwise_singleton ..

theorem add_run (span : Span) (data : NodeData) (b : Builder) :
    (add span data).run b = (b.arena.size, ⟨b.arena.add span data, b.cursor⟩) := rfl

theorem adds_of_makes (makes : Makes step widths children) (ahead : Ahead b given)
    (allocated : ∀ c : Nat, c ∈ children → c < b.arena.size)
    (below : (step.run b).2.cursor < lastOffset) :
    Adds b given widths children (step.run b).1 (step.run b).2 := by
  obtain ⟨span, data, own, run, rfl, named, part, hull⟩ := makes b
  rw [run, add_run, leaves_arena] at below ⊢
  obtain ⟨-, row⟩ := leaves_row widths below
  have tokens := fresh_of_row ahead row
  have grown := Arena.extends_add b.arena span data
  refine ⟨rfl, grown, tokens,
    ⟨data, Arena.data_add .., rfl, named, fresh_sublist tokens named⟩, ?_, ?_⟩
  · intro none
    rw [none, List.map_nil, List.append_nil] at hull
    rw [Arena.span_add]
    exact fresh_hull tokens part hull
  · intro c child
    rw [Arena.span_add, Arena.extends_span grown (allocated c child)]
    exact hull.covers _ (List.mem_append_right _ (List.mem_map_of_mem child))

theorem ahead_of_makes (makes : Makes step widths children) (ahead : Ahead b given)
    (allocated : ∀ c : Nat, c ∈ children → c < b.arena.size)
    (below : (step.run b).2.cursor < lastOffset) : Ahead (step.run b).2 given := by
  obtain ⟨span, data, own, run, rfl, named, part, hull⟩ := makes b
  rw [run, add_run, leaves_arena] at below ⊢
  obtain ⟨later, row⟩ := leaves_row widths below
  intro s taken
  rcases taken_add taken with rfl | ⟨i, inside, rfl⟩ | before
  · -- The new node ends where a token or a child ends.
    obtain ⟨p, piece, same⟩ := hull.stop
    rw [← same]
    rcases List.mem_append.1 piece with token | child
    · exact (row.inside p (part token)).2.2
    · obtain ⟨c, inside, rfl⟩ := List.mem_map.1 child
      exact Nat.lt_of_lt_of_le (ahead _ (.node (allocated c inside))) later
  · exact (row.inside _ (named.subset (List.mem_map_of_mem inside))).2.2
  · exact Nat.lt_of_lt_of_le (ahead s before) later

theorem fresh_identifier {name : String} (ahead : Ahead b given)
    (below : ((identifier name).run b).2.cursor < lastOffset) :
    Fresh b.arena given [((identifier name).run b).1.span] :=
  fresh_of_row ahead (leaves_row [name.utf8ByteSize] below).2

theorem ahead_identifier {name : String} (ahead : Ahead b given)
    (below : ((identifier name).run b).2.cursor < lastOffset) :
    Ahead ((identifier name).run b).2 (((identifier name).run b).1.span :: given) := by
  obtain ⟨later, row⟩ := leaves_row [name.utf8ByteSize] (b := b) below
  intro s taken
  rcases taken_cons taken with rfl | before
  · exact (row.inside _ List.mem_cons_self).2.2
  · exact Nat.lt_of_lt_of_le (ahead s before) later

theorem ahead_setSpan {id : Nat} (ahead : Ahead b given) (allocated : id < b.arena.size)
    (below : ((setSpan id span).run b).2.cursor < lastOffset) :
    Ahead ((setSpan id span).run b).2 (b.arena.span id :: given) := by
  intro s taken
  change max b.cursor (min (span.stop + 1) lastOffset) < lastOffset at below
  change s.stop < max b.cursor (min (span.stop + 1) lastOffset)
  have old := ahead _ (.node allocated)
  rcases taken_cons taken with rfl | moved
  · omega
  · rcases taken_setSpan moved with rfl | before
    · omega
    · have less := ahead s before
      omega

theorem reached_ahead (reached : Reached b given) : Ahead b given := by
  induction reached with
  | start =>
    intro s taken
    cases taken with
    | node inside => cases inside
    | name here named => cases Arena.data?_lt here
    | given away => cases away
  | node reached method allocated below ih =>
    exact ahead_of_makes (method_makes method) ih allocated below
  | identifier reached name below ih => exact ahead_identifier ih below
  | setSpan reached id span allocated below ih => exact ahead_setSpan ih allocated below

end Session

end Build

end DeployCheck
