import DeployCheck.Proofs.Tree.Freshness
import DeployCheck.Proofs.Tree.PostOrder

/-!
# Spans in lowered trees

Lowering runs the steps of the builder for the nodes of a document in post-order, and moves those
nodes that have a span in the document right after they are added. So a node that was not moved
still covers its children when the tree is finished.
-/

set_option autoImplicit false

namespace DeployCheck

mutual

/-- The spans that a document states for its nodes, in the order of the nodes. -/
def Expression.spans : Expression → List (Option Span)
  | .string _ parts span => Part.spans parts ++ [span]
  | .int _ span | .bool _ span | .null span | .ident _ span => [span]
  | .array items span => Expression.allSpans items ++ [span]
  | .object properties span => Expression.propertySpans properties ++ [span]
  | .property base _ span | .resourceAccess base _ span => base.spans ++ [span]
  | .index base selector span => base.spans ++ (selector.spans ++ [span])
  | .call _ args span => Expression.allSpans args ++ [span]
  | .instanceCall base _ args span => base.spans ++ (Expression.allSpans args ++ [span])
  | .paren inner span => inner.spans ++ [span]
  | .unary _ operand span => operand.spans ++ [span]
  | .binary _ left right span => left.spans ++ (right.spans ++ [span])
  | .ternary c t f span => c.spans ++ (t.spans ++ (f.spans ++ [span]))
  | .loop _ _ iterated body span => iterated.spans ++ (body.spans ++ [span])
  | .condition c body span => c.spans ++ (body.spans ++ [span])

def Expression.allSpans : List Expression → List (Option Span)
  | [] => []
  | e :: rest => e.spans ++ Expression.allSpans rest

def Expression.propertySpans : List (String × Expression) → List (Option Span)
  | [] => []
  | (_, e) :: rest => e.spans ++ Expression.propertySpans rest

def Part.spans : List Part → List (Option Span)
  | [] => []
  | .text _ :: rest => Part.spans rest
  | .hole e :: rest => e.spans ++ Part.spans rest

end

mutual

def Declaration.spans : Declaration → List (Option Span)
  | .param _ none span => [span]
  | .param _ (some e) span => e.spans ++ [span]
  | .var _ value span => value.spans ++ [span]
  | .resource _ _ _ body resources span =>
    body.spans ++ (Declaration.allSpans resources ++ [span])
  | .module _ _ body _ span => body.spans ++ [span]
  | .output _ value span => value.spans ++ [span]

def Declaration.allSpans : List Declaration → List (Option Span)
  | [] => []
  | d :: rest => d.spans ++ Declaration.allSpans rest

end

namespace Arena

/-- A node is where its document says. If it says nothing, the node covers those of its children
that are before it. -/
def Suits (a : Arena) (id : Nat) : Option Span → Prop
  | some span => a.span id = span
  | none => ∀ c : Nat, c ∈ a.children id → c < id → (a.span c).Inside (a.span id)

theorem suits_extends {a a' : Arena} {id : Nat} {span : Option Span} (grown : a.Extends a')
    (inside : id < a.size) (suits : a.Suits id span) : a'.Suits id span := by
  cases span with
  | some span => exact (extends_span grown inside).trans suits
  | none =>
    intro c child before
    rw [children, extends_data grown inside] at child
    rw [extends_span grown inside, extends_span grown (Nat.lt_trans before inside)]
    exact suits c child before

theorem suits_add {a : Arena} {place : Span} {data : NodeData} {own : List Span}
    (hull : place.IsHull (own ++ data.children.map a.span)) :
    (a.add place data).Suits a.size none := by
  intro c child before
  rw [children_of_data (data_add ..)] at child
  rw [extends_span (extends_add ..) before, span_add]
  exact hull.covers _ (List.mem_append_right _ (List.mem_map_of_mem child))

end Arena

structure Builder.Grows (b b' : Builder) (spans : List (Option Span)) : Prop where
  size : b'.arena.size = b.arena.size + spans.length
  grown : b.arena.Extends b'.arena
  suits : ∀ n span, spans[n]? = some span → b'.arena.Suits (b.arena.size + n) span

namespace Lowering

variable {α β : Type} {b b' b'' : Builder} {spans others : List (Option Span)}

theorem grows_append (first : b.Grows b' spans) (second : b'.Grows b'' others) :
    b.Grows b'' (spans ++ others) where
  size := by
    rw [second.size, first.size, List.length_append, Nat.add_assoc]
  grown := Arena.extends_trans first.grown second.grown
  suits n span here := by
    by_cases before : n < spans.length
    · rw [List.getElem?_append_left before] at here
      have inside : b.arena.size + n < b'.arena.size := by
        rw [first.size]
        omega
      exact Arena.suits_extends second.grown inside (first.suits n span here)
    · rw [List.getElem?_append_right (Nat.le_of_not_lt before)] at here
      have place : b.arena.size + n = b'.arena.size + (n - spans.length) := by
        rw [first.size]
        omega
      rw [place]
      exact second.suits _ span here

def Spans (w : Lowering α) (spans : List (Option Span)) : Prop :=
  ∀ b x b', Runs w b x b' → b.Grows b' spans

variable {w : Lowering α} {k : α → Lowering β}

theorem spans_pure (x : α) : Spans (pure x) [] := by
  intro b y b' run
  obtain ⟨-, rfl⟩ := runs_pure.1 run
  exact ⟨rfl, Arena.extends_refl _, by simp⟩

theorem spans_bind (hw : Spans w spans) (hk : ∀ x, Spans (k x) others) :
    Spans (w >>= k) (spans ++ others) := by
  intro b y b'' run
  obtain ⟨x, b', run, run'⟩ := runs_bind.1 run
  exact grows_append (hw b x b' run) (hk x b' y b'' run')

theorem spans_map (hw : Spans w spans) (f : α → β) : Spans (w >>= fun x => pure (f x)) spans := by
  have whole := spans_bind hw fun x => spans_pure (f x)
  rwa [List.append_nil] at whole

theorem spans_emit {step : Build NodeId} {widths : List Nat} {children : List NodeId}
    (method : Build.Method step widths children) (span : Option Span) :
    Spans (do withSpan (← build step) span) [span] := by
  intro b id b' run
  obtain ⟨_, b₁, made, moved⟩ := runs_bind.1 run
  obtain ⟨place, data, own, added, rfl, -, -, hull⟩ := Build.method_makes method b
  rw [runs_build, added, Build.add_run, Build.leaves_arena] at made
  cases made
  have size : (b.arena.add place data).size = b.arena.size + 1 := Array.size_push ..
  have spanned := span_withSpan moved (Nat.lt_of_lt_of_eq (Nat.lt_succ_self _) size.symm)
  obtain ⟨rfl, kept, later, -⟩ := runs_withSpan moved
  refine ⟨kept.trans size, later _ (Arena.extends_add ..) (Nat.le_refl _), ?_⟩
  intro n mark single
  obtain ⟨rfl, rfl⟩ : n = 0 ∧ span = mark := by
    cases n with
    | zero => exact ⟨rfl, Option.some.inj single⟩
    | succ n => cases single
  cases span with
  | some s => exact spanned s rfl
  | none =>
    obtain ⟨-, rfl⟩ := runs_pure.1 moved
    exact Arena.suits_add hull

end Lowering

open Lowering

mutual

theorem Expression.lower_spans (e : Expression) : Spans e.lower e.spans := by
  cases e with
  | string value parts span =>
    cases parts with
    | nil => exact spans_emit (.string _) span
    | cons part rest =>
      cases value with
      | some value => exact fun _ _ _ run => absurd run runs_throw
      | none =>
        exact spans_bind (Part.lowerHoles_spans (part :: rest)) fun holes =>
          spans_emit (.interpolated _ holes) span
  | int value span => exact spans_emit (.int value) span
  | bool value span => exact spans_emit (.bool value) span
  | null span => exact spans_emit .null span
  | ident name span => exact spans_emit (.ident name) span
  | array items span =>
    exact spans_bind (Expression.lowerAll_spans items) fun ids => spans_emit (.array ids) span
  | object properties span =>
    exact spans_bind (Expression.lowerProperties_spans properties) fun made =>
      spans_emit (.object made) span
  | property base name span =>
    exact spans_bind base.lower_spans fun id => spans_emit (.property id name) span
  | index base selector span =>
    exact spans_bind base.lower_spans fun id => spans_bind selector.lower_spans fun id' =>
      spans_emit (.index id id') span
  | resourceAccess base name span =>
    exact spans_bind base.lower_spans fun id => spans_emit (.resourceAccess id name) span
  | call name args span =>
    exact spans_bind (Expression.lowerAll_spans args) fun ids => spans_emit (.call name ids) span
  | instanceCall base name args span =>
    exact spans_bind base.lower_spans fun id => spans_bind (Expression.lowerAll_spans args) fun ids =>
      spans_emit (.instanceCall id name ids) span
  | paren inner span => exact spans_bind inner.lower_spans fun id => spans_emit (.paren id) span
  | unary operator operand span =>
    exact spans_bind operand.lower_spans fun id => spans_emit (.unary operator id) span
  | binary operator left right span =>
    exact spans_bind left.lower_spans fun id => spans_bind right.lower_spans fun id' =>
      spans_emit (.binary operator id id') span
  | ternary c t f span =>
    exact spans_bind c.lower_spans fun id => spans_bind t.lower_spans fun id' =>
      spans_bind f.lower_spans fun id'' => spans_emit (.ternary id id' id'') span
  | loop item counter iterated body span =>
    exact spans_bind iterated.lower_spans fun id => spans_bind body.lower_spans fun id' =>
      spans_emit (.loop item counter id id') span
  | condition c body span =>
    exact spans_bind c.lower_spans fun id => spans_bind body.lower_spans fun id' =>
      spans_emit (.condition id id') span

theorem Expression.lowerAll_spans (es : List Expression) :
    Spans (Expression.lowerAll es) (Expression.allSpans es) := by
  cases es with
  | nil => exact spans_pure []
  | cons e rest =>
    exact spans_bind e.lower_spans fun id => spans_map (Expression.lowerAll_spans rest) (id :: ·)

theorem Expression.lowerProperties_spans (ps : List (String × Expression)) :
    Spans (Expression.lowerProperties ps) (Expression.propertySpans ps) := by
  cases ps with
  | nil => exact spans_pure []
  | cons p rest =>
    obtain ⟨key, e⟩ := p
    exact spans_bind e.lower_spans fun id =>
      spans_map (Expression.lowerProperties_spans rest) ((key, id) :: ·)

theorem Part.lowerHoles_spans (parts : List Part) :
    Spans (Part.lowerHoles parts) (Part.spans parts) := by
  cases parts with
  | nil => exact spans_pure []
  | cons part rest =>
    cases part with
    | text piece => exact Part.lowerHoles_spans rest
    | hole e =>
      exact spans_bind e.lower_spans fun id => spans_map (Part.lowerHoles_spans rest) (id :: ·)

end

mutual

theorem Declaration.lower_spans (d : Declaration) : Spans d.lower d.spans := by
  cases d with
  | param name default span =>
    cases default with
    | none => exact spans_bind (spans_pure none) fun id => spans_emit (.param name id) span
    | some e =>
      exact spans_bind (spans_map e.lower_spans some) fun id => spans_emit (.param name id) span
  | var name value span =>
    exact spans_bind value.lower_spans fun id => spans_emit (.var name id) span
  | resource name type existing body resources span =>
    exact spans_bind body.lower_spans fun id => spans_bind (Declaration.lowerAll_spans resources)
      fun ids => spans_emit (.resource name type existing id ids) span
  | module name path body outputs span =>
    exact spans_bind body.lower_spans fun id => spans_emit (.module name path id _) span
  | output name value span =>
    exact spans_bind value.lower_spans fun id => spans_emit (.output name id) span

theorem Declaration.lowerAll_spans (ds : List Declaration) :
    Spans (Declaration.lowerAll ds) (Declaration.allSpans ds) := by
  cases ds with
  | nil => exact spans_pure []
  | cons d rest =>
    exact spans_bind d.lower_spans fun id => spans_map (Declaration.lowerAll_spans rest) (id :: ·)

end

theorem Tree.ofProgram_spans {file : String} {program : List Declaration} {tree : Tree}
    (lowered : Tree.ofProgram file program = .ok tree) :
    (Declaration.allSpans program).length = tree.root ∧
      (∀ n span, (Declaration.allSpans program)[n]? = some span → tree.arena.Suits n span) ∧
      (tree.arena.span tree.root).start = 0 ∧
      ∀ d ∈ tree.declarations, (tree.arena.span d).Inside (tree.arena.span tree.root) := by
  obtain ⟨ids, here, -, -⟩ := Tree.ofProgram_lays lowered
  have before := (Tree.ofProgram_node lowered here).2
  rw [Tree.ofProgram] at lowered
  split at lowered
  · next made b run =>
    cases lowered
    have grows := Declaration.lowerAll_spans program _ _ _ run
    have size : b.arena.size = 0 + (Declaration.allSpans program).length := grows.size
    have hull := Span.isHull_foldl b.arena made (Span.isHull_single (.point 0))
    have root : (b.arena.add _ (.program made)).Suits b.arena.size none := Arena.suits_add hull
    rw [Nat.zero_add] at size
    refine ⟨size.symm, ?_, ?_, ?_⟩
    · intro n span stated
      have inside : n < b.arena.size := by
        rw [size]
        exact (List.getElem?_eq_some_iff.1 stated).1
      have suits := grows.suits n span stated
      rw [show Build.start.arena.size + n = n from Nat.zero_add n] at suits
      exact Arena.suits_extends (Arena.extends_add ..) inside suits
    · change ((b.arena.add _ (.program made)).span b.arena.size).start = 0
      rw [Arena.span_add]
      exact Nat.le_zero.1 (hull.covers _ (List.mem_append_left _ List.mem_cons_self)).1
    · intro d declared
      rw [Tree.declarations, here] at declared
      have child := Arena.isChild_of_data here declared
      exact root d child (before d declared)
  · cases lowered

open Build

/-- As long as the builder has offsets left, its cursor is behind all spans of nodes and names, so
what a step takes is new, and every node covers its children when it is added. In a lowered tree
every node whose document states no span covers its children, and the program covers its
declarations from offset zero on. -/
theorem Build.spans_fresh :
    (∀ b given, Reached b given → ∀ s, Taken b.arena given s → s.stop < b.cursor) ∧
    (∀ b given name, Reached b given → ((identifier name).run b).2.cursor < lastOffset →
      Fresh b.arena given [((identifier name).run b).1.span]) ∧
    (∀ b given step widths children, Reached b given → Method step widths children →
      (∀ c : Nat, c ∈ children → c < b.arena.size) → (step.run b).2.cursor < lastOffset →
      Adds b given widths children (step.run b).1 (step.run b).2) ∧
    ∀ file program tree, Tree.ofProgram file program = .ok tree →
      (Declaration.allSpans program).length = tree.root ∧
      (∀ n, (Declaration.allSpans program)[n]? = some none → ∀ c ∈ tree.arena.children n,
        (tree.arena.span c).Inside (tree.arena.span n)) ∧
      (tree.arena.span tree.root).start = 0 ∧
      ∀ d ∈ tree.declarations, (tree.arena.span d).Inside (tree.arena.span tree.root) := by
  refine ⟨fun b given reached => reached_ahead reached,
    fun b given name reached below => fresh_identifier (reached_ahead reached) below, ?_, ?_⟩
  · intro b given step widths children reached method allocated below
    exact adds_of_makes (method_makes method) (reached_ahead reached) allocated below
  · intro file program tree lowered
    obtain ⟨length, suits, start, declarations⟩ := Tree.ofProgram_spans lowered
    refine ⟨length, ?_, start, declarations⟩
    intro n unstated c child
    exact suits n none unstated c child (Tree.ofProgram_descends lowered n c child)

def movedIdent : Builder := ((setSpan 0 (.between 10 20)).run ((ident "a").run start).2).2

def listOfPlaced : List Declaration :=
  [.output "o" (.array [.ident "p" (some (.between 40 41))] none) none]

theorem Build.spans_fresh_movedIdent :
    (∀ s, Taken movedIdent.arena [.between 0 1] s → s.stop < 21) ∧
    Fresh movedIdent.arena [.between 0 1] [.between 21 24] ∧
    Adds movedIdent [.between 0 1] [1, 1] [0] 1 ((array [0]).run movedIdent).2 ∧
    ∃ tree, Tree.ofProgram "main.json" listOfPlaced = .ok tree ∧
      (tree.arena.span 0).Inside (tree.arena.span 1) ∧
      (tree.arena.span 1).Inside (tree.arena.span 2) ∧
      (tree.arena.span 3).start = 0 ∧ (tree.arena.span 2).Inside (tree.arena.span 3) := by
  obtain ⟨ahead, names, steps, lowered⟩ := spans_fresh
  have reached : Reached movedIdent [.between 0 1] :=
    .setSpan (.node .start (.ident "a") (by simp) (by decide)) 0 (.between 10 20) (by decide) (by decide)
  refine ⟨ahead _ _ reached, names movedIdent _ "abc" reached (by decide),
    steps movedIdent _ _ _ _ reached (.array [0]) (by decide) (by decide), ?_⟩
  have accepted : (Tree.ofProgram "main.json" listOfPlaced).toOption.map (fun tree =>
      (tree.root, tree.declarations, tree.arena.children 1, tree.arena.children 2)) =
        some (3, [2], [0], [1]) := by
    decide +kernel
  obtain ⟨tree, made, facts⟩ := Option.map_eq_some_iff.1 accepted
  simp only [Prod.mk.injEq] at facts
  obtain ⟨root, declared, list, output⟩ := facts
  have made := ok_of_toOption made
  obtain ⟨-, covers, start, declarations⟩ := lowered _ _ _ made
  rw [root] at start declarations
  refine ⟨tree, made, covers 1 rfl 0 (by simp [list]), covers 2 rfl 1 (by simp [output]), start,
    declarations 2 (by simp [declared])⟩

end DeployCheck
