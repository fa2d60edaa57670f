import DeployCheck.Proofs.Tree.Layout
import DeployCheck.Tree.Lowering

/-!
# What lowering lays out

A document has a shape, and lowering appends exactly the nodes of that shape to
the arena, in post-order and behind the nodes that are there. The argument
follows the stack of the recursion: the nodes that wait for their parent fill
the arena up to its end, and the parent takes their place.
-/

set_option autoImplicit false

namespace DeployCheck

namespace Shape

def leaf (label : NodeData) : Shape := .node label []

def holes (shapes : List Shape) : List NodeId := shapes.map fun _ => 0

end Shape

def Identifier.named (name : String) : Identifier := ⟨name, default⟩

mutual

def Expression.shape : Expression → Shape
  | .string value parts _ =>
    let segments := match parts with
      | [] => [value.getD ""]
      | parts => Part.segments parts
    .node (.string segments (Shape.holes (Part.shapes parts))) (Part.shapes parts)
  | .int value _ => .leaf (.int value)
  | .bool value _ => .leaf (.bool value)
  | .null _ => .leaf .null
  | .ident name _ => .leaf (.ident (.named name))
  | .array items _ =>
    .node (.array (Shape.holes (Expression.shapes items))) (Expression.shapes items)
  | .object properties _ =>
    .node (.object (properties.map fun p => ⟨.named p.1, 0⟩)) (Expression.propertyShapes properties)
  | .property base name _ => .node (.property 0 (.named name)) [base.shape]
  | .index base index _ => .node (.index 0 0) [base.shape, index.shape]
  | .resourceAccess base name _ => .node (.resourceAccess 0 (.named name)) [base.shape]
  | .call name args _ =>
    .node (.call (.named name) (Shape.holes (Expression.shapes args))) (Expression.shapes args)
  | .instanceCall base name args _ =>
    .node (.instanceCall 0 (.named name) (Shape.holes (Expression.shapes args)))
      (base.shape :: Expression.shapes args)
  | .paren inner _ => .node (.paren 0) [inner.shape]
  | .unary operator operand _ => .node (.unary operator 0) [operand.shape]
  | .binary operator left right _ => .node (.binary operator 0 0) [left.shape, right.shape]
  | .ternary c t f _ => .node (.ternary 0 0 0) [c.shape, t.shape, f.shape]
  | .loop item counter iterated body _ =>
    .node (.loop (.named item) (counter.map .named) 0 0) [iterated.shape, body.shape]
  | .condition c body _ => .node (.condition 0 0) [c.shape, body.shape]

def Expression.shapes : List Expression → List Shape
  | [] => []
  | e :: rest => e.shape :: Expression.shapes rest

def Expression.propertyShapes : List (String × Expression) → List Shape
  | [] => []
  | (_, e) :: rest => e.shape :: Expression.propertyShapes rest

def Part.shapes : List Part → List Shape
  | [] => []
  | .text _ :: rest => Part.shapes rest
  | .hole e :: rest => e.shape :: Part.shapes rest

end

mutual

def Declaration.shape : Declaration → Shape
  | .param name none _ => .leaf (.param (.named name) none)
  | .param name (some e) _ => .node (.param (.named name) (some 0)) [e.shape]
  | .var name value _ => .node (.var (.named name) 0) [value.shape]
  | .resource name type existing body resources _ =>
    .node (.resource (.named name) type existing 0 (Shape.holes (Declaration.shapes resources)))
      (body.shape :: Declaration.shapes resources)
  | .module name path body outputs _ =>
    .node (.module (.named name) path 0 (outputs.map fun o => ⟨.named o.name, o.resource⟩))
      [body.shape]
  | .output name value _ => .node (.output (.named name) 0) [value.shape]

def Declaration.shapes : List Declaration → List Shape
  | [] => []
  | d :: rest => d.shape :: Declaration.shapes rest

end

namespace Arena

def Extends (a a' : Arena) : Prop :=
  a.size ≤ a'.size ∧ ∀ n < a.size, a'.nodes[n]? = a.nodes[n]?

theorem extends_refl (a : Arena) : a.Extends a := ⟨Nat.le_refl _, fun _ _ => rfl⟩

theorem extends_trans {a b c : Arena} (hab : a.Extends b) (hbc : b.Extends c) : a.Extends c :=
  ⟨Nat.le_trans hab.1 hbc.1, fun n hn => (hbc.2 n (Nat.lt_of_lt_of_le hn hab.1)).trans (hab.2 n hn)⟩

theorem extends_data {a a' : Arena} (h : a.Extends a') {n : Nat} (hn : n < a.size) :
    a'.data? n = a.data? n := by
  simp only [data?, h.2 n hn]

theorem extends_add (a : Arena) (span : Span) (data : NodeData) : a.Extends (a.add span data) := by
  constructor
  · simp [add, size]
  · intro n hn
    exact Array.getElem?_push_lt hn ▸ (Array.getElem?_eq_getElem hn).symm

theorem data_add (a : Arena) (span : Span) (data : NodeData) :
    (a.add span data).data? a.size = some data := by
  simp [add, size, data?]

theorem data_setSpan (a : Arena) (id n : Nat) (span : Span) :
    (a.setSpan id span).data? n = a.data? n := by
  simp only [setSpan, data?, Array.getElem?_modify]
  split
  · cases a.nodes[n]? <;> rfl
  · rfl

theorem size_setSpan (a : Arena) (id : Nat) (span : Span) : (a.setSpan id span).size = a.size := by
  simp [setSpan, size]

theorem extends_setSpan {a a' : Arena} (h : a.Extends a') {id : Nat} (hid : a.size ≤ id)
    (span : Span) : a.Extends (a'.setSpan id span) := by
  constructor
  · rw [size_setSpan]
    exact h.1
  · intro n hn
    have hne : id ≠ n := by omega
    simp only [setSpan, Array.getElem?_modify, if_neg hne]
    exact h.2 n hn

theorem extends_span {a a' : Arena} (h : a.Extends a') {n : Nat} (hn : n < a.size) :
    a'.span n = a.span n := by
  simp only [span, h.2 n hn]

theorem span_setSpan {a : Arena} {id : Nat} (h : id < a.size) (s : Span) :
    (a.setSpan id s).span id = s := by
  simp [setSpan, span, Array.getElem?_modify, Array.getElem?_eq_getElem h]

theorem lays_extends {a a' : Arena} {lo : Nat} {shapes : List Shape} {ids : List Nat}
    (h : Lays a lo shapes ids a.size) (he : a.Extends a') : Lays a' lo shapes ids a.size :=
  lays_congr h fun _ hn => extends_data he hn

theorem lays_length {a : Arena} {lo hi : Nat} {shapes : List Shape} {ids : List Nat}
    (h : Lays a lo shapes ids hi) : ids.length = shapes.length := by
  induction h with
  | nil => rfl
  | cons _ _ _ _ _ ih => rw [List.length_cons, List.length_cons, ih]

end Arena

/-- A step of the builder makes up spans and then adds one node, which says what
`d` says. -/
def Build.Emits (step : Build NodeId) (d : NodeData) : Prop :=
  ∀ b : Builder, ∃ ready span data, step.run b = (Build.add span data).run ready ∧
    ready.arena = b.arena ∧ data.label = d.label ∧ data.children = d.children ∧ data.Whole

namespace Lowering

variable {α β : Type}

def Runs (w : Lowering α) (b : Builder) (x : α) (b' : Builder) : Prop :=
  w.run.run b = (.ok x, b')

theorem runs_pure {x y : α} {b b' : Builder} : Runs (pure x) b y b' ↔ x = y ∧ b = b' := by
  simp only [Runs, ExceptT.run_pure]
  exact ⟨fun h => by cases h; exact ⟨rfl, rfl⟩, fun ⟨hx, hb⟩ => by rw [hx, hb]; rfl⟩

theorem run_bind (w : Lowering α) (k : α → Lowering β) (b : Builder) :
    (w >>= k).run.run b = match w.run.run b with
      | (.ok x, b') => (k x).run.run b'
      | (.error e, b') => (.error e, b') := by
  simp only [ExceptT.run_bind, StateT.run_bind]
  rcases w.run.run b with ⟨_ | _, b'⟩ <;> rfl

theorem runs_bind {w : Lowering α} {k : α → Lowering β} {b b'' : Builder} {y : β} :
    Runs (w >>= k) b y b'' ↔ ∃ x b', Runs w b x b' ∧ Runs (k x) b' y b'' := by
  simp only [Runs, run_bind]
  rcases w.run.run b with ⟨r, b'⟩
  cases r with
  | ok x =>
    constructor
    · intro h
      exact ⟨x, b', rfl, h⟩
    · rintro ⟨x', c, heq, h⟩
      cases heq
      exact h
  | error e =>
    constructor
    · intro h
      cases h
    · rintro ⟨x', c, heq, _⟩
      cases heq

theorem runs_build {step : Build α} {b b' : Builder} {x : α} :
    Runs (build step) b x b' ↔ step.run b = (x, b') := by
  have lifted : (build step).run.run b = (.ok (step.run b).1, (step.run b).2) := rfl
  rw [Runs, lifted]
  constructor
  · intro h
    cases h
    rfl
  · intro h
    rw [h]

theorem runs_throw {e : AmbiguousString} {b b' : Builder} {x : α} : ¬Runs (throw e) b x b' := by
  intro h
  cases h

end Lowering

namespace Build

theorem identifiers_run (names : List String) (b : Builder) :
    ((identifiers names).run b).2.arena = b.arena ∧
      ((identifiers names).run b).1.map Identifier.bare = names.map .named := by
  induction names generalizing b with
  | nil => exact ⟨rfl, rfl⟩
  | cons name rest ih =>
    obtain ⟨harena, hnames⟩ := ih ((identifier name).run b).2
    exact ⟨harena, congrArg (Identifier.named name :: ·) hnames⟩

theorem zipWith_bare {α β γ : Type} (make : Identifier → β → γ) (bare : γ → γ)
    (hbare : ∀ i v, bare (make i v) = bare (make i.bare v)) (name : α → String) (value : α → β)
    (xs : List α) {made : List Identifier} (h : made.map Identifier.bare = (xs.map name).map .named) :
    (made.zipWith make (xs.map value)).map bare =
      xs.map fun x => bare (make (.named (name x)) (value x)) := by
  induction xs generalizing made with
  | nil =>
    cases made with
    | nil => rfl
    | cons i rest => cases h
  | cons x xs ih =>
    cases made with
    | nil => cases h
    | cons i rest =>
      rw [List.map_cons, List.map_cons, List.map_cons, List.cons.injEq] at h
      rw [List.map_cons, List.zipWith_cons_cons, List.map_cons, List.map_cons, ih h.2, hbare, h.1]

theorem emits_string (value : String) : Emits (string value) (.string [value] []) :=
  fun _ => ⟨_, _, _, rfl, rfl, rfl, rfl, rfl⟩

theorem emits_interpolated {segments : List String} {holes : List NodeId}
    (h : segments.length = holes.length + 1) :
    Emits (interpolated segments holes) (.string segments holes) := by
  intro b
  have full : segments ++ List.replicate (holes.length + 1 - segments.length) "" = segments := by
    rw [h, Nat.sub_self]
    exact List.append_nil _
  refine ⟨_, _, _, rfl, rfl, ?_, rfl, ?_⟩
  · rw [full]
  · rw [full]
    exact h

theorem emits_int (value : Int) : Emits (int value) (.int value) :=
  fun _ => ⟨_, _, _, rfl, rfl, rfl, rfl, trivial⟩

theorem emits_bool (value : Bool) : Emits (bool value) (.bool value) :=
  fun _ => ⟨_, _, _, rfl, rfl, rfl, rfl, trivial⟩

theorem emits_null : Emits null .null := fun _ => ⟨_, _, _, rfl, rfl, rfl, rfl, trivial⟩

theorem emits_ident (name : String) : Emits (ident name) (.ident (.named name)) :=
  fun _ => ⟨_, _, _, rfl, rfl, rfl, rfl, trivial⟩

theorem emits_array (items : List NodeId) : Emits (array items) (.array items) :=
  fun _ => ⟨_, _, _, rfl, rfl, rfl, rfl, trivial⟩

theorem emits_object (properties : List (String × NodeId)) :
    Emits (object properties) (.object (properties.map fun p => ⟨.named p.1, p.2⟩)) := by
  intro b
  obtain ⟨harena, hkeys⟩ := identifiers_run (properties.map Prod.fst) ((leaf 1).run b).2
  refine ⟨_, _, _, rfl, harena, ?_, ?_, trivial⟩
  · have labels := zipWith_bare ObjectEntry.mk (fun e => ⟨e.key.bare, 0⟩) (fun _ _ => rfl) _ Prod.snd
      properties hkeys
    simp only [NodeData.label, List.map_map, NodeData.object.injEq]
    exact labels
  · have values := zipWith_bare ObjectEntry.mk (fun e => ⟨default, e.value⟩) (fun _ _ => rfl) _
      Prod.snd properties hkeys
    have ids := congrArg (List.map ObjectEntry.value) values
    rw [List.map_map, List.map_map] at ids
    rw [NodeData.children, NodeData.children, List.map_map]
    exact ids

theorem emits_property (base : NodeId) (name : String) :
    Emits (property base name) (.property base (.named name)) :=
  fun _ => ⟨_, _, _, rfl, rfl, rfl, rfl, trivial⟩

theorem emits_index (base selector : NodeId) : Emits (index base selector) (.index base selector) :=
  fun _ => ⟨_, _, _, rfl, rfl, rfl, rfl, trivial⟩

theorem emits_resourceAccess (base : NodeId) (name : String) :
    Emits (resourceAccess base name) (.resourceAccess base (.named name)) :=
  fun _ => ⟨_, _, _, rfl, rfl, rfl, rfl, trivial⟩

theorem emits_call (name : String) (args : List NodeId) :
    Emits (call name args) (.call (.named name) args) :=
  fun _ => ⟨_, _, _, rfl, rfl, rfl, rfl, trivial⟩

theorem emits_instanceCall (base : NodeId) (name : String) (args : List NodeId) :
    Emits (instanceCall base name args) (.instanceCall base (.named name) args) :=
  fun _ => ⟨_, _, _, rfl, rfl, rfl, rfl, trivial⟩

theorem emits_paren (inner : NodeId) : Emits (paren inner) (.paren inner) :=
  fun _ => ⟨_, _, _, rfl, rfl, rfl, rfl, trivial⟩

theorem emits_unary (operator : UnaryOperator) (operand : NodeId) :
    Emits (unary operator operand) (.unary operator operand) :=
  fun _ => ⟨_, _, _, rfl, rfl, rfl, rfl, trivial⟩

theorem emits_binary (operator : BinaryOperator) (left right : NodeId) :
    Emits (binary operator left right) (.binary operator left right) :=
  fun _ => ⟨_, _, _, rfl, rfl, rfl, rfl, trivial⟩

theorem emits_ternary (c t f : NodeId) : Emits (ternary c t f) (.ternary c t f) :=
  fun _ => ⟨_, _, _, rfl, rfl, rfl, rfl, trivial⟩

theorem emits_loop (item : String) (counter : Option String) (iterated body : NodeId) :
    Emits (loop item counter iterated body)
      (.loop (.named item) (counter.map .named) iterated body) := by
  intro b
  cases counter <;> exact ⟨_, _, _, rfl, rfl, rfl, rfl, trivial⟩

theorem emits_condition (c body : NodeId) : Emits (condition c body) (.condition c body) :=
  fun _ => ⟨_, _, _, rfl, rfl, rfl, rfl, trivial⟩

theorem emits_param (name : String) (default : Option NodeId) :
    Emits (param name default) (.param (.named name) default) :=
  fun _ => ⟨_, _, _, rfl, rfl, rfl, rfl, trivial⟩

theorem emits_var (name : String) (value : NodeId) : Emits (var name value) (.var (.named name) value) :=
  fun _ => ⟨_, _, _, rfl, rfl, rfl, rfl, trivial⟩

theorem emits_resource (name type : String) (existing : Bool) (body : NodeId)
    (nested : List NodeId) : Emits (resource name type existing body nested)
      (.resource (.named name) type existing body nested) :=
  fun _ => ⟨_, _, _, rfl, rfl, rfl, rfl, trivial⟩

theorem emits_module (name path : String) (body : NodeId) (outputs : List (String × Option String)) :
    Emits (module name path body outputs)
      (.module (.named name) path body (outputs.map fun o => ⟨.named o.1, o.2⟩)) := by
  intro b
  obtain ⟨harena, hnames⟩ := identifiers_run (outputs.map Prod.fst) ((declared "module" name).run b).2
  refine ⟨_, _, _, rfl, harena, ?_, rfl, trivial⟩
  have labels := zipWith_bare OutputSignature.mk (fun o => ⟨o.name.bare, o.resource⟩)
    (fun _ _ => rfl) _ Prod.snd outputs hnames
  simp only [NodeData.label, List.map_map, NodeData.module.injEq]
  exact ⟨rfl, trivial, trivial, labels⟩

theorem emits_output (name : String) (value : NodeId) :
    Emits (output name value) (.output (.named name) value) :=
  fun _ => ⟨_, _, _, rfl, rfl, rfl, rfl, trivial⟩

end Build

namespace Lowering

open Arena

variable {α β : Type}

/-- Where the nodes `waiting` lay out `shapes` up to the end of the arena, a run
of `w` leaves the shapes `after` in their place, at the nodes its result names. -/
def Lowers (w : Lowering α) (waiting : List Nat) (shapes : List Shape)
    (names : α → List Nat → Prop) (after : List Shape) : Prop :=
  ∀ (lo : Nat) (b : Builder) (x : α) (b' : Builder), Lays b.arena lo shapes waiting b.arena.size →
    Runs w b x b' → b.arena.Extends b'.arena ∧
      ∃ ids, names x ids ∧ Lays b'.arena lo after ids b'.arena.size

def Single (id : NodeId) (ids : List Nat) : Prop := ids = [id]

variable {w : Lowering α} {k : α → Lowering β} {waiting : List Nat} {shapes new after : List Shape}
  {names : α → List Nat → Prop} {names' : β → List Nat → Prop}

theorem lowers_pure {x : α} (h : names x waiting) : Lowers (pure x) waiting shapes names shapes := by
  intro lo b y b' laid run
  obtain ⟨rfl, rfl⟩ := runs_pure.1 run
  exact ⟨extends_refl _, waiting, h, laid⟩

theorem lowers_bind (hw : Lowers w waiting shapes names new)
    (hk : ∀ x ids, names x ids → Lowers (k x) ids new names' after) :
    Lowers (w >>= k) waiting shapes names' after := by
  intro lo b y b'' laid run
  obtain ⟨x, b', run, run'⟩ := runs_bind.1 run
  obtain ⟨grown, ids, hids, laid'⟩ := hw lo b x b' laid run
  obtain ⟨grown', ids', hids', laid''⟩ := hk x ids hids lo b' y b'' laid' run'
  exact ⟨extends_trans grown grown', ids', hids', laid''⟩

theorem lowers_beside (hw : Lowers w [] [] names new) :
    Lowers w waiting shapes (fun x ids => ∃ made, names x made ∧ ids = waiting ++ made)
      (shapes ++ new) := by
  intro lo b x b' laid run
  obtain ⟨grown, made, hmade, laid'⟩ := hw _ b x b' (.nil _) run
  exact ⟨grown, waiting ++ made, ⟨made, hmade, rfl⟩, lays_append (lays_extends laid grown) laid'⟩

theorem runs_withSpan {id x : NodeId} {span : Option Span} {b b' : Builder}
    (h : Runs (withSpan id span) b x b') : x = id ∧ b'.arena.size = b.arena.size ∧
      (∀ a : Arena, a.Extends b.arena → a.size ≤ id → a.Extends b'.arena) ∧
      ∀ n : Nat, b'.arena.data? n = b.arena.data? n := by
  cases span with
  | none =>
    obtain ⟨rfl, rfl⟩ := runs_pure.1 h
    exact ⟨rfl, rfl, fun _ grown _ => grown, fun _ => rfl⟩
  | some span =>
    obtain ⟨_, c, moved, h⟩ := runs_bind.1 h
    obtain ⟨rfl, rfl⟩ := runs_pure.1 h
    cases runs_build.1 moved
    exact ⟨rfl, size_setSpan .., fun _ grown hid => extends_setSpan grown hid span,
      fun _ => data_setSpan ..⟩

theorem span_withSpan {id x : NodeId} {span : Option Span} {b b' : Builder}
    (run : Runs (withSpan id span) b x b') (inside : id < b.arena.size) :
    ∀ s, span = some s → b'.arena.span id = s := by
  rintro s rfl
  obtain ⟨_, c, moved, done⟩ := runs_bind.1 run
  obtain ⟨rfl, rfl⟩ := runs_pure.1 done
  cases runs_build.1 moved
  exact span_setSpan inside s

theorem runs_emit {step : Build NodeId} {d : NodeData} {span : Option Span} {b b' : Builder}
    {id : NodeId} (emits : Build.Emits step d)
    (run : Runs (do withSpan (← build step) span) b id b') :
    id = b.arena.size ∧ b'.arena.size = b.arena.size + 1 ∧ b.arena.Extends b'.arena ∧
      (∃ data, b'.arena.data? id = some data ∧ data.label = d.label ∧
        data.children = d.children ∧ data.Whole) ∧
      ∀ s, span = some s → b'.arena.span id = s := by
  obtain ⟨_, b₁, made, moved⟩ := runs_bind.1 run
  obtain ⟨ready, place, data, hstep, harena, label, children, whole⟩ := emits b
  rw [runs_build, hstep] at made
  cases made
  have size : (ready.arena.add place data).size = ready.arena.size + 1 := Array.size_push ..
  have spanned := span_withSpan moved (size ▸ Nat.lt_succ_self _)
  obtain ⟨rfl, hsize, hgrown, hdata⟩ := runs_withSpan moved
  rw [← harena]
  refine ⟨rfl, hsize.trans size, hgrown _ (extends_add ..) (Nat.le_refl _), ?_, spanned⟩
  refine ⟨data, ?_, label, children, whole⟩
  rw [hdata]
  exact data_add ..

theorem lowers_emit {step : Build NodeId} {d label : NodeData} {span : Option Span}
    (children : d.children = waiting)
    (emits : waiting.length = shapes.length → Build.Emits step d ∧ d.label = label) :
    Lowers (do withSpan (← build step) span) waiting shapes Single [.node label shapes] := by
  intro lo b x b' laid run
  obtain ⟨emits, labelled⟩ := emits (lays_length laid)
  obtain ⟨rfl, size, grown, ⟨data, here, hlabel, hchildren, whole⟩, _⟩ := runs_emit emits run
  refine ⟨grown, [b.arena.size], rfl, ?_⟩
  rw [← labelled, ← hlabel, size]
  apply lays_single here whole
  rw [hchildren, children]
  exact lays_extends laid grown

theorem holes_eq {ids : List NodeId} (h : ids.length = shapes.length) :
    ids.map (fun _ => (0 : NodeId)) = Shape.holes shapes := by
  rw [Shape.holes, List.map_const', List.map_const', h]

theorem lowers_one {w : Lowering NodeId} {shape : Shape} (hw : Lowers w [] [] Single [shape]) :
    Lowers w waiting shapes (fun x ids => ids = waiting ++ [x]) (shapes ++ [shape]) := by
  intro lo b x b' laid run
  obtain ⟨grown, ids, ⟨made, hmade, hids⟩, laid'⟩ := lowers_beside hw lo b x b' laid run
  cases hmade
  exact ⟨grown, ids, hids, laid'⟩

theorem lowers_list {w : Lowering (List NodeId)} (hw : Lowers w [] [] Eq new) :
    Lowers w waiting shapes (fun xs ids => ids = waiting ++ xs) (shapes ++ new) := by
  intro lo b x b' laid run
  obtain ⟨grown, ids, ⟨made, hmade, hids⟩, laid'⟩ := lowers_beside hw lo b x b' laid run
  cases hmade
  exact ⟨grown, ids, hids, laid'⟩

end Lowering

open Lowering

theorem Part.segments_length (parts : List Part) :
    (Part.segments parts).length = (Part.shapes parts).length + 1 := by
  fun_induction Part.segments parts with
  | case1 => rfl
  | case2 e rest ih =>
    rw [List.length_cons, ih]
    rfl
  | case3 piece rest none ih =>
    rw [none] at ih
    cases ih
  | case4 piece rest first others some ih =>
    rw [some] at ih
    exact ih

mutual

theorem Expression.lower_lowers (e : Expression) : Lowers e.lower [] [] Single [e.shape] := by
  cases e with
  | string value parts span =>
    cases parts with
    | nil => exact lowers_emit rfl fun _ => ⟨Build.emits_string _, rfl⟩
    | cons part rest =>
      cases value with
      | some value =>
        intro lo b x b' _ run
        exact absurd run runs_throw
      | none =>
        refine lowers_bind (Part.lowerHoles_lowers (part :: rest)) fun ids _ h => ?_
        cases h
        refine lowers_emit rfl fun n => ⟨Build.emits_interpolated ?_, ?_⟩
        · rw [Part.segments_length, ← n]
        · exact congrArg (NodeData.string _) (holes_eq n)
  | int value span => exact lowers_emit rfl fun _ => ⟨Build.emits_int _, rfl⟩
  | bool value span => exact lowers_emit rfl fun _ => ⟨Build.emits_bool _, rfl⟩
  | null span => exact lowers_emit rfl fun _ => ⟨Build.emits_null, rfl⟩
  | ident name span => exact lowers_emit rfl fun _ => ⟨Build.emits_ident _, rfl⟩
  | array items span =>
    refine lowers_bind (Expression.lowerAll_lowers items) fun ids _ h => ?_
    cases h
    exact lowers_emit rfl fun n => ⟨Build.emits_array _, congrArg NodeData.array (holes_eq n)⟩
  | object properties span =>
    refine lowers_bind (Expression.lowerProperties_lowers properties) fun made _ h => ?_
    obtain ⟨keys, rfl⟩ := h
    refine lowers_emit ?_ fun _ => ⟨Build.emits_object made, ?_⟩
    · simp only [NodeData.children, List.map_map, Function.comp_def]
    · have entries := congrArg (List.map fun k => (⟨.named k, 0⟩ : ObjectEntry)) keys
      simp only [List.map_map, Function.comp_def] at entries
      simp only [NodeData.label, List.map_map, Function.comp_def]
      exact congrArg NodeData.object entries
  | property base name span =>
    refine lowers_bind base.lower_lowers fun _ _ h => ?_
    cases h
    exact lowers_emit rfl fun _ => ⟨Build.emits_property _ _, rfl⟩
  | index base selector span =>
    refine lowers_bind base.lower_lowers fun _ _ h => ?_
    cases h
    refine lowers_bind (lowers_one selector.lower_lowers) fun _ _ h => ?_
    cases h
    exact lowers_emit rfl fun _ => ⟨Build.emits_index _ _, rfl⟩
  | resourceAccess base name span =>
    refine lowers_bind base.lower_lowers fun _ _ h => ?_
    cases h
    exact lowers_emit rfl fun _ => ⟨Build.emits_resourceAccess _ _, rfl⟩
  | call name args span =>
    refine lowers_bind (Expression.lowerAll_lowers args) fun ids _ h => ?_
    cases h
    exact lowers_emit rfl fun n =>
      ⟨Build.emits_call _ _, congrArg (NodeData.call _) (holes_eq n)⟩
  | instanceCall base name args span =>
    refine lowers_bind base.lower_lowers fun _ _ h => ?_
    cases h
    refine lowers_bind (lowers_list (Expression.lowerAll_lowers args)) fun ids _ h => ?_
    cases h
    exact lowers_emit rfl fun n => ⟨Build.emits_instanceCall _ _ _,
      congrArg (NodeData.instanceCall 0 _) (holes_eq (Nat.succ.inj n))⟩
  | paren inner span =>
    refine lowers_bind inner.lower_lowers fun _ _ h => ?_
    cases h
    exact lowers_emit rfl fun _ => ⟨Build.emits_paren _, rfl⟩
  | unary operator operand span =>
    refine lowers_bind operand.lower_lowers fun _ _ h => ?_
    cases h
    exact lowers_emit rfl fun _ => ⟨Build.emits_unary _ _, rfl⟩
  | binary operator left right span =>
    refine lowers_bind left.lower_lowers fun _ _ h => ?_
    cases h
    refine lowers_bind (lowers_one right.lower_lowers) fun _ _ h => ?_
    cases h
    exact lowers_emit rfl fun _ => ⟨Build.emits_binary _ _ _, rfl⟩
  | ternary c t f span =>
    refine lowers_bind c.lower_lowers fun _ _ h => ?_
    cases h
    refine lowers_bind (lowers_one t.lower_lowers) fun _ _ h => ?_
    cases h
    refine lowers_bind (lowers_one f.lower_lowers) fun _ _ h => ?_
    cases h
    exact lowers_emit rfl fun _ => ⟨Build.emits_ternary _ _ _, rfl⟩
  | loop item counter iterated body span =>
    refine lowers_bind iterated.lower_lowers fun _ _ h => ?_
    cases h
    refine lowers_bind (lowers_one body.lower_lowers) fun _ _ h => ?_
    cases h
    refine lowers_emit rfl fun _ => ⟨Build.emits_loop _ _ _ _, ?_⟩
    cases counter <;> rfl
  | condition c body span =>
    refine lowers_bind c.lower_lowers fun _ _ h => ?_
    cases h
    refine lowers_bind (lowers_one body.lower_lowers) fun _ _ h => ?_
    cases h
    exact lowers_emit rfl fun _ => ⟨Build.emits_condition _ _, rfl⟩

theorem Expression.lowerAll_lowers (es : List Expression) :
    Lowers (Expression.lowerAll es) [] [] Eq (Expression.shapes es) := by
  cases es with
  | nil => exact lowers_pure rfl
  | cons e rest =>
    refine lowers_bind e.lower_lowers fun _ _ h => ?_
    cases h
    refine lowers_bind (lowers_list (Expression.lowerAll_lowers rest)) fun _ _ h => ?_
    cases h
    exact lowers_pure rfl

theorem Expression.lowerProperties_lowers (ps : List (String × Expression)) :
    Lowers (Expression.lowerProperties ps) [] []
      (fun made ids => made.map Prod.fst = ps.map Prod.fst ∧ ids = made.map Prod.snd)
      (Expression.propertyShapes ps) := by
  cases ps with
  | nil => exact lowers_pure ⟨rfl, rfl⟩
  | cons p rest =>
    obtain ⟨key, e⟩ := p
    refine lowers_bind e.lower_lowers fun _ _ h => ?_
    cases h
    refine lowers_bind (lowers_beside (Expression.lowerProperties_lowers rest)) fun made _ h => ?_
    obtain ⟨_, ⟨keys, rfl⟩, rfl⟩ := h
    exact lowers_pure ⟨congrArg (key :: ·) keys, rfl⟩

theorem Part.lowerHoles_lowers (parts : List Part) :
    Lowers (Part.lowerHoles parts) [] [] Eq (Part.shapes parts) := by
  cases parts with
  | nil => exact lowers_pure rfl
  | cons part rest =>
    cases part with
    | text piece => exact Part.lowerHoles_lowers rest
    | hole e =>
      refine lowers_bind e.lower_lowers fun _ _ h => ?_
      cases h
      refine lowers_bind (lowers_list (Part.lowerHoles_lowers rest)) fun _ _ h => ?_
      cases h
      exact lowers_pure rfl

end

mutual

theorem Declaration.lower_lowers (d : Declaration) : Lowers d.lower [] [] Single [d.shape] := by
  cases d with
  | param name default span =>
    cases default with
    | none => exact lowers_emit rfl fun _ => ⟨Build.emits_param _ _, rfl⟩
    | some e =>
      have value : Lowers (some <$> e.lower) [] [] (fun x ids => ∃ id, x = some id ∧ ids = [id])
          [e.shape] :=
        lowers_bind e.lower_lowers fun id _ h => lowers_pure ⟨id, rfl, h⟩
      refine lowers_bind value fun _ _ h => ?_
      obtain ⟨id, rfl, rfl⟩ := h
      exact lowers_emit rfl fun _ => ⟨Build.emits_param _ _, rfl⟩
  | var name value span =>
    refine lowers_bind value.lower_lowers fun _ _ h => ?_
    cases h
    exact lowers_emit rfl fun _ => ⟨Build.emits_var _ _, rfl⟩
  | resource name type existing body resources span =>
    refine lowers_bind body.lower_lowers fun _ _ h => ?_
    cases h
    refine lowers_bind (lowers_list (Declaration.lowerAll_lowers resources)) fun _ _ h => ?_
    cases h
    exact lowers_emit rfl fun n => ⟨Build.emits_resource _ _ _ _ _,
      congrArg (NodeData.resource _ _ _ 0) (holes_eq (Nat.succ.inj n))⟩
  | module name path body outputs span =>
    refine lowers_bind body.lower_lowers fun _ _ h => ?_
    cases h
    refine lowers_emit rfl fun _ => ⟨Build.emits_module _ _ _ _, ?_⟩
    simp only [NodeData.label, List.map_map, Function.comp_def]
    rfl
  | output name value span =>
    refine lowers_bind value.lower_lowers fun _ _ h => ?_
    cases h
    exact lowers_emit rfl fun _ => ⟨Build.emits_output _ _, rfl⟩

theorem Declaration.lowerAll_lowers (ds : List Declaration) :
    Lowers (Declaration.lowerAll ds) [] [] Eq (Declaration.shapes ds) := by
  cases ds with
  | nil => exact lowers_pure rfl
  | cons d rest =>
    refine lowers_bind d.lower_lowers fun _ _ h => ?_
    cases h
    refine lowers_bind (lowers_list (Declaration.lowerAll_lowers rest)) fun _ _ h => ?_
    cases h
    exact lowers_pure rfl

end

theorem ok_of_toOption {ε α : Type} {r : Except ε α} {a : α} (h : r.toOption = some a) :
    r = .ok a := by
  cases r with
  | error => cases h
  | ok => cases h; rfl

/-- The tree of a program is laid out as its documents are shaped: the declarations
one behind the other from zero on, and the program behind them all. -/
theorem Tree.ofProgram_lays {file : String} {program : List Declaration} {tree : Tree}
    (h : Tree.ofProgram file program = .ok tree) :
    ∃ ids, tree.arena.data? tree.root = some (.program ids) ∧
      Arena.Lays tree.arena 0 (Declaration.shapes program) ids tree.root ∧
      tree.arena.size = tree.root + 1 := by
  rw [Tree.ofProgram] at h
  split at h
  · next ids b run =>
    cases h
    obtain ⟨_, _, rfl, laid⟩ := Declaration.lowerAll_lowers program 0 Build.start ids b
      (.nil 0) run
    refine ⟨ids, Arena.data_add .., ?_, ?_⟩
    · exact Arena.lays_extends laid (Arena.extends_add ..)
    · exact Array.size_push ..
  · cases h

theorem Tree.ofProgram_root {file : String} {program : List Declaration} {tree : Tree}
    (h : Tree.ofProgram file program = .ok tree) :
    ∃ label, Arena.Lays tree.arena 0 [.node label (Declaration.shapes program)] [tree.root]
      tree.arena.size := by
  obtain ⟨ids, here, laid, size⟩ := Tree.ofProgram_lays h
  rw [size]
  exact ⟨_, Arena.lays_single here trivial laid⟩

theorem Tree.ofProgram_node {file : String} {program : List Declaration} {tree : Tree}
    (h : Tree.ofProgram file program = .ok tree) {n : Nat} {data : NodeData}
    (here : tree.arena.data? n = some data) :
    data.Whole ∧ ∀ c : Nat, c ∈ data.children → c < n := by
  obtain ⟨_, laid⟩ := Tree.ofProgram_root h
  obtain ⟨data', here', whole, below⟩ := Arena.lays_node laid (Nat.zero_le n) (Arena.data?_lt here)
  rw [here] at here'
  cases here'
  exact ⟨whole, fun c hc => (below c hc).2⟩

end DeployCheck
