import DeployCheck.Proofs.Tree.Lowering

/-!
# Documents read back from a tree

A tree is read from its root into documents again. A node has only one span where
its document may have had none, so a reader also says at which nodes it shows the
span. Read in the right way, a lowered tree gives its program, up to the normal form
of strings: texts and holes in turn, with a text at both ends.
-/

set_option autoImplicit false

namespace DeployCheck

mutual

def Expression.normal : Expression → Expression
  | .string value [] span => .string none [.text (value.getD "")] span
  | .string _ (part :: parts) span => .string none (Part.normal "" (part :: parts)) span
  | .int value span => .int value span
  | .bool value span => .bool value span
  | .null span => .null span
  | .ident name span => .ident name span
  | .array items span => .array (Expression.allNormal items) span
  | .object properties span => .object (Expression.propertiesNormal properties) span
  | .property base name span => .property base.normal name span
  | .index base selector span => .index base.normal selector.normal span
  | .resourceAccess base name span => .resourceAccess base.normal name span
  | .call name args span => .call name (Expression.allNormal args) span
  | .instanceCall base name args span =>
    .instanceCall base.normal name (Expression.allNormal args) span
  | .paren inner span => .paren inner.normal span
  | .unary operator operand span => .unary operator operand.normal span
  | .binary operator left right span => .binary operator left.normal right.normal span
  | .ternary c t f span => .ternary c.normal t.normal f.normal span
  | .loop item counter iterated body span => .loop item counter iterated.normal body.normal span
  | .condition c body span => .condition c.normal body.normal span

def Expression.allNormal : List Expression → List Expression
  | [] => []
  | e :: rest => e.normal :: Expression.allNormal rest

def Expression.propertiesNormal : List (String × Expression) → List (String × Expression)
  | [] => []
  | (key, e) :: rest => (key, e.normal) :: Expression.propertiesNormal rest

/-- Each text between two holes is all that stands there, put together. The text so
far comes first. -/
def Part.normal (sofar : String) : List Part → List Part
  | [] => [.text sofar]
  | .text piece :: rest => Part.normal (sofar ++ piece) rest
  | .hole e :: rest => .text sofar :: .hole e.normal :: Part.normal "" rest

end

mutual

def Declaration.normal : Declaration → Declaration
  | .param name none span => .param name none span
  | .param name (some e) span => .param name (some e.normal) span
  | .var name value span => .var name value.normal span
  | .resource name type existing body resources span =>
    .resource name type existing body.normal (Declaration.allNormal resources) span
  | .module name path body outputs span => .module name path body.normal outputs span
  | .output name value span => .output name value.normal span

def Declaration.allNormal : List Declaration → List Declaration
  | [] => []
  | d :: rest => d.normal :: Declaration.allNormal rest

end

def Part.joined : List String → List Expression → List Part
  | first :: texts, e :: holes => .text first :: .hole e :: Part.joined texts holes
  | texts, _ => texts.map .text

namespace NodeData

def operands : NodeData → List NodeId
  | resource _ _ _ body _ => [body]
  | d => d.children

def nested : NodeData → List NodeId
  | resource _ _ _ _ nested => nested
  | _ => []

def expression? (span : Option Span) : NodeData → List Expression → Option Expression
  | string segments _, holes => some (.string none (Part.joined segments holes) span)
  | int value, [] => some (.int value span)
  | bool value, [] => some (.bool value span)
  | null, [] => some (.null span)
  | ident name, [] => some (.ident name.name span)
  | array _, items => some (.array items span)
  | object entries, values => some (.object ((entries.map fun e => e.key.name).zip values) span)
  | property _ name, [base] => some (.property base name.name span)
  | index _ _, [base, selector] => some (.index base selector span)
  | resourceAccess _ name, [base] => some (.resourceAccess base name.name span)
  | call name _, args => some (.call name.name args span)
  | instanceCall _ name _, base :: args => some (.instanceCall base name.name args span)
  | paren _, [inner] => some (.paren inner span)
  | unary operator _, [operand] => some (.unary operator operand span)
  | binary operator _ _, [left, right] => some (.binary operator left right span)
  | ternary _ _ _, [c, t, f] => some (.ternary c t f span)
  | loop item counter _ _, [iterated, body] =>
    some (.loop item.name (counter.map Identifier.name) iterated body span)
  | condition _ _, [c, body] => some (.condition c body span)
  | _, _ => none

def declaration? (span : Option Span) : NodeData → List Expression → List Declaration →
    Option Declaration
  | param name _, [], [] => some (.param name.name none span)
  | param name _, [value], [] => some (.param name.name (some value) span)
  | var name _, [value], [] => some (.var name.name value span)
  | resource name type existing _ _, [body], resources =>
    some (.resource name.name type existing body resources span)
  | module name path _ outputs, [body], [] =>
    some (.module name.name path body (outputs.map fun o => ⟨o.name.name, o.resource⟩) span)
  | output name _, [value], [] => some (.output name.name value span)
  | _, _, _ => none

variable {d d' : NodeData}

theorem operands_append_nested (d : NodeData) : d.operands ++ d.nested = d.children := by
  cases d <;> simp [operands, nested, children]

theorem operands_label (d : NodeData) : d.label.operands.length = d.operands.length := by
  cases d with
  | param name default => cases default <;> rfl
  | _ => simp [label, operands, children]

theorem operands_nested_eq (label : d.label = d'.label) (children : d.children = d'.children) :
    d.operands = d'.operands ∧ d.nested = d'.nested := by
  apply List.append_inj
  · rw [operands_append_nested, operands_append_nested, children]
  · rw [← operands_label d, ← operands_label d', label]

theorem expression?_label (d : NodeData) (span : Option Span) (below : List Expression) :
    d.label.expression? span below = d.expression? span below := by
  cases d with
  | object entries => simp [label, expression?, Function.comp_def, Identifier.bare]
  | loop item counter _ _ =>
    cases counter <;> rcases below with _ | ⟨_, _ | ⟨_, _ | _⟩⟩ <;> rfl
  | _ => rcases below with _ | ⟨_, _ | ⟨_, _ | ⟨_, _ | _⟩⟩⟩ <;> rfl

theorem declaration?_label (d : NodeData) (span : Option Span) (operands : List Expression)
    (nested : List Declaration) :
    d.label.declaration? span operands nested = d.declaration? span operands nested := by
  cases d with
  | module name path body outputs =>
    rcases operands with _ | ⟨_, _ | _⟩ <;> cases nested <;>
      simp [label, declaration?, Function.comp_def, Identifier.bare]
  | _ => rcases operands with _ | ⟨_, _ | _⟩ <;> cases nested <;> rfl

end NodeData

/-- An arena, and the nodes whose spans are shown. -/
structure View where
  arena : Arena
  shown : NodeId → Bool

namespace View

def span? (v : View) (id : NodeId) : Option Span :=
  if v.shown id then some (v.arena.span id) else none

def expression? (v : View) : Nat → NodeId → Option Expression
  | 0, _ => none
  | depth + 1, id => do
    let data ← v.arena.data? id
    data.expression? (v.span? id) (← data.operands.mapM (v.expression? depth))

def declaration? (v : View) : Nat → NodeId → Option Declaration
  | 0, _ => none
  | depth + 1, id => do
    let data ← v.arena.data? id
    let operands ← data.operands.mapM (v.expression? depth)
    data.declaration? (v.span? id) operands (← data.nested.mapM (v.declaration? depth))

/-- The documents of a program. No node stands deeper than there are nodes. -/
def program? (v : View) (root : NodeId) : Option (List Declaration) :=
  match v.arena.data? root with
  | some (.program declarations) => declarations.mapM (v.declaration? v.arena.size)
  | _ => none

end View

def Part.holesNormal : List Part → List Expression
  | [] => []
  | .text _ :: rest => Part.holesNormal rest
  | .hole e :: rest => e.normal :: Part.holesNormal rest

theorem Part.segments_ne_nil (parts : List Part) : Part.segments parts ≠ [] := by
  intro none
  have length := Part.segments_length parts
  rw [none] at length
  cases length

theorem Part.joined_segments (parts : List Part) (sofar : String) :
    Part.joined ((Part.segments parts).modifyHead (sofar ++ ·)) (Part.holesNormal parts) =
      Part.normal sofar parts := by
  induction parts generalizing sofar with
  | nil => simp [Part.segments, Part.joined, Part.holesNormal, Part.normal]
  | cons part rest ih =>
    obtain ⟨first, others, segments⟩ := List.exists_cons_of_ne_nil (Part.segments_ne_nil rest)
    rw [segments] at ih
    cases part with
    | text piece =>
      have ih := ih (sofar ++ piece)
      simpa [Part.segments, segments, Part.holesNormal, Part.normal, String.append_assoc] using ih
    | hole e =>
      have ih := ih ""
      simpa [Part.segments, segments, Part.joined, Part.holesNormal, Part.normal] using ih

theorem Part.joined_all (parts : List Part) :
    Part.joined (Part.segments parts) (Part.holesNormal parts) = Part.normal "" parts := by
  rw [← Part.joined_segments]
  cases Part.segments parts <;> simp

theorem Part.holesNormal_length (parts : List Part) :
    (Part.holesNormal parts).length = (Part.shapes parts).length := by
  induction parts with
  | nil => rfl
  | cons part rest ih =>
    cases part with
    | text piece => exact ih
    | hole e => exact congrArg Nat.succ ih

namespace View

variable {v : View} {depth id : Nat} {data : NodeData} {es : List Expression} {ds : List Declaration}

theorem expression?_node (here : v.arena.data? id = some data)
    (operands : data.operands.mapM (v.expression? depth) = some es) :
    v.expression? (depth + 1) id = data.expression? (v.span? id) es := by
  simp [expression?, here, operands]

theorem declaration?_node (here : v.arena.data? id = some data)
    (operands : data.operands.mapM (v.expression? depth) = some es)
    (nested : data.nested.mapM (v.declaration? depth) = some ds) :
    v.declaration? (depth + 1) id = data.declaration? (v.span? id) es ds := by
  simp [declaration?, here, operands, nested]

theorem program?_root {root : NodeId} {declarations : List NodeId}
    (here : v.arena.data? root = some (.program declarations)) :
    v.program? root = declarations.mapM (v.declaration? v.arena.size) := by
  simp only [program?, here]

end View

namespace Lowering

open Arena

abbrev Fact := View → Nat → Prop

/-- A fact holds whatever is lowered later, if the spans of the documents are shown. -/
def Kept (b : Builder) (p : Fact) : Prop :=
  ∃ marks : NodeId → Bool, ∀ (v : View) (depth : Nat), b.arena.Extends v.arena →
    (∀ n < b.arena.size, v.shown n = marks n) → b.arena.size ≤ depth → p v depth

def Keeps {α : Type} (p : Fact) (w : Lowering α) (q : α → Fact) : Prop :=
  ∀ b x b', Runs w b x b' → Kept b p → Kept b' (q x)

variable {α β : Type} {w : Lowering α} {k : α → Lowering β} {p : Fact} {q : α → Fact} {r : β → Fact}

theorem kept_holds {b : Builder} (h : Kept b p) : ∃ v depth, p v depth := by
  obtain ⟨marks, holds⟩ := h
  exact ⟨⟨b.arena, marks⟩, b.arena.size, holds _ _ (extends_refl _) (fun _ _ => rfl) (Nat.le_refl _)⟩

theorem keeps_pure {x : α} (h : ∀ v depth, p v depth → q x v depth) : Keeps p (pure x) q := by
  intro b y b' run kept
  obtain ⟨rfl, rfl⟩ := runs_pure.1 run
  obtain ⟨marks, holds⟩ := kept
  exact ⟨marks, fun v depth grown agree deep => h v depth (holds v depth grown agree deep)⟩

theorem keeps_bind (hw : Keeps p w q) (hk : ∀ x, Keeps (q x) (k x) r) : Keeps p (w >>= k) r := by
  intro b y b'' run kept
  obtain ⟨x, b', run, run'⟩ := runs_bind.1 run
  exact hk x b' y b'' run' (hw b x b' run kept)

theorem keeps_emit {step : Build NodeId} {d : NodeData} {span : Option Span} {q : NodeId → Fact}
    (emits : ∀ v depth, p v depth → Build.Emits step d)
    (reads : ∀ (v : View) (depth id : Nat) (data : NodeData), p v depth → p v (depth + 1) →
      v.arena.data? id = some data → data.label = d.label → data.children = d.children →
      v.span? id = span → q id v (depth + 1)) :
    Keeps p (do withSpan (← build step) span) q := by
  intro b id b' run kept
  obtain ⟨_, _, holds⟩ := kept_holds kept
  obtain ⟨marks, known⟩ := kept
  obtain ⟨rfl, size, grown, ⟨data, here, label, children, _⟩, spanned⟩ :=
    runs_emit (emits _ _ holds) run
  -- The marks of earlier nodes stay; the new node shows its span if its document has one.
  refine ⟨fun n => if n = b.arena.size then span.isSome else marks n, ?_⟩
  intro v depth grown' agree deep
  have last : b.arena.size < b'.arena.size := by omega
  have shown : v.shown b.arena.size = span.isSome := (agree _ last).trans (if_pos rfl)
  have before : ∀ depth, b.arena.size ≤ depth → p v depth := by
    intro depth deep
    apply known v depth (extends_trans grown grown') _ deep
    intro n less
    exact (agree n (by omega)).trans (if_neg (Nat.ne_of_lt less))
  cases depth with
  | zero => omega
  | succ depth =>
    apply reads v depth _ data (before _ (by omega)) (before _ (by omega)) _ label children
    · rw [View.span?, shown, extends_span grown' last]
      cases span with
      | none => rfl
      | some s => exact congrArg some (spanned s rfl)
    · rw [extends_data grown' last, here]

variable {known : Fact} {step : Build NodeId} {d : NodeData} {span : Option Span}

def Reads (known : Fact) (e : Expression) (id : NodeId) : Fact :=
  fun v depth => known v depth ∧ v.expression? depth id = some e

def ReadsAll (known : Fact) (es : List Expression) (ids : List NodeId) : Fact :=
  fun v depth => known v depth ∧ ids.mapM (v.expression? depth) = some es

theorem mapM_some_cons {f : α → Option β} {x : α} {xs : List α} {y : β} {ys : List β}
    (head : f x = some y) (tail : xs.mapM f = some ys) : (x :: xs).mapM f = some (y :: ys) := by
  simp [head, tail]

theorem keeps_expression {e : Expression} (emits : ∀ v depth, p v depth → Build.Emits step d)
    (keep : ∀ v depth, p v depth → known v depth)
    (reads : ∀ v depth, p v depth → ∃ below, d.operands.mapM (v.expression? depth) = some below ∧
      d.expression? span below = some e) :
    Keeps p (do withSpan (← build step) span) (Reads known e) := by
  refine keeps_emit emits fun v depth id data before now here label children shown => ?_
  obtain ⟨below, operands, read⟩ := reads v depth before
  rw [← (NodeData.operands_nested_eq label children).1] at operands
  refine ⟨keep v _ now, ?_⟩
  rw [View.expression?_node here operands, ← NodeData.expression?_label, label,
    NodeData.expression?_label, shown, read]

theorem mapM_length {f : α → Option β} {xs : List α} {ys : List β} (h : xs.mapM f = some ys) :
    xs.length = ys.length := by
  induction xs generalizing ys with
  | nil => cases h; rfl
  | cons x xs ih =>
    obtain ⟨y, _, h⟩ := Option.bind_eq_some_iff.1 (List.mapM_cons.symm.trans h)
    obtain ⟨rest, tail, h⟩ := Option.bind_eq_some_iff.1 h
    cases h
    exact congrArg Nat.succ (ih tail)

end Lowering

open Lowering

mutual

theorem Expression.lower_keeps (e : Expression) (known : Fact) :
    Keeps known e.lower (Reads known e.normal) := by
  cases e with
  | string value parts span =>
    cases parts with
    | nil =>
      exact keeps_expression (fun _ _ _ => Build.emits_string _) (fun _ _ h => h)
        fun _ _ _ => ⟨[], rfl, rfl⟩
    | cons part rest =>
      cases value with
      | some value => exact fun _ _ _ run => absurd run runs_throw
      | none =>
        refine keeps_bind (Part.lowerHoles_keeps (part :: rest) known) fun ids => ?_
        refine keeps_expression (d := .string (Part.segments (part :: rest)) ids) (fun _ _ h => ?_)
          (fun _ _ h => h.1) fun _ _ h => ⟨_, h.2, ?_⟩
        · apply Build.emits_interpolated
          rw [mapM_length h.2, Part.segments_length, Part.holesNormal_length]
        · rw [NodeData.expression?, Part.joined_all, Expression.normal]
  | int value span =>
    exact keeps_expression (fun _ _ _ => Build.emits_int _) (fun _ _ h => h)
      fun _ _ _ => ⟨[], rfl, rfl⟩
  | bool value span =>
    exact keeps_expression (fun _ _ _ => Build.emits_bool _) (fun _ _ h => h)
      fun _ _ _ => ⟨[], rfl, rfl⟩
  | null span =>
    exact keeps_expression (fun _ _ _ => Build.emits_null) (fun _ _ h => h)
      fun _ _ _ => ⟨[], rfl, rfl⟩
  | ident name span =>
    exact keeps_expression (fun _ _ _ => Build.emits_ident _) (fun _ _ h => h)
      fun _ _ _ => ⟨[], rfl, rfl⟩
  | array items span =>
    refine keeps_bind (Expression.lowerAll_keeps items known) fun ids => ?_
    exact keeps_expression (fun _ _ _ => Build.emits_array _) (fun _ _ h => h.1)
      fun _ _ h => ⟨_, h.2, rfl⟩
  | object properties span =>
    refine keeps_bind (Expression.lowerProperties_keeps properties known) fun made => ?_
    refine keeps_expression (fun _ _ _ => Build.emits_object _) (fun _ _ h => h.2.1)
      fun _ _ h => ⟨(Expression.propertiesNormal properties).map Prod.snd, ?_, ?_⟩
    · exact (congrArg _ (List.map_map ..)).trans h.2.2
    · have names : (made.map fun p => (Identifier.named p.1).name) = made.map Prod.fst := rfl
      rw [NodeData.expression?, List.map_map, Expression.normal, Function.comp_def, names, h.1,
        ← List.zip_of_prod rfl rfl]
  | property base name span =>
    refine keeps_bind (base.lower_keeps known) fun id => ?_
    exact keeps_expression (fun _ _ _ => Build.emits_property _ _) (fun _ _ h => h.1)
      fun _ _ h => ⟨_, mapM_some_cons h.2 rfl, rfl⟩
  | index base selector span =>
    refine keeps_bind (base.lower_keeps known) fun id => ?_
    refine keeps_bind (selector.lower_keeps _) fun id' => ?_
    exact keeps_expression (fun _ _ _ => Build.emits_index _ _) (fun _ _ h => h.1.1)
      fun _ _ h => ⟨_, mapM_some_cons h.1.2 (mapM_some_cons h.2 rfl), rfl⟩
  | resourceAccess base name span =>
    refine keeps_bind (base.lower_keeps known) fun id => ?_
    exact keeps_expression (fun _ _ _ => Build.emits_resourceAccess _ _) (fun _ _ h => h.1)
      fun _ _ h => ⟨_, mapM_some_cons h.2 rfl, rfl⟩
  | call name args span =>
    refine keeps_bind (Expression.lowerAll_keeps args known) fun ids => ?_
    exact keeps_expression (fun _ _ _ => Build.emits_call _ _) (fun _ _ h => h.1)
      fun _ _ h => ⟨_, h.2, rfl⟩
  | instanceCall base name args span =>
    refine keeps_bind (base.lower_keeps known) fun id => ?_
    refine keeps_bind (Expression.lowerAll_keeps args _) fun ids => ?_
    exact keeps_expression (fun _ _ _ => Build.emits_instanceCall _ _ _) (fun _ _ h => h.1.1)
      fun _ _ h => ⟨_, mapM_some_cons h.1.2 h.2, rfl⟩
  | paren inner span =>
    refine keeps_bind (inner.lower_keeps known) fun id => ?_
    exact keeps_expression (fun _ _ _ => Build.emits_paren _) (fun _ _ h => h.1)
      fun _ _ h => ⟨_, mapM_some_cons h.2 rfl, rfl⟩
  | unary operator operand span =>
    refine keeps_bind (operand.lower_keeps known) fun id => ?_
    exact keeps_expression (fun _ _ _ => Build.emits_unary _ _) (fun _ _ h => h.1)
      fun _ _ h => ⟨_, mapM_some_cons h.2 rfl, rfl⟩
  | binary operator left right span =>
    refine keeps_bind (left.lower_keeps known) fun id => ?_
    refine keeps_bind (right.lower_keeps _) fun id' => ?_
    exact keeps_expression (fun _ _ _ => Build.emits_binary _ _ _) (fun _ _ h => h.1.1)
      fun _ _ h => ⟨_, mapM_some_cons h.1.2 (mapM_some_cons h.2 rfl), rfl⟩
  | ternary c t f span =>
    refine keeps_bind (c.lower_keeps known) fun id => ?_
    refine keeps_bind (t.lower_keeps _) fun id' => ?_
    refine keeps_bind (f.lower_keeps _) fun id'' => ?_
    exact keeps_expression (fun _ _ _ => Build.emits_ternary _ _ _) (fun _ _ h => h.1.1.1)
      fun _ _ h =>
        ⟨_, mapM_some_cons h.1.1.2 (mapM_some_cons h.1.2 (mapM_some_cons h.2 rfl)), rfl⟩
  | loop item counter iterated body span =>
    refine keeps_bind (iterated.lower_keeps known) fun id => ?_
    refine keeps_bind (body.lower_keeps _) fun id' => ?_
    refine keeps_expression (fun _ _ _ => Build.emits_loop _ _ _ _) (fun _ _ h => h.1.1)
      fun _ _ h => ⟨_, mapM_some_cons h.1.2 (mapM_some_cons h.2 rfl), ?_⟩
    cases counter <;> rfl
  | condition c body span =>
    refine keeps_bind (c.lower_keeps known) fun id => ?_
    refine keeps_bind (body.lower_keeps _) fun id' => ?_
    exact keeps_expression (fun _ _ _ => Build.emits_condition _ _) (fun _ _ h => h.1.1)
      fun _ _ h => ⟨_, mapM_some_cons h.1.2 (mapM_some_cons h.2 rfl), rfl⟩

theorem Expression.lowerAll_keeps (es : List Expression) (known : Fact) :
    Keeps known (Expression.lowerAll es) (ReadsAll known (Expression.allNormal es)) := by
  cases es with
  | nil => exact keeps_pure fun _ _ h => ⟨h, rfl⟩
  | cons e rest =>
    refine keeps_bind (e.lower_keeps known) fun id => ?_
    refine keeps_bind (Expression.lowerAll_keeps rest _) fun ids => ?_
    exact keeps_pure fun _ _ h => ⟨h.1.1, mapM_some_cons h.1.2 h.2⟩

theorem Expression.lowerProperties_keeps (ps : List (String × Expression)) (known : Fact) :
    Keeps known (Expression.lowerProperties ps) (fun made v depth =>
      made.map Prod.fst = (Expression.propertiesNormal ps).map Prod.fst ∧
        ReadsAll known ((Expression.propertiesNormal ps).map Prod.snd) (made.map Prod.snd) v
          depth) := by
  cases ps with
  | nil => exact keeps_pure fun _ _ h => ⟨rfl, h, rfl⟩
  | cons p rest =>
    obtain ⟨key, e⟩ := p
    refine keeps_bind (e.lower_keeps known) fun id => ?_
    refine keeps_bind (Expression.lowerProperties_keeps rest _) fun made => ?_
    refine keeps_pure fun _ _ h => ⟨congrArg (key :: ·) h.1, h.2.1.1, ?_⟩
    exact mapM_some_cons h.2.1.2 h.2.2

theorem Part.lowerHoles_keeps (parts : List Part) (known : Fact) :
    Keeps known (Part.lowerHoles parts) (ReadsAll known (Part.holesNormal parts)) := by
  cases parts with
  | nil => exact keeps_pure fun _ _ h => ⟨h, rfl⟩
  | cons part rest =>
    cases part with
    | text piece => exact Part.lowerHoles_keeps rest known
    | hole e =>
      refine keeps_bind (e.lower_keeps known) fun id => ?_
      refine keeps_bind (Part.lowerHoles_keeps rest _) fun ids => ?_
      exact keeps_pure fun _ _ h => ⟨h.1.1, mapM_some_cons h.1.2 h.2⟩

end

namespace Lowering

def Declares (known : Fact) (d : Declaration) (id : NodeId) : Fact :=
  fun v depth => known v depth ∧ v.declaration? depth id = some d

def DeclaresAll (known : Fact) (ds : List Declaration) (ids : List NodeId) : Fact :=
  fun v depth => known v depth ∧ ids.mapM (v.declaration? depth) = some ds

theorem keeps_declaration {known p : Fact} {step : Build NodeId} {d : NodeData}
    {span : Option Span} {read : Declaration} (emits : Build.Emits step d)
    (keep : ∀ v depth, p v depth → known v depth)
    (reads : ∀ v depth, p v depth → ∃ es ds, d.operands.mapM (v.expression? depth) = some es ∧
      d.nested.mapM (v.declaration? depth) = some ds ∧ d.declaration? span es ds = some read) :
    Keeps p (do withSpan (← build step) span) (Declares known read) := by
  refine keeps_emit (fun _ _ _ => emits) fun v depth id data before now here label children shown => ?_
  obtain ⟨es, ds, operands, nested, whole⟩ := reads v depth before
  obtain ⟨sameOperands, sameNested⟩ := NodeData.operands_nested_eq label children
  rw [← sameOperands] at operands
  rw [← sameNested] at nested
  refine ⟨keep v _ now, ?_⟩
  rw [View.declaration?_node here operands nested, ← NodeData.declaration?_label, label,
    NodeData.declaration?_label, shown, whole]

end Lowering

mutual

theorem Declaration.lower_keeps (d : Declaration) (known : Fact) :
    Keeps known d.lower (Declares known d.normal) := by
  cases d with
  | param name default span =>
    cases default with
    | none =>
      refine keeps_bind (keeps_pure (q := fun x v depth => known v depth ∧ x = none)
        fun _ _ h => ⟨h, rfl⟩) fun x => ?_
      refine keeps_declaration (Build.emits_param _ _) (fun _ _ h => h.1) fun _ _ h => ?_
      cases h.2
      exact ⟨[], [], rfl, rfl, rfl⟩
    | some e =>
      refine keeps_bind (q := fun x v depth => ∃ id, x = some id ∧ Reads known e.normal id v depth)
        (keeps_bind (e.lower_keeps known) fun id => keeps_pure fun _ _ h => ⟨id, rfl, h⟩) fun x => ?_
      refine keeps_declaration (Build.emits_param _ _) (fun _ _ ⟨_, _, h⟩ => h.1) fun _ _ h => ?_
      obtain ⟨id, rfl, h⟩ := h
      exact ⟨_, [], mapM_some_cons h.2 rfl, rfl, rfl⟩
  | var name value span =>
    refine keeps_bind (value.lower_keeps known) fun id => ?_
    exact keeps_declaration (Build.emits_var _ _) (fun _ _ h => h.1)
      fun _ _ h => ⟨_, [], mapM_some_cons h.2 rfl, rfl, rfl⟩
  | resource name type existing body resources span =>
    refine keeps_bind (body.lower_keeps known) fun id => ?_
    refine keeps_bind (Declaration.lowerAll_keeps resources _) fun ids => ?_
    exact keeps_declaration (Build.emits_resource _ _ _ _ _) (fun _ _ h => h.1.1)
      fun _ _ h => ⟨_, _, mapM_some_cons h.1.2 rfl, h.2, rfl⟩
  | module name path body outputs span =>
    refine keeps_bind (body.lower_keeps known) fun id => ?_
    refine keeps_declaration (Build.emits_module _ _ _ _) (fun _ _ h => h.1)
      fun _ _ h => ⟨_, [], mapM_some_cons h.2 rfl, rfl, ?_⟩
    simp [NodeData.declaration?, Declaration.normal, Identifier.named, Function.comp_def]
  | output name value span =>
    refine keeps_bind (value.lower_keeps known) fun id => ?_
    exact keeps_declaration (Build.emits_output _ _) (fun _ _ h => h.1)
      fun _ _ h => ⟨_, [], mapM_some_cons h.2 rfl, rfl, rfl⟩

theorem Declaration.lowerAll_keeps (ds : List Declaration) (known : Fact) :
    Keeps known (Declaration.lowerAll ds) (DeclaresAll known (Declaration.allNormal ds)) := by
  cases ds with
  | nil => exact keeps_pure fun _ _ h => ⟨h, rfl⟩
  | cons d rest =>
    refine keeps_bind (d.lower_keeps known) fun id => ?_
    refine keeps_bind (Declaration.lowerAll_keeps rest _) fun ids => ?_
    exact keeps_pure fun _ _ h => ⟨h.1.1, mapM_some_cons h.1.2 h.2⟩

end

/-- A lowered tree reads as its program in normal form, if spans are shown at the nodes
whose documents carry them. A string of the tree has one text more than it has holes. -/
theorem Tree.ofProgram_readBack {file : String} {program : List Declaration} {tree : Tree}
    (lowered : Tree.ofProgram file program = .ok tree) :
    (∃ shown : NodeId → Bool, (View.mk tree.arena shown).program? tree.root =
        some (Declaration.allNormal program)) ∧
      ∀ n segments holes, tree.arena.data? n = some (.string segments holes) →
        segments.length = holes.length + 1 := by
  constructor
  · rw [Tree.ofProgram] at lowered
    split at lowered
    · next ids b run =>
      cases lowered
      have start : Kept Build.start fun _ _ => True := ⟨fun _ => false, fun _ _ _ _ _ => trivial⟩
      obtain ⟨marks, holds⟩ := Declaration.lowerAll_keeps program _ _ _ _ run start
      have grown : b.arena.Extends (Build.finish file ids b).arena := Arena.extends_add ..
      refine ⟨marks, ?_⟩
      rw [View.program?_root (Arena.data_add ..)]
      exact (holds ⟨_, marks⟩ _ grown (fun _ _ => rfl) grown.1).2
    · cases lowered
  · exact fun n segments holes here => (Tree.ofProgram_node lowered here).1

def taggedModule : List Declaration :=
  [.module "m" "m.json" (.object [("tag", .string none [.text "a", .text "b",
      .hole (.ident "p" (some (.between 40 41))), .hole (.int 3 none)] (some (.between 30 50)))] none)
      [⟨"id", none⟩, ⟨"vm", some "T@1"⟩] (some (.between 0 60)),
    .resource "r" "T@1" true (.string none [] none) [.var "x" (.null none) none] none]

theorem Tree.ofProgram_readBack_taggedModule :
    ∃ tree, Tree.ofProgram "main.json" taggedModule = .ok tree ∧
      (∃ shown : NodeId → Bool, (View.mk tree.arena shown).program? tree.root = some
        [.module "m" "m.json" (.object [("tag", .string none [.text "ab",
            .hole (.ident "p" (some (.between 40 41))), .text "", .hole (.int 3 none), .text ""]
            (some (.between 30 50)))] none)
            [⟨"id", none⟩, ⟨"vm", some "T@1"⟩] (some (.between 0 60)),
          .resource "r" "T@1" true (.string none [.text ""] none) [.var "x" (.null none) none] none]) := by
  have accepted : (Tree.ofProgram "main.json" taggedModule).toOption.isSome := by decide +kernel
  obtain ⟨tree, lowered⟩ := Option.isSome_iff_exists.1 accepted
  have lowered := ok_of_toOption lowered
  exact ⟨tree, lowered, (Tree.ofProgram_readBack lowered).1⟩

end DeployCheck
