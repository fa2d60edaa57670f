import DeployCheck.Proofs.Folding.Spelling
import DeployCheck.Proofs.Tree.Lowering

/-!
# Programs in lower case

A program is folded by writing the names that it uses in lower case, and with them
its keys, its texts and the types of its resources. The names that it declares stay
as they are. Lowering a folded program gives the folded tree, with the same spans.
-/

set_option autoImplicit false

namespace DeployCheck

mutual

def Expression.folded : Expression → Expression
  | .string value parts span => .string (value.map Name.key) (Part.allFolded parts) span
  | .int value span => .int value span
  | .bool value span => .bool value span
  | .null span => .null span
  | .ident name span => .ident (Name.key name) span
  | .array items span => .array (Expression.allFolded items) span
  | .object properties span => .object (Expression.propertiesFolded properties) span
  | .property base name span => .property base.folded (Name.key name) span
  | .index base selector span => .index base.folded selector.folded span
  | .resourceAccess base name span => .resourceAccess base.folded (Name.key name) span
  | .call name args span => .call (Name.key name) (Expression.allFolded args) span
  | .instanceCall base name args span =>
    .instanceCall base.folded (Name.key name) (Expression.allFolded args) span
  | .paren inner span => .paren inner.folded span
  | .unary operator operand span => .unary operator operand.folded span
  | .binary operator left right span => .binary operator left.folded right.folded span
  | .ternary c t f span => .ternary c.folded t.folded f.folded span
  | .loop item counter iterated body span => .loop item counter iterated.folded body.folded span
  | .condition c body span => .condition c.folded body.folded span

def Expression.allFolded : List Expression → List Expression
  | [] => []
  | e :: rest => e.folded :: Expression.allFolded rest

def Expression.propertiesFolded : List (String × Expression) → List (String × Expression)
  | [] => []
  | (key, e) :: rest => (Name.key key, e.folded) :: Expression.propertiesFolded rest

def Part.allFolded : List Part → List Part
  | [] => []
  | .text piece :: rest => .text (Name.key piece) :: Part.allFolded rest
  | .hole e :: rest => .hole e.folded :: Part.allFolded rest

end

def ModuleOutput.folded (o : ModuleOutput) : ModuleOutput := ⟨o.name, o.resource.map Name.key⟩

mutual

def Declaration.folded : Declaration → Declaration
  | .param name none span => .param name none span
  | .param name (some e) span => .param name (some e.folded) span
  | .var name value span => .var name value.folded span
  | .resource name type existing body resources span =>
    .resource name (Name.key type) existing body.folded (Declaration.allFolded resources) span
  | .module name path body outputs span =>
    .module name path body.folded (outputs.map ModuleOutput.folded) span
  | .output name value span => .output name value.folded span

def Declaration.allFolded : List Declaration → List Declaration
  | [] => []
  | d :: rest => d.folded :: Declaration.allFolded rest

end

def Identifier.folded (i : Identifier) : Identifier := ⟨Name.key i.name, i.span⟩

def ObjectEntry.folded (e : ObjectEntry) : ObjectEntry := ⟨e.key.folded, e.value⟩

def OutputSignature.folded (o : OutputSignature) : OutputSignature :=
  ⟨o.name, o.resource.map Name.key⟩

def NodeData.folded : NodeData → NodeData
  | resource name type existing body nested => resource name (Name.key type) existing body nested
  | module name path body outputs => module name path body (outputs.map OutputSignature.folded)
  | string segments holes => string (segments.map Name.key) holes
  | ident name => ident name.folded
  | object entries => object (entries.map ObjectEntry.folded)
  | property base name => property base name.folded
  | resourceAccess base name => resourceAccess base name.folded
  | call name args => call name.folded args
  | instanceCall base name args => instanceCall base name.folded args
  | data => data

theorem NodeData.children_folded (d : NodeData) : d.folded.children = d.children := by
  cases d with
  | object entries => simp [folded, children, ObjectEntry.folded]
  | _ => rfl

namespace Arena

def folded (a : Arena) : Arena := ⟨a.nodes.map fun node => ⟨node.span, node.data.folded⟩⟩

variable (a : Arena)

theorem size_folded : a.folded.size = a.size := by simp [folded, size]

theorem data?_folded (id : NodeId) : a.folded.data? id = (a.data? id).map NodeData.folded := by
  simp [folded, data?, Function.comp_def]

theorem span_folded (id : NodeId) : a.folded.span id = a.span id := by
  simp [folded, span, Function.comp_def]

theorem children_folded (id : NodeId) : a.folded.children id = a.children id := by
  rw [children, children, data?_folded]
  cases a.data? id with
  | none => rfl
  | some data => exact data.children_folded

theorem add_folded (span : Span) (data : NodeData) :
    (a.add span data).folded = a.folded.add span data.folded := by
  simp [folded, add]

theorem setSpan_folded (id : NodeId) (span : Span) :
    (a.setSpan id span).folded = a.folded.setSpan id span := by
  simp only [folded, setSpan, Arena.mk.injEq]
  apply Array.ext_getElem?
  intro n
  simp only [Array.getElem?_map, Array.getElem?_modify]
  split
  · cases a.nodes[n]? <;> rfl
  · rfl

theorem visitOnto_folded (depth : Nat) (id : NodeId) (rest : List NodeId) :
    a.folded.visitOnto depth id rest = a.visitOnto depth id rest := by
  induction depth generalizing id rest with
  | zero => rfl
  | succ depth ih =>
    rw [visitOnto, visitOnto, children_folded]
    congr 2
    funext id rest
    exact ih id rest

theorem visit_folded (id : NodeId) : a.folded.visit id = a.visit id := by
  rw [visit, visit, size_folded, visitOnto_folded]

end Arena

def Tree.folded (t : Tree) : Tree := ⟨t.file, t.arena.folded, t.root⟩

def Builder.folded (b : Builder) : Builder := ⟨b.arena.folded, b.cursor⟩

namespace Build

variable {α β γ δ : Type}

/-- A step for a folded document does to a folded builder what the step for the document
does to the builder, and its result is what `f` says. -/
def Folds (f : α → β) (step : Build α) (step' : Build β) : Prop :=
  ∀ b : Builder, step'.run b.folded = (f (step.run b).1, (step.run b).2.folded)

theorem folds_pure (f : α → β) (x : α) : Folds f (pure x) (pure (f x)) := fun _ => rfl

theorem folds_bind {f : α → β} {g : γ → δ} {step : Build α} {step' : Build β} {k : α → Build γ}
    {k' : β → Build δ} (first : Folds f step step') (rest : ∀ x, Folds g (k x) (k' (f x))) :
    Folds g (step >>= k) (step' >>= k') := by
  intro b
  simp only [StateT.run_bind, first b]
  exact rest _ _

theorem folds_leaf (width : Nat) : Folds id (leaf width) (leaf width) := fun _ => rfl

theorem folds_spanOf (node : NodeId) : Folds id (spanOf node) (spanOf node) := by
  intro b
  exact congrArg (·, b.folded) (b.arena.span_folded node)

theorem folds_cover (ids : List NodeId) (span : Span) :
    Folds id (cover ids span) (cover ids span) := by
  intro b
  have same : (fun (s : Span) node => s.cover (b.folded.arena.span node)) =
      fun s node => s.cover (b.arena.span node) := by
    funext s node
    exact congrArg s.cover (b.arena.span_folded node)
  exact congrArg (fun step => (ids.foldl step span, b.folded)) same

theorem folds_add (span : Span) (data : NodeData) :
    Folds id (add span data) (add span data.folded) := by
  intro b
  have added : (b.arena.add span data).folded = _ := b.arena.add_folded span data
  show (b.arena.folded.size, (⟨b.arena.folded.add span data.folded, b.cursor⟩ : Builder)) = _
  rw [← added, b.arena.size_folded]
  rfl

theorem folds_setSpan (node : NodeId) (span : Span) :
    Folds id (setSpan node span) (setSpan node span) := by
  intro b
  have moved := b.arena.setSpan_folded node span
  show ((), (⟨b.arena.folded.setSpan node span, _⟩ : Builder)) = _
  rw [← moved]
  rfl

theorem folds_declaredName (name : String) : Folds id (identifier name) (identifier name) :=
  fun _ => rfl

theorem folds_usedName (name : String) :
    Folds Identifier.folded (identifier name) (identifier (Name.key name)) := by
  intro b
  rw [identifier, Name.utf8ByteSize_key]
  rfl

theorem folds_declared (keyword name : String) :
    Folds id (declared keyword name) (declared keyword name) := fun _ => rfl

theorem folds_declaredNames (names : List String) :
    Folds id (identifiers names) (identifiers names) := by
  induction names with
  | nil => exact folds_pure id []
  | cons name rest ih =>
    exact folds_bind (folds_declaredName name) fun _ => folds_bind ih fun _ => folds_pure id _

theorem folds_usedNames (names : List String) :
    Folds (List.map Identifier.folded) (identifiers names) (identifiers (names.map Name.key)) := by
  induction names with
  | nil => exact folds_pure _ []
  | cons name rest ih =>
    exact folds_bind (folds_usedName name) fun _ => folds_bind ih fun _ => folds_pure _ _

theorem folds_string (value : String) : Folds id (string value) (string (Name.key value)) := by
  rw [string, string, Name.utf8ByteSize_key]
  exact folds_bind (folds_leaf _) fun _ => folds_add _ _

theorem folds_interpolated (segments : List String) (holes : List NodeId) :
    Folds id (interpolated segments holes) (interpolated (segments.map Name.key) holes) := by
  apply folds_bind (folds_leaf 1)
  intro opening
  apply folds_bind (folds_leaf 1)
  intro closing
  apply folds_bind (folds_cover holes opening)
  intro span
  have texts := folds_add (span.cover closing)
    (.string (segments ++ List.replicate (holes.length + 1 - segments.length) "") holes)
  simpa [NodeData.folded, show Name.key "" = "" from rfl] using texts

theorem folds_int (value : Int) : Folds id (int value) (int value) :=
  folds_bind (folds_leaf _) fun _ => folds_add _ _

theorem folds_bool (value : Bool) : Folds id (bool value) (bool value) :=
  folds_bind (folds_leaf _) fun _ => folds_add _ _

theorem folds_null : Folds id null null := folds_bind (folds_leaf _) fun _ => folds_add _ _

theorem folds_ident (name : String) : Folds id (ident name) (ident (Name.key name)) :=
  folds_bind (folds_usedName name) fun used => folds_add used.span (.ident used)

theorem folds_array (items : List NodeId) : Folds id (array items) (array items) :=
  folds_bind (folds_leaf 1) fun _ => folds_bind (folds_leaf 1) fun _ =>
    folds_bind (folds_cover items _) fun _ => folds_add _ _

def keyed (properties : List (String × NodeId)) : List (String × NodeId) :=
  properties.map fun p => (Name.key p.1, p.2)

theorem folds_object (properties : List (String × NodeId)) :
    Folds id (object properties) (object (keyed properties)) := by
  have keys : (keyed properties).map Prod.fst = (properties.map Prod.fst).map Name.key := by
    simp [keyed]
  have values : (keyed properties).map Prod.snd = properties.map Prod.snd := by simp [keyed]
  rw [object, object, keys, values]
  apply folds_bind (folds_leaf 1)
  intro opening
  apply folds_bind (folds_usedNames _)
  intro used
  apply folds_bind (folds_leaf 1)
  intro closing
  apply folds_bind (folds_cover _ opening)
  intro span
  have entries := folds_add (span.cover closing)
    (.object (used.zipWith ObjectEntry.mk (properties.map Prod.snd)))
  rw [NodeData.folded, List.map_zipWith] at entries
  rw [List.zipWith_map_left]
  exact entries

theorem folds_property (base : NodeId) (name : String) :
    Folds id (property base name) (property base (Name.key name)) :=
  folds_bind (folds_usedName name) fun used =>
    folds_bind (folds_cover [base] used.span) fun span => folds_add span (.property base used)

theorem folds_index (base selector : NodeId) :
    Folds id (index base selector) (index base selector) :=
  folds_bind (folds_leaf 1) fun _ => folds_bind (folds_cover _ _) fun _ => folds_add _ _

theorem folds_resourceAccess (base : NodeId) (name : String) :
    Folds id (resourceAccess base name) (resourceAccess base (Name.key name)) :=
  folds_bind (folds_usedName name) fun used =>
    folds_bind (folds_cover [base] used.span) fun span => folds_add span (.resourceAccess base used)

theorem folds_call (name : String) (args : List NodeId) :
    Folds id (call name args) (call (Name.key name) args) :=
  folds_bind (folds_usedName name) fun used => folds_bind (folds_leaf 1) fun closing =>
    folds_bind (folds_cover args used.span) fun span =>
      folds_add (span.cover closing) (.call used args)

theorem folds_instanceCall (base : NodeId) (name : String) (args : List NodeId) :
    Folds id (instanceCall base name args) (instanceCall base (Name.key name) args) :=
  folds_bind (folds_usedName name) fun used => folds_bind (folds_leaf 1) fun closing =>
    folds_bind (folds_cover (base :: args) used.span) fun span =>
      folds_add (span.cover closing) (.instanceCall base used args)

theorem folds_paren (inner : NodeId) : Folds id (paren inner) (paren inner) :=
  folds_bind (folds_leaf 1) fun _ => folds_bind (folds_cover _ _) fun _ => folds_add _ _

theorem folds_unary (operator : UnaryOperator) (operand : NodeId) :
    Folds id (unary operator operand) (unary operator operand) :=
  folds_bind (folds_spanOf operand) fun _ => folds_add _ _

theorem folds_binary (operator : BinaryOperator) (left right : NodeId) :
    Folds id (binary operator left right) (binary operator left right) :=
  folds_bind (folds_spanOf left) fun _ => folds_bind (folds_cover _ _) fun _ => folds_add _ _

theorem folds_ternary (c t f : NodeId) : Folds id (ternary c t f) (ternary c t f) :=
  folds_bind (folds_spanOf c) fun _ => folds_bind (folds_cover _ _) fun _ => folds_add _ _

theorem folds_loop (item : String) (counter : Option String) (iterated body : NodeId) :
    Folds id (loop item counter iterated body) (loop item counter iterated body) := by
  have counted : Folds id (counter.mapM identifier) (counter.mapM identifier) := by
    cases counter <;> exact fun _ => rfl
  exact folds_bind (folds_leaf 3) fun _ => folds_bind (folds_declaredName item) fun _ =>
    folds_bind counted fun _ => folds_bind (folds_leaf 1) fun _ =>
      folds_bind (folds_cover _ _) fun _ => folds_add _ _

theorem folds_condition (c body : NodeId) : Folds id (condition c body) (condition c body) :=
  folds_bind (folds_leaf 2) fun _ => folds_bind (folds_cover _ _) fun _ => folds_add _ _

theorem folds_param (name : String) (default : Option NodeId) :
    Folds id (param name default) (param name default) :=
  folds_bind (folds_declared _ name) fun _ => folds_bind (folds_cover _ _) fun _ => folds_add _ _

theorem folds_var (name : String) (value : NodeId) : Folds id (var name value) (var name value) :=
  folds_bind (folds_declared _ name) fun _ => folds_bind (folds_cover _ _) fun _ => folds_add _ _

theorem folds_resource (name type : String) (existing : Bool) (body : NodeId)
    (nested : List NodeId) : Folds id (resource name type existing body nested)
      (resource name (Name.key type) existing body nested) :=
  folds_bind (folds_declared _ name) fun head => folds_bind (folds_cover _ _) fun span =>
    folds_add span (.resource head.2 type existing body nested)

theorem folds_module (name path : String) (body : NodeId) (outputs : List (String × Option String)) :
    Folds id (module name path body outputs)
      (module name path body (outputs.map fun o => (o.1, o.2.map Name.key))) := by
  have names : (outputs.map fun o => (o.1, o.2.map Name.key)).map Prod.fst =
      outputs.map Prod.fst := by
    simp
  have types : (outputs.map fun o => (o.1, o.2.map Name.key)).map Prod.snd =
      (outputs.map Prod.snd).map (Option.map Name.key) := by
    simp
  rw [module, module, names, types]
  apply folds_bind (folds_declared _ name)
  intro head
  apply folds_bind (folds_declaredNames _)
  intro declared
  apply folds_bind (folds_cover _ _)
  intro span
  have signature := folds_add span
    (.module head.2 path body (declared.zipWith OutputSignature.mk (outputs.map Prod.snd)))
  rw [NodeData.folded, List.map_zipWith] at signature
  simpa only [id, List.zipWith_map_right, OutputSignature.folded] using signature

theorem folds_output (name : String) (value : NodeId) :
    Folds id (output name value) (output name value) :=
  folds_bind (folds_declared _ name) fun _ => folds_bind (folds_cover _ _) fun _ => folds_add _ _

theorem finish_folded (file : String) (declarations : List NodeId) (b : Builder) :
    finish file declarations b.folded = (finish file declarations b).folded := by
  have done : Folds id (program declarations) (program declarations) :=
    folds_bind (folds_cover _ _) fun _ => folds_add _ _
  simp only [finish, done b]
  rfl

end Build

namespace Lowering

variable {α β γ δ : Type}

/-- What lowering a folded document does to a folded builder. It fails as lowering the
document itself does. -/
def Folds (f : α → β) (w : Lowering α) (w' : Lowering β) : Prop :=
  ∀ b : Builder, w'.run.run b.folded = ((w.run.run b).1.map f, (w.run.run b).2.folded)

theorem folds_pure {f : α → β} {x : α} {y : β} (same : y = f x) : Folds f (pure x) (pure y) := by
  rw [same]
  exact fun _ => rfl

theorem folds_bind {f : α → β} {g : γ → δ} {w : Lowering α} {w' : Lowering β} {k : α → Lowering γ}
    {k' : β → Lowering δ} (first : Folds f w w') (rest : ∀ x, Folds g (k x) (k' (f x))) :
    Folds g (w >>= k) (w' >>= k') := by
  intro b
  rw [run_bind, run_bind, first b]
  rcases w.run.run b with ⟨e | x, b'⟩
  · rfl
  · exact rest x b'

theorem folds_build {f : α → β} {step : Build α} {step' : Build β} (h : Build.Folds f step step') :
    Folds f (build step) (build step') := by
  intro b
  have lifted : (build step').run.run b.folded =
    (.ok (step'.run b.folded).1, (step'.run b.folded).2) := rfl
  rw [lifted, h b]
  rfl

theorem folds_throw (f : α → β) (e : AmbiguousString) : Folds f (throw e) (throw e) := fun _ => rfl

theorem folds_emit {step step' : Build NodeId} (h : Build.Folds id step step')
    (span : Option Span) :
    Folds id (do withSpan (← build step) span) (do withSpan (← build step') span) := by
  apply folds_bind (folds_build h)
  intro node
  cases span with
  | none => exact folds_pure rfl
  | some span =>
    exact folds_bind (folds_build (Build.folds_setSpan node span)) fun _ => folds_pure rfl

end Lowering

open Lowering

theorem Part.segments_folded (parts : List Part) :
    Part.segments (Part.allFolded parts) = (Part.segments parts).map Name.key := by
  induction parts with
  | nil => rfl
  | cons part rest ih =>
    cases part with
    | text piece =>
      rw [Part.allFolded, Part.segments, Part.segments, ih]
      cases Part.segments rest with
      | nil => rfl
      | cons first others => simp [Name.key_append]
    | hole e =>
      rw [Part.allFolded, Part.segments, Part.segments, ih]
      rfl

mutual

theorem Expression.lower_folded (e : Expression) : Folds id e.lower e.folded.lower := by
  cases e with
  | string value parts span =>
    cases parts with
    | nil =>
      have text : (value.map Name.key).getD "" = Name.key (value.getD "") := by cases value <;> rfl
      rw [Expression.folded, Part.allFolded, Expression.lower, Expression.lower, text]
      exact folds_emit (Build.folds_string _) span
    | cons part rest =>
      -- Parts stay parts, so lowering the folded string takes the same case.
      obtain ⟨part', rest', parts⟩ :
          ∃ part' rest', Part.allFolded (part :: rest) = part' :: rest' := by
        cases part <;> exact ⟨_, _, rfl⟩
      have segments := Part.segments_folded (part :: rest)
      have holes := Part.lowerHoles_folded (part :: rest)
      rw [parts] at segments holes
      rw [Expression.folded, parts]
      cases value with
      | some value => exact folds_throw id ⟨span⟩
      | none =>
        apply folds_bind holes
        intro ids
        rw [segments]
        exact folds_emit (Build.folds_interpolated _ ids) span
  | int value span => exact folds_emit (Build.folds_int value) span
  | bool value span => exact folds_emit (Build.folds_bool value) span
  | null span => exact folds_emit Build.folds_null span
  | ident name span => exact folds_emit (Build.folds_ident name) span
  | array items span =>
    exact folds_bind (Expression.lowerAll_folded items) fun ids =>
      folds_emit (Build.folds_array ids) span
  | object properties span =>
    exact folds_bind (Expression.lowerProperties_folded properties) fun made =>
      folds_emit (Build.folds_object made) span
  | property base name span =>
    exact folds_bind base.lower_folded fun id => folds_emit (Build.folds_property id name) span
  | index base selector span =>
    exact folds_bind base.lower_folded fun id => folds_bind selector.lower_folded fun id' =>
      folds_emit (Build.folds_index id id') span
  | resourceAccess base name span =>
    exact folds_bind base.lower_folded fun id =>
      folds_emit (Build.folds_resourceAccess id name) span
  | call name args span =>
    exact folds_bind (Expression.lowerAll_folded args) fun ids =>
      folds_emit (Build.folds_call name ids) span
  | instanceCall base name args span =>
    exact folds_bind base.lower_folded fun id =>
      folds_bind (Expression.lowerAll_folded args) fun ids =>
        folds_emit (Build.folds_instanceCall id name ids) span
  | paren inner span =>
    exact folds_bind inner.lower_folded fun id => folds_emit (Build.folds_paren id) span
  | unary operator operand span =>
    exact folds_bind operand.lower_folded fun id => folds_emit (Build.folds_unary operator id) span
  | binary operator left right span =>
    exact folds_bind left.lower_folded fun id => folds_bind right.lower_folded fun id' =>
      folds_emit (Build.folds_binary operator id id') span
  | ternary c t f span =>
    exact folds_bind c.lower_folded fun id => folds_bind t.lower_folded fun id' =>
      folds_bind f.lower_folded fun id'' => folds_emit (Build.folds_ternary id id' id'') span
  | loop item counter iterated body span =>
    exact folds_bind iterated.lower_folded fun id => folds_bind body.lower_folded fun id' =>
      folds_emit (Build.folds_loop item counter id id') span
  | condition c body span =>
    exact folds_bind c.lower_folded fun id => folds_bind body.lower_folded fun id' =>
      folds_emit (Build.folds_condition id id') span

theorem Expression.lowerAll_folded (es : List Expression) :
    Folds id (Expression.lowerAll es) (Expression.lowerAll (Expression.allFolded es)) := by
  cases es with
  | nil => exact folds_pure rfl
  | cons e rest =>
    exact folds_bind e.lower_folded fun _ => folds_bind (Expression.lowerAll_folded rest) fun _ =>
      folds_pure rfl

theorem Expression.lowerProperties_folded (ps : List (String × Expression)) :
    Folds Build.keyed (Expression.lowerProperties ps)
      (Expression.lowerProperties (Expression.propertiesFolded ps)) := by
  cases ps with
  | nil => exact folds_pure rfl
  | cons p rest =>
    exact folds_bind p.2.lower_folded fun _ =>
      folds_bind (Expression.lowerProperties_folded rest) fun _ => folds_pure rfl

theorem Part.lowerHoles_folded (parts : List Part) :
    Folds id (Part.lowerHoles parts) (Part.lowerHoles (Part.allFolded parts)) := by
  cases parts with
  | nil => exact folds_pure rfl
  | cons part rest =>
    cases part with
    | text piece => exact Part.lowerHoles_folded rest
    | hole e =>
      exact folds_bind e.lower_folded fun _ => folds_bind (Part.lowerHoles_folded rest) fun _ =>
        folds_pure rfl

end

mutual

theorem Declaration.lower_folded (d : Declaration) : Folds id d.lower d.folded.lower := by
  cases d with
  | param name default span =>
    cases default with
    | none =>
      have value : Folds id (pure none : Lowering (Option NodeId)) (pure none) := folds_pure rfl
      exact folds_bind value fun value => folds_emit (Build.folds_param name value) span
    | some e =>
      have value : Folds id (some <$> e.lower) (some <$> e.folded.lower) :=
        folds_bind e.lower_folded fun _ => folds_pure rfl
      exact folds_bind value fun value => folds_emit (Build.folds_param name value) span
  | var name value span =>
    exact folds_bind value.lower_folded fun id => folds_emit (Build.folds_var name id) span
  | resource name type existing body resources span =>
    exact folds_bind body.lower_folded fun id =>
      folds_bind (Declaration.lowerAll_folded resources) fun ids =>
        folds_emit (Build.folds_resource name type existing id ids) span
  | module name path body outputs span =>
    apply folds_bind body.lower_folded
    intro id
    have signature : (outputs.map ModuleOutput.folded).map (fun o => (o.name, o.resource)) =
        (outputs.map fun o => (o.name, o.resource)).map fun o => (o.1, o.2.map Name.key) := by
      simp [ModuleOutput.folded]
    rw [signature]
    exact folds_emit (Build.folds_module name path id _) span
  | output name value span =>
    exact folds_bind value.lower_folded fun id => folds_emit (Build.folds_output name id) span

theorem Declaration.lowerAll_folded (ds : List Declaration) :
    Folds id (Declaration.lowerAll ds) (Declaration.lowerAll (Declaration.allFolded ds)) := by
  cases ds with
  | nil => exact folds_pure rfl
  | cons d rest =>
    exact folds_bind d.lower_folded fun _ => folds_bind (Declaration.lowerAll_folded rest) fun _ =>
      folds_pure rfl

end

theorem Tree.ofProgram_folded (file : String) (program : List Declaration) :
    Tree.ofProgram file (Declaration.allFolded program) =
      (Tree.ofProgram file program).map Tree.folded := by
  have run := Declaration.lowerAll_folded program Build.start
  have start : Build.start.folded = Build.start := by
    simp [Build.start, Builder.folded, Arena.folded, Arena.empty]
  rw [start] at run
  rw [Tree.ofProgram, Tree.ofProgram, run]
  rcases (Declaration.lowerAll program).run.run Build.start with ⟨e | ids, b⟩
  · rfl
  · exact congrArg Except.ok (Build.finish_folded file ids b)

end DeployCheck
