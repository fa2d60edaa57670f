import DeployCheck.Proofs.Binding.Scoping
import DeployCheck.Proofs.Tree.Lowering

/-!
# Declarations and expressions

Lowering puts declarations where declarations belong, and expressions everywhere
else. On such a tree the binder never fails.
-/

set_option autoImplicit false

namespace DeployCheck

open Binder

inductive Shape.IsExpression : Shape → Prop where
  | node {label : NodeData} {below : List Shape} (sort : label.isDeclaration = false)
      (inner : ∀ s ∈ below, s.IsExpression) : IsExpression (.node label below)

/-- Only resources have declarations below them, behind their bodies. -/
inductive Shape.IsDeclaration : Shape → Prop where
  | simple {label : NodeData} {below : List Shape} (simple : isSimple label = true)
      (inner : ∀ s ∈ below, s.IsExpression) : IsDeclaration (.node label below)
  | resource {name : Identifier} {type : String} {existing : Bool} {body : NodeId}
      {nested : List NodeId} {inside : Shape} {under : List Shape} (inner : inside.IsExpression)
      (below : ∀ s ∈ under, s.IsDeclaration) :
      IsDeclaration (.node (.resource name type existing body nested) (inside :: under))

mutual

theorem Expression.shape_isExpression (e : Expression) : e.shape.IsExpression := by
  cases e with
  | string value parts span => exact .node rfl (Part.shapes_areExpressions parts)
  | int _ _ | bool _ _ | null _ | ident _ _ => exact .node rfl (List.forall_mem_nil _)
  | array items span => exact .node rfl (Expression.shapes_areExpressions items)
  | object properties span => exact .node rfl (Expression.propertyShapes_areExpressions properties)
  | property base _ _ | resourceAccess base _ _ | paren base _ | unary _ base _ =>
    exact .node rfl (List.forall_mem_singleton.2 base.shape_isExpression)
  | call name args span => exact .node rfl (Expression.shapes_areExpressions args)
  | instanceCall base name args span =>
    exact .node rfl (List.forall_mem_cons.2
      ⟨base.shape_isExpression, Expression.shapes_areExpressions args⟩)
  | index left right _ | binary _ left right _ | loop _ _ left right _ | condition left right _ =>
    exact .node rfl (List.forall_mem_cons.2
      ⟨left.shape_isExpression, List.forall_mem_singleton.2 right.shape_isExpression⟩)
  | ternary c t f span =>
    exact .node rfl (List.forall_mem_cons.2 ⟨c.shape_isExpression, List.forall_mem_cons.2
      ⟨t.shape_isExpression, List.forall_mem_singleton.2 f.shape_isExpression⟩⟩)

theorem Expression.shapes_areExpressions (es : List Expression) :
    ∀ s ∈ Expression.shapes es, s.IsExpression := by
  cases es with
  | nil => exact List.forall_mem_nil _
  | cons e rest =>
    exact List.forall_mem_cons.2 ⟨e.shape_isExpression, Expression.shapes_areExpressions rest⟩

theorem Expression.propertyShapes_areExpressions (ps : List (String × Expression)) :
    ∀ s ∈ Expression.propertyShapes ps, s.IsExpression := by
  cases ps with
  | nil => exact List.forall_mem_nil _
  | cons p rest =>
    obtain ⟨key, e⟩ := p
    exact List.forall_mem_cons.2
      ⟨e.shape_isExpression, Expression.propertyShapes_areExpressions rest⟩

theorem Part.shapes_areExpressions (parts : List Part) :
    ∀ s ∈ Part.shapes parts, s.IsExpression := by
  cases parts with
  | nil => exact List.forall_mem_nil _
  | cons part rest =>
    cases part with
    | text piece => exact Part.shapes_areExpressions rest
    | hole e =>
      exact List.forall_mem_cons.2 ⟨e.shape_isExpression, Part.shapes_areExpressions rest⟩

end

mutual

theorem Declaration.shape_isDeclaration (d : Declaration) : d.shape.IsDeclaration := by
  cases d with
  | param name default span =>
    cases default with
    | none => exact .simple rfl (List.forall_mem_nil _)
    | some e => exact .simple rfl (List.forall_mem_singleton.2 e.shape_isExpression)
  | var _ e _ | module _ _ e _ _ | output _ e _ =>
    exact .simple rfl (List.forall_mem_singleton.2 e.shape_isExpression)
  | resource name type existing body resources span =>
    exact .resource body.shape_isExpression (Declaration.shapes_areDeclarations resources)

theorem Declaration.shapes_areDeclarations (ds : List Declaration) :
    ∀ s ∈ Declaration.shapes ds, s.IsDeclaration := by
  cases ds with
  | nil => exact List.forall_mem_nil _
  | cons d rest =>
    exact List.forall_mem_cons.2 ⟨d.shape_isDeclaration, Declaration.shapes_areDeclarations rest⟩

end

namespace Arena

inductive IsExpression (a : Arena) : Nat → Prop where
  | intro {id : Nat} {data : NodeData} (here : a.data? id = some data)
      (sort : data.isDeclaration = false) (inner : ∀ c : Nat, c ∈ data.children → a.IsExpression c) :
      IsExpression a id

inductive IsDeclaration (a : Arena) : Nat → Prop where
  | simple {id : Nat} {data : NodeData} (here : a.data? id = some data)
      (simple : isSimple data = true) (inner : ∀ c : Nat, c ∈ data.children → a.IsExpression c) :
      IsDeclaration a id
  | resource {id body : Nat} {name : Identifier} {type : String} {existing : Bool}
      {nested : List Nat} (here : a.data? id = some (.resource name type existing body nested))
      (inner : a.IsExpression body) (under : ∀ c ∈ nested, a.IsDeclaration c) : IsDeclaration a id

variable {a : Arena} {lo hi : Nat} {shapes : List Shape} {ids : List Nat}

theorem lays_closed {p : Nat → Prop} (h : Lays a lo shapes ids hi)
    (step : ∀ n data, p n → a.data? n = some data → ∀ c : Nat, c ∈ data.children → p c)
    (top : ∀ id ∈ ids, p id) : ∀ n, lo ≤ n → n < hi → p n := by
  induction h with
  | nil => omega
  | @cons lo id hi data below shapes ids here whole under beside ihu ihb =>
    obtain ⟨first, rest⟩ := List.forall_mem_cons.1 top
    intro n above behind
    rcases Nat.lt_trichotomy n id with before | rfl | after
    · exact ihu (step id data first here) n above before
    · exact first
    · exact ihb rest n after behind

theorem isDeclaration_label (data : NodeData) : data.label.isDeclaration = data.isDeclaration := by
  cases data <;> rfl

theorem isSimple_of_label {data : NodeData} (h : isSimple data.label = true) :
    isSimple data = true := by
  cases data <;> first | rfl | cases h

theorem forall_of_paired {α β : Type} {p : α → Prop} {q : β → Prop} {as : List α} {bs : List β}
    (h : List.Forall₂ (fun a b => p a → q b) as bs) (all : ∀ a ∈ as, p a) : ∀ b ∈ bs, q b := by
  induction h with
  | nil => exact List.forall_mem_nil _
  | cons one _ ih =>
    obtain ⟨first, rest⟩ := List.forall_mem_cons.1 all
    exact List.forall_mem_cons.2 ⟨one first, ih rest⟩

theorem lays_sorts (h : Lays a lo shapes ids hi) :
    List.Forall₂ (fun shape id => shape.IsExpression → a.IsExpression id) shapes ids ∧
      List.Forall₂ (fun shape id => shape.IsDeclaration → a.IsDeclaration id) shapes ids := by
  induction h with
  | nil => exact ⟨.nil, .nil⟩
  | @cons lo id hi data below shapes ids here whole under beside ihu ihb =>
    obtain ⟨expressions, declarations⟩ := ihu
    refine ⟨.cons (fun sort => ?_) ihb.1, .cons (fun sort => ?_) ihb.2⟩
    · cases sort with
      | node sort inner =>
        rw [isDeclaration_label] at sort
        exact .intro here sort (forall_of_paired expressions inner)
    · generalize label : data.label = top at sort
      cases sort with
      | simple simple inner =>
        rw [← label] at simple
        exact .simple here (isSimple_of_label simple) (forall_of_paired expressions inner)
      | resource inner nested =>
        cases data with
        | resource name type existing body resources =>
          rw [NodeData.children] at expressions declarations
          cases expressions with
          | cons body _ =>
            cases declarations with
            | cons _ rest => exact .resource here (body inner) (forall_of_paired rest nested)
        | _ => cases label

theorem lays_expressions (h : Lays a lo shapes ids hi) (all : ∀ id ∈ ids, a.IsExpression id) :
    ∀ n, lo ≤ n → n < hi → a.IsExpression n := by
  refine lays_closed (p := a.IsExpression) h ?_ all
  intro n data expression here
  cases expression with
  | intro here' _ inner =>
    cases here.symm.trans here'
    exact inner

end Arena

theorem Tree.ofProgram_sorts {file : String} {program : List Declaration} {tree : Tree}
    (h : Tree.ofProgram file program = .ok tree) :
    ∀ id ∈ tree.declarations, tree.arena.IsDeclaration id := by
  obtain ⟨ids, root, laid, _⟩ := Tree.ofProgram_lays h
  rw [Tree.declarations, root]
  exact Arena.forall_of_paired (Arena.lays_sorts laid).2 (Declaration.shapes_areDeclarations program)

namespace Binder

def Total {α : Type} (w : Binder α) : Prop := ∀ b, ∃ x b', Runs w b x b'

section Total

variable {α β : Type} {tree : Tree}

theorem total_pure (x : α) : Total (pure x : Binder α) := fun b => ⟨x, b, runs_pure.2 ⟨rfl, rfl⟩⟩

theorem total_bind {w : Binder α} {k : α → Binder β} (first : Total w) (rest : ∀ x, Total (k x)) :
    Total (w >>= k) := by
  intro b
  obtain ⟨x, b', run⟩ := first b
  obtain ⟨y, b'', run'⟩ := rest x b'
  exact ⟨y, b'', runs_bind.2 ⟨x, b', run, run'⟩⟩

theorem total_get : Total (get : Binder Bound) := fun b => ⟨b, b, runs_get.2 ⟨rfl, rfl⟩⟩

theorem total_modify (f : Bound → Bound) : Total (modify f : Binder Unit) :=
  fun _ => ⟨(), _, runs_modify.2 rfl⟩

theorem total_forM {ι : Type} {f : ι → Binder Unit} {is : List ι} (h : ∀ i ∈ is, Total (f i)) :
    Total (is.forM f) := by
  induction is with
  | nil => exact total_pure ()
  | cons i is ih =>
    obtain ⟨first, rest⟩ := List.forall_mem_cons.1 h
    exact total_bind first fun _ => ih rest

theorem total_nodeAt_bind {id : NodeId} {data : NodeData} {k : NodeData → Binder β}
    (here : tree.arena.data? id = some data) (rest : Total (k data)) :
    Total (nodeAt tree id >>= k) := by
  intro b
  obtain ⟨y, b', run⟩ := rest b
  exact ⟨y, b', runs_bind.2 ⟨data, b, runs_nodeAt.2 ⟨here, rfl⟩, run⟩⟩

theorem total_introduce (owner : Owner) (name : Identifier) (declaration : NodeId)
    (kind : SymbolKind) : Total (introduce tree owner name declaration kind) :=
  fun _ => ⟨_, _, runs_introduce.2 ⟨rfl, rfl⟩⟩

theorem total_bindOrReport (node : NodeId) (name : Identifier) (symbol : Option SymbolId) :
    Total (bindOrReport tree node name symbol) := by
  cases symbol with
  | some id => exact total_modify _
  | none => exact total_modify _

theorem total_loopFrame (loop : NodeId) (item : Identifier) (index : Option Identifier) :
    Total (loopFrame loop item index) := by
  have added : ∀ symbol, Total (addSymbol symbol) := fun symbol b => ⟨_, _, rfl⟩
  cases index with
  | none => exact total_bind (added _) fun _ => total_pure _
  | some index => exact total_bind (added _) fun _ => total_bind (added _) fun _ => total_pure _

theorem total_bindExpression {id : Nat} (expression : tree.arena.IsExpression id) (fuel : Nat)
    (around : List Frame) : Total (bindExpression tree fuel around id) := by
  induction expression generalizing fuel around with
  | @intro id data here sort inner ih =>
    cases fuel with
    | zero => exact total_pure ()
    | succ fuel =>
      rw [bindExpression]
      apply total_nodeAt_bind here
      simp only [sort]
      cases data with
      | ident name => exact total_bind total_get fun b => total_bindOrReport _ _ _
      | resourceAccess base name =>
        apply total_bind (ih base (by simp [NodeData.children]) fuel around)
        exact fun _ => total_bind total_get fun b => total_bindOrReport _ _ _
      | loop item index iterated body =>
        apply total_bind (ih iterated (by simp [NodeData.children]) fuel around)
        intro _
        apply total_bind (total_loopFrame _ _ _)
        exact fun frame => ih body (by simp [NodeData.children]) fuel (frame :: around)
      | call name args =>
        have rest : Total (args.forM (bindExpression tree fuel around)) :=
          total_forM fun c hc => ih c hc fuel around
        by_cases unknown : (Builtin.find? name.name).isNone = true
        · simp only [unknown, if_true]
          exact total_bind (total_modify _) fun _ => rest
        · simp only [unknown]
          exact rest
      | program _ | param _ _ | var _ _ | resource _ _ _ _ _ | module _ _ _ _ | output _ _ =>
        cases sort
      | _ => exact total_forM fun c hc => ih c hc fuel around

theorem total_bindDeclaration {id : Nat} (declaration : tree.arena.IsDeclaration id) (fuel : Nat)
    (around : List Frame) : Total (bindDeclaration tree fuel around id) := by
  induction declaration generalizing fuel around with
  | @simple id data here simple inner =>
    cases fuel with
    | zero => exact total_pure ()
    | succ fuel =>
      have rest : Total (data.children.forM (bindExpression tree (fuel + 1) around)) :=
        total_forM fun c hc => total_bindExpression (inner c hc) (fuel + 1) around
      rw [bindDeclaration]
      apply total_nodeAt_bind here
      cases data with
      | param _ _ | var _ _ | module _ _ _ _ | output _ _ => exact rest
      | _ => cases simple
  | @resource id body name type existing nested here inner under ih =>
    cases fuel with
    | zero => exact total_pure ()
    | succ fuel =>
      rw [bindDeclaration]
      apply total_nodeAt_bind here
      apply total_bind total_get
      intro b
      apply total_bind (total_bindExpression inner (fuel + 1) _)
      exact fun _ => total_forM fun c hc => ih c hc fuel _

theorem total_typeOf (text : String) (parent : Option SymbolId) : Total (typeOf text parent) :=
  total_bind total_get fun _ => total_pure _

theorem total_declareOutputs (declaration : NodeId) (module : SymbolId)
    (outputs : List OutputSignature) : Total (declareOutputs tree declaration module outputs) := by
  induction outputs with
  | nil => exact total_pure ()
  | cons o rest ih =>
    rw [declareOutputs]
    cases o.resource with
    | none => exact ih
    | some type =>
      apply total_bind (total_typeOf _ _)
      intro reference
      exact total_bind (total_bind (total_introduce _ _ _ _) fun _ => total_pure ()) fun _ => ih

theorem total_declare {id : Nat} (declaration : tree.arena.IsDeclaration id) (fuel : Nat)
    (parent : Option SymbolId) : Total (declare tree fuel parent id) := by
  have collection : ∀ {body : Nat}, tree.arena.IsExpression body → Total (isCollection tree body) := by
    intro body expression
    cases expression with
    | intro here _ _ => exact total_nodeAt_bind here (total_pure _)
  induction declaration generalizing fuel parent with
  | @simple id data here simple inner =>
    cases fuel with
    | zero => exact total_pure ()
    | succ fuel =>
      rw [declare]
      apply total_nodeAt_bind here
      cases data with
      | param _ _ | var _ _ | output _ _ =>
        apply total_bind (total_pure _)
        intro _
        apply total_bind (total_introduce _ _ _ _)
        exact fun _ => total_bind (total_modify _) fun _ => total_pure ()
      | module name path body outputs =>
        apply total_bind (total_bind (collection (inner body (by simp [NodeData.children])))
          fun _ => total_pure _)
        intro _
        apply total_bind (total_introduce _ _ _ _)
        exact fun _ => total_bind (total_modify _) fun _ => total_declareOutputs _ _ _
      | _ => cases simple
  | @resource id body name type existing nested here inner under ih =>
    cases fuel with
    | zero => exact total_pure ()
    | succ fuel =>
      rw [declare]
      apply total_nodeAt_bind here
      apply total_bind (total_bind (collection inner) fun _ => total_bind (total_typeOf _ _)
        fun _ => total_pure _)
      intro _
      apply total_bind (total_introduce _ _ _ _)
      intro symbol
      exact total_bind (total_modify _) fun _ => total_forM fun c hc => ih c hc fuel _

theorem ofTree_of_sorts {ids : List NodeId}
    (root : tree.arena.data? tree.root = some (.program ids))
    (sorts : ∀ id ∈ ids, tree.arena.IsDeclaration id) : ∃ b, Bound.ofTree tree = .ok b := by
  have total : Total (Binder.program tree ids) := by
    apply total_bind
    · exact total_forM fun id member => total_declare (sorts id member) _ none
    · exact fun _ => total_forM fun id member => total_bindDeclaration (sorts id member) _ []
  obtain ⟨_, b, run⟩ := total (.start tree.arena.size)
  refine ⟨b, ?_⟩
  rw [Bound.ofTree, root]
  show ((Binder.program tree ids).run _).map Prod.snd = .ok b
  rw [run]
  rfl

theorem ofTree_total {file : String} {program : List Declaration}
    (lowered : Tree.ofProgram file program = .ok tree) : ∃ b, Bound.ofTree tree = .ok b := by
  obtain ⟨ids, root, _, _⟩ := Tree.ofProgram_lays lowered
  have sorts := Tree.ofProgram_sorts lowered
  rw [Tree.declarations, root] at sorts
  exact ofTree_of_sorts root sorts

end Total

end Binder

end DeployCheck
