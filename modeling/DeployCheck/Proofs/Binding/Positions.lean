import DeployCheck.Proofs.Analysis.Order
import DeployCheck.Proofs.Binding.Sorts
import DeployCheck.Proofs.Tree.PostOrder

/-!
# Trees that have a model

A tree need not be that of a program: its indices may dangle, and its nodes may be shared.
If no node refers to itself or to a later one, a model can be built exactly if declarations
stand where declarations belong, and expressions everywhere else. The error of a tree
without a model names an index at which this is not so.
-/

set_option autoImplicit false

namespace DeployCheck

open Binder

/-- No node refers to itself or to a later node. The nodes need not be there. -/
def Arena.Descending (a : Arena) : Prop := ∀ p c, a.IsChild p c → c < a.size → c < p

namespace Tree

/-- An index stands where a declaration belongs: in the program, or nested in a resource. -/
inductive DeclarationAt (t : Tree) : NodeId → Prop where
  | top {id : NodeId} (listed : id ∈ t.declarations) : DeclarationAt t id
  | nested {id body c : NodeId} {name : Identifier} {type : String} {existing : Bool}
      {nested : List NodeId} (outer : DeclarationAt t id)
      (here : t.arena.data? id = some (.resource name type existing body nested))
      (member : c ∈ nested) : DeclarationAt t c

/-- An index stands where an expression belongs: in a declaration or in an expression. -/
inductive ExpressionAt (t : Tree) : NodeId → Prop where
  | value {id c : NodeId} {data : NodeData} (outer : t.DeclarationAt id)
      (here : t.arena.data? id = some data) (simple : isSimple data = true)
      (child : c ∈ data.children) : ExpressionAt t c
  | body {id body : NodeId} {name : Identifier} {type : String} {existing : Bool}
      {nested : List NodeId} (outer : t.DeclarationAt id)
      (here : t.arena.data? id = some (.resource name type existing body nested)) :
      ExpressionAt t body
  | operand {id c : NodeId} {data : NodeData} (outer : ExpressionAt t id)
      (here : t.arena.data? id = some data) (sort : data.isDeclaration = false)
      (child : c ∈ data.children) : ExpressionAt t c

structure WellFormed (t : Tree) : Prop where
  root : ∃ declarations, t.arena.data? t.root = some (.program declarations)
  declarations : ∀ id, t.DeclarationAt id → ∃ data, t.arena.data? id = some data ∧
    data.isDeclaration = true ∧ ∀ ids, data ≠ .program ids
  expressions : ∀ id, t.ExpressionAt id → ∃ data, t.arena.data? id = some data ∧
    data.isDeclaration = false

/-- What an error says about a tree. -/
inductive Defect (t : Tree) : ModelError → Prop where
  | noRoot (missing : t.arena.data? t.root = none) : Defect t (.danglingNode t.root)
  | root {data : NodeData} (here : t.arena.data? t.root = some data)
      (other : ∀ ids, data ≠ .program ids) : Defect t (.rootNotProgram t.root data.kindName)
  | dangling {id : NodeId} (place : t.DeclarationAt id ∨ t.ExpressionAt id)
      (missing : t.arena.data? id = none) : Defect t (.danglingNode id)
  | declaration {id : NodeId} {data : NodeData} (place : t.ExpressionAt id)
      (here : t.arena.data? id = some data) (sort : data.isDeclaration = true) :
      Defect t (.declarationInExpression id data.kindName)
  | expression {id : NodeId} {data : NodeData} (place : t.DeclarationAt id)
      (here : t.arena.data? id = some data)
      (other : data.isDeclaration = false ∨ ∃ ids, data = .program ids) :
      Defect t (.expressionInDeclaration id data.kindName)

section WellFormed

variable {t : Tree} (descending : t.arena.Descending)

include descending in
theorem isExpression_of_wellFormed (whole : t.WellFormed) (id : NodeId)
    (place : t.ExpressionAt id) :
    t.arena.IsExpression id := by
  -- The indices descend, so the induction is on the index itself.
  induction id using Nat.strong_induction_on with
  | _ id ih =>
    obtain ⟨data, here, sort⟩ := whole.expressions id place
    refine .intro here sort fun c child => ?_
    have inner : t.ExpressionAt c := .operand place here sort child
    obtain ⟨data', there, _⟩ := whole.expressions c inner
    have down : t.arena.IsChild id c := Arena.isChild_of_data here child
    exact ih c (descending id c down (Arena.data?_lt there)) inner

include descending in
theorem isDeclaration_of_wellFormed (whole : t.WellFormed) (id : NodeId)
    (place : t.DeclarationAt id) : t.arena.IsDeclaration id := by
  have inside := isExpression_of_wellFormed descending whole
  induction id using Nat.strong_induction_on with
  | _ id ih =>
    obtain ⟨data, here, sort, other⟩ := whole.declarations id place
    have simple : isSimple data = true → t.arena.IsDeclaration id := fun simple =>
      .simple here simple fun c child => inside c (.value place here simple child)
    cases data with
    | param _ _ | var _ _ | module _ _ _ _ | output _ _ => exact simple rfl
    | resource name type existing body nested =>
      refine .resource here (inside body (.body place here)) fun c member => ?_
      have inner : t.DeclarationAt c := .nested place here member
      obtain ⟨data', there, _⟩ := whole.declarations c inner
      have down : t.arena.IsChild id c :=
        Arena.isChild_of_data here (List.mem_cons_of_mem body member)
      exact ih c (descending id c down (Arena.data?_lt there)) inner
    | program ids => exact absurd rfl (other ids)
    | _ => cases sort

theorem isDeclaration_of_place (top : ∀ id ∈ t.declarations, t.arena.IsDeclaration id) {id : NodeId}
    (place : t.DeclarationAt id) : t.arena.IsDeclaration id := by
  induction place with
  | top listed => exact top _ listed
  | nested _ here member ih =>
    cases ih with
    | simple here' simple _ =>
      cases here.symm.trans here'
      cases simple
    | resource here' _ under =>
      cases here.symm.trans here'
      exact under _ member

theorem isExpression_of_place (top : ∀ id ∈ t.declarations, t.arena.IsDeclaration id) {id : NodeId}
    (place : t.ExpressionAt id) : t.arena.IsExpression id := by
  induction place with
  | value outer here simple child =>
    cases isDeclaration_of_place top outer with
    | simple here' _ inner =>
      cases here.symm.trans here'
      exact inner _ child
    | resource here' _ _ =>
      cases here.symm.trans here'
      cases simple
  | body outer here =>
    cases isDeclaration_of_place top outer with
    | simple here' simple _ =>
      cases here.symm.trans here'
      cases simple
    | resource here' inner _ =>
      cases here.symm.trans here'
      exact inner
  | operand _ here _ child ih =>
    cases ih with
    | intro here' _ inner =>
      cases here.symm.trans here'
      exact inner _ child

include descending in
theorem wellFormed_iff : t.WellFormed ↔ (∃ ids, t.arena.data? t.root = some (.program ids)) ∧
    ∀ id ∈ t.declarations, t.arena.IsDeclaration id := by
  constructor
  · exact fun whole => ⟨whole.root, fun id listed =>
      isDeclaration_of_wellFormed descending whole id (.top listed)⟩
  · rintro ⟨root, top⟩
    refine ⟨root, fun id place => ?_, fun id place => ?_⟩
    · cases isDeclaration_of_place top place with
      | @simple _ data here simple _ =>
        refine ⟨data, here, ?_, ?_⟩
        · cases data <;> first | rfl | cases simple
        · rintro ids rfl
          cases simple
      | resource here _ _ => exact ⟨_, here, rfl, fun ids same => by cases same⟩
    · cases isExpression_of_place top place with
      | intro here sort _ => exact ⟨_, here, sort⟩

end WellFormed

end Tree

namespace Binder

/-- Work of the binder succeeds only if something holds, and fails only with certain
errors. -/
def Tells {α : Type} (w : Binder α) (good : Prop) (bad : ModelError → Prop) : Prop :=
  ∀ b, match w.run b with
    | .ok _ => good
    | .error e => bad e

section Tells

variable {α β : Type} {w : Binder α} {good good' : Prop} {bad : ModelError → Prop} {tree : Tree}

theorem tells_mono (h : Tells w good bad) (le : good → good') : Tells w good' bad := by
  intro b
  have told := h b
  cases run : w.run b with
  | ok r =>
    rw [run] at told
    exact le told
  | error e =>
    rw [run] at told
    exact told

theorem tells_total (h : Total w) : Tells w True bad := by
  intro b
  obtain ⟨x, b', run⟩ := h b
  rw [show w.run b = .ok (x, b') from run]
  trivial

theorem tells_throw {e : ModelError} (h : bad e) : Tells (throw e : Binder α) good bad := fun _ => h

theorem tells_throw_bind {e : ModelError} {k : α → Binder β} (h : bad e) :
    Tells (throw e >>= k) good bad := fun _ => h

theorem tells_bind {k : α → Binder β} (first : Tells w good bad)
    (rest : good → ∀ x, Tells (k x) good' bad) : Tells (w >>= k) good' bad := by
  intro b
  have told := first b
  rw [StateT.run_bind]
  cases run : w.run b with
  | error e =>
    rw [run] at told
    exact told
  | ok r =>
    rw [run] at told
    exact rest told r.1 r.2

theorem tells_total_bind {k : α → Binder β} (first : Total w) (rest : ∀ x, Tells (k x) good bad) :
    Tells (w >>= k) good bad :=
  tells_bind (tells_total first) fun _ => rest

theorem tells_forM {ι : Type} {f : ι → Binder Unit} {holds : ι → Prop} {is : List ι}
    (h : ∀ i ∈ is, Tells (f i) (holds i) bad) : Tells (is.forM f) (∀ i ∈ is, holds i) bad := by
  induction is with
  | nil => exact tells_mono (tells_total (total_pure ())) fun _ => List.forall_mem_nil _
  | cons i is ih =>
    obtain ⟨first, rest⟩ := List.forall_mem_cons.1 h
    refine tells_bind first fun one _ => tells_mono (ih rest) fun others => ?_
    exact List.forall_mem_cons.2 ⟨one, others⟩

theorem tells_nodeAt_bind {id : NodeId} {k : NodeData → Binder β}
    (missing : tree.arena.data? id = none → bad (.danglingNode id))
    (rest : ∀ data, tree.arena.data? id = some data → Tells (k data) good bad) :
    Tells (nodeAt tree id >>= k) good bad := by
  intro b
  rw [StateT.run_bind, nodeAt]
  cases here : tree.arena.data? id with
  | none => exact missing here
  | some data => exact rest data here b

end Tells

section Positions

variable {tree : Tree}

theorem tells_isCollection {body : NodeId} (place : tree.ExpressionAt body) :
    Tells (isCollection tree body) True tree.Defect :=
  tells_nodeAt_bind (fun missing => .dangling (.inr place) missing)
    fun _ _ => tells_total (total_pure _)

theorem tells_declare (fuel : Nat) (parent : Option SymbolId) {id : NodeId}
    (place : tree.DeclarationAt id) : Tells (declare tree fuel parent id) True tree.Defect := by
  induction fuel generalizing parent id with
  | zero => exact tells_total (total_pure ())
  | succ fuel ih =>
    rw [declare]
    refine tells_nodeAt_bind (fun missing => .dangling (.inl place) missing) fun data here => ?_
    have introduces : ∀ {name : Identifier} {kind : SymbolKind} {k : SymbolId → Binder Unit},
        (∀ symbol, Tells (k symbol) True tree.Defect) →
        Tells (introduce tree (ownerOf parent kind) name id kind >>= fun symbol =>
          bindDeclared id symbol >>= fun _ => k symbol) True tree.Defect := fun rest =>
      tells_total_bind (total_introduce _ _ _ _) fun symbol =>
        tells_total_bind (total_modify _) fun _ => rest symbol
    cases data with
    | param name default | var name value | output name value =>
      exact tells_total_bind (total_pure _) fun _ => introduces fun _ => tells_total (total_pure ())
    | module name path body outputs =>
      have inner : tree.ExpressionAt body := .value place here rfl List.mem_cons_self
      have declared : Tells (declaredKind tree parent id (.module name path body outputs)) True
          tree.Defect := tells_bind (tells_isCollection inner) fun _ _ => tells_total (total_pure _)
      exact tells_bind declared fun _ _ =>
        introduces fun symbol => tells_total (total_declareOutputs id symbol outputs)
    | resource name type existing body nested =>
      have inner : tree.ExpressionAt body := .body place here
      have declared : Tells (declaredKind tree parent id (.resource name type existing body nested))
          True tree.Defect :=
        tells_bind (tells_isCollection inner) fun _ _ =>
          tells_total_bind (total_typeOf _ _) fun _ => tells_total (total_pure _)
      refine tells_bind declared fun _ _ => introduces fun symbol => ?_
      have all : Tells (nested.forM (declare tree fuel (some symbol))) (∀ c ∈ nested, True)
          tree.Defect := tells_forM fun c member => ih (some symbol) (.nested place here member)
      exact tells_mono all fun _ => trivial
    | program ids => exact tells_throw_bind (.expression place here (.inr ⟨ids, rfl⟩))
    | _ => exact tells_throw_bind (.expression place here (.inl rfl))

def Enough (tree : Tree) (fuel id : Nat) : Prop :=
  0 < fuel ∧ (id < tree.arena.size → id + 2 ≤ fuel)

theorem enough_child (descending : tree.arena.Descending) {fuel id c : Nat} {data : NodeData}
    (enough : Enough tree (fuel + 1) id) (here : tree.arena.data? id = some data)
    (child : c ∈ data.children) : Enough tree fuel c := by
  have room := enough.2 (Arena.data?_lt here)
  have down : tree.arena.IsChild id c := Arena.isChild_of_data here child
  refine ⟨by omega, fun inside => ?_⟩
  have := descending id c down inside
  omega

theorem enough_succ {fuel id : Nat} (enough : Enough tree fuel id) : Enough tree (fuel + 1) id :=
  ⟨Nat.succ_pos fuel, fun inside => Nat.le_succ_of_le (enough.2 inside)⟩

theorem tells_bindExpression (descending : tree.arena.Descending) {fuel id : Nat}
    (around : List Frame) (enough : Enough tree fuel id) (place : tree.ExpressionAt id) :
    Tells (bindExpression tree fuel around id) (tree.arena.IsExpression id) tree.Defect := by
  induction fuel generalizing around id with
  | zero => exact absurd enough.1 (Nat.lt_irrefl 0)
  | succ fuel ih =>
    rw [bindExpression]
    refine tells_nodeAt_bind (fun missing => .dangling (.inr place) missing) fun data here => ?_
    cases sort : data.isDeclaration with
    | true => exact tells_throw_bind (.declaration place here sort)
    | false =>
      have inner : ∀ c ∈ data.children, ∀ around,
          Tells (bindExpression tree fuel around c) (tree.arena.IsExpression c) tree.Defect :=
        fun c child around => ih around (enough_child descending enough here child)
          (.operand place here sort child)
      have whole : (∀ c ∈ data.children, tree.arena.IsExpression c) → tree.arena.IsExpression id :=
        .intro here sort
      have all : ∀ around, Tells (data.children.forM (bindExpression tree fuel around))
          (tree.arena.IsExpression id) tree.Defect := fun around =>
        tells_mono (tells_forM fun c child => inner c child around) whole
      simp only [Bool.false_eq_true, if_false]
      cases data with
      | ident name =>
        refine tells_total_bind total_get fun b => ?_
        exact tells_mono (tells_total (total_bindOrReport _ _ _)) fun _ =>
          whole (List.forall_mem_nil _)
      | resourceAccess base name =>
        refine tells_bind (inner base List.mem_cons_self around) fun below _ => ?_
        refine tells_total_bind total_get fun b => ?_
        exact tells_mono (tells_total (total_bindOrReport _ _ _)) fun _ =>
          whole (List.forall_mem_singleton.2 below)
      | loop item index iterated body =>
        refine tells_bind (inner iterated List.mem_cons_self around) fun first _ => ?_
        refine tells_total_bind (total_loopFrame _ _ _) fun frame => ?_
        refine tells_mono (inner body (List.mem_cons_of_mem _ List.mem_cons_self) _) fun last => ?_
        exact whole (List.forall_mem_cons.2 ⟨first, List.forall_mem_singleton.2 last⟩)
      | call name args =>
        by_cases unknown : (Builtin.find? name.name).isNone = true
        · simp only [unknown, if_true]
          exact tells_total_bind (total_modify _) fun _ => all around
        · simp only [unknown]
          exact all around
      | program _ | param _ _ | var _ _ | resource _ _ _ _ _ | module _ _ _ _ | output _ _ =>
        cases sort
      | _ => exact all around

theorem tells_bindDeclaration (descending : tree.arena.Descending) {fuel id : Nat}
    (around : List Frame) (enough : Enough tree fuel id) (place : tree.DeclarationAt id) :
    Tells (bindDeclaration tree fuel around id) (tree.arena.IsDeclaration id) tree.Defect := by
  induction fuel generalizing around id with
  | zero => exact absurd enough.1 (Nat.lt_irrefl 0)
  | succ fuel ih =>
    rw [bindDeclaration]
    refine tells_nodeAt_bind (fun missing => .dangling (.inl place) missing) fun data here => ?_
    have simple : isSimple data = true →
        Tells (data.children.forM (bindExpression tree (fuel + 1) around))
          (tree.arena.IsDeclaration id) tree.Defect := fun simple =>
      tells_mono (tells_forM fun c child => tells_bindExpression descending around
        (enough_succ (enough_child descending enough here child))
        (.value place here simple child)) fun below => .simple here simple below
    cases data with
    | param _ _ | var _ _ | module _ _ _ _ | output _ _ => exact simple rfl
    | resource name type existing body nested =>
      refine tells_total_bind total_get fun b => ?_
      have inside : Enough tree (fuel + 1) body :=
        enough_succ (enough_child descending enough here List.mem_cons_self)
      refine tells_bind (tells_bindExpression descending _ inside (.body place here))
        fun inner _ => ?_
      refine tells_mono (tells_forM fun c member => ?_) fun under => .resource here inner under
      exact ih _ (enough_child descending enough here (List.mem_cons_of_mem body member))
        (.nested place here member)
    | program ids => exact tells_throw (.expression place here (.inr ⟨ids, rfl⟩))
    | _ => exact tells_throw (.expression place here (.inl rfl))

theorem tells_program (descending : tree.arena.Descending) {ids : List NodeId}
    (root : tree.arena.data? tree.root = some (.program ids)) :
    Tells (program tree ids) (∀ id ∈ ids, tree.arena.IsDeclaration id) tree.Defect := by
  have listed : tree.declarations = ids := by rw [Tree.declarations, root]
  have top : ∀ id ∈ ids, tree.DeclarationAt id := fun id member => .top (listed ▸ member)
  have declared : Tells (ids.forM (declare tree (tree.arena.size + 1) none)) (∀ id ∈ ids, True)
      tree.Defect := tells_forM fun id member => tells_declare _ none (top id member)
  refine tells_bind declared fun _ _ => tells_forM fun id member => ?_
  have down : ∀ id ∈ ids, id < tree.arena.size → id < tree.root := fun id member =>
    descending tree.root id (Arena.isChild_of_data root member)
  have last := Arena.data?_lt root
  refine tells_bindDeclaration descending [] ⟨Nat.succ_pos _, fun inside => ?_⟩ (top id member)
  have := down id member inside
  omega

end Positions

end Binder

theorem Bound.ofTree_tells {tree : Tree} (descending : tree.arena.Descending) :
    match Bound.ofTree tree with
    | .ok _ => tree.WellFormed
    | .error e => tree.Defect e := by
  rw [Bound.ofTree]
  cases root : tree.arena.data? tree.root with
  | none => exact .noRoot root
  | some data =>
    cases data with
    | program ids =>
      have told := Binder.tells_program descending root (.start tree.arena.size)
      have listed : tree.declarations = ids := by rw [Tree.declarations, root]
      simp only
      cases run : (Binder.program tree ids).run (.start tree.arena.size) with
      | error e =>
        rw [run] at told
        exact told
      | ok r =>
        rw [run] at told
        exact (Tree.wellFormed_iff descending).2 ⟨⟨ids, root⟩, listed.symm ▸ told⟩
    | _ => exact .root root fun ids same => by cases same

theorem Bound.ofTree_iff {tree : Tree} (descending : tree.arena.Descending) :
    (∃ b, Bound.ofTree tree = .ok b) ↔ tree.WellFormed := by
  constructor
  · rintro ⟨b, bound⟩
    have told := Bound.ofTree_tells descending
    rwa [bound] at told
  · intro whole
    obtain ⟨⟨ids, root⟩, sorts⟩ := (Tree.wellFormed_iff descending).1 whole
    rw [Tree.declarations, root] at sorts
    exact ofTree_of_sorts root sorts

theorem Model.build_of_bound {tree : Tree} {b : Bound} (bound : Bound.ofTree tree = .ok b)
    (catalog : Catalog) : ∃ m, Model.build tree catalog = .ok m ∧ m.bound = b := by
  exact ⟨_, Model.build_eq_ok_iff.2 ⟨b, bound, rfl⟩, rfl⟩

theorem Model.build_error {tree : Tree} {catalog : Catalog} {e : ModelError}
    (failed : Model.build tree catalog = .error e) : Bound.ofTree tree = .error e := by
  cases bound : Bound.ofTree tree with
  | error e' =>
    rw [Model.build, bound] at failed
    cases failed
    rfl
  | ok b =>
    obtain ⟨m, built, _⟩ := Model.build_of_bound bound catalog
    cases built.symm.trans failed

/-- If no node refers to itself or to a later one, exactly the well-formed trees have models,
and the error of a tree without a model names a defect. After binding nothing fails. -/
theorem Model.build_iff_wellFormed {tree : Tree} (descending : tree.arena.Descending)
    (catalog : Catalog) :
    ((∃ m, Model.build tree catalog = .ok m) ↔ tree.WellFormed) ∧
      (∀ e, Model.build tree catalog = .error e → tree.Defect e) ∧
      ∀ b, Bound.ofTree tree = .ok b → ∃ m, Model.build tree catalog = .ok m ∧ m.bound = b := by
  refine ⟨⟨?_, ?_⟩, fun e failed => ?_, fun b bound => build_of_bound bound catalog⟩
  · rintro ⟨m, built⟩
    obtain ⟨rfl, bound, _⟩ := Analysis.build_ok built
    exact (Bound.ofTree_iff descending).1 ⟨m.bound, bound⟩
  · intro whole
    obtain ⟨b, bound⟩ := (Bound.ofTree_iff descending).2 whole
    obtain ⟨m, built, _⟩ := build_of_bound bound catalog
    exact ⟨m, built⟩
  · have told := Bound.ofTree_tells descending
    rwa [build_error failed] at told

def sharedArena : Arena :=
  ⟨#[⟨default, .int 1⟩, ⟨default, .array [0, 0]⟩, ⟨default, .output default 1⟩,
    ⟨default, .property 9 default⟩, ⟨default, .program [2]⟩, ⟨default, .program [2, 3]⟩]⟩

instance (a : Arena) : Decidable a.Descending :=
  decidable_of_iff (∀ p < a.size, ∀ c ∈ a.children p, c < a.size → c < p) <| by
    constructor
    · intro all p c child inside
      by_cases here : p < a.size
      · exact all p here c child inside
      · have missing : a.nodes[p]? = none := Array.getElem?_eq_none (Nat.le_of_not_lt here)
        rw [Arena.IsChild, Arena.children, Arena.data?, missing] at child
        cases child
    · exact fun all p _ c child inside => all p c child inside

theorem sharedArena_descending : sharedArena.Descending := by
  decide

theorem sharedArena_models :
    (Tree.mk "main.json" sharedArena 4).WellFormed ∧
      (Tree.mk "main.json" sharedArena 5).Defect (.expressionInDeclaration 3 "property") := by
  have built : (Model.build ⟨"main.json", sharedArena, 4⟩ .empty).toOption.isSome = true := by
    decide +kernel
  have failed : (match Model.build ⟨"main.json", sharedArena, 5⟩ .empty with
      | .error e => some e
      | .ok _ => none) = some (.expressionInDeclaration 3 "property") := by
    decide +kernel
  obtain ⟨m, built⟩ := Option.isSome_iff_exists.1 built
  constructor
  · apply (Model.build_iff_wellFormed sharedArena_descending .empty).1.1
    exact ⟨m, ok_of_toOption built⟩
  · cases result : Model.build ⟨"main.json", sharedArena, 5⟩ .empty with
    | ok m =>
      rw [result] at failed
      cases failed
    | error e =>
      rw [result] at failed
      cases failed
      exact (Model.build_iff_wellFormed sharedArena_descending .empty).2.1 _ result

end DeployCheck
