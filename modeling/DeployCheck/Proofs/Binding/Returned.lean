import DeployCheck.Proofs.Binding.Declaring

/-!
# What modules own

Only the outputs of a module that are resources are declared in its scope. So whatever the
tree, all symbols that belong to a module are those of resources that exist.
-/

set_option autoImplicit false

namespace DeployCheck.Binder

def Preserves {α : Type} (p : Bound → Prop) (w : Binder α) : Prop :=
  ∀ b x b', Runs w b x b' → p b → p b'

section Preserves

variable {α β : Type} {p : Bound → Prop} {w : Binder α} {tree : Tree}

theorem preserves_pure (x : α) : Preserves p (pure x) := by
  intro b y b' run holds
  obtain ⟨_, rfl⟩ := runs_pure.1 run
  exact holds

theorem preserves_throw (e : ModelError) : Preserves p (throw e : Binder α) :=
  fun _ _ _ run => absurd run runs_throw

theorem preserves_throw_bind {e : ModelError} {k : α → Binder β} :
    Preserves p (throw e >>= k) := fun _ _ _ run => absurd run runs_throw

theorem preserves_get : Preserves p get := by
  intro b s b' run holds
  obtain ⟨_, rfl⟩ := runs_get.1 run
  exact holds

theorem preserves_bind {k : α → Binder β} (first : Preserves p w) (rest : ∀ x, Preserves p (k x)) :
    Preserves p (w >>= k) := by
  intro b y b'' run holds
  obtain ⟨x, b', run, run'⟩ := runs_bind.1 run
  exact rest x b' y b'' run' (first b x b' run holds)

theorem preserves_forM {ι : Type} {f : ι → Binder Unit} (step : ∀ i, Preserves p (f i))
    (is : List ι) : Preserves p (is.forM f) := by
  induction is with
  | nil => exact preserves_pure ()
  | cons i is ih => exact preserves_bind (step i) fun _ => ih

theorem preserves_nodeAt (id : NodeId) : Preserves p (nodeAt tree id) := by
  intro b data b' run holds
  obtain ⟨_, rfl⟩ := runs_nodeAt.1 run
  exact holds

theorem preserves_modify {f : Bound → Bound} (keeps : ∀ b, p b → p (f b)) :
    Preserves p (modify f) := by
  intro b _ b' run holds
  rw [runs_modify.1 run]
  exact keeps b holds

end Preserves

def Returned (s : Symbol) : Prop :=
  ∀ m, s.owner = .module m → ∃ type, s.kind = .resource type true false

def OwnsReturned (b : Bound) : Prop := ∀ s ∈ b.symbols, Returned s

section Returned

variable {tree : Tree}

theorem ownsReturned_push {b : Bound} {s : Symbol} (owns : OwnsReturned b) (returned : Returned s) :
    ∀ s' ∈ b.symbols.push s, Returned s' := by
  intro s' member
  rcases Array.mem_push.1 member with member | rfl
  · exact owns s' member
  · exact returned

theorem preserves_introduce {owner : Owner} {name : Identifier} {declaration : NodeId}
    {kind : SymbolKind} (returned : Returned ⟨name.name, declaration, owner, kind⟩) :
    Preserves OwnsReturned (introduce tree owner name declaration kind) := by
  intro b id b' run owns
  obtain ⟨_, rfl⟩ := runs_introduce.1 run
  exact ownsReturned_push owns returned

theorem preserves_bindOrReport (node : NodeId) (name : Identifier) (symbol : Option SymbolId) :
    Preserves OwnsReturned (bindOrReport tree node name symbol) := by
  cases symbol with
  | some id => exact preserves_modify fun _ owns => owns
  | none => exact preserves_modify fun _ owns => owns

theorem preserves_loopFrame (loop : NodeId) (item : Identifier) (index : Option Identifier) :
    Preserves OwnsReturned (loopFrame loop item index) := by
  have added : ∀ {s : Symbol}, s.owner = .loop loop → Preserves OwnsReturned (addSymbol s) := by
    intro s owned b id b' run owns
    cases run
    exact ownsReturned_push owns fun m other => by cases owned.symm.trans other
  cases index with
  | none => exact preserves_bind (added rfl) fun _ => preserves_pure _
  | some index =>
    exact preserves_bind (added rfl) fun _ => preserves_bind (added rfl) fun _ => preserves_pure _

theorem preserves_typeOf (text : String) (parent : Option SymbolId) :
    Preserves OwnsReturned (typeOf text parent) :=
  preserves_bind preserves_get fun _ => preserves_pure _

theorem preserves_isCollection (body : NodeId) :
    Preserves OwnsReturned (isCollection tree body) :=
  preserves_bind (preserves_nodeAt body) fun _ => preserves_pure _

theorem preserves_declaredKind (parent : Option SymbolId) (id : NodeId) (data : NodeData) :
    Preserves OwnsReturned (declaredKind tree parent id data) := by
  cases data with
  | module _ _ body _ =>
    exact preserves_bind (preserves_isCollection body) fun _ => preserves_pure _
  | resource _ type _ body _ =>
    exact preserves_bind (preserves_isCollection body) fun _ =>
      preserves_bind (preserves_typeOf type parent) fun _ => preserves_pure _
  | param _ _ | var _ _ | output _ _ => exact preserves_pure _
  | _ => exact preserves_throw _

theorem preserves_declareOutputs (declaration : NodeId) (module : SymbolId)
    (outputs : List OutputSignature) :
    Preserves OwnsReturned (declareOutputs tree declaration module outputs) := by
  induction outputs with
  | nil => exact preserves_pure ()
  | cons o rest ih =>
    rw [declareOutputs]
    cases o.resource with
    | none => exact ih
    | some type =>
      refine preserves_bind (preserves_typeOf type none) fun reference => ?_
      have returned : Returned ⟨o.name.name, declaration, .module module,
          .resource reference true false⟩ := fun _ _ => ⟨reference, rfl⟩
      exact preserves_bind
        (preserves_bind (preserves_introduce returned) fun _ => preserves_pure ())
        fun _ => ih

theorem preserves_declare (fuel : Nat) (parent : Option SymbolId) (id : NodeId) :
    Preserves OwnsReturned (declare tree fuel parent id) := by
  induction fuel generalizing parent id with
  | zero => exact preserves_pure ()
  | succ fuel ih =>
    rw [declare]
    refine preserves_bind (preserves_nodeAt id) fun data => ?_
    refine preserves_bind (preserves_declaredKind parent id data) fun declared => ?_
    have returned : Returned ⟨declared.1.name, id, ownerOf parent declared.2, declared.2⟩ := by
      intro m owned
      cases parent <;> cases kind : declared.2 <;> rw [kind] at owned <;> cases owned
    refine preserves_bind (preserves_introduce returned) fun symbol => ?_
    refine preserves_bind (preserves_modify fun _ owns => owns) fun _ => ?_
    cases data with
    | resource _ _ _ _ nested => exact preserves_forM (fun c => ih (some symbol) c) nested
    | module _ _ _ outputs => exact preserves_declareOutputs id symbol outputs
    | _ => exact preserves_pure ()

theorem preserves_bindExpression (fuel : Nat) (around : List Frame) (id : NodeId) :
    Preserves OwnsReturned (bindExpression tree fuel around id) := by
  induction fuel generalizing around id with
  | zero => exact preserves_pure ()
  | succ fuel ih =>
    rw [bindExpression]
    refine preserves_bind (preserves_nodeAt id) fun data => ?_
    have all : ∀ ids : List NodeId,
        Preserves OwnsReturned (ids.forM (bindExpression tree fuel around)) :=
      preserves_forM fun c => ih around c
    by_cases sort : data.isDeclaration = true
    · simp only [sort, if_true]
      exact preserves_throw_bind
    · simp only [sort]
      cases data with
      | ident name =>
        exact preserves_bind preserves_get fun _ => preserves_bindOrReport _ _ _
      | resourceAccess base name =>
        refine preserves_bind (ih around base) fun _ => ?_
        exact preserves_bind preserves_get fun _ => preserves_bindOrReport _ _ _
      | loop item index iterated body =>
        refine preserves_bind (ih around iterated) fun _ => ?_
        refine preserves_bind (preserves_loopFrame id item index) fun frame => ?_
        exact ih (frame :: around) body
      | call name args =>
        by_cases unknown : (Builtin.find? name.name).isNone = true
        · simp only [unknown, if_true]
          exact preserves_bind (preserves_modify fun _ owns => owns) fun _ => all args
        · simp only [unknown]
          exact all args
      | _ => exact all _

theorem preserves_bindDeclaration (fuel : Nat) (around : List Frame) (id : NodeId) :
    Preserves OwnsReturned (bindDeclaration tree fuel around id) := by
  induction fuel generalizing around id with
  | zero => exact preserves_pure ()
  | succ fuel ih =>
    rw [bindDeclaration]
    refine preserves_bind (preserves_nodeAt id) fun data => ?_
    have all : ∀ ids : List NodeId,
        Preserves OwnsReturned (ids.forM (bindExpression tree (fuel + 1) around)) :=
      preserves_forM fun c => preserves_bindExpression (fuel + 1) around c
    cases data with
    | resource _ _ _ body nested =>
      refine preserves_bind preserves_get fun b => ?_
      refine preserves_bind (preserves_bindExpression (fuel + 1) _ body) fun _ => ?_
      exact preserves_forM (fun c => ih _ c) nested
    | param _ _ | var _ _ | module _ _ _ _ | output _ _ => exact all _
    | _ => exact preserves_throw _

theorem ownsReturned_ofTree {b : Bound} (bound : Bound.ofTree tree = .ok b) : OwnsReturned b := by
  rw [Bound.ofTree] at bound
  cases root : tree.arena.data? tree.root with
  | none =>
    rw [root] at bound
    cases bound
  | some data =>
    rw [root] at bound
    cases data with
    | program ids =>
      simp only at bound
      have whole : Preserves OwnsReturned (Binder.program tree ids) :=
        preserves_bind (preserves_forM (fun c => preserves_declare _ none c) ids) fun _ =>
          preserves_forM (fun c => preserves_bindDeclaration _ [] c) ids
      cases run : (Binder.program tree ids).run (.start tree.arena.size) with
      | error e =>
        rw [run] at bound
        cases bound
      | ok r =>
        rw [run] at bound
        cases bound
        exact whole _ r.1 r.2 run fun s member => absurd member (Array.not_mem_empty s)
    | _ => cases bound

end Returned

end DeployCheck.Binder
