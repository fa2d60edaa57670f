import DeployCheck.Proofs.Binding.Declaring

/-!
# Binding corresponding trees

The binder takes the same steps for two trees whose nodes correspond, in whatever way their
numbers, the case of their names and their types differ. What a step does to the two states
is all that has to be known of them.
-/

set_option autoImplicit false

namespace DeployCheck

def Owner.mapped (node : Nat → Nat) : Owner → Owner
  | .loop n => .loop (node n)
  | owner => owner

def SymbolKind.mapped (node : Nat → Nat) (type : TypeReference → TypeReference) :
    SymbolKind → SymbolKind
  | .loopItem loop => .loopItem (node loop)
  | .loopIndex loop => .loopIndex (node loop)
  | .resource reference existing collection => .resource (type reference) existing collection
  | kind => kind

def Symbol.mapped (node : Nat → Nat) (type : TypeReference → TypeReference) (s : Symbol) : Symbol :=
  ⟨s.name, node s.declaration, s.owner.mapped node, s.kind.mapped node type⟩

theorem Owner.mapped_inj {node : Nat → Nat} (inj : Function.Injective node) {owner owner' : Owner} :
    owner.mapped node = owner'.mapped node ↔ owner = owner' := by
  cases owner <;> cases owner' <;> simp [mapped, inj.eq_iff]

theorem Symbol.mapped_id (s : Symbol) : s.mapped id id = s := by
  obtain ⟨name, declaration, owner, kind⟩ := s
  cases owner <;> cases kind <;> rfl

namespace Symbol

variable (node : Nat → Nat) (type : TypeReference → TypeReference) (s : Symbol)

theorem type?_mapped : (s.mapped node type).type? = s.type?.map type := by
  rw [type?, type?, mapped]
  cases s.kind <;> rfl

theorem isResourceOrModule_mapped :
    (s.mapped node type).isResourceOrModule = s.isResourceOrModule := by
  rw [isResourceOrModule, isResourceOrModule, mapped]
  cases s.kind <;> rfl

theorem isCollection_mapped : (s.mapped node type).isCollection = s.isCollection := by
  rw [isCollection, isCollection, mapped]
  cases s.kind <;> rfl

theorem isModule_mapped : (s.mapped node type).isModule = s.isModule := by
  rw [isModule, isModule, mapped]
  cases s.kind <;> rfl

theorem isExistingResource_mapped :
    (s.mapped node type).isExistingResource = s.isExistingResource := by
  rw [isExistingResource, isExistingResource, mapped]
  cases s.kind <;> rfl

theorem parent?_mapped : (s.mapped node type).parent? = s.parent? := by
  rw [parent?, parent?, mapped]
  cases s.owner <;> rfl

theorem module?_mapped : (s.mapped node type).module? = s.module? := by
  rw [module?, module?, mapped]
  cases s.owner <;> rfl

end Symbol

namespace Bound

variable {node : Nat → Nat} {type : TypeReference → TypeReference} {b b' : Bound}
  (symbols : b'.symbols = b.symbols.map (Symbol.mapped node type))

include symbols

theorem symbol?_mapped (id : SymbolId) :
    b'.symbol? id = (b.symbol? id).map (Symbol.mapped node type) := by
  rw [symbol?, symbol?, symbols, Array.getElem?_map]

theorem member?_mapped (inj : Function.Injective node) (owner : Owner) {name name' : String}
    (same : Name.same name name' = true) :
    b'.member? (owner.mapped node) name' = b.member? owner name := by
  rw [member?_congr b owner same, member?, member?, symbols, Array.findIdx?_map]
  congr 1
  funext s
  have owners : ((s.mapped node type).owner == owner.mapped node) = (s.owner == owner) := by
    rw [Bool.eq_iff_iff, beq_iff_eq, beq_iff_eq]
    exact Owner.mapped_inj inj
  rw [Function.comp_apply, owners]
  rfl

end Bound

/-- An expression of which the binder visits the children and nothing else. -/
def NodeData.isPassive : NodeData → Bool
  | .ident _ | .resourceAccess .. | .loop .. | .call .. => false
  | data => !data.isDeclaration

theorem NodeData.isPassive_declaration {data : NodeData} (declaration : data.isDeclaration = true) :
    data.isPassive = false := by
  cases data <;> first | rfl | cases declaration

theorem NodeData.isPassive_loop {data : NodeData} (passive : data.isPassive = true) :
    data.isLoop = false := by
  cases data <;> first | rfl | cases passive

namespace Binder

variable {α β γ δ : Type}

/-- Where a piece of work succeeds, so does the other one from every state that corresponds, and
their results and the states afterwards correspond. -/
def Simulates (S : Bound → Bound → Prop) (r : α → β → Prop) (w : Binder α) (w' : Binder β) : Prop :=
  ∀ b b' x c, S b b' → Runs w b x c → ∃ x' c', r x x' ∧ Runs w' b' x' c' ∧ S c c'

section Simulates

variable {S : Bound → Bound → Prop} {r : α → β → Prop} {q : γ → δ → Prop}

theorem simulates_pure {x : α} {y : β} (related : r x y) : Simulates S r (pure x) (pure y) := by
  intro b b' z c h run
  obtain ⟨rfl, rfl⟩ := runs_pure.1 run
  exact ⟨y, b', related, runs_pure.2 ⟨rfl, rfl⟩, h⟩

theorem simulates_bind {w : Binder α} {w' : Binder β} {k : α → Binder γ} {k' : β → Binder δ}
    (first : Simulates S r w w') (rest : ∀ x x', r x x' → Simulates S q (k x) (k' x')) :
    Simulates S q (w >>= k) (w' >>= k') := by
  intro b b' z c h run
  obtain ⟨x, b₁, run, later⟩ := runs_bind.1 run
  obtain ⟨x', b₁', related, run', h'⟩ := first b b' x b₁ h run
  obtain ⟨z', c', related', later', h''⟩ := rest x x' related b₁ b₁' z c h' later
  exact ⟨z', c', related', runs_bind.2 ⟨x', b₁', run', later'⟩, h''⟩

theorem simulates_get {k : Bound → Binder γ} {k' : Bound → Binder δ}
    (rest : ∀ b b', S b b' → Simulates S q (k b) (k' b')) :
    Simulates S q (get >>= k) (get >>= k') := by
  intro b b' z c h run
  obtain ⟨_, _, got, later⟩ := runs_bind.1 run
  obtain ⟨rfl, rfl⟩ := runs_get.1 got
  obtain ⟨z', c', related, later', h'⟩ := rest _ b' h _ b' z c h later
  exact ⟨z', c', related, runs_bind.2 ⟨b', b', runs_get.2 ⟨rfl, rfl⟩, later'⟩, h'⟩

theorem simulates_modify {m m' : Bound → Bound} (h : ∀ b b', S b b' → S (m b) (m' b')) :
    Simulates S Eq (modify m : Binder Unit) (modify m') := by
  intro b b' z c before run
  obtain rfl := runs_modify.1 run
  exact ⟨z, m' b', rfl, runs_modify.2 rfl, h b b' before⟩

theorem simulates_discard {w : Binder α} {w' : Binder β} (h : Simulates S r w w') :
    Simulates S Eq (discard w) (discard w') := by
  show Simulates S Eq (w >>= fun _ => pure ()) (w' >>= fun _ => pure ())
  exact simulates_bind h fun _ _ _ => simulates_pure rfl

theorem simulates_throw (error : ModelError) (w' : Binder β) : Simulates S r (throw error) w' :=
  fun _ _ _ _ _ run => absurd run runs_throw

theorem simulates_forM {ι κ : Type} {g : ι → κ} {k : ι → Binder Unit} {k' : κ → Binder Unit}
    {is : List ι} (h : ∀ i ∈ is, Simulates S Eq (k i) (k' (g i))) :
    Simulates S Eq (is.forM k) ((is.map g).forM k') := by
  induction is with
  | nil => exact simulates_pure rfl
  | cons i is ih =>
    obtain ⟨first, rest⟩ := List.forall_mem_cons.1 h
    exact simulates_bind first fun _ _ _ => ih rest

theorem simulates_nodeAt {t t' : Tree} {x x' : NodeId} {k : NodeData → Binder γ}
    {k' : NodeData → Binder δ}
    (rest : ∀ data, t.arena.data? x = some data →
      ∃ data', t'.arena.data? x' = some data' ∧ Simulates S q (k data) (k' data')) :
    Simulates S q (nodeAt t x >>= k) (nodeAt t' x' >>= k') := by
  intro b b' z c h run
  obtain ⟨data, _, at', later⟩ := runs_bind.1 run
  obtain ⟨here, rfl⟩ := runs_nodeAt.1 at'
  obtain ⟨data', there, simulates⟩ := rest data here
  obtain ⟨z', c', related, later', h'⟩ := simulates _ b' z c h later
  exact ⟨z', c', related, runs_bind.2 ⟨data', b', runs_nodeAt.2 ⟨there, rfl⟩, later'⟩, h'⟩

end Simulates

section Equations

variable {t : Tree} {x : NodeId} (fuel : Nat) (around : List Frame)

theorem bindExpression_passive {data : NodeData} (here : t.arena.data? x = some data)
    (passive : data.isPassive = true) : bindExpression t (fuel + 1) around x =
      data.children.forM (bindExpression t fuel around) := by
  rw [bindExpression, nodeAt, here]
  cases data <;> first | rfl | cases passive

theorem bindExpression_ident {name : Identifier} (here : t.arena.data? x = some (.ident name)) :
    bindExpression t (fuel + 1) around x =
      (get >>= fun b => bindOrReport t x name (lookup b around name.name)) := by
  rw [bindExpression, nodeAt, here]
  rfl

theorem bindExpression_access {base : NodeId} {name : Identifier}
    (here : t.arena.data? x = some (.resourceAccess base name)) :
    bindExpression t (fuel + 1) around x = (do
      bindExpression t fuel around base
      let b ← get
      bindOrReport t x name ((b.nameSymbol? base).bind (b.child? · name.name))) := by
  rw [bindExpression, nodeAt, here]
  rfl

theorem bindExpression_loop {item : Identifier} {index : Option Identifier} {iterated body : NodeId}
    (here : t.arena.data? x = some (.loop item index iterated body)) :
    bindExpression t (fuel + 1) around x = (do
      bindExpression t fuel around iterated
      let frame ← loopFrame x item index
      bindExpression t fuel (frame :: around) body) := by
  rw [bindExpression, nodeAt, here]
  rfl

theorem bindExpression_call {name : Identifier} {args : List NodeId}
    (here : t.arena.data? x = some (.call name args)) :
    bindExpression t (fuel + 1) around x = (do
      if (Builtin.find? name.name).isNone then report t name .unknownName
      args.forM (bindExpression t fuel around)) := by
  rw [bindExpression, nodeAt, here]
  rfl

theorem bindExpression_declaration {data : NodeData} (here : t.arena.data? x = some data)
    (declaration : data.isDeclaration = true) : bindExpression t (fuel + 1) around x =
      throw (.declarationInExpression x data.kindName) := by
  rw [bindExpression, nodeAt, here]
  cases data <;> first | rfl | cases declaration

end Equations

/-- How one tree is found in another one: where a node stands and what stands in its place, how
types are changed and written, and which names are those of declarations and of uses. -/
structure Correspondence where
  node : Nat → Nat
  place : Nat → Nat
  type : TypeReference → TypeReference
  text : String → String
  declared : Identifier → Identifier → Prop
  used : Identifier → Identifier → Prop

namespace Correspondence

variable (c : Correspondence)

inductive Nodes : NodeData → NodeData → Prop where
  | program (ds : List Nat) : Nodes (.program ds) (.program (ds.map c.place))
  | param {name name' : Identifier} (d : Option Nat) (same : c.declared name name') :
      Nodes (.param name d) (.param name' (d.map c.place))
  | var {name name' : Identifier} (x : Nat) (same : c.declared name name') :
      Nodes (.var name x) (.var name' (c.place x))
  | output {name name' : Identifier} (x : Nat) (same : c.declared name name') :
      Nodes (.output name x) (.output name' (c.place x))
  | resource {name name' : Identifier} (type : String) (existing : Bool) (x : Nat) (ds : List Nat)
      (same : c.declared name name') : Nodes (.resource name type existing x ds)
        (.resource name' (c.text type) existing (c.place x) (ds.map c.place))
  | module {name name' : Identifier} (path : String) (x : Nat) {os os' : List OutputSignature}
      (same : c.declared name name') (outputs : List.Forall₂
        (fun o o' => c.declared o.name o'.name ∧ o'.resource = o.resource.map c.text) os os') :
      Nodes (.module name path x os) (.module name' path (c.place x) os')
  | ident {name name' : Identifier} (same : c.used name name') : Nodes (.ident name) (.ident name')
  | access {name name' : Identifier} (x : Nat) (same : c.used name name') :
      Nodes (.resourceAccess x name) (.resourceAccess (c.place x) name')
  | call {name name' : Identifier} (xs : List Nat) (same : c.used name name') :
      Nodes (.call name xs) (.call name' (xs.map c.place))
  | loop {item item' : Identifier} {index index' : Option Identifier} (x y : Nat)
      (same : item.name = item'.name)
      (sameIndex : index.map Identifier.name = index'.map Identifier.name) :
      Nodes (.loop item index x y) (.loop item' index' (c.place x) (c.place y))
  | passive {data data' : NodeData} (passive : data.isPassive = true)
      (passive' : data'.isPassive = true) (children : data'.children = data.children.map c.place) :
      Nodes data data'

variable {c}

theorem Nodes.children {data data' : NodeData} (h : c.Nodes data data') :
    data'.children = data.children.map c.place := by
  cases h with
  | param d _ => cases d <;> rfl
  | passive _ _ children => exact children
  | _ => rfl

end Correspondence

/-- The nodes that are kept say the same for the binder, and about what stands in the places of
their children. Of the others the binder only visits the children. -/
structure Corresponds (c : Correspondence) (kept : Nat → Prop) (t t' : Tree) : Prop where
  inj : Function.Injective c.node
  nodes : ∀ x data, kept x → t.arena.data? x = some data →
    ∃ data', t'.arena.data? (c.node x) = some data' ∧ c.Nodes data data'
  others : ∀ x data, ¬kept x → t.arena.data? x = some data → data.isPassive = true ∧
    ∃ data', t'.arena.data? (c.node x) = some data' ∧ data'.isPassive = true
  stays : ∀ x data, t.arena.data? x = some data → data.isDeclaration = true →
    ∀ y ∈ data.children, c.place y = c.node y
  less : ∀ x data, kept x → t.arena.data? x = some data → ∀ y ∈ data.children,
    y < x ∧ c.place y < c.node x
  declared : ∀ i i', c.declared i i' → i.name = i'.name
  used : ∀ i i', c.used i i' → Name.same i.name i'.name = true
  typed : ∀ text around,
    TypeReference.ofText (c.text text) (around.map c.type) = c.type (.ofText text around)

namespace Corresponds

variable {c : Correspondence} {kept : Nat → Prop} {t t' : Tree} (h : Corresponds c kept t t')
  {x : Nat} {data : NodeData}

include h

theorem there (here : t.arena.data? x = some data) :
    ∃ data', t'.arena.data? (c.node x) = some data' := by
  by_cases keep : kept x
  · obtain ⟨data', there, _⟩ := h.nodes x data keep here
    exact ⟨data', there⟩
  · obtain ⟨_, data', there, _⟩ := h.others x data keep here
    exact ⟨data', there⟩

theorem keeps (here : t.arena.data? x = some data) (declaration : data.isDeclaration = true) :
    kept x := by
  by_contra lost
  cases (h.others x data lost here).1.symm.trans (NodeData.isPassive_declaration declaration)

theorem nested {name : Identifier} {type : String} {existing : Bool} {y : Nat} {ds : List Nat}
    (here : t.arena.data? x = some (.resource name type existing y ds)) :
    ds.map c.place = ds.map c.node :=
  List.map_congr_left fun z member => h.stays x _ here rfl z (List.mem_cons_of_mem _ member)

end Corresponds

structure Simulation (c : Correspondence) (kept : Nat → Prop) (t t' : Tree)
    (S : Bound → Bound → Prop) : Prop extends Corresponds c kept t t' where
  symbols : ∀ {b b'}, S b b' → b'.symbols = b.symbols.map (Symbol.mapped c.node c.type)
  declarations : ∀ {b b'}, S b b' → ∀ x, b'.declarationSymbol? (c.node x) = b.declarationSymbol? x
  push : ∀ {b b'}, S b b' → ∀ s : Symbol, S { b with symbols := b.symbols.push s }
    { b' with symbols := b'.symbols.push (s.mapped c.node c.type) }
  report : ∀ {i i'}, c.declared i i' ∨ c.used i i' → ∀ rule,
    Simulates S Eq (Binder.report t i rule) (Binder.report t' i' rule)
  bindDeclared : ∀ x < t.arena.size, ∀ symbol,
    Simulates S Eq (Binder.bindDeclared x symbol) (Binder.bindDeclared (c.node x) symbol)
  bindIdent : ∀ {x i i'}, t.arena.data? x = some (.ident i) → c.used i i' →
    ∀ {found found' : Bound → Option SymbolId}, (∀ b b', S b b' → found' b' = found b) →
    Simulates S Eq (get >>= fun b => bindOrReport t x i (found b))
      (get >>= fun b' => bindOrReport t' (c.node x) i' (found' b'))
  bindAccess : ∀ {x y i i'}, kept x → t.arena.data? x = some (.resourceAccess y i) → c.used i i' →
    Simulates S Eq
      (get >>= fun b => bindOrReport t x i ((b.nameSymbol? y).bind (b.child? · i.name)))
      (get >>= fun b' => bindOrReport t' (c.node x) i'
        ((b'.nameSymbol? (c.place y)).bind (b'.child? · i'.name)))

def Expressions (c : Correspondence) (t t' : Tree) (S : Bound → Bound → Prop) (fuel : Nat) : Prop :=
  ∀ {fuel' : Nat} (around : List Frame) {x : Nat}, x < fuel → c.place x < fuel' →
    Simulates S Eq (bindExpression t fuel around x) (bindExpression t' fuel' around (c.place x))

section Simulation

variable {c : Correspondence} {kept : Nat → Prop} {t t' : Tree} {S : Bound → Bound → Prop}
  (h : Simulation c kept t t' S)

include h

theorem simulates_addSymbol (s : Symbol) :
    Simulates S Eq (addSymbol s) (addSymbol (s.mapped c.node c.type)) := by
  intro b b' id a states run
  cases run
  refine ⟨b'.symbols.size, _, ?_, rfl, h.push states s⟩
  rw [h.symbols states, Array.size_map]

theorem simulates_introduce (owner : Owner) {name name' : Identifier}
    (same : c.declared name name') (declaration : NodeId) (kind : SymbolKind) :
    Simulates S Eq (introduce t owner name declaration kind)
      (introduce t' (owner.mapped c.node) name' (c.node declaration)
        (kind.mapped c.node c.type)) := by
  have names := h.declared _ _ same
  rw [introduce, introduce]
  apply simulates_get
  intro b b' states
  rw [← names, Bound.member?_mapped (h.symbols states) h.inj owner (Name.same_refl name.name)]
  apply simulates_bind (simulates_addSymbol h ⟨name.name, declaration, owner, kind⟩)
  rintro symbol _ rfl
  cases (b.member? owner name.name).isSome with
  | false => exact simulates_pure rfl
  | true => exact simulates_bind (h.report (.inl same) .duplicateName) fun _ _ _ => simulates_pure rfl

theorem simulates_typeOf (text : String) (parent : Option SymbolId) :
    Simulates S (fun type type' => type' = c.type type) (typeOf text parent)
      (typeOf (c.text text) parent) := by
  apply simulates_get
  intro b b' states
  have around : (parent.bind b'.symbol?).bind Symbol.type? =
      ((parent.bind b.symbol?).bind Symbol.type?).map c.type := by
    cases parent with
    | none => rfl
    | some parent =>
      rw [Option.bind_some, Option.bind_some, Bound.symbol?_mapped (h.symbols states)]
      cases b.symbol? parent with
      | none => rfl
      | some symbol => exact symbol.type?_mapped c.node c.type
  apply simulates_pure
  rw [around]
  exact h.typed text _

theorem simulates_isCollection (x : Nat) :
    Simulates S Eq (isCollection t x) (isCollection t' (c.node x)) := by
  apply simulates_nodeAt
  intro data here
  by_cases keep : kept x
  · obtain ⟨data', there, nodes⟩ := h.nodes x data keep here
    refine ⟨data', there, simulates_pure ?_⟩
    cases nodes with
    | passive one other _ => rw [NodeData.isPassive_loop one, NodeData.isPassive_loop other]
    | _ => rfl
  · obtain ⟨one, data', there, other⟩ := h.others x data keep here
    refine ⟨data', there, simulates_pure ?_⟩
    rw [NodeData.isPassive_loop one, NodeData.isPassive_loop other]

theorem simulates_declaredKind (parent : Option SymbolId) {x : Nat} {data data' : NodeData}
    (here : t.arena.data? x = some data) (declaration : data.isDeclaration = true)
    (nodes : c.Nodes data data') :
    Simulates S (fun head head' => c.declared head.1 head'.1 ∧
        head'.2 = head.2.mapped c.node c.type ∧ ownerOf parent head'.2 = ownerOf parent head.2 ∧
          (ownerOf parent head.2).mapped c.node = ownerOf parent head.2)
      (declaredKind t parent x data) (declaredKind t' parent (c.node x) data') := by
  have stays := h.stays x data here
  cases nodes with
  | param d same | var x same | output x same =>
    exact simulates_pure ⟨same, rfl, rfl, by cases parent <;> rfl⟩
  | module path y same outputs =>
    rw [stays rfl y List.mem_cons_self]
    apply simulates_bind (simulates_isCollection h y)
    rintro collection _ rfl
    exact simulates_pure ⟨same, rfl, rfl, by cases parent <;> rfl⟩
  | resource type existing y ds same =>
    rw [stays rfl y List.mem_cons_self]
    apply simulates_bind (simulates_isCollection h y)
    rintro collection _ rfl
    apply simulates_bind (simulates_typeOf h type parent)
    rintro reference _ rfl
    exact simulates_pure ⟨same, rfl, by cases parent <;> rfl, by cases parent <;> rfl⟩
  | passive passive => cases passive.symm.trans (NodeData.isPassive_declaration declaration)
  | _ => exact simulates_throw _ _

theorem simulates_declareOutputs (declaration : NodeId) (module : SymbolId)
    {outputs outputs' : List OutputSignature} (same : List.Forall₂
      (fun o o' => c.declared o.name o'.name ∧ o'.resource = o.resource.map c.text)
      outputs outputs') :
    Simulates S Eq (declareOutputs t declaration module outputs)
      (declareOutputs t' (c.node declaration) module outputs') := by
  induction same with
  | nil => exact simulates_pure rfl
  | @cons o o' rest rest' one _ ih =>
    rw [declareOutputs, declareOutputs, one.2]
    cases o.resource with
    | none => exact ih
    | some type =>
      apply simulates_bind (simulates_typeOf h type none)
      rintro reference _ rfl
      have introduced : Simulates S Eq
          (introduce t (.module module) o.name declaration (.resource reference true false))
          (introduce t' (.module module) o'.name (c.node declaration)
            (.resource (c.type reference) true false)) :=
        simulates_introduce h (.module module) one.1 declaration (.resource reference true false)
      exact simulates_bind (simulates_discard introduced) fun _ _ _ => ih

theorem simulates_declare (fuel : Nat) {fuel' : Nat} (parent : Option SymbolId) {x : Nat}
    (low : x < fuel) (low' : c.node x < fuel') :
    Simulates S Eq (declare t fuel parent x) (declare t' fuel' parent (c.node x)) := by
  induction fuel generalizing fuel' parent x with
  | zero => omega
  | succ fuel ih =>
    cases fuel' with
    | zero => omega
    | succ fuel' =>
      rw [declare, declare]
      apply simulates_nodeAt
      intro data here
      by_cases declaration : data.isDeclaration = true
      case neg =>
        obtain ⟨data', there⟩ := h.there here
        refine ⟨data', there, simulates_bind (r := fun _ _ => False) ?_ fun _ _ => False.elim⟩
        cases data <;> first | exact simulates_throw _ _ | exact absurd rfl declaration
      have keep := h.keeps here declaration
      obtain ⟨data', there, nodes⟩ := h.nodes x data keep here
      refine ⟨data', there, ?_⟩
      apply simulates_bind (simulates_declaredKind h parent here declaration nodes)
      rintro ⟨name, kind⟩ ⟨name', kind'⟩ ⟨same, kinds, owner, fixed⟩
      dsimp only at same kinds owner fixed ⊢
      have introduced := simulates_introduce h (ownerOf parent kind) same x kind
      rw [fixed, ← kinds] at introduced
      rw [owner]
      apply simulates_bind introduced
      rintro symbol _ rfl
      apply simulates_bind (h.bindDeclared x (Arena.data?_lt here) symbol)
      intro _ _ _
      cases nodes with
      | resource type existing y ds same =>
        show Simulates S Eq (ds.forM _) ((ds.map c.place).forM _)
        rw [h.nested here]
        apply simulates_forM
        intro z member
        obtain ⟨less, less'⟩ := h.less x _ keep here z (List.mem_cons_of_mem _ member)
        rw [h.stays x _ here rfl z (List.mem_cons_of_mem _ member)] at less'
        exact ih (some symbol) (Nat.lt_of_lt_of_le less (Nat.le_of_lt_succ low))
          (Nat.lt_of_lt_of_le less' (Nat.le_of_lt_succ low'))
      | module path y same outputs => exact simulates_declareOutputs h x symbol outputs
      | passive passive => cases passive.symm.trans (NodeData.isPassive_declaration declaration)
      | _ => exact simulates_pure rfl

theorem lookup_mapped {b b' : Bound} (states : S b b') (around : List Frame)
    {name name' : String} (same : Name.same name name' = true) :
    lookup b' around name' = lookup b around name := by
  have frame : Frame.lookup b' name' = Frame.lookup b name := by
    funext frame
    cases frame with
    | nested resource => exact Bound.member?_mapped (h.symbols states) h.inj (.resource resource) same
    | locals entries =>
      have keys := (Name.same_iff name name').1 same
      simp only [Frame.lookup, Name.same, keys]
  rw [lookup, lookup, frame]
  exact congrArg _ (Bound.member?_mapped (h.symbols states) h.inj .program same)

theorem simulates_loopFrame (loop : NodeId) {item item' : Identifier}
    {index index' : Option Identifier} (same : item.name = item'.name)
    (sameIndex : index.map Identifier.name = index'.map Identifier.name) :
    Simulates S Eq (loopFrame loop item index) (loopFrame (c.node loop) item' index') := by
  have locals : ∀ (name : String) (kind : SymbolKind), Simulates S Eq
      (addSymbol ⟨name, loop, .loop loop, kind⟩)
      (addSymbol ⟨name, c.node loop, .loop (c.node loop), kind.mapped c.node c.type⟩) :=
    fun name kind => simulates_addSymbol h ⟨name, loop, .loop loop, kind⟩
  rw [loopFrame, loopFrame, ← same]
  apply simulates_bind (locals item.name (.loopItem loop))
  rintro symbol _ rfl
  cases index with
  | none =>
    cases index' with
    | none => exact simulates_pure rfl
    | some _ => cases sameIndex
  | some index =>
    cases index' with
    | none => cases sameIndex
    | some index' =>
      have named : index.name = index'.name := Option.some.inj sameIndex
      dsimp only
      rw [← named]
      apply simulates_bind (locals index.name (.loopIndex loop))
      rintro symbol _ rfl
      exact simulates_pure rfl

theorem simulates_node {fuel fuel' : Nat} (ih : Expressions c t t' S fuel) (around : List Frame)
    {x : Nat} (keep : kept x) (low : x ≤ fuel) (low' : c.node x ≤ fuel') :
    Simulates S Eq (bindExpression t (fuel + 1) around x)
      (bindExpression t' (fuel' + 1) around (c.node x)) := by
  cases here : t.arena.data? x with
  | none =>
    rw [bindExpression, bindExpression]
    apply simulates_nodeAt
    intro data found
    cases here.symm.trans found
  | some data =>
    obtain ⟨data', there, nodes⟩ := h.nodes x data keep here
    have inner : ∀ around, ∀ y ∈ data.children, Simulates S Eq (bindExpression t fuel around y)
        (bindExpression t' fuel' around (c.place y)) := by
      intro around y child
      obtain ⟨less, less'⟩ := h.less x data keep here y child
      exact ih around (Nat.lt_of_lt_of_le less low) (Nat.lt_of_lt_of_le less' low')
    have below : Simulates S Eq (data.children.forM (bindExpression t fuel around))
        (data'.children.forM (bindExpression t' fuel' around)) := by
      rw [nodes.children]
      exact simulates_forM (inner around)
    cases nodes with
    | passive one other _ =>
      rw [bindExpression_passive _ _ here one, bindExpression_passive _ _ there other]
      exact below
    | ident same =>
      rw [bindExpression_ident _ _ here, bindExpression_ident _ _ there]
      exact h.bindIdent here same fun b b' states => lookup_mapped h states around (h.used _ _ same)
    | access y same =>
      rw [bindExpression_access _ _ here, bindExpression_access _ _ there]
      exact simulates_bind (inner around y List.mem_cons_self) fun _ _ _ => h.bindAccess keep here same
    | loop y z same sameIndex =>
      rw [bindExpression_loop _ _ here, bindExpression_loop _ _ there]
      apply simulates_bind (inner around y List.mem_cons_self)
      intro _ _ _
      apply simulates_bind (simulates_loopFrame h x same sameIndex)
      rintro frame _ rfl
      exact inner (frame :: around) z (List.mem_cons_of_mem _ List.mem_cons_self)
    | call ys same =>
      rw [bindExpression_call _ _ here, bindExpression_call _ _ there,
        ← Builtin.find?_congr (h.used _ _ same)]
      split
      · exact simulates_bind (h.report (.inr same) .unknownName) fun _ _ _ => below
      · exact below
    | _ =>
      rw [bindExpression_declaration _ _ here rfl]
      exact simulates_throw _ _

/-- Expressions are bound alike if those are that are not kept or have something else in their
place. -/
theorem simulates_expressions (special : ∀ (fuel : Nat) {fuel' : Nat} (around : List Frame)
      {x : Nat}, Expressions c t t' S fuel → ¬kept x ∨ c.place x ≠ c.node x → x ≤ fuel →
        c.place x ≤ fuel' → Simulates S Eq (bindExpression t (fuel + 1) around x)
          (bindExpression t' (fuel' + 1) around (c.place x))) (fuel : Nat) :
    Expressions c t t' S fuel := by
  induction fuel with
  | zero => exact fun _ _ low _ => absurd low (Nat.not_lt_zero _)
  | succ fuel ih =>
    intro fuel' around x low low'
    cases fuel' with
    | zero => exact absurd low' (Nat.not_lt_zero _)
    | succ fuel' =>
      replace low := Nat.le_of_lt_succ low
      replace low' := Nat.le_of_lt_succ low'
      by_cases regular : kept x ∧ c.place x = c.node x
      · rw [regular.2] at low' ⊢
        exact simulates_node h ih around regular.1 low low'
      · exact special fuel around ih (not_and_or.1 regular) low low'

section Programs

variable (expressions : ∀ fuel, Expressions c t t' S fuel)

include expressions

theorem simulates_bindDeclaration (fuel : Nat) {fuel' : Nat} (around : List Frame) {x : Nat}
    (low : x < fuel) (low' : c.node x < fuel') :
    Simulates S Eq (bindDeclaration t fuel around x)
      (bindDeclaration t' fuel' around (c.node x)) := by
  induction fuel generalizing fuel' around x with
  | zero => omega
  | succ fuel ih =>
    cases fuel' with
    | zero => omega
    | succ fuel' =>
      rw [bindDeclaration, bindDeclaration]
      apply simulates_nodeAt
      intro data here
      by_cases declaration : data.isDeclaration = true
      case neg =>
        obtain ⟨data', there⟩ := h.there here
        refine ⟨data', there, ?_⟩
        cases data <;> first | exact simulates_throw _ _ | exact absurd rfl declaration
      have keep := h.keeps here declaration
      obtain ⟨data', there, nodes⟩ := h.nodes x data keep here
      refine ⟨data', there, ?_⟩
      have less := h.less x data keep here
      have inner : ∀ around, ∀ y ∈ data.children,
          Simulates S Eq (bindExpression t (fuel + 1) around y)
            (bindExpression t' (fuel' + 1) around (c.place y)) := fun around y child =>
        expressions _ around (Nat.lt_trans (less y child).1 low)
          (Nat.lt_trans (less y child).2 low')
      have below : Simulates S Eq (data.children.forM (bindExpression t (fuel + 1) around))
          (data'.children.forM (bindExpression t' (fuel' + 1) around)) := by
        rw [nodes.children]
        exact simulates_forM (inner around)
      cases nodes with
      | resource type existing y ds same =>
        apply simulates_get
        intro b b' states
        simp only [h.declarations states]
        apply simulates_bind (inner _ y List.mem_cons_self)
        intro _ _ _
        rw [h.nested here]
        apply simulates_forM
        intro z member
        obtain ⟨less, less'⟩ := less z (List.mem_cons_of_mem _ member)
        rw [h.stays x _ here rfl z (List.mem_cons_of_mem _ member)] at less'
        exact ih _ (Nat.lt_of_lt_of_le less (Nat.le_of_lt_succ low))
          (Nat.lt_of_lt_of_le less' (Nat.le_of_lt_succ low'))
      | param | var | output | module => exact below
      | passive passive => cases passive.symm.trans (NodeData.isPassive_declaration declaration)
      | _ => exact simulates_throw _ _

theorem simulates_program {ds : List NodeId}
    (here : t.arena.data? t.root = some (.program ds)) :
    Simulates S Eq (program t ds) (program t' (ds.map c.place)) := by
  have keep := h.keeps here rfl
  have stays := h.stays t.root _ here rfl
  have same : ds.map c.place = ds.map c.node := List.map_congr_left stays
  obtain ⟨_, there, _⟩ := h.nodes t.root _ keep here
  have low : ∀ y ∈ ds, y < t.arena.size + 1 ∧ c.node y < t'.arena.size + 1 := by
    intro y member
    obtain ⟨less, less'⟩ := h.less t.root _ keep here y member
    rw [stays y member] at less'
    exact ⟨Nat.lt_succ_of_lt (Nat.lt_trans less (Arena.data?_lt here)),
      Nat.lt_succ_of_lt (Nat.lt_trans less' (Arena.data?_lt there))⟩
  rw [program, program, same]
  apply simulates_bind
  · exact simulates_forM fun y member =>
      simulates_declare h _ none (low y member).1 (low y member).2
  · intro _ _ _
    exact simulates_forM fun y member =>
      simulates_bindDeclaration h expressions _ [] (low y member).1 (low y member).2

end Programs

end Simulation

end Binder

open Binder in
/-- What is bound in a tree is bound alike in a tree that corresponds to it. -/
theorem Bound.ofTree_simulated {c : Correspondence} {kept : Nat → Prop} {t t' : Tree}
    {S : Bound → Bound → Prop} (h : Simulation c kept t t' S)
    (expressions : ∀ fuel, Expressions c t t' S fuel) (root : t'.root = c.node t.root)
    (start : S (.start t.arena.size) (.start t'.arena.size)) {b : Bound}
    (bound : Bound.ofTree t = .ok b) : ∃ b', Bound.ofTree t' = .ok b' ∧ S b b' := by
  rw [Bound.ofTree] at bound
  split at bound
  · cases bound
  · next ds here =>
    obtain ⟨data', there, nodes⟩ := h.nodes t.root _ (h.keeps here rfl) here
    cases run : (program t ds).run (.start t.arena.size) with
    | error error =>
      rw [run] at bound
      cases bound
    | ok result =>
      rw [run] at bound
      cases bound
      obtain ⟨u, b', _, run', after⟩ := simulates_program h expressions here _ _ _ _ start run
      refine ⟨b', ?_, after⟩
      cases nodes with
      | program =>
        rw [Bound.ofTree, root, there]
        show ((program t' _).run _).map Prod.snd = .ok b'
        rw [run']
        rfl
      | passive passive => cases passive
  · cases bound

end DeployCheck
