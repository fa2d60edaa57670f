import DeployCheck.Proofs.Binding.Alike
import DeployCheck.Proofs.Tree.Lowering

/-!
# The nodes and symbols of a declaration

Every declaration of a program has its nodes and its symbols in intervals, which
depend on what stands before it only by where they start. What belongs to one of
its symbols is in the interval as well.
-/

set_option autoImplicit false

namespace DeployCheck

def Declaration.name : Declaration → String
  | .param name _ _ | .var name _ _ | .resource name _ _ _ _ _ | .module name _ _ _ _
  | .output name _ _ => name

mutual

/-- The names of the symbols of a declaration in their order: its own, then those of
what is nested in it or of the resources it returns. -/
def Declaration.symbolNames : Declaration → List String
  | .param name _ _ | .var name _ _ | .output name _ _ => [name]
  | .module name _ _ outputs _ => name :: outputs.filterMap fun o => o.resource.map fun _ => o.name
  | .resource name _ _ _ nested _ => name :: Declaration.allSymbolNames nested

def Declaration.allSymbolNames : List Declaration → List String
  | [] => []
  | d :: rest => d.symbolNames ++ Declaration.allSymbolNames rest

end

namespace Binder

inductive Spelled (b : Bound) : Nat → List String → Nat → Prop where
  | nil (lo : Nat) : Spelled b lo [] lo
  | cons {lo hi : Nat} {symbol : Symbol} {names : List String} (found : b.symbol? lo = some symbol)
      (rest : Spelled b (lo + 1) names hi) : Spelled b lo (symbol.name :: names) hi

section Names

variable {a : Arena} {b : Bound} {lo mid hi id : Nat} {names names' : List String}
  {around : Option (SymbolId × TypeReference)}

theorem spelled_append (h : Spelled b lo names mid) (h' : Spelled b mid names' hi) :
    Spelled b lo (names ++ names') hi := by
  induction h with
  | nil => exact h'
  | cons found _ ih => exact .cons found (ih h')

theorem spelled_length (h : Spelled b lo names hi) : hi = lo + names.length := by
  induction h with
  | nil => rfl
  | cons _ _ ih =>
    rw [ih, List.length_cons]
    omega

theorem spelled_get (h : Spelled b lo names hi) {k : Nat} {name : String}
    (named : names[k]? = some name) : ∃ symbol, b.symbol? (lo + k) = some symbol ∧
      symbol.name = name := by
  induction h generalizing k with
  | nil => cases named
  | @cons lo hi symbol names found _ ih =>
    cases k with
    | zero =>
      cases named
      exact ⟨symbol, found, rfl⟩
    | succ k =>
      rw [List.getElem?_cons_succ] at named
      rw [Nat.add_comm k, ← Nat.add_assoc]
      exact ih named

theorem outputs_owner {module k : Nat} {os : List OutputSignature}
    (h : Outputs b id module lo os hi) (above : lo ≤ k) (under : k < hi) :
    ∃ symbol, b.symbol? k = some symbol ∧ symbol.owner = .module module := by
  induction h with
  | nil => exact absurd under (Nat.not_lt_of_le above)
  | value _ _ ih => exact ih above under
  | @resource lo hi o type rest typed found _ ih =>
    by_cases first : k = lo
    · subst first
      exact ⟨_, found, rfl⟩
    · exact ih (by omega) under

def Heads (a : Arena) (b : Bound) (around : Option (SymbolId × TypeReference)) (lo id mid : Nat) :
    NodeData → Prop
  | .module name path body outputs => ∃ inner, a.data? body = some inner ∧
      Marked b around id lo name.name (.module path inner.isLoop) ∧
      Outputs b id lo (lo + 1) outputs mid
  | .resource name type existing body nested => ∃ inner, a.data? body = some inner ∧
      Marked b around id lo name.name
        (.resource (.ofText type (around.map Prod.snd)) existing inner.isLoop) ∧
      Declares a b (some (lo, .ofText type (around.map Prod.snd))) (lo + 1) nested mid
  | data => ∃ name kind, plain? data = some (name, kind) ∧ Marked b around id lo name.name kind ∧
      mid = lo + 1

theorem declares_head {ids : List Nat} {data : NodeData} (here : a.data? id = some data)
    (h : Declares a b around lo (id :: ids) hi) :
    ∃ mid, Heads a b around lo id mid data ∧ Declares a b around mid ids hi := by
  cases h with
  | plain here₁ sort marked beside =>
    rw [here] at here₁
    cases here₁
    refine ⟨lo + 1, ?_, beside⟩
    cases data with
    | module _ _ _ _ | resource _ _ _ _ _ => cases sort
    | _ => exact ⟨_, _, sort, marked, rfl⟩
  | module here₁ inside marked under beside =>
    rw [here] at here₁
    cases here₁
    exact ⟨_, ⟨_, inside, marked, under⟩, beside⟩
  | resource here₁ inside marked under beside =>
    rw [here] at here₁
    cases here₁
    exact ⟨_, ⟨_, inside, marked, under⟩, beside⟩

theorem declares_split {ids : List Nat} (h : Declares a b around lo (id :: ids) hi) :
    ∃ mid, Declares a b around lo [id] mid ∧ Declares a b around mid ids hi := by
  cases h with
  | plain here sort marked beside => exact ⟨_, .plain here sort marked (.nil _ _), beside⟩
  | module here inside marked under beside =>
    exact ⟨_, .module here inside marked under (.nil _ _), beside⟩
  | resource here inside marked under beside =>
    exact ⟨_, .resource here inside marked under (.nil _ _), beside⟩

theorem lays_split {n n₁ : Nat} {shape : Shape} {shapes : List Shape} {ids : List Nat}
    (h : Arena.Lays a n (shape :: shapes) ids n₁) : ∃ id rest, ids = id :: rest ∧
      Arena.Lays a n [shape] [id] (id + 1) ∧ Arena.Lays a (id + 1) shapes rest n₁ := by
  cases h with
  | cons here whole under beside =>
    exact ⟨_, _, rfl, Arena.lays_single here whole under, beside⟩

theorem name_of_named {name : String} {i : Identifier} (h : Identifier.named name = i.bare) :
    name = i.name := by
  injection h

theorem spelled_outputs {module : Nat} {os : List OutputSignature} {outputs : List ModuleOutput}
    (h : Outputs b id module lo os hi)
    (same : os.map (fun o => OutputSignature.mk o.name.bare o.resource) =
      outputs.map fun o => ⟨.named o.name, o.resource⟩) :
    Spelled b lo (outputs.filterMap fun o => o.resource.map fun _ => o.name) hi := by
  induction h generalizing outputs with
  | nil lo =>
    cases outputs with
    | nil => exact .nil lo
    | cons _ _ => cases same
  | value untyped _ ih =>
    cases outputs with
    | nil => cases same
    | cons o outputs =>
      injection same with first rest
      injection first with _ type
      rw [List.filterMap_cons, ← type, untyped]
      exact ih rest
  | resource typed found _ ih =>
    cases outputs with
    | nil => cases same
    | cons o outputs =>
      injection same with first rest
      injection first with name type
      injection name with name _
      rw [List.filterMap_cons, ← type, typed, ← name]
      exact .cons found (ih rest)

mutual

theorem spelled_declaration {around : Option (SymbolId × TypeReference)} {lo hi id n : Nat}
    (d : Declaration) (laid : Arena.Lays a n [d.shape] [id] (id + 1))
    (h : Declares a b around lo [id] hi) : Spelled b lo d.symbolNames hi := by
  generalize shapes : [d.shape] = list at laid
  cases laid with
  | @cons _ _ _ data below _ _ here whole under beside =>
    injection shapes with shape _
    obtain ⟨mid, head, rest⟩ := declares_head here h
    cases rest
    cases d with
    | param name default span =>
      have sort : ∃ x, .param (.named name) x = data.label := by
        cases default <;> (injection shape with label; exact ⟨_, label⟩)
      obtain ⟨x, sort⟩ := sort
      cases data with
      | param name' _ =>
        injection sort with same _
        obtain ⟨_, _, plain, marked, rfl⟩ := head
        cases plain
        rw [Declaration.symbolNames, name_of_named same]
        exact .cons marked.found (.nil _)
      | _ => cases sort
    | var name value span =>
      injection shape with label _
      cases data with
      | var name' _ =>
        injection label with same _
        obtain ⟨_, _, plain, marked, rfl⟩ := head
        cases plain
        rw [Declaration.symbolNames, name_of_named same]
        exact .cons marked.found (.nil _)
      | _ => cases label
    | output name value span =>
      injection shape with label _
      cases data with
      | output name' _ =>
        injection label with same _
        obtain ⟨_, _, plain, marked, rfl⟩ := head
        cases plain
        rw [Declaration.symbolNames, name_of_named same]
        exact .cons marked.found (.nil _)
      | _ => cases label
    | module name path body outputs span =>
      injection shape with label _
      cases data with
      | module name' _ _ os =>
        injection label with same _ _ returned
        obtain ⟨_, _, marked, under⟩ := head
        rw [Declaration.symbolNames, name_of_named same]
        exact .cons marked.found (spelled_outputs under returned.symm)
      | _ => cases label
    | resource name type existing body nested span =>
      injection shape with label below
      cases data with
      | resource name' _ _ _ ds =>
        injection label with same _ _ _ _
        obtain ⟨_, _, marked, inner⟩ := head
        rw [Declaration.symbolNames, name_of_named same]
        subst below
        obtain ⟨_, _, children, _, behind⟩ := lays_split under
        cases children
        exact .cons marked.found (spelled_declarations nested behind inner)
      | _ => cases label

theorem spelled_declarations {around : Option (SymbolId × TypeReference)} {lo hi n n₁ : Nat}
    {ids : List Nat} (ds : List Declaration)
    (laid : Arena.Lays a n (Declaration.shapes ds) ids n₁) (h : Declares a b around lo ids hi) :
    Spelled b lo (Declaration.allSymbolNames ds) hi := by
  cases ds with
  | nil =>
    cases laid
    cases h
    exact .nil _
  | cons d rest =>
    rw [Declaration.shapes] at laid
    obtain ⟨id, others, rfl, one, behind⟩ := lays_split laid
    obtain ⟨mid, first, later⟩ := declares_split h
    rw [Declaration.allSymbolNames]
    have here := spelled_declaration d one first
    exact spelled_append here (spelled_declarations rest behind later)

end

end Names

def Block (lo hi lo' x x' : Nat) : Prop := lo ≤ x ∧ x < hi ∧ Arena.Shift lo lo' x x'

theorem block_mono {lo hi hi' lo' x x' : Nat} (le : hi ≤ hi') (h : Block lo hi lo' x x') :
    Block lo hi' lo' x x' := ⟨h.1, Nat.lt_of_lt_of_le h.2.1 le, h.2.2⟩

theorem likewise_block {a a' : Arena} {lo hi lo' hi' : Nat} {shapes : List Shape}
    {ids ids' : List Nat} (laid : Arena.Lays a lo shapes ids hi)
    (laid' : Arena.Lays a' lo' shapes ids' hi') : Likewise a a' (Block lo hi lo') := by
  rintro x x' ⟨above, under, shift⟩
  obtain ⟨_, _, inner⟩ := Arena.lays_shift laid laid' (Nat.add_comm lo' lo)
  obtain ⟨data, data', here, here', label, below⟩ := inner x x' above under shift
  obtain ⟨_, here₁, _, within⟩ := Arena.lays_node laid above under
  rw [here] at here₁
  cases here₁
  refine ⟨data, data', here, here', label, paired_imp below fun c hc c' shift => ?_⟩
  obtain ⟨first, last⟩ := within c hc
  exact ⟨first, Nat.lt_trans last under, shift⟩

/-- Two symbols of which the first has the number `k`: all is the same but for where
they and their nodes stand. -/
structure Same (a a' : Arena) (b b' : Bound) (n : Nat → Nat → Prop) (lo lo' k : Nat)
    (symbol symbol' : Symbol) : Prop where
  name : symbol.name = symbol'.name
  kind : KindPaired (fun _ _ => False) symbol.kind symbol'.kind
  owner : OwnerPaired (Block lo k lo') symbol.owner symbol'.owner
  node : n symbol.declaration symbol'.declaration
  mark : Option.Rel (Block lo (k + 1) lo') (b.declarationSymbol? symbol.declaration)
    (b'.declarationSymbol? symbol'.declaration)
  scope : ∃ enclosing enclosing' : List Nat, List.Forall₂ (Block lo k lo') enclosing enclosing' ∧
    ScopedDeclaration a b (enclosing.map .nested) symbol.declaration ∧
    ScopedDeclaration a' b' (enclosing'.map .nested) symbol'.declaration

/-- The symbols from `lo` up to `hi` are the same as those in their places, which go up
to `hi'`. -/
structure Steps (a a' : Arena) (b b' : Bound) (n : Nat → Nat → Prop) (base base' lo hi hi' : Nat) :
    Prop where
  le : lo ≤ hi
  finish : Arena.Shift base base' hi hi'
  same : ∀ k k', lo ≤ k → k < hi → Arena.Shift base base' k k' → ∃ symbol symbol',
    b.symbol? k = some symbol ∧ b'.symbol? k' = some symbol' ∧
      Same a a' b b' n base base' k symbol symbol'

structure Enclosed (base base' lo : Nat) (around around' : Option (SymbolId × TypeReference))
    (enclosing enclosing' : List Nat) : Prop where
  around : Option.Rel (fun p p' => Block base lo base' p.1 p'.1 ∧ p.2 = p'.2) around around'
  frames : List.Forall₂ (Block base lo base') enclosing enclosing'

/-- Two declarations that correspond, each bound in the resources around it. -/
structure Facing (a a' : Arena) (b b' : Bound) (n : Nat → Nat → Prop) (enclosing enclosing' : List Nat)
    (id id' : Nat) : Prop where
  node : n id id'
  scope : ScopedDeclaration a b (enclosing.map .nested) id
  scope' : ScopedDeclaration a' b' (enclosing'.map .nested) id'

section Same

variable {a a' : Arena} {b b' : Bound} {n : Nat → Nat → Prop}
  {base base' lo mid hi lo' mid' hi' id id' : Nat} {around around' : Option (SymbolId × TypeReference)}
  {enclosing enclosing' : List Nat}

theorem shift_succ {k k' : Nat} (h : Arena.Shift base base' k k') :
    Arena.Shift base base' (k + 1) (k' + 1) := by
  simp only [Arena.Shift] at h ⊢
  omega

theorem steps_refl (start : Arena.Shift base base' lo lo') :
    Steps a a' b b' n base base' lo lo lo' :=
  ⟨Nat.le_refl lo, start, fun _ _ above under => absurd under (Nat.not_lt_of_le above)⟩

theorem steps_trans (h : Steps a a' b b' n base base' lo mid mid')
    (h' : Steps a a' b b' n base base' mid hi hi') : Steps a a' b b' n base base' lo hi hi' := by
  apply Steps.mk
  · exact Nat.le_trans h.le h'.le
  · exact h'.finish
  · intro k k' above under shift
    by_cases first : k < mid
    · exact h.same k k' above first shift
    · exact h'.same k k' (Nat.le_of_not_lt first) under shift

theorem steps_single {symbol symbol' : Symbol} (found : b.symbol? lo = some symbol)
    (found' : b'.symbol? lo' = some symbol') (start : Arena.Shift base base' lo lo')
    (same : Same a a' b b' n base base' lo symbol symbol') :
    Steps a a' b b' n base base' lo (lo + 1) (lo' + 1) := by
  apply Steps.mk
  · exact Nat.le_succ lo
  · exact shift_succ start
  · intro k k' above under shift
    have here : k = lo := Nat.le_antisymm (Nat.le_of_lt_succ under) above
    subst here
    have there : k' = lo' := by
      simp only [Arena.Shift] at start shift
      omega
    subst there
    exact ⟨symbol, symbol', found, found', same⟩

theorem enclosed_mono (le : lo ≤ hi) (h : Enclosed base base' lo around around' enclosing enclosing') :
    Enclosed base base' hi around around' enclosing enclosing' := by
  apply Enclosed.mk
  · exact rel_mono (fun _ _ inner => ⟨block_mono le inner.1, inner.2⟩) h.around
  · exact h.frames.imp fun _ _ => block_mono le

theorem enclosed_type (h : Enclosed base base' lo around around' enclosing enclosing') :
    around.map Prod.snd = around'.map Prod.snd := by
  cases h.around with
  | none => rfl
  | some inner => exact congrArg some inner.2

theorem enclosed_owner (h : Enclosed base base' lo around around' enclosing enclosing')
    {kind kind' : SymbolKind} (kinds : KindPaired (fun _ _ => False) kind kind') :
    OwnerPaired (Block base lo base') (ownerOf (around.map Prod.fst) kind)
      (ownerOf (around'.map Prod.fst) kind') := by
  cases h.around with
  | some inner => exact .resource inner.1
  | none =>
    cases kinds with
    | output => exact .outputs
    | _ => exact .program

theorem steps_marked {name name' : String} {kind kind' : SymbolKind}
    (marked : Marked b around id lo name kind) (marked' : Marked b' around' id' lo' name' kind')
    (start : Block base (lo + 1) base' lo lo') (names : name = name')
    (kinds : KindPaired (fun _ _ => False) kind kind')
    (outer : Enclosed base base' lo around around' enclosing enclosing')
    (facing : Facing a a' b b' n enclosing enclosing' id id') :
    Steps a a' b b' n base base' lo (lo + 1) (lo' + 1) := by
  apply steps_single marked.found marked'.found start.2.2
  apply Same.mk
  · exact names
  · exact kinds
  · exact enclosed_owner outer kinds
  · exact facing.node
  · show Option.Rel _ (b.declarationSymbol? id) (b'.declarationSymbol? id')
    rw [marked.mark, marked'.mark]
    exact .some start
  · exact ⟨enclosing, enclosing', outer.frames, facing.scope, facing.scope'⟩

theorem steps_outputs {module module' : Nat} {os os' : List OutputSignature}
    (outputs : Outputs b id module lo os hi) (outputs' : Outputs b' id' module' lo' os' hi')
    (signature : os.map (fun o => (o.name.name, o.resource)) =
      os'.map fun o => (o.name.name, o.resource))
    (start : Arena.Shift base base' lo lo') (owner : Block base lo base' module module')
    (mark : Option.Rel (Block base lo base') (b.declarationSymbol? id) (b'.declarationSymbol? id'))
    (frames : List.Forall₂ (Block base lo base') enclosing enclosing')
    (facing : Facing a a' b b' n enclosing enclosing' id id') :
    Steps a a' b b' n base base' lo hi hi' := by
  induction outputs generalizing lo' os' with
  | nil lo =>
    cases os' with
    | nil =>
      cases outputs'
      exact steps_refl start
    | cons _ _ => cases signature
  | value untyped _ ih =>
    cases os' with
    | nil => cases signature
    | cons o' os' =>
      injection signature with first rest
      injection first with _ types
      rw [untyped] at types
      cases outputs' with
      | value _ beside' => exact ih beside' rest start owner mark frames
      | resource typed' =>
        rw [typed'] at types
        cases types
  | @resource lo hi o type rest typed found _ ih =>
    cases os' with
    | nil => cases signature
    | cons o' os' =>
      injection signature with first rest
      injection first with names types
      rw [typed] at types
      cases outputs' with
      | value untyped' =>
        rw [untyped'] at types
        cases types
      | resource typed' found' beside' =>
        rw [typed'] at types
        cases types
        have one : Steps a a' b b' n base base' lo (lo + 1) (lo' + 1) := by
          apply steps_single found found' start
          apply Same.mk
          · exact names
          · exact .resource ..
          · exact .module owner
          · exact facing.node
          · exact rel_mono (fun _ _ => block_mono (Nat.le_succ lo)) mark
          · exact ⟨enclosing, enclosing', frames, facing.scope, facing.scope'⟩
        apply steps_trans one
        apply ih beside' rest (shift_succ start)
        · exact block_mono (Nat.le_succ lo) owner
        · exact rel_mono (fun _ _ => block_mono (Nat.le_succ lo)) mark
        · exact frames.imp fun _ _ => block_mono (Nat.le_succ lo)

theorem plain_paired {data data' : NodeData} {name : Identifier} {kind : SymbolKind}
    (paired : data.Paired n data') (sort : plain? data = some (name, kind))
    (head : Heads a' b' around' lo' id' mid' data') : KindPaired (fun _ _ => False) kind kind ∧
      ∃ name', name.name = name' ∧ Marked b' around' id' lo' name' kind ∧ mid' = lo' + 1 := by
  cases paired with
  | param same | var same | output same =>
    obtain ⟨_, _, sort', marked', rfl⟩ := head
    cases sort
    cases sort'
    refine ⟨?_, _, same, marked', rfl⟩
    constructor
  | _ => cases sort

theorem isLoop_label (data : NodeData) : data.label.isLoop = data.isLoop := by
  cases data <;> rfl

theorem isLoop_paired (nodes : Likewise a a' n) {x x' : Nat} (h : n x x') {inner inner' : NodeData}
    (here : a.data? x = some inner) (here' : a'.data? x' = some inner') :
    inner.isLoop = inner'.isLoop := by
  obtain ⟨_, _, here₁, here₁', label, _⟩ := nodes h
  rw [here] at here₁
  rw [here'] at here₁'
  cases here₁
  cases here₁'
  rw [← isLoop_label inner, label, isLoop_label]

theorem steps_module {name name' : Identifier} {path : String} {body body' : Nat}
    {os os' : List OutputSignature} {inner : NodeData} (nodes : Likewise a a' n)
    (inside : a.data? body = some inner)
    (marked : Marked b around id lo name.name (.module path inner.isLoop))
    (under : Outputs b id lo (lo + 1) os hi)
    (names : name.name = name'.name) (bodies : n body body')
    (signature : os.map (fun o => (o.name.name, o.resource)) =
      os'.map fun o => (o.name.name, o.resource))
    (head : Heads a' b' around' lo' id' hi' (.module name' path body' os'))
    (start : Block base (lo + 1) base' lo lo')
    (outer : Enclosed base base' lo around around' enclosing enclosing')
    (facing : Facing a a' b b' n enclosing enclosing' id id') :
    Steps a a' b b' n base base' lo hi hi' := by
  obtain ⟨inner', inside', marked', under'⟩ := head
  have kinds : KindPaired (fun _ _ => False) (.module path inner.isLoop)
      (.module path inner'.isLoop) := by
    rw [isLoop_paired nodes bodies inside inside']
    exact .module ..
  apply steps_trans (steps_marked marked marked' start names kinds outer facing)
  apply steps_outputs under under' signature (shift_succ start.2.2) start
  · rw [marked.mark, marked'.mark]
    exact .some start
  · exact outer.frames.imp fun _ _ => block_mono (Nat.le_succ lo)
  · exact facing

theorem scoped_resource {around : List Frame} {name : Identifier} {type : String} {existing : Bool}
    {body : Nat} {nested : List Nat} (here : a.data? id = some (.resource name type existing body nested))
    (h : ScopedDeclaration a b around id) : Scoped a b (inside b id around) body ∧
      ∀ c ∈ nested, ScopedDeclaration a b (inside b id around) c := by
  cases h with
  | simple here₁ simple =>
    rw [here] at here₁
    cases here₁
    cases simple
  | resource here₁ inner under =>
    rw [here] at here₁
    cases here₁
    exact ⟨inner, under⟩

theorem scoped_nested {name : Identifier} {type : String} {existing : Bool} {body : Nat}
    {nested : List Nat} (here : a.data? id = some (.resource name type existing body nested))
    (mark : b.declarationSymbol? id = some lo)
    (h : ScopedDeclaration a b (enclosing.map .nested) id) :
    ∀ c ∈ nested, ScopedDeclaration a b ((lo :: enclosing).map .nested) c := by
  have inner := (scoped_resource here h).2
  rw [inside, mark] at inner
  exact inner

theorem declares_facing (nodes : Likewise a a' n) {ids ids' : List Nat} {data : NodeData}
    (here : a.data? id = some data) (h' : Declares a' b' around' lo' ids' hi')
    (related : List.Forall₂ (Facing a a' b b' n enclosing enclosing') (id :: ids) ids') :
    ∃ id' rest data' mid', Facing a a' b b' n enclosing enclosing' id id' ∧
      List.Forall₂ (Facing a a' b b' n enclosing enclosing') ids rest ∧
      a'.data? id' = some data' ∧ data.Paired n data' ∧
      List.Forall₂ n data.children data'.children ∧ Heads a' b' around' lo' id' mid' data' ∧
      Declares a' b' around' mid' rest hi' := by
  cases related with
  | @cons _ id' _ rest facing others =>
    obtain ⟨_, data', here₁, here', label, parts⟩ := nodes facing.node
    rw [here] at here₁
    cases here₁
    obtain ⟨mid', head, beside'⟩ := declares_head here' h'
    exact ⟨id', rest, data', mid', facing, others, here', NodeData.paired_of_label label parts, parts,
      head, beside'⟩

theorem facing_list {ids ids' : List Nat} (related : List.Forall₂ n ids ids')
    (scopes : ∀ id ∈ ids, ScopedDeclaration a b (enclosing.map .nested) id)
    (scopes' : ∀ id ∈ ids', ScopedDeclaration a' b' (enclosing'.map .nested) id) :
    List.Forall₂ (Facing a a' b b' n enclosing enclosing') ids ids' := by
  induction related with
  | nil => exact .nil
  | cons node _ ih =>
    rw [List.forall_mem_cons] at scopes scopes'
    exact .cons ⟨node, scopes.1, scopes'.1⟩ (ih scopes.2 scopes'.2)

theorem declares_same (nodes : Likewise a a' n) {ids ids' : List Nat}
    (h : Declares a b around lo ids hi) (h' : Declares a' b' around' lo' ids' hi')
    (related : List.Forall₂ (Facing a a' b b' n enclosing enclosing') ids ids')
    (start : Arena.Shift base base' lo lo') (above : base ≤ lo)
    (outer : Enclosed base base' lo around around' enclosing enclosing') :
    Steps a a' b b' n base base' lo hi hi' := by
  induction h generalizing around' lo' ids' hi' enclosing enclosing' with
  | nil around lo =>
    cases related
    cases h'
    exact steps_refl start
  | @plain around lo hi id ids data name kind here sort marked beside ih =>
    obtain ⟨id', rest, data', mid', facing, others, here', paired, _, head, beside'⟩ :=
      declares_facing nodes here h' related
    obtain ⟨kinds, name', names, marked', rfl⟩ := plain_paired paired sort head
    have first : Block base (lo + 1) base' lo lo' := ⟨above, Nat.lt_succ_self lo, start⟩
    have one := steps_marked marked marked' first names kinds outer facing
    apply steps_trans one
    exact ih beside' others one.finish (Nat.le_trans above one.le) (enclosed_mono one.le outer)
  | @module around lo mid hi id body ids name path outputs inner here inside marked under beside ih =>
    obtain ⟨id', rest, data', mid', facing, others, here', paired, _, head, beside'⟩ :=
      declares_facing nodes here h' related
    have first : Block base (lo + 1) base' lo lo' := ⟨above, Nat.lt_succ_self lo, start⟩
    cases paired with
    | module names bodies signature =>
      have one := steps_module nodes inside marked under names bodies signature head first outer
        facing
      apply steps_trans one
      exact ih beside' others one.finish (Nat.le_trans above one.le) (enclosed_mono one.le outer)
  | @resource around lo mid hi id body ids nested name type existing inner here inside marked under
      beside ihu ihb =>
    obtain ⟨id', rest, data', mid', facing, others, here', paired, parts, head, beside'⟩ :=
      declares_facing nodes here h' related
    have first : Block base (lo + 1) base' lo lo' := ⟨above, Nat.lt_succ_self lo, start⟩
    cases paired with
    | resource names bodies =>
      obtain ⟨inner', inside', marked', under'⟩ := head
      have types := enclosed_type outer
      have kinds : KindPaired (fun _ _ => False)
          (.resource (.ofText type (around.map Prod.snd)) existing inner.isLoop)
          (.resource (.ofText type (around'.map Prod.snd)) existing inner'.isLoop) := by
        rw [isLoop_paired nodes bodies inside inside', types]
        exact .resource ..
      have one := steps_marked marked marked' first names kinds outer facing
      cases parts with
      | cons _ children =>
        -- What is nested has one more resource around it, which stands in the same place.
        have within : Enclosed base base' (lo + 1)
            (some (lo, .ofText type (around.map Prod.snd)))
            (some (lo', .ofText type (around'.map Prod.snd))) (lo :: enclosing)
            (lo' :: enclosing') := by
          apply Enclosed.mk
          · exact .some ⟨first, congrArg (TypeReference.ofText type) types⟩
          · exact .cons first (enclosed_mono one.le outer).frames
        have related := facing_list children (scoped_nested here marked.mark facing.scope)
          (scoped_nested here' marked'.mark facing.scope')
        have below := steps_trans one
          (ihu under' related one.finish (Nat.le_trans above one.le) within)
        apply steps_trans below
        exact ihb beside' others below.finish (Nat.le_trans above below.le)
          (enclosed_mono below.le outer)

end Same

/-- Declarations with their nodes, from `n` up to `n₁`, and their symbols, from `lo` up
to `hi`. -/
structure Spans (a : Arena) (b : Bound) (ds : List Declaration) (ids : List Nat)
    (n n₁ lo hi : Nat) : Prop where
  laid : Arena.Lays a n (Declaration.shapes ds) ids n₁
  declares : Declares a b none lo ids hi
  scopes : ∀ id ∈ ids, ScopedDeclaration a b [] id

def Closed (b : Bound) (lo hi : Nat) : Prop :=
  ∀ (k : Nat) (symbol : Symbol) (j : Nat), b.symbol? k = some symbol →
    symbol.owner = .resource j ∨ symbol.owner = .module j → lo ≤ j → j < hi → lo ≤ k ∧ k < hi

section Spans

variable {a a' : Arena} {b b' : Bound} {ds : List Declaration} {d : Declaration} {ids ids' : List Nat}
  {n n₁ n' n₁' lo hi lo' hi' : Nat}

theorem spans_same (h : Spans a b ds ids n n₁ lo hi) (h' : Spans a' b' ds ids' n' n₁' lo' hi') :
    Steps a a' b b' (Block n n₁ n') lo lo' lo hi hi' := by
  have nodes : Likewise a a' (Block n n₁ n') := likewise_block h.laid h'.laid
  have outer : Enclosed lo lo' lo none none [] [] := ⟨.none, .nil⟩
  obtain ⟨_, tops, _⟩ := Arena.lays_shift h.laid h'.laid (Nat.add_comm n' n)
  have related : List.Forall₂ (Block n n₁ n') ids ids' := by
    apply paired_imp tops
    intro x hx x' shift
    obtain ⟨first, last⟩ := Arena.lays_mem h.laid x hx
    exact ⟨first, last, shift⟩
  have facing : List.Forall₂ (Facing a a' b b' (Block n n₁ n') [] []) ids ids' :=
    facing_list related h.scopes h'.scopes
  exact declares_same nodes h.declares h'.declares facing (Nat.add_comm lo' lo) (Nat.le_refl lo) outer

theorem spans_le (h : Spans a b ds ids n n₁ lo hi) : lo ≤ hi := (spans_same h h).le

theorem spans_owner (h : Spans a b ds ids n n₁ lo hi) {k : Nat} (above : lo ≤ k) (under : k < hi) :
    ∃ symbol, b.symbol? k = some symbol ∧ (∀ loop, symbol.owner ≠ .loop loop) ∧
      ∀ j : Nat, symbol.owner = .resource j ∨ symbol.owner = .module j → lo ≤ j ∧ j < k := by
  obtain ⟨symbol, symbol', found, _, same⟩ := (spans_same h h).same k k above under rfl
  have owner := same.owner
  generalize symbol'.owner = owner' at owner
  refine ⟨symbol, found, ?_, ?_⟩
  · intro loop own
    rw [own] at owner
    cases owner
  · rintro j (own | own)
    · rw [own] at owner
      cases owner with
      | resource near => exact ⟨near.1, near.2.1⟩
    · rw [own] at owner
      cases owner with
      | module near => exact ⟨near.1, near.2.1⟩

theorem spans_cons (h : Spans a b (d :: ds) ids n n₁ lo hi) :
    ∃ id rest mid, ids = id :: rest ∧ Spans a b [d] [id] n (id + 1) lo mid ∧
      Spans a b ds rest (id + 1) n₁ mid hi := by
  obtain ⟨id, rest, rfl, one, behind⟩ := lays_split h.laid
  obtain ⟨mid, first, later⟩ := declares_split h.declares
  obtain ⟨scope, scopes⟩ := List.forall_mem_cons.1 h.scopes
  refine ⟨id, rest, mid, rfl, ⟨one, first, ?_⟩, ⟨behind, later, scopes⟩⟩
  exact List.forall_mem_singleton.2 scope

theorem spans_length (h : Spans a b ds ids n n₁ lo hi) :
    hi = lo + (Declaration.allSymbolNames ds).length :=
  spelled_length (spelled_declarations ds h.laid h.declares)

theorem closed_cons {mid : Nat} (closed : Closed b lo hi) (first : Spans a b [d] ids n n₁ lo mid)
    (later : Spans a b ds ids' n' n₁' mid hi) : Closed b lo mid ∧ Closed b mid hi := by
  constructor
  · intro k symbol j found own above under
    obtain ⟨low, high⟩ := closed k symbol j found own above
      (Nat.lt_of_lt_of_le under (spans_le later))
    refine ⟨low, ?_⟩
    by_contra behind
    obtain ⟨_, found', _, owner⟩ := spans_owner later (Nat.le_of_not_lt behind) high
    rw [found] at found'
    cases found'
    exact absurd (owner j own).1 (Nat.not_le_of_lt under)
  · intro k symbol j found own above under
    obtain ⟨low, high⟩ := closed k symbol j found own (Nat.le_trans (spans_le first) above) under
    refine ⟨?_, high⟩
    by_contra before
    have early := Nat.lt_of_not_le before
    obtain ⟨_, found', _, owner⟩ := spans_owner first low early
    rw [found] at found'
    cases found'
    have later : j < k := (owner j own).2
    omega

theorem spans_append {before after : List Declaration} (split : ds = before ++ d :: after)
    (h : Spans a b ds ids n n₁ lo hi) (closed : Closed b lo hi) :
    ∃ id m m₁ mid, Spans a b [d] [id] m m₁ (lo + (Declaration.allSymbolNames before).length) mid ∧
      Closed b (lo + (Declaration.allSymbolNames before).length) mid := by
  induction before generalizing ds ids n lo with
  | nil =>
    subst split
    obtain ⟨id, rest, mid, rfl, first, later⟩ := spans_cons h
    exact ⟨id, n, id + 1, mid, first, (closed_cons closed first later).1⟩
  | cons e before ih =>
    subst split
    obtain ⟨id, rest, mid, rfl, first, later⟩ := spans_cons h
    have length : mid = lo + (Declaration.allSymbolNames [e]).length := spans_length first
    rw [Declaration.allSymbolNames, Declaration.allSymbolNames, List.append_nil] at length
    have start : lo + (Declaration.allSymbolNames (e :: before)).length =
        mid + (Declaration.allSymbolNames before).length := by
      rw [Declaration.allSymbolNames, List.length_append, length, Nat.add_assoc]
    rw [start]
    exact ih rfl later (closed_cons closed first later).2

theorem spans_find (h : Spans a b ds ids n n₁ lo hi) (closed : Closed b lo hi) {k : Nat}
    (above : lo ≤ k) (under : k < hi) : ∃ d ∈ ds, ∃ id m m₁ first last,
      Spans a b [d] [id] m m₁ first last ∧ Closed b first last ∧ first ≤ k ∧ k < last := by
  induction ds generalizing ids n lo with
  | nil =>
    have length := spans_length h
    rw [Declaration.allSymbolNames, List.length_nil] at length
    omega
  | cons d ds ih =>
    obtain ⟨id, rest, mid, rfl, first, later⟩ := spans_cons h
    obtain ⟨closed, closed'⟩ := closed_cons closed first later
    by_cases here : k < mid
    · exact ⟨d, List.mem_cons_self, id, n, id + 1, lo, mid, first, closed, above, here⟩
    · obtain ⟨e, member, rest⟩ := ih later closed' (Nat.le_of_not_lt here)
      exact ⟨e, List.mem_cons_of_mem d member, rest⟩

end Spans

end Binder

end DeployCheck
