import DeployCheck.Binding.Bind
import DeployCheck.Proofs.Tree.Layout

/-!
# Where the symbols of declarations stand

Declaring goes through the declarations in pre-order: a declaration gets its
symbol, then come the symbols of what is nested in it or of what it returns. A
step of it leaves all earlier symbols and the marks of other nodes alone.
-/

set_option autoImplicit false

namespace DeployCheck.Binder

section Runs

variable {α β : Type} {x y : α} {b b' b'' : Bound}

def Runs (w : Binder α) (b : Bound) (x : α) (b' : Bound) : Prop := w.run b = .ok (x, b')

theorem runs_pure : Runs (pure x) b y b' ↔ y = x ∧ b' = b := by
  rw [Runs, StateT.run_pure]
  constructor
  · intro h
    cases h
    exact ⟨rfl, rfl⟩
  · rintro ⟨rfl, rfl⟩
    rfl

theorem runs_bind {w : Binder α} {k : α → Binder β} {z : β} :
    Runs (w >>= k) b z b'' ↔ ∃ x b', Runs w b x b' ∧ Runs (k x) b' z b'' := by
  simp only [Runs, StateT.run_bind]
  cases w.run b with
  | error e =>
    constructor
    · intro h
      cases h
    · rintro ⟨_, _, h, _⟩
      cases h
  | ok r =>
    constructor
    · exact fun h => ⟨r.1, r.2, rfl, h⟩
    · rintro ⟨_, _, h, h'⟩
      cases h
      exact h'

theorem runs_get {s : Bound} : Runs get b s b' ↔ s = b ∧ b' = b := runs_pure

theorem runs_modify {f : Bound → Bound} {u : Unit} : Runs (modify f) b u b' ↔ b' = f b := by
  have run : (modify f : Binder Unit).run b = .ok ((), f b) := rfl
  rw [Runs, run]
  constructor
  · intro h
    cases h
    rfl
  · rintro rfl
    rfl

theorem runs_throw {e : ModelError} : ¬Runs (throw e) b x b' := by
  intro h
  cases h

theorem runs_forM {ι : Type} {f : ι → Binder Unit} {i : ι} {is : List ι} {u : Unit} :
    Runs ((i :: is).forM f) b u b'' ↔ ∃ b', Runs (f i) b () b' ∧ Runs (is.forM f) b' () b'' := by
  rw [List.forM, runs_bind]
  constructor
  · rintro ⟨_, b', h, h'⟩
    exact ⟨b', h, h'⟩
  · rintro ⟨b', h, h'⟩
    exact ⟨(), b', h, h'⟩

theorem runs_discard {w : Binder α} {u : Unit} (h : Runs (discard w) b u b') :
    ∃ x, Runs w b x b' := by
  have run : Runs (w >>= fun _ => pure ()) b u b' := h
  obtain ⟨x, _, hx, hu⟩ := runs_bind.1 run
  obtain ⟨_, rfl⟩ := runs_pure.1 hu
  exact ⟨x, hx⟩

theorem runs_nodeAt {tree : Tree} {id : NodeId} {data : NodeData} :
    Runs (nodeAt tree id) b data b' ↔ tree.arena.data? id = some data ∧ b' = b := by
  rw [nodeAt]
  cases tree.arena.data? id with
  | none => simp [runs_throw]
  | some here => simp [runs_pure, eq_comm]

theorem runs_isCollection {tree : Tree} {body : NodeId} {collection : Bool} :
    Runs (isCollection tree body) b collection b' ↔
      ∃ data, tree.arena.data? body = some data ∧ collection = data.isLoop ∧ b' = b := by
  rw [isCollection, runs_bind]
  constructor
  · rintro ⟨data, _, h, h'⟩
    obtain ⟨here, rfl⟩ := runs_nodeAt.1 h
    obtain ⟨rfl, rfl⟩ := runs_pure.1 h'
    exact ⟨data, here, rfl, rfl⟩
  · rintro ⟨data, here, rfl, rfl⟩
    exact ⟨data, _, runs_nodeAt.2 ⟨here, rfl⟩, runs_pure.2 ⟨rfl, rfl⟩⟩

def introduced (tree : Tree) (owner : Owner) (name : Identifier) (declaration : NodeId)
    (kind : SymbolKind) (b : Bound) : Bound :=
  { b with
    symbols := b.symbols.push ⟨name.name, declaration, owner, kind⟩
    diagnostics := if (b.member? owner name.name).isSome then
        b.diagnostics.push (.ofRule tree.file name.span .duplicateName [name.name])
      else b.diagnostics }

theorem runs_introduce {tree : Tree} {owner : Owner} {name : Identifier} {declaration id : NodeId}
    {kind : SymbolKind} : Runs (introduce tree owner name declaration kind) b id b' ↔
      id = b.symbols.size ∧ b' = introduced tree owner name declaration kind b := by
  have run : (introduce tree owner name declaration kind).run b =
      .ok (b.symbols.size, introduced tree owner name declaration kind b) := by
    rw [introduce, StateT.run_bind, StateT.run_get, introduced]
    cases known : (b.member? owner name.name).isSome with
    | false =>
      simp only [pure_bind, known]
      rfl
    | true =>
      simp only [pure_bind, known]
      rfl
  rw [Runs, run]
  constructor
  · intro h
    cases h
    exact ⟨rfl, rfl⟩
  · rintro ⟨rfl, rfl⟩
    rfl

end Runs

def plain? : NodeData → Option (Identifier × SymbolKind)
  | .param name _ => some (name, .param)
  | .var name _ => some (name, .var)
  | .output name _ => some (name, .output)
  | _ => none

/-- A declaration has a symbol in the scope around it, and is marked with it. -/
structure Marked (b : Bound) (around : Option (SymbolId × TypeReference)) (id symbol : Nat)
    (name : String) (kind : SymbolKind) : Prop where
  found : b.symbol? symbol = some ⟨name, id, ownerOf (around.map Prod.fst) kind, kind⟩
  mark : b.declarationSymbol? id = some symbol

inductive Outputs (b : Bound) (declaration module : Nat) : Nat → List OutputSignature → Nat → Prop
  where
  | nil (lo : Nat) : Outputs b declaration module lo [] lo
  | value {lo hi : Nat} {o : OutputSignature} {rest : List OutputSignature}
      (untyped : o.resource = none) (beside : Outputs b declaration module lo rest hi) :
      Outputs b declaration module lo (o :: rest) hi
  | resource {lo hi : Nat} {o : OutputSignature} {type : String} {rest : List OutputSignature}
      (typed : o.resource = some type)
      (found : b.symbol? lo = some ⟨o.name.name, declaration, .module module,
        .resource (.ofText type none) true false⟩)
      (beside : Outputs b declaration module (lo + 1) rest hi) :
      Outputs b declaration module lo (o :: rest) hi

/-- The declarations `ids`, with all that is nested in them, have the symbols from
`lo` up to `hi`, each before what is nested in it. The resource around them is
given with its type. -/
inductive Declares (a : Arena) (b : Bound) :
    Option (SymbolId × TypeReference) → Nat → List Nat → Nat → Prop where
  | nil (around : Option (SymbolId × TypeReference)) (lo : Nat) : Declares a b around lo [] lo
  | plain {around : Option (SymbolId × TypeReference)} {lo hi id : Nat} {ids : List Nat}
      {data : NodeData} {name : Identifier} {kind : SymbolKind} (here : a.data? id = some data)
      (sort : plain? data = some (name, kind)) (marked : Marked b around id lo name.name kind)
      (beside : Declares a b around (lo + 1) ids hi) : Declares a b around lo (id :: ids) hi
  | module {around : Option (SymbolId × TypeReference)} {lo mid hi id body : Nat} {ids : List Nat}
      {name : Identifier} {path : String} {outputs : List OutputSignature} {inner : NodeData}
      (here : a.data? id = some (.module name path body outputs))
      (inside : a.data? body = some inner)
      (marked : Marked b around id lo name.name (.module path inner.isLoop))
      (under : Outputs b id lo (lo + 1) outputs mid) (beside : Declares a b around mid ids hi) :
      Declares a b around lo (id :: ids) hi
  | resource {around : Option (SymbolId × TypeReference)} {lo mid hi id body : Nat}
      {ids nested : List Nat} {name : Identifier} {type : String} {existing : Bool}
      {inner : NodeData} (here : a.data? id = some (.resource name type existing body nested))
      (inside : a.data? body = some inner)
      (marked : Marked b around id lo name.name
        (.resource (.ofText type (around.map Prod.snd)) existing inner.isLoop))
      (under : Declares a b (some (lo, .ofText type (around.map Prod.snd))) (lo + 1) nested mid)
      (beside : Declares a b around mid ids hi) : Declares a b around lo (id :: ids) hi

structure Grows (b b' : Bound) (lo hi : Nat) : Prop where
  names : b'.names = b.names
  width : b'.declarations.size = b.declarations.size
  size : b.symbols.size ≤ b'.symbols.size
  symbols : ∀ n < b.symbols.size, b'.symbol? n = b.symbol? n
  marks : ∀ n, n < lo ∨ hi ≤ n → b'.declarationSymbol? n = b.declarationSymbol? n

/-- What was declared below a number of symbols, for nodes from `lo` up to `hi`, is
still there. -/
structure Keeps (b b' : Bound) (lo hi : Nat) : Prop where
  symbols : ∀ n < b.symbols.size, b'.symbol? n = b.symbol? n
  marks : ∀ n, lo ≤ n → n < hi → b'.declarationSymbol? n = b.declarationSymbol? n

section Grows

variable {b b' b'' : Bound} {lo mid hi : Nat}

theorem grows_refl : Grows b b lo hi :=
  ⟨rfl, rfl, Nat.le_refl _, fun _ _ => rfl, fun _ _ => rfl⟩

theorem grows_trans (h : Grows b b' lo hi) (h' : Grows b' b'' lo hi) : Grows b b'' lo hi := by
  apply Grows.mk
  · rw [h'.names, h.names]
  · rw [h'.width, h.width]
  · exact Nat.le_trans h.size h'.size
  · intro n hn
    rw [h'.symbols n (Nat.lt_of_lt_of_le hn h.size), h.symbols n hn]
  · intro n hn
    rw [h'.marks n hn, h.marks n hn]

theorem grows_mono {lo' hi' : Nat} (h : Grows b b' lo hi) (below : lo' ≤ lo) (above : hi ≤ hi') :
    Grows b b' lo' hi' :=
  ⟨h.names, h.width, h.size, h.symbols, fun n hn => h.marks n (by omega)⟩

theorem keeps_of_grows {final : Bound} {lo' hi' : Nat} (h : Grows b b' lo' hi')
    (kept : Keeps b' final lo hi) (apart : hi ≤ lo' ∨ hi' ≤ lo) : Keeps b final lo hi := by
  apply Keeps.mk
  · intro n hn
    rw [kept.symbols n (Nat.lt_of_lt_of_le hn h.size), h.symbols n hn]
  · intro n hlo hhi
    rw [kept.marks n hlo hhi, h.marks n (by omega)]

theorem keeps_mono {lo' hi' : Nat} (h : Keeps b b' lo hi) (below : lo ≤ lo') (above : hi' ≤ hi) :
    Keeps b b' lo' hi' :=
  ⟨h.symbols, fun n hlo hhi => h.marks n (by omega) (by omega)⟩

end Grows

inductive Around (b : Bound) : Option SymbolId → Option (SymbolId × TypeReference) → Prop where
  | none : Around b none none
  | some {id : SymbolId} {type : TypeReference} (typed : (b.symbol? id).bind Symbol.type? = some type) :
      Around b (some id) (some (id, type))

section Declaring

variable {tree : Tree} {b b' : Bound} {parent : Option SymbolId}
  {around : Option (SymbolId × TypeReference)}

theorem around_map (h : Around b parent around) : around.map Prod.fst = parent := by
  cases h <;> rfl

theorem runs_typeOf (h : Around b parent around) {text : String} {type : TypeReference} :
    Runs (typeOf text parent) b type b' ↔ type = .ofText text (around.map Prod.snd) ∧ b' = b := by
  have known : (parent.bind b.symbol?).bind Symbol.type? = around.map Prod.snd := by
    cases h with
    | none => rfl
    | some typed => exact typed
  rw [typeOf, runs_bind]
  constructor
  · rintro ⟨_, _, h, h'⟩
    obtain ⟨rfl, rfl⟩ := runs_get.1 h
    obtain ⟨rfl, rfl⟩ := runs_pure.1 h'
    exact ⟨congrArg (TypeReference.ofText text) known, rfl⟩
  · rintro ⟨rfl, rfl⟩
    exact ⟨_, _, runs_get.2 ⟨rfl, rfl⟩, runs_pure.2 ⟨congrArg _ known.symm, rfl⟩⟩

theorem symbol?_push {s : Symbol} {n : Nat} (h : n < b.symbols.size) :
    (b.symbols.push s)[n]? = b.symbols[n]? := by
  rw [Array.getElem?_push, if_neg (Nat.ne_of_lt h)]

theorem around_grows {lo hi : Nat} (h : Around b parent around) (grows : Grows b b' lo hi) :
    Around b' parent around := by
  cases h with
  | none => exact .none
  | @some id type typed =>
    apply Around.some
    have inside : id < b.symbols.size := by
      by_contra outside
      rw [Bound.symbol?, Array.getElem?_eq_none (Nat.le_of_not_lt outside)] at typed
      cases typed
    rw [grows.symbols id inside]
    exact typed

theorem grows_introduced {owner : Owner} {name : Identifier} {declaration lo hi : Nat}
    {kind : SymbolKind} : Grows b (introduced tree owner name declaration kind b) lo hi := by
  apply Grows.mk
  · rfl
  · rfl
  · exact Nat.le_trans (Nat.le_succ _) (Nat.le_of_eq (Array.size_push ..).symm)
  · exact fun n hn => symbol?_push hn
  · exact fun _ _ => rfl

theorem introduce_marks {owner : Owner} {name : Identifier} {kind : SymbolKind}
    {id symbol : Nat} {b₁ b₂ : Bound} {u : Unit} (room : id < b.declarations.size)
    (introduce : Runs (introduce tree owner name id kind) b symbol b₁)
    (mark : Runs (bindDeclared id symbol) b₁ u b₂) :
    symbol = b.symbols.size ∧ b₂.symbols.size = b.symbols.size + 1 ∧ Grows b b₂ id (id + 1) ∧
      ∀ final, Keeps b₂ final id (id + 1) →
        final.symbol? symbol = some ⟨name.name, id, owner, kind⟩ ∧
          final.declarationSymbol? id = some symbol := by
  obtain ⟨rfl, rfl⟩ := runs_introduce.1 introduce
  have marked := runs_modify.1 mark
  have size : b₂.symbols.size = b.symbols.size + 1 := by
    rw [marked]
    exact Array.size_push ..
  have grows : Grows b b₂ id (id + 1) := by
    have grown : Grows b (introduced tree owner name id kind b) id (id + 1) := grows_introduced
    rw [marked]
    apply Grows.mk
    · rfl
    · exact Array.size_setIfInBounds
    · exact grown.size
    · exact grown.symbols
    · intro n hn
      have other : id ≠ n := by omega
      show ((b.declarations.setIfInBounds id _)[n]?).join = _
      rw [Array.getElem?_setIfInBounds, if_neg other]
      rfl
  refine ⟨rfl, size, grows, fun final kept => ⟨?_, ?_⟩⟩
  · rw [kept.symbols _ (by omega), marked]
    exact Array.getElem?_push_size ..
  · rw [kept.marks id (Nat.le_refl _) (Nat.lt_succ_self _), marked]
    show ((b.declarations.setIfInBounds id _)[id]?).join = _
    rw [Array.getElem?_setIfInBounds, if_pos rfl, if_pos room]
    rfl

theorem declareOutputs_outputs {declaration module : Nat} {outputs : List OutputSignature}
    {u : Unit} (run : Runs (declareOutputs tree declaration module outputs) b u b') :
    (∀ lo hi, Grows b b' lo hi) ∧ ∀ final, (∀ n < b'.symbols.size, final.symbol? n = b'.symbol? n) →
      Outputs final declaration module b.symbols.size outputs b'.symbols.size := by
  induction outputs generalizing b with
  | nil =>
    obtain ⟨_, rfl⟩ := runs_pure.1 run
    exact ⟨fun _ _ => grows_refl, fun _ _ => .nil _⟩
  | cons o rest ih =>
    rw [declareOutputs] at run
    cases typed : o.resource with
    | none =>
      rw [typed] at run
      obtain ⟨grows, outs⟩ := ih run
      exact ⟨grows, fun final kept => .value typed (outs final kept)⟩
    | some type =>
      simp only [typed] at run
      obtain ⟨reference, b₁, known, run₁⟩ := runs_bind.1 run
      obtain ⟨hreference, hb₁⟩ := (runs_typeOf .none).1 known
      obtain ⟨_, b₂, introduce, run₂⟩ := runs_bind.1 run₁
      obtain ⟨symbol, introduce⟩ := runs_discard introduce
      obtain ⟨_, hb₂⟩ := runs_introduce.1 introduce
      subst hb₁ hb₂ hreference
      obtain ⟨grows, outs⟩ := ih run₂
      refine ⟨fun lo hi => ?_, fun final kept => ?_⟩
      · exact grows_trans grows_introduced (grows lo hi)
      · have inside : b₁.symbols.size < (introduced tree (.module module) o.name declaration
            (.resource (.ofText type none) true false) b₁).symbols.size := by
          rw [introduced, Array.size_push]
          exact Nat.lt_succ_self _
        have later := grows 0 0
        apply Outputs.resource typed
        · rw [kept _ (Nat.lt_of_lt_of_le inside later.size), later.symbols _ inside]
          exact Array.getElem?_push_size ..
        · have next := outs final kept
          rw [introduced, Array.size_push] at next
          exact next

def Declared (tree : Tree) (fuel : Nat) : Prop :=
  ∀ {shapes : List Shape} {ids : List Nat} {lo hi : Nat} {b b' : Bound}
    {parent : Option SymbolId} {around : Option (SymbolId × TypeReference)} {u : Unit},
    Arena.Lays tree.arena lo shapes ids hi → hi ≤ fuel → hi ≤ b.declarations.size →
    Around b parent around → Runs (ids.forM (declare tree fuel parent)) b u b' →
    Grows b b' lo hi ∧ ∀ final, Keeps b' final lo hi →
      Declares tree.arena final around b.symbols.size ids b'.symbols.size

/-- A declaration has got the next symbol, and nothing else has been declared. -/
structure Headed (b b' : Bound) (around : Option (SymbolId × TypeReference)) (id : Nat)
    (name : String) (kind : SymbolKind) : Prop where
  size : b'.symbols.size = b.symbols.size + 1
  grows : Grows b b' id (id + 1)
  marked : ∀ final, Keeps b' final id (id + 1) → Marked final around id b.symbols.size name kind

theorem headed_introduce {name : Identifier} {kind : SymbolKind} {id symbol : Nat} {b₁ : Bound}
    {u : Unit} (known : Around b parent around) (room : id < b.declarations.size)
    (introduce : Runs (introduce tree (ownerOf parent kind) name id kind) b symbol b₁)
    (mark : Runs (bindDeclared id symbol) b₁ u b') :
    symbol = b.symbols.size ∧ Headed b b' around id name.name kind := by
  obtain ⟨rfl, size, grows, marked⟩ := introduce_marks room introduce mark
  refine ⟨rfl, size, grows, fun final kept => ?_⟩
  obtain ⟨found, marks⟩ := marked final kept
  rw [← around_map known] at found
  exact ⟨found, marks⟩

section Headed

variable {id lo : Nat} {name : Identifier} {kind : SymbolKind} {b₁ : Bound} {u : Unit}

theorem declares_plain {data : NodeData} (head : Headed b b' around id name.name kind)
    (here : tree.arena.data? id = some data) (simple : plain? data = some (name, kind))
    (low : lo ≤ id) : Grows b b' lo (id + 1) ∧ ∀ final, Keeps b' final lo (id + 1) →
      Declares tree.arena final around b.symbols.size [id] b'.symbols.size := by
  refine ⟨grows_mono head.grows low (Nat.le_refl _), fun final kept => ?_⟩
  rw [head.size]
  exact .plain here simple (head.marked final (keeps_mono kept low (Nat.le_refl _))) (.nil _ _)

theorem declares_module {path : String} {body : Nat} {outputs : List OutputSignature}
    {inner : NodeData} (head : Headed b b₁ around id name.name (.module path inner.isLoop))
    (here : tree.arena.data? id = some (.module name path body outputs))
    (inside : tree.arena.data? body = some inner) (low : lo ≤ id)
    (run : Runs (declareOutputs tree id b.symbols.size outputs) b₁ u b') :
    Grows b b' lo (id + 1) ∧ ∀ final, Keeps b' final lo (id + 1) →
      Declares tree.arena final around b.symbols.size [id] b'.symbols.size := by
  obtain ⟨more, outs⟩ := declareOutputs_outputs run
  refine ⟨?_, fun final kept => ?_⟩
  · exact grows_trans (grows_mono head.grows low (Nat.le_refl _)) (more lo (id + 1))
  · have earlier : Keeps b₁ final id (id + 1) :=
      keeps_of_grows (more 0 0) (keeps_mono kept low (Nat.le_refl _)) (.inr (Nat.zero_le _))
    have under := outs final kept.symbols
    rw [head.size] at under
    exact .module here inside (head.marked final earlier) under (.nil _ _)

theorem declares_resource {fuel body : Nat} {type : String} {existing : Bool} {nested : List Nat}
    {inner : NodeData} {below : List Shape} (declared : Declared tree fuel)
    (head : Headed b b₁ around id name.name
      (.resource (.ofText type (around.map Prod.snd)) existing inner.isLoop))
    (here : tree.arena.data? id = some (.resource name type existing body nested))
    (inside : tree.arena.data? body = some inner)
    (under : Arena.Lays tree.arena lo below (body :: nested) id) (enough : id ≤ fuel)
    (room : id < b.declarations.size)
    (run : Runs (nested.forM (declare tree fuel (some b.symbols.size))) b₁ u b') :
    Grows b b' lo (id + 1) ∧ ∀ final, Keeps b' final lo (id + 1) →
      Declares tree.arena final around b.symbols.size [id] b'.symbols.size := by
  cases under with
  | cons _ _ underBody underNested =>
    have hbody := Arena.lays_le underBody
    have hnested := Arena.lays_le underNested
    have known : Around b₁ (some b.symbols.size)
        (some (b.symbols.size, .ofText type (around.map Prod.snd))) := by
      apply Around.some
      rw [(head.marked b₁ ⟨fun _ _ => rfl, fun _ _ _ => rfl⟩).found]
      rfl
    have width : id ≤ b₁.declarations.size := by
      rw [head.grows.width]
      exact Nat.le_of_lt room
    obtain ⟨more, declares⟩ := declared underNested enough width known run
    refine ⟨?_, fun final kept => ?_⟩
    · exact grows_trans (grows_mono head.grows (by omega) (Nat.le_refl _))
        (grows_mono more (by omega) (Nat.le_succ _))
    · have earlier : Keeps b₁ final id (id + 1) :=
        keeps_of_grows more (keeps_mono kept (by omega) (Nat.le_refl _)) (.inr (Nat.le_refl _))
      have under := declares final (keeps_mono kept (by omega) (Nat.le_succ _))
      rw [head.size] at under
      exact .resource here inside (head.marked final earlier) under (.nil _ _)

end Headed

/-- What declaring does: the declaration itself, then what is inside of it. -/
inductive Makes (t : Tree) (fuel : Nat) (parent : Option SymbolId)
    (around : Option (SymbolId × TypeReference)) (id : Nat) (b b' : Bound) : NodeData → Prop where
  | plain {data : NodeData} {name : Identifier} {kind : SymbolKind} {k : Nat} {b₁ : Bound}
      (sort : plain? data = some (name, kind))
      (new : Runs (introduce t (ownerOf parent kind) name id kind) b k b₁)
      (mark : Runs (bindDeclared id k) b₁ () b') : Makes t fuel parent around id b b' data
  | module {name : Identifier} {path : String} {body : Nat} {outputs : List OutputSignature}
      {inner : NodeData} {k : Nat} {b₁ b₂ : Bound} (inside : t.arena.data? body = some inner)
      (new : Runs (introduce t (ownerOf parent (.module path inner.isLoop)) name id
        (.module path inner.isLoop)) b k b₁)
      (mark : Runs (bindDeclared id k) b₁ () b₂)
      (under : Runs (declareOutputs t id k outputs) b₂ () b') :
      Makes t fuel parent around id b b' (.module name path body outputs)
  | resource {name : Identifier} {type : String} {existing : Bool} {body : Nat}
      {nested : List Nat} {inner : NodeData} {k : Nat} {b₁ b₂ : Bound}
      (inside : t.arena.data? body = some inner)
      (new : Runs (introduce t
        (ownerOf parent (.resource (.ofText type (around.map Prod.snd)) existing inner.isLoop)) name
        id (.resource (.ofText type (around.map Prod.snd)) existing inner.isLoop)) b k b₁)
      (mark : Runs (bindDeclared id k) b₁ () b₂)
      (under : Runs (nested.forM (declare t fuel (some k))) b₂ () b') :
      Makes t fuel parent around id b b' (.resource name type existing body nested)

theorem makes_of_runs {fuel id : Nat} {data : NodeData} {u : Unit}
    (here : tree.arena.data? id = some data) (known : Around b parent around)
    (run : Runs (declare tree (fuel + 1) parent id) b u b') :
    Makes tree fuel parent around id b b' data := by
  rw [declare] at run
  obtain ⟨data', b₀, node, run₀⟩ := runs_bind.1 run
  obtain ⟨here', rfl⟩ := runs_nodeAt.1 node
  cases here.symm.trans here'
  obtain ⟨⟨name, kind⟩, b₁, sort, run₁⟩ := runs_bind.1 run₀
  obtain ⟨k, b₂, new, run₂⟩ := runs_bind.1 run₁
  obtain ⟨_, b₃, mark, run₃⟩ := runs_bind.1 run₂
  cases data with
  | param _ _ | var _ _ | output _ _ =>
    obtain ⟨h, rfl⟩ := runs_pure.1 sort
    obtain ⟨_, rfl⟩ := runs_pure.1 run₃
    cases h
    exact .plain rfl new mark
  | module name path body outputs =>
    obtain ⟨collection, b₄, inner, sort₁⟩ := runs_bind.1 sort
    obtain ⟨_, inside, rfl, rfl⟩ := runs_isCollection.1 inner
    obtain ⟨h, rfl⟩ := runs_pure.1 sort₁
    cases h
    exact .module inside new mark run₃
  | resource name type existing body nested =>
    obtain ⟨collection, b₄, inner, sort₁⟩ := runs_bind.1 sort
    obtain ⟨_, inside, rfl, rfl⟩ := runs_isCollection.1 inner
    obtain ⟨reference, b₅, typed, sort₂⟩ := runs_bind.1 sort₁
    obtain ⟨rfl, rfl⟩ := (runs_typeOf known).1 typed
    obtain ⟨h, rfl⟩ := runs_pure.1 sort₂
    cases h
    exact .resource inside new mark run₃
  | _ => exact absurd sort runs_throw

theorem declare_single {fuel id lo : Nat} {data : NodeData} {below : List Shape} {u : Unit}
    (nested : Declared tree fuel) (here : tree.arena.data? id = some data)
    (under : Arena.Lays tree.arena lo below data.children id) (enough : id ≤ fuel)
    (room : id < b.declarations.size) (known : Around b parent around)
    (run : Runs (declare tree (fuel + 1) parent id) b u b') :
    Grows b b' lo (id + 1) ∧ ∀ final, Keeps b' final lo (id + 1) →
      Declares tree.arena final around b.symbols.size [id] b'.symbols.size := by
  have low := Arena.lays_le under
  cases makes_of_runs here known run with
  | plain sort new mark =>
    obtain ⟨_, head⟩ := headed_introduce known room new mark
    exact declares_plain head here sort low
  | module inside new mark returned =>
    obtain ⟨rfl, head⟩ := headed_introduce known room new mark
    exact declares_module head here inside low returned
  | resource inside new mark resources =>
    obtain ⟨rfl, head⟩ := headed_introduce known room new mark
    exact declares_resource nested head here inside under enough room resources

theorem declares_cons {a : Arena} {b : Bound} {around : Option (SymbolId × TypeReference)}
    {lo mid hi id : Nat} {ids : List Nat} (first : Declares a b around lo [id] mid)
    (rest : Declares a b around mid ids hi) : Declares a b around lo (id :: ids) hi := by
  cases first with
  | plain here sort marked beside =>
    cases beside
    exact .plain here sort marked rest
  | module here inside marked under beside =>
    cases beside
    exact .module here inside marked under rest
  | resource here inside marked under beside =>
    cases beside
    exact .resource here inside marked under rest

theorem declared (fuel : Nat) : Declared tree fuel := by
  induction fuel with
  | zero =>
    intro shapes ids lo hi b b' parent around u laid enough room known run
    cases laid with
    | nil =>
      obtain ⟨_, rfl⟩ := runs_pure.1 run
      exact ⟨grows_refl, fun _ _ => .nil _ _⟩
    | cons here whole under beside =>
      have := Arena.lays_le beside
      omega
  | succ fuel ih =>
    intro shapes ids lo hi b b' parent around u laid enough room known run
    induction laid generalizing b with
    | nil =>
      obtain ⟨_, rfl⟩ := runs_pure.1 run
      exact ⟨grows_refl, fun _ _ => .nil _ _⟩
    | @cons lo id hi data below shapes ids here whole under beside _ ihb =>
      have hu := Arena.lays_le under
      have hb := Arena.lays_le beside
      obtain ⟨b₁, first, rest⟩ := runs_forM.1 run
      obtain ⟨grows, one⟩ := declare_single ih here under (by omega) (by omega) known first
      have width : hi ≤ b₁.declarations.size := by
        rw [grows.width]
        exact room
      obtain ⟨more, others⟩ := ihb enough width (around_grows known grows) rest
      refine ⟨?_, fun final kept => ?_⟩
      · exact grows_trans (grows_mono grows (Nat.le_refl _) hb)
          (grows_mono more (by omega) (Nat.le_refl _))
      · have earlier : Keeps b₁ final lo (id + 1) :=
          keeps_of_grows more (keeps_mono kept (Nat.le_refl _) hb) (.inl (Nat.le_refl _))
        exact declares_cons (one final earlier)
          (others final (keeps_mono kept (by omega) (Nat.le_refl _)))

end Declaring

end DeployCheck.Binder
