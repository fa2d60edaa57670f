import DeployCheck.Proofs.Binding.Declaring

/-!
# What binding one node does

Binding adds only variables of loops, which belong to no scope that is searched by
owner, and diagnostics. A run at one node is taken apart once, into the runs at its
children and what is done for the node itself.
-/

set_option autoImplicit false

namespace DeployCheck

namespace Bound

def Bears (b : Bound) (owner : Owner) (name : String) (id : Nat) : Prop :=
  ∃ symbol, b.symbol? id = some symbol ∧ symbol.owner = owner ∧ Name.same symbol.name name = true

variable {b b' : Bound} {owner : Owner} {name : String}

theorem bears_getElem {id : Nat} (h : id < b.symbols.size) : Bears b owner name id ↔
    (b.symbols[id].owner == owner && Name.same b.symbols[id].name name) = true := by
  rw [Bears, Bound.symbol?, Array.getElem?_eq_getElem h, Bool.and_eq_true, beq_iff_eq]
  constructor
  · rintro ⟨symbol, found, same⟩
    cases found
    exact same
  · exact fun same => ⟨_, rfl, same⟩

theorem bears_lt {id : Nat} (h : Bears b owner name id) : id < b.symbols.size := by
  obtain ⟨_, found, _⟩ := h
  exact (Array.getElem?_eq_some_iff.1 found).1

theorem member?_eq_some_iff {id : Nat} : b.member? owner name = some id ↔
    Bears b owner name id ∧ ∀ n < id, ¬Bears b owner name n := by
  rw [member?, Array.findIdx?_eq_some_iff_getElem]
  constructor
  · rintro ⟨inside, here, first⟩
    refine ⟨(bears_getElem inside).2 here, fun n hn earlier => ?_⟩
    exact first n hn ((bears_getElem (Nat.lt_trans hn inside)).1 earlier)
  · rintro ⟨here, first⟩
    refine ⟨bears_lt here, (bears_getElem (bears_lt here)).1 here, fun n hn earlier => ?_⟩
    exact first n hn ((bears_getElem (Nat.lt_trans hn (bears_lt here))).2 earlier)

theorem member?_eq_none_iff : b.member? owner name = none ↔ ∀ n, ¬Bears b owner name n := by
  rw [member?, Array.findIdx?_eq_none_iff]
  constructor
  · intro none n bears
    have inside := bears_lt bears
    have here := (bears_getElem inside).1 bears
    rw [none _ (Array.getElem_mem inside)] at here
    cases here
  · intro none symbol hm
    obtain ⟨n, inside, rfl⟩ := Array.getElem_of_mem hm
    exact Bool.eq_false_iff.2 fun here => none n ((bears_getElem inside).2 here)

theorem member?_eq_of_bears (h : ∀ n, Bears b' owner name n ↔ Bears b owner name n) :
    b'.member? owner name = b.member? owner name := by
  cases found : b.member? owner name with
  | none =>
    rw [member?_eq_none_iff] at found ⊢
    exact fun n hn => found n ((h n).1 hn)
  | some id =>
    rw [member?_eq_some_iff] at found ⊢
    exact ⟨(h id).2 found.1, fun n hn earlier => found.2 n hn ((h n).1 earlier)⟩

end Bound

namespace Tree

def unknownName (t : Tree) (name : Identifier) : Diagnostic :=
  .ofRule t.file name.span .unknownName [name.name]

/-- The report about a node: it is an identifier or a `::` node that is not bound, or
calls a function that is not known. -/
def unknown? (t : Tree) (b : Bound) (n : NodeId) : Option Diagnostic :=
  match t.arena.data? n with
  | some (.ident name) | some (.resourceAccess _ name) =>
    if (b.nameSymbol? n).isNone then some (t.unknownName name) else none
  | some (.call name _) =>
    if (Builtin.find? name.name).isNone then some (t.unknownName name) else none
  | _ => none

end Tree

namespace Binder

/-- The variables of a loop have symbols, and are found in a frame. -/
inductive Locals (b : Bound) (loop : Nat) (item : Identifier) : Option Identifier → Frame → Prop where
  | item {id : SymbolId}
      (found : b.symbol? id = some ⟨item.name, loop, .loop loop, .loopItem loop⟩) :
      Locals b loop item none (.locals [(item.name, id)])
  | index {id id' : SymbolId} {index : Identifier}
      (found : b.symbol? id = some ⟨item.name, loop, .loop loop, .loopItem loop⟩)
      (found' : b.symbol? id' = some ⟨index.name, loop, .loop loop, .loopIndex loop⟩) :
      Locals b loop item (some index) (.locals [(index.name, id'), (item.name, id)])

def isPlain : NodeData → Bool
  | .ident _ | .resourceAccess .. | .loop .. => false
  | data => !data.isDeclaration

def inside (b : Bound) (id : NodeId) (around : List Frame) : List Frame :=
  (b.declarationSymbol? id).toList.map .nested ++ around

def isSimple : NodeData → Bool
  | .param .. | .var .. | .output .. | .module .. => true
  | _ => false

structure Widens (b b' : Bound) : Prop where
  declarations : b'.declarations = b.declarations
  width : b'.names.size = b.names.size
  size : b.symbols.size ≤ b'.symbols.size
  symbols : ∀ n < b.symbols.size, b'.symbol? n = b.symbol? n
  locals : ∀ n symbol, b.symbols.size ≤ n → b'.symbol? n = some symbol →
    ∃ loop, symbol.owner = .loop loop

/-- Only names of nodes from `lo` up to `hi` are bound. -/
structure Binds (b b' : Bound) (lo hi : Nat) : Prop extends Widens b b' where
  names : ∀ n, n < lo ∨ hi ≤ n → b'.nameSymbol? n = b.nameSymbol? n

structure Holds (b b' : Bound) (lo hi : Nat) : Prop extends Widens b b' where
  names : ∀ n, lo ≤ n → n < hi → b'.nameSymbol? n = b.nameSymbol? n

def Blank (b : Bound) (lo hi : Nat) : Prop := ∀ n, lo ≤ n → n < hi → b.nameSymbol? n = none

section Widens

variable {b b' b'' : Bound} {lo hi lo' hi' : Nat}

theorem widens_refl : Widens b b := by
  apply Widens.mk
  · rfl
  · rfl
  · exact Nat.le_refl _
  · exact fun _ _ => rfl
  · intro n symbol outside found
    rw [Bound.symbol?, Array.getElem?_eq_none outside] at found
    cases found

theorem widens_trans (h : Widens b b') (h' : Widens b' b'') : Widens b b'' := by
  apply Widens.mk
  · rw [h'.declarations, h.declarations]
  · rw [h'.width, h.width]
  · exact Nat.le_trans h.size h'.size
  · intro n hn
    rw [h'.symbols n (Nat.lt_of_lt_of_le hn h.size), h.symbols n hn]
  · intro n symbol hn found
    by_cases early : n < b'.symbols.size
    · rw [h'.symbols n early] at found
      exact h.locals n symbol hn found
    · exact h'.locals n symbol (Nat.le_of_not_lt early) found

theorem widens_found {n : Nat} {symbol : Symbol} (h : Widens b b')
    (found : b.symbol? n = some symbol) : b'.symbol? n = some symbol := by
  rw [h.symbols n (Array.getElem?_eq_some_iff.1 found).1, found]

theorem widens_member? (h : Widens b b') {owner : Owner} (other : ∀ loop, owner ≠ .loop loop)
    (name : String) : b'.member? owner name = b.member? owner name := by
  apply Bound.member?_eq_of_bears
  intro n
  by_cases early : n < b.symbols.size
  · rw [Bound.Bears, Bound.Bears, h.symbols n early]
  · constructor
    · rintro ⟨symbol, found, own, _⟩
      obtain ⟨loop, local'⟩ := h.locals n symbol (Nat.le_of_not_lt early) found
      rw [own] at local'
      exact absurd local' (other loop)
    · exact fun bears => absurd (Bound.bears_lt bears) early

theorem widens_child? (h : Widens b b') (parent : SymbolId) (name : String) :
    b'.child? parent name = b.child? parent name :=
  widens_member? h (fun _ h => by cases h) name

theorem widens_lookup (h : Widens b b') (around : List Frame) (name : String) :
    lookup b' around name = lookup b around name := by
  have frames : ∀ frame : Frame, frame.lookup b' name = frame.lookup b name := by
    intro frame
    cases frame with
    | nested resource => exact widens_child? h resource name
    | locals entries => rfl
  have global : b'.global? name = b.global? name := widens_member? h (fun _ h => by cases h) name
  rw [lookup, lookup, global]
  congr 2
  funext frame
  exact frames frame

theorem binds_trans (h : Binds b b' lo hi) (h' : Binds b' b'' lo hi) : Binds b b'' lo hi := by
  apply Binds.mk
  · exact widens_trans h.toWidens h'.toWidens
  · intro n hn
    rw [h'.names n hn, h.names n hn]

theorem binds_mono (h : Binds b b' lo hi) (below : lo' ≤ lo) (above : hi ≤ hi') :
    Binds b b' lo' hi' := ⟨h.toWidens, fun n hn => h.names n (by omega)⟩

theorem holds_mono (h : Holds b b' lo hi) (below : lo ≤ lo') (above : hi' ≤ hi) :
    Holds b b' lo' hi' := ⟨h.toWidens, fun n hlo hhi => h.names n (by omega) (by omega)⟩

theorem holds_binds {final : Bound} (binds : Binds b b' lo' hi') (holds : Holds b' final lo hi)
    (apart : hi ≤ lo' ∨ hi' ≤ lo) : Holds b final lo hi := by
  apply Holds.mk
  · exact widens_trans binds.toWidens holds.toWidens
  · intro n hlo hhi
    rw [holds.names n hlo hhi, binds.names n (by omega)]

theorem blank_mono (h : Blank b lo hi) (below : lo ≤ lo') (above : hi' ≤ hi) : Blank b lo' hi' :=
  fun n hlo hhi => h n (Nat.le_trans below hlo) (Nat.lt_of_lt_of_le hhi above)

theorem blank_binds (h : Blank b lo hi) (binds : Binds b b' lo' hi') (apart : hi ≤ lo' ∨ hi' ≤ lo) :
    Blank b' lo hi := by
  intro n hlo hhi
  rw [binds.names n (by omega)]
  exact h n hlo hhi

end Widens

structure Adds (b b' : Bound) (symbols : List Symbol) (diagnostics : List Diagnostic) : Prop where
  symbols : b'.symbols.toList = b.symbols.toList ++ symbols
  diagnostics : b'.diagnostics.toList = b.diagnostics.toList ++ diagnostics

section Visits

variable {t : Tree} {b b' : Bound} {around : List Frame} {u : Unit} {fuel id : Nat} {data : NodeData}

theorem widens_inside {final : Bound} (widens : Widens b final) (id : NodeId) :
    inside final id around = inside b id around := by
  rw [inside, inside, Bound.declarationSymbol?, Bound.declarationSymbol?, widens.declarations]

theorem runs_report {name : Identifier} {rule : Rule} (run : Runs (report t name rule) b u b') :
    ∃ ds, b' = { b with diagnostics := ds } := by
  exact ⟨_, runs_modify.1 run⟩

theorem runs_bindOrReport {node : Nat} {name : Identifier} {symbol : Option SymbolId}
    (run : Runs (bindOrReport t node name symbol) b u b') :
    Binds b b' node (node + 1) ∧
      (node < b.names.size → b.nameSymbol? node = none → b'.nameSymbol? node = symbol) := by
  cases symbol with
  | none =>
    obtain ⟨ds, rfl⟩ := runs_report run
    exact ⟨⟨⟨rfl, rfl, Nat.le_refl _, fun _ _ => rfl, widens_refl.locals⟩, fun _ _ => rfl⟩,
      fun _ blank => blank⟩
  | some id =>
    have set := runs_modify.1 run
    subst set
    refine ⟨⟨⟨rfl, Array.size_setIfInBounds, Nat.le_refl _, fun _ _ => rfl, widens_refl.locals⟩,
      fun n hn => ?_⟩, fun room _ => ?_⟩
    · have other : node ≠ n := by omega
      show ((b.names.setIfInBounds node _)[n]?).join = _
      rw [Array.getElem?_setIfInBounds, if_neg other]
      rfl
    · show ((b.names.setIfInBounds node _)[node]?).join = _
      rw [Array.getElem?_setIfInBounds, if_pos rfl, if_pos room]
      rfl

theorem runs_addSymbol {symbol : Symbol} {id : SymbolId} {loop : NodeId}
    (local' : symbol.owner = .loop loop) (run : Runs (addSymbol symbol) b id b') :
    (∀ lo hi, Binds b b' lo hi) ∧ b'.symbol? id = some symbol := by
  have added : Runs (addSymbol symbol) b b.symbols.size
      { b with symbols := b.symbols.push symbol } := rfl
  rw [Runs, added] at run
  cases run
  refine ⟨fun lo hi => ⟨⟨rfl, rfl, ?_, ?_, ?_⟩, fun _ _ => rfl⟩, ?_⟩
  · exact Nat.le_trans (Nat.le_succ _) (Nat.le_of_eq (Array.size_push ..).symm)
  · exact fun n hn => symbol?_push hn
  · intro n other outside found
    have inside := (Array.getElem?_eq_some_iff.1 found).1
    rw [Array.size_push] at inside
    have last : n = b.symbols.size := by omega
    rw [last, Bound.symbol?, Array.getElem?_push_size] at found
    cases found
    exact ⟨loop, local'⟩
  · exact Array.getElem?_push_size ..

theorem runs_loopFrame {loop : Nat} {item : Identifier} {index : Option Identifier} {frame : Frame}
    (run : Runs (loopFrame loop item index) b frame b') :
    (∀ lo hi, Binds b b' lo hi) ∧ ∀ final, Widens b' final → Locals final loop item index frame := by
  rw [loopFrame] at run
  obtain ⟨itemId, b₁, add, run₁⟩ := runs_bind.1 run
  obtain ⟨binds, found⟩ := runs_addSymbol rfl add
  cases index with
  | none =>
    obtain ⟨rfl, rfl⟩ := runs_pure.1 run₁
    exact ⟨binds, fun final widens => .item (widens_found widens found)⟩
  | some index =>
    obtain ⟨indexId, b₂, add', run₂⟩ := runs_bind.1 run₁
    obtain ⟨binds', found'⟩ := runs_addSymbol rfl add'
    obtain ⟨rfl, rfl⟩ := runs_pure.1 run₂
    refine ⟨fun lo hi => binds_trans (binds lo hi) (binds' lo hi), fun final widens => ?_⟩
    have earlier := widens_found (binds' 0 0).toWidens found
    exact .index (widens_found widens earlier) (widens_found widens found')

theorem runs_forM_single {ι : Type} {f : ι → Binder Unit} {i : ι} :
    Runs ([i].forM f) b () b' ↔ Runs (f i) b () b' := by
  rw [runs_forM]
  constructor
  · rintro ⟨_, h, h'⟩
    obtain ⟨_, rfl⟩ := runs_pure.1 h'
    exact h
  · exact fun h => ⟨b', h, runs_pure.2 ⟨rfl, rfl⟩⟩

theorem adds_refl : Adds b b [] [] := by constructor <;> simp

theorem adds_report {name : Identifier} {rule : Rule} (run : Runs (report t name rule) b u b') :
    Adds b b' [] [.ofRule t.file name.span rule [name.name]] := by
  have pushed := runs_modify.1 run
  subst pushed
  constructor <;> simp

/-- What binding an expression does: itself, and with its children. -/
inductive Visits (t : Tree) (fuel : Nat) (around : List Frame) (id : Nat) (b b' : Bound) :
    NodeData → Prop where
  | ident {name : Identifier}
      (bind : Runs (bindOrReport t id name (lookup b around name.name)) b () b') :
      Visits t fuel around id b b' (.ident name)
  | access {base : Nat} {name : Identifier} {b₁ : Bound}
      (inner : Runs ([base].forM (bindExpression t fuel around)) b () b₁)
      (bind : Runs (bindOrReport t id name
        ((b₁.nameSymbol? base).bind (b₁.child? · name.name))) b₁ () b') :
      Visits t fuel around id b b' (.resourceAccess base name)
  | loop {item : Identifier} {index : Option Identifier} {iterated body : Nat} {frame : Frame}
      {b₁ b₂ : Bound} (source : Runs ([iterated].forM (bindExpression t fuel around)) b () b₁)
      (locals : Runs (loopFrame id item index) b₁ frame b₂)
      (inner : Runs ([body].forM (bindExpression t fuel (frame :: around))) b₂ () b') :
      Visits t fuel around id b b' (.loop item index iterated body)
  | plain {data : NodeData} {b₁ : Bound} (plain : isPlain data = true)
      (report : Adds b b₁ [] (t.unknown? b id).toList) (silent : ∀ lo hi, Binds b b₁ lo hi)
      (inner : Runs (data.children.forM (bindExpression t fuel around)) b₁ () b') :
      Visits t fuel around id b b' data

theorem visits_of_runs (here : t.arena.data? id = some data)
    (run : Runs (bindExpression t (fuel + 1) around id) b u b') :
    Visits t fuel around id b b' data := by
  have refl : ∀ lo hi, Binds b b lo hi := fun _ _ => ⟨widens_refl, fun _ _ => rfl⟩
  rw [bindExpression] at run
  obtain ⟨data', b₀, node, run₀⟩ := runs_bind.1 run
  obtain ⟨here', hb₀⟩ := runs_nodeAt.1 node
  cases here.symm.trans here'
  subst hb₀
  by_cases declaration : data.isDeclaration = true
  · rw [if_pos declaration] at run₀
    obtain ⟨_, _, thrown, _⟩ := runs_bind.1 run₀
    exact absurd thrown runs_throw
  · rw [if_neg declaration] at run₀
    cases data with
    | ident name =>
      obtain ⟨_, b₁, got, run₁⟩ := runs_bind.1 run₀
      obtain ⟨rfl, rfl⟩ := runs_get.1 got
      exact .ident run₁
    | resourceAccess base name =>
      obtain ⟨_, b₁, first, run₁⟩ := runs_bind.1 run₀
      obtain ⟨_, b₂, got, run₂⟩ := runs_bind.1 run₁
      obtain ⟨rfl, rfl⟩ := runs_get.1 got
      exact .access (runs_forM_single.2 first) run₂
    | loop item index iterated body =>
      obtain ⟨_, b₁, first, run₁⟩ := runs_bind.1 run₀
      obtain ⟨frame, b₂, locals, run₂⟩ := runs_bind.1 run₁
      exact .loop (runs_forM_single.2 first) locals (runs_forM_single.2 run₂)
    | call name args =>
      by_cases unknown : (Builtin.find? name.name).isNone = true
      · simp only [unknown, if_true] at run₀
        obtain ⟨_, b₁, reported, run₁⟩ := runs_bind.1 run₀
        refine .plain rfl ?_ ?_ run₁
        · simpa [Tree.unknown?, here, unknown, Tree.unknownName] using adds_report reported
        · obtain ⟨ds, rfl⟩ := runs_report reported
          exact fun lo hi =>
            ⟨⟨rfl, rfl, Nat.le_refl _, fun _ _ => rfl, widens_refl.locals⟩, fun _ _ => rfl⟩
      · simp only [unknown] at run₀
        refine .plain rfl ?_ refl run₀
        simpa [Tree.unknown?, here, unknown] using adds_refl
    | program _ | param _ _ | var _ _ | output _ _ | module _ _ _ _ | resource _ _ _ _ _ =>
      exact absurd rfl declaration
    | _ =>
      refine .plain rfl ?_ refl run₀
      simpa [Tree.unknown?, here] using adds_refl

inductive VisitsDeclaration (t : Tree) (fuel : Nat) (around : List Frame) (id : Nat) (b b' : Bound) :
    NodeData → Prop where
  | simple {data : NodeData} (simple : isSimple data = true)
      (inner : Runs (data.children.forM (bindExpression t (fuel + 1) around)) b () b') :
      VisitsDeclaration t fuel around id b b' data
  | resource {name : Identifier} {type : String} {existing : Bool} {body : Nat} {nested : List Nat}
      {b₁ : Bound}
      (inner : Runs ([body].forM (bindExpression t (fuel + 1) (inside b id around))) b () b₁)
      (under : Runs (nested.forM (bindDeclaration t fuel (inside b id around))) b₁ () b') :
      VisitsDeclaration t fuel around id b b' (.resource name type existing body nested)

theorem visitsDeclaration_of_runs (here : t.arena.data? id = some data)
    (run : Runs (bindDeclaration t (fuel + 1) around id) b u b') :
    VisitsDeclaration t fuel around id b b' data := by
  rw [bindDeclaration] at run
  obtain ⟨data', b₀, node, run₀⟩ := runs_bind.1 run
  obtain ⟨here', hb₀⟩ := runs_nodeAt.1 node
  cases here.symm.trans here'
  subst hb₀
  cases data with
  | param _ _ | var _ _ | output _ _ | module _ _ _ _ => exact .simple rfl run₀
  | resource name type existing body nested =>
    obtain ⟨_, b₁, got, run₁⟩ := runs_bind.1 run₀
    obtain ⟨hgot, hb₁⟩ := runs_get.1 got
    rw [hgot, hb₁] at run₁
    have run₂ : Runs (bindExpression t (fuel + 1) (inside b₀ id around) body >>= fun _ =>
        nested.forM (bindDeclaration t fuel (inside b₀ id around))) b₀ u b' := by
      rw [inside]
      cases marked : b₀.declarationSymbol? id with
      | none =>
        simp only [marked] at run₁
        exact run₁
      | some symbol =>
        simp only [marked] at run₁
        exact run₁
    obtain ⟨_, b₂, first, run₃⟩ := runs_bind.1 run₂
    exact .resource (runs_forM_single.2 first) run₃
  | _ => exact absurd run₀ runs_throw

/-- What each node of a list does is done by the list, if it can be said of lists. -/
theorem binds_list {step : NodeId → Binder Unit} {P : Bound → Bound → Nat → Nat → List Nat → Prop}
    (nil : ∀ b lo, P b b lo lo [])
    (cons : ∀ {b b₁ b' : Bound} {lo id hi : Nat} {ids : List Nat}, lo ≤ id → id < hi →
      P b b₁ lo (id + 1) [id] → Binds b₁ b' (id + 1) hi → P b₁ b' (id + 1) hi ids →
      P b b' lo hi (id :: ids))
    {shapes : List Shape} {ids : List Nat} {lo hi : Nat} (laid : Arena.Lays t.arena lo shapes ids hi)
    (single : ∀ {lo id : Nat} {data : NodeData} {below : List Shape} {b b' : Bound},
      t.arena.data? id = some data → Arena.Lays t.arena lo below data.children id → id < hi →
      id < b.names.size → Blank b lo (id + 1) → Runs (step id) b () b' →
      Binds b b' lo (id + 1) ∧ P b b' lo (id + 1) [id])
    (room : hi ≤ b.names.size) (blank : Blank b lo hi) (run : Runs (ids.forM step) b u b') :
    Binds b b' lo hi ∧ P b b' lo hi ids := by
  induction laid generalizing b with
  | nil =>
    obtain ⟨_, rfl⟩ := runs_pure.1 run
    exact ⟨⟨widens_refl, fun _ _ => rfl⟩, nil _ _⟩
  | @cons lo id hi data below shapes ids here whole under beside _ ihb =>
    have hu := Arena.lays_le under
    have hb := Arena.lays_le beside
    obtain ⟨b₁, first, rest⟩ := runs_forM.1 run
    obtain ⟨binds, one⟩ :=
      single here under hb (by omega) (blank_mono blank (Nat.le_refl _) hb) first
    have width : hi ≤ b₁.names.size := by
      rw [binds.width]
      exact room
    obtain ⟨binds', others⟩ := ihb single width
      (blank_binds (blank_mono blank (by omega) (Nat.le_refl _)) binds (.inr (Nat.le_refl _))) rest
    exact ⟨binds_trans (binds_mono binds (Nat.le_refl _) hb)
      (binds_mono binds' (by omega) (Nat.le_refl _)), cons hu hb one binds' others⟩

end Visits

end Binder

end DeployCheck
