import DeployCheck.Proofs.Binding.Visits

/-!
# What names are bound to

Every name is looked up in the scopes around it. Binding adds only variables of
loops, which belong to no scope that is searched by owner, so what a name is
bound to can be said with the symbols that are there in the end.
-/

set_option autoImplicit false

namespace DeployCheck.Binder

inductive Scoped (a : Arena) (b : Bound) : List Frame → Nat → Prop where
  | ident {around : List Frame} {id : Nat} {name : Identifier}
      (here : a.data? id = some (.ident name))
      (bound : b.nameSymbol? id = lookup b around name.name) : Scoped a b around id
  | access {around : List Frame} {id base : Nat} {name : Identifier}
      (here : a.data? id = some (.resourceAccess base name)) (inner : Scoped a b around base)
      (bound : b.nameSymbol? id = (b.nameSymbol? base).bind (b.child? · name.name)) :
      Scoped a b around id
  | loop {around : List Frame} {id iterated body : Nat} {item : Identifier}
      {index : Option Identifier} {frame : Frame}
      (here : a.data? id = some (.loop item index iterated body))
      (source : Scoped a b around iterated) (locals : Locals b id item index frame)
      (inner : Scoped a b (frame :: around) body) (free : b.nameSymbol? id = none) :
      Scoped a b around id
  | plain {around : List Frame} {id : Nat} {data : NodeData} (here : a.data? id = some data)
      (plain : isPlain data = true) (inner : ∀ c : Nat, c ∈ data.children → Scoped a b around c)
      (free : b.nameSymbol? id = none) : Scoped a b around id

inductive ScopedDeclaration (a : Arena) (b : Bound) : List Frame → Nat → Prop where
  | simple {around : List Frame} {id : Nat} {data : NodeData} (here : a.data? id = some data)
      (simple : isSimple data = true)
      (inner : ∀ c : Nat, c ∈ data.children → Scoped a b around c)
      (free : b.nameSymbol? id = none) : ScopedDeclaration a b around id
  | resource {around : List Frame} {id body : Nat} {name : Identifier} {type : String}
      {existing : Bool} {nested : List Nat}
      (here : a.data? id = some (.resource name type existing body nested))
      (inner : Scoped a b (inside b id around) body)
      (under : ∀ c ∈ nested, ScopedDeclaration a b (inside b id around) c)
      (free : b.nameSymbol? id = none) : ScopedDeclaration a b around id

/-- The nodes `ids` get bound as it is good, and stay so. -/
structure Binding (b b' : Bound) (lo hi : Nat) (good : Bound → Nat → Prop) (ids : List Nat) :
    Prop where
  binds : Binds b b' lo hi
  nodes : ∀ final, Holds b' final lo hi → ∀ id ∈ ids, good final id

section Binding

variable {tree : Tree} {b b' : Bound} {around : List Frame} {u : Unit}

theorem binding_list {step : NodeId → Binder Unit} {good : Bound → Nat → Prop}
    {shapes : List Shape} {ids : List Nat} {lo hi : Nat}
    (laid : Arena.Lays tree.arena lo shapes ids hi)
    (single : ∀ {lo id : Nat} {data : NodeData} {below : List Shape} {b b' : Bound},
      tree.arena.data? id = some data → Arena.Lays tree.arena lo below data.children id → id < hi →
      id < b.names.size → Blank b lo (id + 1) → Runs (step id) b () b' →
      Binding b b' lo (id + 1) good [id])
    (room : hi ≤ b.names.size) (blank : Blank b lo hi) (run : Runs (ids.forM step) b u b') :
    Binding b b' lo hi good ids := by
  have all : Binds b b' lo hi ∧ ∀ final, Holds b' final lo hi → ∀ id ∈ ids, good final id := by
    refine binds_list (P := fun _ b' lo hi ids =>
      ∀ final, Holds b' final lo hi → ∀ id ∈ ids, good final id) ?_ ?_ laid ?_ room blank run
    · exact fun _ _ _ _ => List.forall_mem_nil _
    · intro b b₁ b' lo id hi ids hu hb one binds others final holds
      rw [List.forall_mem_cons]
      constructor
      · exact one final (holds_binds binds (holds_mono holds (Nat.le_refl _) hb)
          (.inl (Nat.le_refl _))) id (List.mem_singleton.2 rfl)
      · exact others final (holds_mono holds (by omega) (Nat.le_refl _))
    · intro lo id data below b b' here under inside room blank run
      have one := single here under inside room blank run
      exact ⟨one.binds, one.nodes⟩
  exact ⟨all.1, all.2⟩

def Scopes (tree : Tree) (fuel : Nat) : Prop :=
  ∀ {shapes : List Shape} {ids : List Nat} {lo hi : Nat} {around : List Frame} {b b' : Bound}
    {u : Unit}, Arena.Lays tree.arena lo shapes ids hi → hi ≤ fuel → hi ≤ b.names.size →
    Blank b lo hi → Runs (ids.forM (bindExpression tree fuel around)) b u b' →
    Binding b b' lo hi (Scoped tree.arena · around) ids

theorem binding_children {fuel id lo : Nat} {data : NodeData} {below : List Shape}
    {good : Bound → Nat → Prop} (scopes : Scopes tree fuel)
    (under : Arena.Lays tree.arena lo below data.children id)
    (enough : id ≤ fuel) (room : id < b.names.size) (blank : Blank b lo (id + 1))
    (enter : ∀ final : Bound, (∀ c : Nat, c ∈ data.children → Scoped tree.arena final around c) →
      final.nameSymbol? id = none → good final id)
    (run : Runs (data.children.forM (bindExpression tree fuel around)) b u b') :
    Binding b b' lo (id + 1) good [id] := by
  have hle := Arena.lays_le under
  obtain ⟨binds, nodes⟩ := scopes under enough (Nat.le_of_lt room)
    (blank_mono blank (Nat.le_refl _) (Nat.le_succ _)) run
  refine ⟨binds_mono binds (Nat.le_refl _) (Nat.le_succ _), fun final holds => ?_⟩
  rw [List.forall_mem_singleton]
  apply enter final
  · exact nodes final (holds_mono holds (Nat.le_refl _) (Nat.le_succ _))
  · rw [holds.names id hle (Nat.lt_succ_self id), binds.names id (.inr (Nat.le_refl _))]
    exact blank id hle (Nat.lt_succ_self id)

section Names

variable {fuel id lo : Nat}

theorem binding_ident {name : Identifier} (here : tree.arena.data? id = some (.ident name))
    (low : lo ≤ id) (room : id < b.names.size) (blank : Blank b lo (id + 1))
    (run : Runs (bindOrReport tree id name (lookup b around name.name)) b () b') :
    Binding b b' lo (id + 1) (Scoped tree.arena · around) [id] := by
  obtain ⟨binds, bound⟩ := runs_bindOrReport run
  refine ⟨binds_mono binds low (Nat.le_refl _), fun final holds => ?_⟩
  rw [List.forall_mem_singleton]
  apply Scoped.ident here
  rw [holds.names id low (Nat.lt_succ_self id), bound room (blank id low (Nat.lt_succ_self id)),
    widens_lookup (widens_trans binds.toWidens holds.toWidens)]

theorem binding_access {base : Nat} {name : Identifier} {below : List Shape} {b₁ : Bound}
    (scopes : Scopes tree fuel) (here : tree.arena.data? id = some (.resourceAccess base name))
    (under : Arena.Lays tree.arena lo below [base] id) (enough : id ≤ fuel)
    (room : id < b.names.size) (blank : Blank b lo (id + 1))
    (inner : Runs ([base].forM (bindExpression tree fuel around)) b () b₁)
    (bind : Runs (bindOrReport tree id name
      ((b₁.nameSymbol? base).bind (b₁.child? · name.name))) b₁ () b') :
    Binding b b' lo (id + 1) (Scoped tree.arena · around) [id] := by
  have low := Arena.lays_le under
  have inner := scopes under enough (Nat.le_of_lt room)
    (blank_mono blank (Nat.le_refl _) (Nat.le_succ _)) inner
  obtain ⟨binds, bound⟩ := runs_bindOrReport bind
  have hbase := Arena.lays_mem under base (List.mem_singleton.2 rfl)
  have width : id < b₁.names.size := by
    rw [inner.binds.width]
    exact room
  have free : b₁.nameSymbol? id = none := by
    rw [inner.binds.names id (.inr (Nat.le_refl _))]
    exact blank id low (Nat.lt_succ_self id)
  refine ⟨binds_trans (binds_mono inner.binds (Nat.le_refl _) (Nat.le_succ _))
    (binds_mono binds low (Nat.le_refl _)), fun final holds => ?_⟩
  have early : Holds b₁ final lo id := holds_binds binds
    (holds_mono holds (Nat.le_refl _) (Nat.le_succ _)) (.inl (Nat.le_refl _))
  rw [List.forall_mem_singleton]
  apply Scoped.access here
  · exact inner.nodes final early base (List.mem_singleton.2 rfl)
  · rw [holds.names id low (Nat.lt_succ_self id), bound width free, early.names base hbase.1 hbase.2]
    congr 1
    funext parent
    exact (widens_child? early.toWidens parent name.name).symm

theorem binding_loop {item : Identifier} {index : Option Identifier} {iterated body : Nat}
    {frame : Frame} {below : List Shape} {b₁ b₂ : Bound} (scopes : Scopes tree fuel)
    (here : tree.arena.data? id = some (.loop item index iterated body))
    (under : Arena.Lays tree.arena lo below [iterated, body] id) (enough : id ≤ fuel)
    (room : id < b.names.size) (blank : Blank b lo (id + 1))
    (source : Runs ([iterated].forM (bindExpression tree fuel around)) b () b₁)
    (locals : Runs (loopFrame id item index) b₁ frame b₂)
    (inner : Runs ([body].forM (bindExpression tree fuel (frame :: around))) b₂ () b') :
    Binding b b' lo (id + 1) (Scoped tree.arena · around) [id] := by
  have low := Arena.lays_le under
  cases under with
  | cons hereSource wholeSource underSource underBody =>
    have hsource := Arena.lays_le underSource
    have hbody := Arena.lays_le underBody
    have source := scopes (Arena.lays_single hereSource wholeSource underSource) (by omega)
      (by omega) (blank_mono blank (Nat.le_refl _) (by omega)) source
    obtain ⟨more, frames⟩ := runs_loopFrame locals
    have binds := binds_trans source.binds (more lo (iterated + 1))
    have width : id < b₂.names.size := by
      rw [binds.width]
      exact room
    have inner := scopes underBody enough (Nat.le_of_lt width)
      (blank_binds (blank_mono blank (by omega) (Nat.le_succ _)) binds (.inr (Nat.le_refl _))) inner
    refine ⟨binds_trans (binds_mono binds (Nat.le_refl _) (by omega))
      (binds_mono inner.binds (by omega) (Nat.le_succ _)), fun final holds => ?_⟩
    -- The source of the loop is bound before its variables are there.
    have later : Holds b₂ final lo (iterated + 1) := holds_binds inner.binds
      (holds_mono holds (Nat.le_refl _) (by omega)) (.inl (Nat.le_refl _))
    rw [List.forall_mem_singleton]
    apply Scoped.loop here
    · apply source.nodes final _ iterated (List.mem_singleton.2 rfl)
      exact ⟨widens_trans (more 0 0).toWidens later.toWidens, fun n hlo hhi => by
        rw [later.names n hlo hhi, (more 0 0).names n (.inr (Nat.zero_le _))]⟩
    · exact frames final later.toWidens
    · exact inner.nodes final (holds_mono holds (by omega) (Nat.le_succ _)) body
        (List.mem_singleton.2 rfl)
    · rw [holds.names id low (Nat.lt_succ_self id), inner.binds.names id (.inr (Nat.le_refl _)),
        binds.names id (.inr hbody)]
      exact blank id low (Nat.lt_succ_self id)

end Names

theorem bindExpression_single {fuel id lo : Nat} {data : NodeData} {below : List Shape}
    (scopes : Scopes tree fuel) (here : tree.arena.data? id = some data)
    (under : Arena.Lays tree.arena lo below data.children id) (enough : id ≤ fuel)
    (room : id < b.names.size) (blank : Blank b lo (id + 1))
    (run : Runs (bindExpression tree (fuel + 1) around id) b u b') :
    Binding b b' lo (id + 1) (Scoped tree.arena · around) [id] := by
  cases visits_of_runs here run with
  | ident bind => exact binding_ident here (Arena.lays_le under) room blank bind
  | access inner bind => exact binding_access scopes here under enough room blank inner bind
  | loop source locals inner =>
    exact binding_loop scopes here under enough room blank source locals inner
  | @plain _ b₁ plain report silent inner =>
    have width : id < b₁.names.size := by
      rw [(silent 0 0).width]
      exact room
    have blank' : Blank b₁ lo (id + 1) := blank_binds blank (silent 0 0) (.inr (Nat.zero_le _))
    have inner := binding_children scopes under enough width blank'
      (fun _ inner free => Scoped.plain here plain inner free) inner
    exact ⟨binds_trans (silent lo (id + 1)) inner.binds, inner.nodes⟩

theorem scopes (fuel : Nat) : Scopes tree fuel := by
  induction fuel with
  | zero =>
    intro shapes ids lo hi around b b' u laid enough room blank run
    apply binding_list laid _ room blank run
    intro lo id data below b b' here under outside
    omega
  | succ fuel ih =>
    intro shapes ids lo hi around b b' u laid enough room blank run
    apply binding_list laid _ room blank run
    intro lo id data below b b' here under before
    exact bindExpression_single ih here under (by omega)

def ScopesDeclarations (tree : Tree) (fuel : Nat) : Prop :=
  ∀ {shapes : List Shape} {ids : List Nat} {lo hi : Nat} {around : List Frame} {b b' : Bound}
    {u : Unit}, Arena.Lays tree.arena lo shapes ids hi → hi ≤ fuel → hi ≤ b.names.size →
    Blank b lo hi → Runs (ids.forM (bindDeclaration tree fuel around)) b u b' →
    Binding b b' lo hi (ScopedDeclaration tree.arena · around) ids

theorem bindDeclaration_single {fuel id lo : Nat} {data : NodeData} {below : List Shape}
    (nested : ScopesDeclarations tree fuel) (here : tree.arena.data? id = some data)
    (under : Arena.Lays tree.arena lo below data.children id) (enough : id ≤ fuel)
    (room : id < b.names.size) (blank : Blank b lo (id + 1))
    (run : Runs (bindDeclaration tree (fuel + 1) around id) b u b') :
    Binding b b' lo (id + 1) (ScopedDeclaration tree.arena · around) [id] := by
  have hle := Arena.lays_le under
  cases visitsDeclaration_of_runs here run with
  | simple simple inner =>
    exact binding_children (scopes (fuel + 1)) under (Nat.le_succ_of_le enough) room blank
      (fun _ inner free => .simple here simple inner free) inner
  | @resource name type existing body resources b₁ inner under' =>
    cases under with
    | cons hereBody wholeBody underBody underNested =>
      have hbody := Arena.lays_le underBody
      have hnested := Arena.lays_le underNested
      have one := scopes (fuel + 1) (Arena.lays_single hereBody wholeBody underBody) (by omega)
        (by omega) (blank_mono blank (Nat.le_refl _) (by omega)) inner
      have width : id ≤ b₁.names.size := by
        rw [one.binds.width]
        exact Nat.le_of_lt room
      have others := nested underNested enough width
        (blank_binds (blank_mono blank (by omega) (Nat.le_succ _)) one.binds
          (.inr (Nat.le_refl _))) under'
      refine ⟨binds_trans (binds_mono one.binds (Nat.le_refl _) (by omega))
        (binds_mono others.binds (by omega) (Nat.le_succ _)), fun final holds => ?_⟩
      have early : Holds b₁ final lo (body + 1) := holds_binds others.binds
        (holds_mono holds (Nat.le_refl _) (by omega)) (.inl (Nat.le_refl _))
      have same : inside final id around = inside b id around :=
        widens_inside (widens_trans one.binds.toWidens early.toWidens) id
      rw [List.forall_mem_singleton]
      apply ScopedDeclaration.resource here
      · rw [same]
        exact one.nodes final early body (List.mem_singleton.2 rfl)
      · rw [same]
        exact others.nodes final (holds_mono holds (by omega) (Nat.le_succ _))
      · rw [holds.names id hle (Nat.lt_succ_self id), others.binds.names id (.inr (Nat.le_refl _)),
          one.binds.names id (.inr hnested)]
        exact blank id hle (Nat.lt_succ_self id)

theorem scopesDeclarations (fuel : Nat) : ScopesDeclarations tree fuel := by
  induction fuel with
  | zero =>
    intro shapes ids lo hi around b b' u laid enough room blank run
    apply binding_list laid _ room blank run
    intro lo id data below b b' here under outside
    omega
  | succ fuel ih =>
    intro shapes ids lo hi around b b' u laid enough room blank run
    apply binding_list laid _ room blank run
    intro lo id data below b b' here under before
    exact bindDeclaration_single ih here under (by omega)

end Binding

/-- The symbols and names of a bound program: the declarations have the symbols up
to `total`, all others are variables of loops, and every name is bound as the scopes
say. -/
structure Resolves (tree : Tree) (b : Bound) (ids : List Nat) (total : Nat) : Prop where
  declares : Declares tree.arena b none 0 ids total
  nodes : ∀ id ∈ ids, ScopedDeclaration tree.arena b [] id
  size : total ≤ b.symbols.size
  locals : ∀ n symbol, total ≤ n → b.symbol? n = some symbol → ∃ loop, symbol.owner = .loop loop

structure Passes (tree : Tree) (ids : List Nat) (mid b : Bound) : Prop where
  first : Runs (ids.forM (declare tree (tree.arena.size + 1) none)) (.start tree.arena.size) () mid
  second : Runs (ids.forM (bindDeclaration tree (tree.arena.size + 1) [])) mid () b
  width : mid.names.size = tree.arena.size
  free : ∀ n, mid.nameSymbol? n = none
  kept : Keeps mid b 0 tree.root
  declares : Declares tree.arena b none 0 ids mid.symbols.size
  binding : Binding mid b 0 tree.root (ScopedDeclaration tree.arena · []) ids

section Programs

variable {tree : Tree} {b : Bound} {ids : List Nat} {shapes : List Shape}
  (root : tree.arena.data? tree.root = some (.program ids))
  (laid : Arena.Lays tree.arena 0 shapes ids tree.root) (size : tree.arena.size = tree.root + 1)
  (bound : Bound.ofTree tree = .ok b)

include root laid size bound

theorem passes_ofTree : ∃ mid, Passes tree ids mid b := by
  have run : Runs (program tree ids) (.start tree.arena.size) () b := by
    rw [Bound.ofTree, root] at bound
    dsimp only at bound
    cases run : (program tree ids).run (.start tree.arena.size) with
    | error e =>
      rw [run] at bound
      cases bound
    | ok r =>
      rw [run] at bound
      cases bound
      exact run
  rw [program] at run
  obtain ⟨_, mid, first, second⟩ := runs_bind.1 run
  have inside : tree.root ≤ tree.arena.size := by
    rw [size]
    exact Nat.le_succ _
  have enough : tree.root ≤ tree.arena.size + 1 := Nat.le_succ_of_le inside
  have room : tree.root ≤ (Bound.start tree.arena.size).declarations.size := by
    rw [Bound.start, Array.size_replicate]
    exact inside
  obtain ⟨grows, declares⟩ := declared _ laid enough room .none first
  have names : mid.names = .replicate tree.arena.size none := grows.names
  have width : mid.names.size = tree.arena.size := by
    rw [names, Array.size_replicate]
  have free : ∀ n, mid.nameSymbol? n = none := by
    intro n
    rw [Bound.nameSymbol?, names, Array.getElem?_replicate]
    split <;> rfl
  have binding := scopesDeclarations _ laid enough (width ▸ inside) (fun n _ _ => free n) second
  have widens := binding.binds.toWidens
  have kept : Keeps mid b 0 tree.root := ⟨widens.symbols, fun n _ _ => by
    rw [Bound.declarationSymbol?, Bound.declarationSymbol?, widens.declarations]⟩
  exact ⟨mid, first, second, width, free, kept, declares b kept, binding⟩

theorem resolves_ofTree : ∃ total, Resolves tree b ids total := by
  obtain ⟨mid, passes⟩ := passes_ofTree root laid size bound
  have widens := passes.binding.binds.toWidens
  have nodes := passes.binding.nodes b ⟨widens_refl, fun _ _ _ => rfl⟩
  exact ⟨mid.symbols.size, passes.declares, nodes, widens.size, widens.locals⟩

end Programs

end DeployCheck.Binder
