import DeployCheck.Proofs.Binding.Blocks
import DeployCheck.Proofs.Binding.Reports

/-!
# Names that are declared twice

Declaring reports a name if an earlier symbol of the same scope has it. Which names
these are is said about the symbols in the end: a name is reported if its own symbol
is not the first one of the name.
-/

set_option autoImplicit false

namespace DeployCheck

namespace Tree

def duplicateName (t : Tree) (name : Identifier) : Diagnostic :=
  .ofRule t.file name.span .duplicateName [name.name]

/-- The report about a member of a scope: another symbol is the first of its name. -/
def clash? (t : Tree) (b : Bound) (m : Identifier × SymbolId) : Option Diagnostic :=
  (b.symbol? m.2).bind fun s =>
    if b.member? s.owner s.name = some m.2 then none else some (t.duplicateName m.1)

def clashes (t : Tree) (b : Bound) (members : List (Identifier × SymbolId)) : List Diagnostic :=
  members.filterMap (t.clash? b)

def headClashes (t : Tree) (b : Bound) (ids : List NodeId) : List Diagnostic :=
  t.clashes b (ids.filterMap (Scope.marked? t b))

def innerClashes (t : Tree) (b : Bound) (id : NodeId) : List Diagnostic :=
  match t.arena.data? id with
  | some (.resource _ _ _ _ _) => t.clashes b ((Scope.resource id).members t b)
  | some (.module _ _ _ _) => t.clashes b ((Scope.module id).members t b)
  | _ => []

end Tree

namespace Binder

section Declaring

variable {t : Tree} {b b' b₁ : Bound} {u : Unit} {fuel id : Nat} {data : NodeData}
  {parent : Option SymbolId} {around : Option (SymbolId × TypeReference)}

theorem clash?_introduce {owner : Owner} {name : Identifier} {declaration k : Nat} {kind : SymbolKind}
    (run : Runs (introduce t owner name declaration kind) b k b') {final : Bound}
    (kept : ∀ n < b'.symbols.size, final.symbol? n = b'.symbol? n) :
    ∃ ss, Adds b b' ss (t.clash? final (name, k)).toList := by
  obtain ⟨rfl, rfl⟩ := runs_introduce.1 run
  have size : (introduced t owner name declaration kind b).symbols.size = b.symbols.size + 1 :=
    Array.size_push ..
  have found : final.symbol? b.symbols.size = some ⟨name.name, declaration, owner, kind⟩ := by
    rw [kept _ (by omega)]
    exact Array.getElem?_push_size ..
  have earlier : ∀ n < b.symbols.size, final.symbol? n = b.symbol? n := by
    intro n low
    rw [kept n (by omega)]
    exact symbol?_push low
  have bears : final.Bears owner name.name b.symbols.size := ⟨_, found, rfl, Name.same_refl _⟩
  -- Symbols that are added later do not change which one is the first of the name.
  have first : final.member? owner name.name = some b.symbols.size ↔
      (b.member? owner name.name).isSome = false := by
    rw [Bound.member?_eq_some_iff, Option.isSome_eq_false_iff, Option.isNone_iff_eq_none,
      Bound.member?_eq_none_iff]
    constructor
    · rintro ⟨_, none⟩ n before
      have low := Bound.bears_lt before
      refine none n low ?_
      rw [Bound.Bears, earlier n low]
      exact before
    · refine fun none => ⟨bears, fun n low before => none n ?_⟩
      rw [Bound.Bears, ← earlier n low]
      exact before
  refine ⟨[⟨name.name, declaration, owner, kind⟩], ?_⟩
  constructor
  · simp [introduced]
  · cases known : (b.member? owner name.name).isSome with
    | false => simp [introduced, known, Tree.clash?, found, first.2 known]
    | true =>
      have other : ¬final.member? owner name.name = some b.symbols.size := by simp [first, known]
      simp [introduced, known, Tree.clash?, found, other, Tree.duplicateName]

theorem clashes_outputs {declaration module : Nat} {outputs : List OutputSignature}
    (run : Runs (declareOutputs t declaration module outputs) b u b') {final : Bound}
    (kept : ∀ n < b'.symbols.size, final.symbol? n = b'.symbol? n) :
    ∃ ss, Adds b b' ss
      (t.clashes final ((OutputSignature.returned outputs).zipIdx b.symbols.size)) := by
  induction outputs generalizing b with
  | nil =>
    obtain ⟨_, rfl⟩ := runs_pure.1 run
    exact ⟨[], adds_refl⟩
  | cons o rest ih =>
    rw [declareOutputs] at run
    cases typed : o.resource with
    | none =>
      rw [typed] at run
      simpa [OutputSignature.returned, typed] using ih run
    | some type =>
      simp only [typed] at run
      obtain ⟨reference, b₁, known, run₁⟩ := runs_bind.1 run
      obtain ⟨_, rfl⟩ := (runs_typeOf .none).1 known
      obtain ⟨_, b₂, introduce, run₂⟩ := runs_bind.1 run₁
      obtain ⟨k, introduce⟩ := runs_discard introduce
      obtain ⟨grows, _⟩ := declareOutputs_outputs run₂
      obtain ⟨ss, adds⟩ := clash?_introduce introduce fun n low => by
        rw [kept n (Nat.lt_of_lt_of_le low (grows 0 0).size), (grows 0 0).symbols n low]
      obtain ⟨ss', adds'⟩ := ih run₂
      obtain ⟨rfl, rfl⟩ := runs_introduce.1 introduce
      have size : (introduced t (.module module) o.name declaration
          (.resource reference true false) b₁).symbols.size = b₁.symbols.size + 1 :=
        Array.size_push ..
      rw [size] at adds'
      refine ⟨ss ++ ss', ?_⟩
      have both := adds_trans adds adds'
      have row : (OutputSignature.returned (o :: rest)).zipIdx b₁.symbols.size =
          (o.name, b₁.symbols.size) ::
            (OutputSignature.returned rest).zipIdx (b₁.symbols.size + 1) := by
        simp [OutputSignature.returned, typed, List.zipIdx_cons]
      rw [row, Tree.clashes, List.filterMap_cons]
      cases clash : t.clash? final (o.name, b₁.symbols.size) with
      | none => simpa [clash, Tree.clashes] using both
      | some d => simpa [clash, Tree.clashes] using both

theorem makes_head {name : Identifier} {owner : Owner} {kind : SymbolKind} {k : Nat}
    (here : t.arena.data? id = some data) (named : data.declaredName? = some name)
    (room : id < b.declarations.size) (new : Runs (introduce t owner name id kind) b k b₁)
    (mark : Runs (bindDeclared id k) b₁ () b') :
    Grows b b' id (id + 1) ∧ k = b.symbols.size ∧ b'.symbols.size = k + 1 ∧
      ∀ final, Keeps b' final id (id + 1) →
        final.symbol? k = some ⟨name.name, id, owner, kind⟩ ∧
        final.declarationSymbol? id = some k ∧
        ∃ ss, Adds b b' ss (t.headClashes final [id]) := by
  obtain ⟨hk, size, grows, marks⟩ := introduce_marks room new mark
  refine ⟨grows, hk, by omega, fun final kept => ?_⟩
  obtain ⟨found, marked⟩ := marks final kept
  refine ⟨found, marked, ?_⟩
  have set := runs_modify.1 mark
  obtain ⟨ss, adds⟩ : ∃ ss, Adds b b₁ ss (t.clash? final (name, k)).toList :=
    clash?_introduce new fun n low => by
      rw [kept.symbols n (by rw [set]; exact low), set]
      rfl
  have row : Scope.marked? t final id = some (name, k) := by
    simp [Scope.marked?, Tree.declaredName?, here, named, marked]
  have own : (t.clash? final (name, k)).toList = t.headClashes final [id] := by
    simp only [Tree.headClashes, Tree.clashes, List.filterMap_cons, row, List.filterMap_nil]
    cases t.clash? final (name, k) <;> rfl
  rw [← own]
  refine ⟨ss, ?_⟩
  subst set
  exact ⟨adds.symbols, adds.diagnostics⟩

theorem innerClashes_expressions {final : Bound} {lo hi : Nat}
    (all : ∀ n, lo ≤ n → n < hi → t.arena.IsExpression n) :
    (between lo hi).flatMap (t.innerClashes final) = [] := by
  refine List.flatMap_eq_nil_iff.2 fun n inside => ?_
  obtain ⟨above, under⟩ := mem_between.1 inside
  cases all n above under with
  | @intro _ data here sort _ =>
    rw [Tree.innerClashes, here]
    cases data <;> first | rfl | cases sort

theorem headClashes_cons {final : Bound} (id : Nat) (ids : List Nat) :
    t.headClashes final (id :: ids) = t.headClashes final [id] ++ t.headClashes final ids := by
  simp only [Tree.headClashes, Tree.clashes, ← List.filterMap_append]
  rfl

def Clashing (t : Tree) (b b' final : Bound) (lo hi : Nat) (ids : List Nat) : Prop :=
  ∃ ss ds, Adds b b' ss ds ∧
    ds.Perm (t.headClashes final ids ++ (between lo hi).flatMap (t.innerClashes final))

def ClashesAll (t : Tree) (fuel : Nat) : Prop :=
  ∀ {shapes : List Shape} {ids : List Nat} {lo hi : Nat} {b b' : Bound} {parent : Option SymbolId}
    {around : Option (SymbolId × TypeReference)} {u : Unit}, Arena.Lays t.arena lo shapes ids hi →
    (∀ id ∈ ids, t.arena.IsDeclaration id) → hi ≤ fuel → hi ≤ b.declarations.size →
    Around b parent around → Runs (ids.forM (declare t fuel parent)) b u b' →
    ∀ final, Keeps b' final lo hi → Clashing t b b' final lo hi ids

theorem innerClashes_simple {lo : Nat} {below : List Shape} {final : Bound}
    (here : t.arena.data? id = some data) (under : Arena.Lays t.arena lo below data.children id)
    (sort : t.arena.IsDeclaration id) (simple : isSimple data = true) :
    (between lo id).flatMap (t.innerClashes final) = [] := by
  cases sort with
  | simple here' _ inner =>
    cases here.symm.trans here'
    exact innerClashes_expressions (Arena.lays_expressions under inner)
  | resource here' _ _ =>
    cases here.symm.trans here'
    cases simple

section Clashing

variable {lo : Nat} {below : List Shape} {final : Bound} {k : Nat} {name : Identifier}
  {kind : SymbolKind} {owner : Owner} {b₂ : Bound}

theorem clashing_plain (here : t.arena.data? id = some data)
    (under : Arena.Lays t.arena lo below data.children id) (sort : t.arena.IsDeclaration id)
    (plain : plain? data = some (name, kind)) (room : id < b.declarations.size)
    (new : Runs (introduce t owner name id kind) b k b₁) (mark : Runs (bindDeclared id k) b₁ () b')
    (kept : Keeps b' final lo (id + 1)) : Clashing t b b' final lo (id + 1) [id] := by
  have low := Arena.lays_le under
  have named : data.declaredName? = some name := by cases data <;> cases plain <;> rfl
  obtain ⟨_, _, _, head⟩ := makes_head here named room new mark
  obtain ⟨_, _, ss, adds⟩ := head final (keeps_mono kept low (Nat.le_refl _))
  refine ⟨ss, _, adds, ?_⟩
  have own : t.innerClashes final id = [] := by
    rw [Tree.innerClashes, here]
    cases data <;> first | rfl | cases plain
  rw [between_last low, List.flatMap_append, List.flatMap_singleton, own,
    innerClashes_simple here under sort (by cases data <;> cases plain <;> rfl)]
  simp

theorem clashing_module {path : String} {body : Nat} {outputs : List OutputSignature}
    (here : t.arena.data? id = some (.module name path body outputs))
    (under : Arena.Lays t.arena lo below [body] id) (sort : t.arena.IsDeclaration id)
    (room : id < b.declarations.size) (new : Runs (introduce t owner name id kind) b k b₁)
    (mark : Runs (bindDeclared id k) b₁ () b₂)
    (returned : Runs (declareOutputs t id k outputs) b₂ () b')
    (kept : Keeps b' final lo (id + 1)) : Clashing t b b' final lo (id + 1) [id] := by
  have low := Arena.lays_le under
  obtain ⟨_, hk, size, head⟩ := makes_head here rfl room new mark
  obtain ⟨more, _⟩ := declareOutputs_outputs returned
  obtain ⟨_, marked, ss, adds⟩ := head final (keeps_of_grows (more 0 0)
    (keeps_mono kept low (Nat.le_refl _)) (.inr (Nat.zero_le _)))
  obtain ⟨ss', adds'⟩ := clashes_outputs returned kept.symbols
  refine ⟨_, _, adds_trans adds adds', ?_⟩
  have own : t.innerClashes final id =
      t.clashes final ((OutputSignature.returned outputs).zipIdx b₂.symbols.size) := by
    simp [Tree.innerClashes, here, Scope.members, marked, size]
  rw [between_last low, List.flatMap_append, List.flatMap_singleton, own,
    innerClashes_simple here under sort rfl]
  simp

theorem clashing_resource {type : String} {existing collection : Bool} {body : Nat}
    {nested : List Nat} {reference : TypeReference} (clashes : ClashesAll t fuel)
    (here : t.arena.data? id = some (.resource name type existing body nested))
    (under : Arena.Lays t.arena lo below (body :: nested) id) (sort : t.arena.IsDeclaration id)
    (enough : id ≤ fuel) (room : id < b.declarations.size)
    (new : Runs (introduce t owner name id (.resource reference existing collection)) b k b₁)
    (mark : Runs (bindDeclared id k) b₁ () b₂)
    (resources : Runs (nested.forM (declare t fuel (some k))) b₂ () b')
    (kept : Keeps b' final lo (id + 1)) : Clashing t b b' final lo (id + 1) [id] := by
  have low := Arena.lays_le under
  obtain ⟨grows, hk, size, head⟩ := makes_head here rfl room new mark
  cases under with
  | cons hereBody wholeBody underBody underNested =>
    have hbody := Arena.lays_le underBody
    have hnested := Arena.lays_le underNested
    have found := (head b₂ ⟨fun _ _ => rfl, fun _ _ _ => rfl⟩).1
    have inner : Around b₂ (some k) (some (k, reference)) := by
      apply Around.some
      rw [found]
      rfl
    have width : id ≤ b₂.declarations.size := by
      rw [grows.width]
      exact Nat.le_of_lt room
    have sorts : t.arena.IsExpression body ∧ ∀ c ∈ nested, t.arena.IsDeclaration c := by
      cases sort with
      | simple here' simple' _ =>
        cases here.symm.trans here'
        cases simple'
      | resource here' inner below =>
        cases here.symm.trans here'
        exact ⟨inner, below⟩
    obtain ⟨more, _⟩ := declared fuel underNested enough width inner resources
    obtain ⟨_, _, ss, adds⟩ := head final (keeps_of_grows more (keeps_mono kept low (Nat.le_refl _))
      (.inr (Nat.le_refl _)))
    obtain ⟨ss', ds', adds', reports⟩ := clashes underNested sorts.2 enough width inner resources
      final (keeps_mono kept (by omega) (Nat.le_succ _))
    refine ⟨_, _, adds_trans adds adds', ?_⟩
    have own : t.innerClashes final id = t.headClashes final nested := by
      simp [Tree.innerClashes, here, Scope.members, Scope.declarations, Tree.headClashes]
    have none : (between lo (body + 1)).flatMap (t.innerClashes final) = [] :=
      innerClashes_expressions (Arena.lays_expressions
        (Arena.lays_single hereBody wholeBody underBody) (List.forall_mem_singleton.2 sorts.1))
    -- What is nested is reported at the resource, before anything that is inside of it.
    rw [between_last low, between_append (body + 1) (by omega) hnested, List.flatMap_append,
      List.flatMap_append, List.flatMap_singleton, own, none, List.nil_append]
    exact (reports.trans List.perm_append_comm).append_left _

end Clashing

theorem clashing_single {lo : Nat} {below : List Shape} (clashes : ClashesAll t fuel)
    (here : t.arena.data? id = some data) (under : Arena.Lays t.arena lo below data.children id)
    (sort : t.arena.IsDeclaration id) (enough : id ≤ fuel) (room : id < b.declarations.size)
    (known : Around b parent around) (run : Runs (declare t (fuel + 1) parent id) b u b')
    (final : Bound) (kept : Keeps b' final lo (id + 1)) :
    Clashing t b b' final lo (id + 1) [id] := by
  cases makes_of_runs here known run with
  | plain plain new mark => exact clashing_plain here under sort plain room new mark kept
  | module _ new mark returned => exact clashing_module here under sort room new mark returned kept
  | resource _ new mark resources =>
    exact clashing_resource clashes here under sort enough room new mark resources kept

theorem clashesAll (fuel : Nat) : ClashesAll t fuel := by
  induction fuel with
  | zero =>
    intro shapes ids lo hi b b' parent around u laid sorts enough room known run final kept
    cases laid with
    | nil =>
      obtain ⟨_, rfl⟩ := runs_pure.1 run
      exact ⟨[], [], adds_refl, by simp [Tree.headClashes, Tree.clashes, between_self]⟩
    | cons here whole under beside =>
      have := Arena.lays_le beside
      omega
  | succ fuel ih =>
    intro shapes ids lo hi b b' parent around u laid sorts enough room known run final kept
    induction laid generalizing b with
    | nil =>
      obtain ⟨_, rfl⟩ := runs_pure.1 run
      exact ⟨[], [], adds_refl, by simp [Tree.headClashes, Tree.clashes, between_self]⟩
    | @cons lo id hi data below shapes ids here whole under beside _ ihb =>
      have hu := Arena.lays_le under
      have hb := Arena.lays_le beside
      obtain ⟨sort, sorts⟩ := List.forall_mem_cons.1 sorts
      obtain ⟨b₁, first, rest⟩ := runs_forM.1 run
      obtain ⟨grows, _⟩ :=
        declare_single (declared fuel) here under (by omega) (by omega) known first
      have width : hi ≤ b₁.declarations.size := by
        rw [grows.width]
        exact room
      obtain ⟨more, _⟩ := declared (fuel + 1) beside enough width (around_grows known grows) rest
      have earlier : Keeps b₁ final lo (id + 1) :=
        keeps_of_grows more (keeps_mono kept (Nat.le_refl _) hb) (.inl (Nat.le_refl _))
      obtain ⟨ss, ds, adds, reports⟩ :=
        clashing_single ih here under sort (by omega) (by omega) known first final earlier
      obtain ⟨ss', ds', adds', reports'⟩ := ihb sorts enough width (around_grows known grows) rest
        (keeps_mono kept (by omega) (Nat.le_refl _))
      refine ⟨_, _, adds_trans adds adds', ?_⟩
      rw [headClashes_cons, between_append (id + 1) (by omega) hb, List.flatMap_append]
      refine (reports.append reports').trans ?_
      simp only [List.append_assoc]
      exact (List.perm_append_comm_assoc _ _ _).append_left _

end Declaring

structure Accounts (t : Tree) (b : Bound) : Prop where
  symbols : ∃ declared locals, b.symbols.toList = declared ++ locals ∧
    (∀ s ∈ declared, ∀ loop, s.owner ≠ .loop loop) ∧
    locals.Perm ((List.range t.root).flatMap t.loopSymbols)
  reports : ∃ ds ds', b.diagnostics.toList = ds ++ ds' ∧
    ds.Perm (t.headClashes b t.declarations ++ (List.range t.root).flatMap (t.innerClashes b)) ∧
    ds'.Perm ((List.range t.root).filterMap (t.unknown? b))
  free : ∀ n, t.root ≤ n → b.nameSymbol? n = none

theorem declares_owner {a : Arena} {b : Bound} {around : Option (SymbolId × TypeReference)}
    {lo hi : Nat} {ids : List Nat} (h : Declares a b around lo ids hi) : ∀ k, lo ≤ k → k < hi →
      ∃ symbol, b.symbol? k = some symbol ∧ ∀ loop, symbol.owner ≠ .loop loop := by
  have marked : ∀ {around : Option (SymbolId × TypeReference)} {id k : Nat} {name : String}
      {kind : SymbolKind}, Marked b around id k name kind →
      ∃ symbol, b.symbol? k = some symbol ∧ ∀ loop, symbol.owner ≠ .loop loop := by
    intro around id k name kind marked
    refine ⟨_, marked.found, fun loop own => ?_⟩
    cases around <;> cases kind <;> cases own
  induction h with
  | nil => omega
  | @plain around lo hi id ids data name kind here sort head beside ih =>
    intro k above under
    by_cases first : k = lo
    · exact first ▸ marked head
    · exact ih k (by omega) under
  | @module around lo mid hi id body ids name path outputs inner here inside head returned beside ih =>
    intro k above under
    by_cases first : k = lo
    · exact first ▸ marked head
    · by_cases own : k < mid
      · obtain ⟨symbol, found, owner⟩ := outputs_owner returned (by omega) own
        refine ⟨symbol, found, fun loop other => ?_⟩
        rw [owner] at other
        cases other
      · exact ih k (by omega) under
  | @resource around lo mid hi id body ids nested name type existing inner here inside head under beside
      ihu ihb =>
    intro k above behind
    by_cases first : k = lo
    · exact first ▸ marked head
    · by_cases own : k < mid
      · exact ihu k (by omega) own
      · exact ihb k (by omega) behind

theorem accounts_ofTree {t : Tree} {b : Bound} {file : String} {program : List Declaration}
    (lowered : Tree.ofProgram file program = .ok t) (bound : Bound.ofTree t = .ok b) :
    Accounts t b := by
  obtain ⟨ids, root, laid, size⟩ := Tree.ofProgram_lays lowered
  have sorts := Tree.ofProgram_sorts lowered
  have top : t.declarations = ids := by rw [Tree.declarations, root]
  rw [top] at sorts
  obtain ⟨mid, passes⟩ := passes_ofTree root laid size bound
  have inside : t.root ≤ t.arena.size := by
    rw [size]
    exact Nat.le_succ _
  have enough : t.root ≤ t.arena.size + 1 := Nat.le_succ_of_le inside
  have room : t.root ≤ (Bound.start t.arena.size).declarations.size := by
    rw [Bound.start, Array.size_replicate]
    exact inside
  obtain ⟨ss, ds, adds, clashes⟩ :=
    clashesAll _ laid sorts enough room .none passes.first b passes.kept
  obtain ⟨ss', ds', adds', locals, reports⟩ := reportsDeclarations _ laid enough
    (passes.width ▸ inside) (fun n _ _ => passes.free n) passes.second
  have unknown := reports b ⟨widens_refl, fun _ _ _ => rfl⟩
  rw [between_zero] at clashes locals unknown
  constructor
  · refine ⟨mid.symbols.toList, ss', adds'.symbols, fun s member => ?_, locals⟩
    obtain ⟨k, low, rfl⟩ := Array.getElem_of_mem (Array.mem_toList_iff.1 member)
    obtain ⟨symbol, found, other⟩ := declares_owner passes.declares k (Nat.zero_le k) low
    rw [passes.kept.symbols k low, Bound.symbol?, Array.getElem?_eq_getElem low] at found
    cases found
    exact other
  · refine ⟨ds, ds', ?_, top ▸ clashes, unknown⟩
    rw [adds'.diagnostics, adds.diagnostics]
    simp [Bound.start]
  · intro n high
    rw [passes.binding.binds.names n (.inr high), passes.free n]

end Binder

end DeployCheck
