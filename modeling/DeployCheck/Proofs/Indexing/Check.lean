import DeployCheck.Proofs.Analysis.Order
import DeployCheck.Proofs.Analysis.References
import DeployCheck.Proofs.Indexing.Analysis
import DeployCheck.Proofs.Indexing.Documents
import DeployCheck.Proofs.Insertion.Check
import DeployCheck.Proofs.Violations

/-!
# Checking with a member selected by an index

It makes no difference to the check whether a property is selected by a dot or by a string in an
index, but for the `outputs` in front of an output of a module, which need the dot.
-/

set_option autoImplicit false

namespace DeployCheck

open Analysis (Item Uncut answerAfter bodied)

namespace Arena

theorem Indexed.walk {a a' : Arena} {ids order : List Nat} {e : Nat} {name : String}
    (h : a.Indexed a' e name) (walk : PreOrder a ids order) :
    ∃ order', PreOrder a' (ids.map (twin e)) order' ∧
      order'.filter (· ≠ e + 1) = order.map (twin e) := by
  have kept : ∀ id below rest, (twin e id :: (below ++ rest)).filter (· ≠ e + 1) =
      twin e id :: (below.filter (· ≠ e + 1) ++ rest.filter (· ≠ e + 1)) := by
    intro id below rest
    have other : decide (twin e id ≠ e + 1) = true := decide_eq_true (twin_ne e id)
    rw [List.filter_cons, if_pos other, List.filter_append]
  induction walk with
  | nil => exact ⟨[], .nil, rfl⟩
  | @cons id ids below rest _ _ ihu ihb =>
    obtain ⟨below', under, same⟩ := ihu
    obtain ⟨rest', beside, same'⟩ := ihb
    rw [List.map_cons, List.map_cons, List.map_append, ← same, ← same']
    by_cases access : id = e + 1
    · subst access
      obtain ⟨i, property, _⟩ := h.access.property
      have base : a.children (e + 1) = [e] := children_of_data property
      rw [base, List.map_singleton, twin_self] at under
      have leaf : PreOrder a' (a'.children (e + 1)) [] := by
        rw [children_of_data h.access.string]
        exact .nil
      have both : PreOrder a' (a'.children (twin e (e + 1))) (below' ++ [e + 1]) := by
        rw [twin_succ, children_of_data h.access.index]
        exact preOrder_append under (.cons leaf .nil)
      refine ⟨_, .cons both beside, ?_⟩
      rw [kept, List.filter_append]
      simp
    · rw [← h.enlarged.children_twin access] at under
      exact ⟨_, .cons under beside, kept id below' rest'⟩

end Arena

theorem Analysis.answerAfter_outputs {s : Subject} {x base : NodeId} {id : SymbolId}
    {symbol : Symbol} {name : String} (selects : s.tree.arena.Selects x base name)
    (target : s.target? base = some id) (found : s.bound.symbol? id = some symbol)
    (module : symbol.isModule = true)
    (same : Name.same name ObjectType.outputsProperty = true) (items : List Item) :
    answerAfter s items x = false := by
  apply Bool.eq_false_iff.2
  intro answer
  exact not_constant_outputs selects target found module same
    ((answers_derive (reached_inquire items)).1 x answer)

namespace Model

variable {m m' : Model} {e : Nat} {name : String}

theorem constrained?_eq_none {x : NodeId} (other : ∀ id symbol, m.target? x = some id →
      m.bound.symbol? id = some symbol → symbol.isExistingResource = false) :
    m.constrained? x = none := by
  cases found : m.constrained? x with
  | none => rfl
  | some a =>
    obtain ⟨target, known, _, constrained⟩ := constrained?_eq_some_iff.1 found
    rw [Access.isRuntimeConstrained, other _ _ target known] at constrained
    cases constrained

section Access

variable (arena : m.tree.arena.Indexed m'.tree.arena e name)

include arena

theorem violation?_property :
    m.violation? (e + 1) = (m.constrained? e).filter fun a => !a.allowsProperty name := by
  obtain ⟨i, property, same⟩ := arena.access.property
  rw [violation?, property, ← same]
  rfl

theorem violation?_index :
    m'.violation? (e + 2) = (m'.constrained? e).filter fun a => !a.allowsProperty name := by
  have selects : ∀ a, m'.forbidsIndex a (e + 1) = !a.allowsProperty name := by
    intro a
    rw [forbidsIndex, arena.access.string]
    rfl
  rw [violation?, arena.access.index]
  show (m'.constrained? e).filter _ = _
  simp only [selects]

theorem violation?_string : m'.violation? (e + 1) = none := by
  rw [violation?, arena.access.string]
  rfl

end Access

/-- The second model is that of the first program with a member of `e` selected by an index, and
`e` does not name a collection. -/
structure Indexed (m m' : Model) (catalog : Catalog) (e : Nat) (name : String) : Prop where
  arena : m.tree.arena.Indexed m'.tree.arena e name
  bound : m.bound.Follows m.tree.arena m'.tree.arena e m'.bound
  plain : m.bound.elementTarget? m.tree.arena e = none
  bodies : ∀ id, m.body? id = (Analysis.run (.ofModel m catalog)).body? id
  bodies' : ∀ id, m'.body? id = (Analysis.run (.ofModel m' catalog)).body? id

/-- Unless the base denotes something, the limit is not reached with the index when some items
are asked for. -/
def Spared (m m' : Model) (catalog : Catalog) (e : Nat) (items : List Item) : Prop :=
  m.target? e = none → Uncut (.ofModel m' catalog) items

namespace Indexed

variable {catalog : Catalog} (h : m.Indexed m' catalog e name)

include h

theorem target?_base : m'.target? e = m.target? e := by
  have same := Bound.target?_before h.arena h.bound h.plain (Nat.le_succ e)
  rwa [twin_self] at same

theorem target?_access : m'.target? (e + 2) = m.target? (e + 1) := by
  have same := Bound.target?_before h.arena h.bound h.plain (Nat.le_refl (e + 1))
  rwa [twin_succ] at same

section Read

variable (read : ¬m.bound.Unread m.tree.arena (e + 1))

include read

theorem module_of_read : ∃ id symbol, m.target? e = some id ∧ m.bound.symbol? id = some symbol ∧
    symbol.isModule = true ∧ m'.target? e = some id ∧
    m'.bound.symbol? id = some (symbol.moved e) ∧ (symbol.moved e).isModule = true ∧
    Name.same name ObjectType.outputsProperty = true := by
  obtain ⟨id, symbol, target, found, module, outputs⟩ := Bound.module_of_read h.arena read
  refine ⟨id, symbol, target, found, module, h.target?_base.trans target, ?_, ?_, outputs⟩
  · rw [h.bound.symbol?, found]
    rfl
  · rwa [symbol.isModule_mapped]

theorem constrained?_of_read : m.constrained? e = none ∧ m'.constrained? e = none := by
  have single : ∀ {m : Model} {id : SymbolId} {symbol : Symbol}, m.target? e = some id →
      m.bound.symbol? id = some symbol → symbol.isModule = true → m.constrained? e = none := by
    intro m id symbol target found module
    apply constrained?_eq_none
    intro id' symbol' target' found'
    cases target.symm.trans target'
    cases found.symm.trans found'
    apply Bool.eq_false_iff.2
    intro existing
    obtain ⟨type, collection, kind⟩ := Symbol.isExistingResource_iff.1 existing
    rw [Symbol.isModule, kind] at module
    cases module
  obtain ⟨id, symbol, target, found, module, target', found', module', _⟩ := h.module_of_read read
  exact ⟨single target found module, single target' found' module'⟩

theorem answer_of_read (items : List Item) :
    answerAfter (.ofModel m' catalog) (items.map (Item.renumbered e)) (e + 2) =
      answerAfter (.ofModel m catalog) items (e + 1) := by
  obtain ⟨i, property, same⟩ := h.arena.access.property
  obtain ⟨id, symbol, target, found, module, target', found', module', outputs⟩ :=
    h.module_of_read read
  have literal : (m'.tree.arena.data? (e + 1)).bind NodeData.literal? = some name := by
    rw [h.arena.access.string]
    rfl
  have dot := Analysis.answerAfter_outputs (s := .ofModel m catalog) (.dot property) target
    found module (same ▸ outputs) items
  have index := Analysis.answerAfter_outputs (s := .ofModel m' catalog)
    (.literal h.arena.access.index literal) target' found' module' outputs
  exact (index _).trans dot.symm

end Read

section Unread

variable (unread : m.bound.Unread m.tree.arena (e + 1))

include unread

theorem subject : (Analysis.Subject.ofModel m catalog).Indexed (.ofModel m' catalog) e name :=
  ⟨h.arena, h.bound, h.plain, unread, rfl⟩

section Spared

variable (spared : m.Spared m' catalog e ((bodied (.ofModel m' catalog)).map .body))

include spared

theorem enlarged : m.Enlarged m' e (twin e) (· ≠ e + 1) := by
  refine ⟨h.arena.enlarged, h.bound.symbol?, (h.subject unread).target?_twin, fun id => ?_⟩
  rw [h.bodies, h.bodies', Analysis.run_indexed (h.subject unread) spared]

theorem violation?_unread :
    m'.violation? (e + 2) = (m.violation? (e + 1)).map (Access.moved e) := by
  have same : (m'.constrained? (twin e e)).filter (fun a => !a.allowsProperty name) =
      ((m.constrained? e).filter fun a => !a.allowsProperty name).map (Access.moved e) :=
    (h.enlarged unread spared).constrained? (fun _ => rfl) e
  rw [twin_self] at same
  rw [violation?_property h.arena, violation?_index h.arena]
  exact same

theorem violation?_twin (x : Nat) :
    m'.violation? (twin e x) = (m.violation? x).map (Access.moved e) := by
  by_cases access : x = e + 1
  · rw [access, twin_succ]
    exact h.violation?_unread unread spared
  · refine (h.enlarged unread spared).violation?_twin access fun base here => ?_
    exact access (h.arena.parent x
      (Arena.isChild_of_data here (List.mem_cons_of_mem _ List.mem_cons_self)))

end Spared

end Unread

theorem violation?_access :
    m'.violation? (e + 2) = (m.violation? (e + 1)).map (Access.moved e) := by
  have missing : m.constrained? e = none ∧ m'.constrained? e = none →
      m'.violation? (e + 2) = (m.violation? (e + 1)).map (Access.moved e) := by
    rintro ⟨none, none'⟩
    rw [violation?_property h.arena, violation?_index h.arena, none, none']
    rfl
  by_cases unread : m.bound.Unread m.tree.arena (e + 1)
  · cases target : m.target? e with
    | none =>
      have target' := h.target?_base.trans target
      apply missing
      constructor
      · exact constrained?_eq_none fun _ _ found => by cases target.symm.trans found
      · exact constrained?_eq_none fun _ _ found => by cases target'.symm.trans found
    | some id => exact h.violation?_unread unread fun none => by cases none.symm.trans target
  · exact missing (h.constrained?_of_read unread)

theorem answer_access (items : List Item)
    (spared : m.Spared m' catalog e (items.map (Item.renumbered e) ++ [.expression (e + 2)])) :
    answerAfter (.ofModel m' catalog) (items.map (Item.renumbered e)) (e + 2) =
      answerAfter (.ofModel m catalog) items (e + 1) := by
  by_cases unread : m.bound.Unread m.tree.arena (e + 1)
  · have same := Analysis.answer_indexed (h.subject unread) items (e + 1) (twin_succ e ▸ spared)
    rwa [twin_succ] at same
  · exact h.answer_of_read unread items

end Indexed

/-- In a program a property of an expression is selected by an index, or the other way round. If
one of the programs has a tree, so does the other one, and a node is bound to the symbol that it
was bound to. If the expression is no name of a collection, the two accesses denote the same and
are both reported or not, and they are both constant or not if the limit is not reached. If the
access is not the `outputs` that an output of a module is read from, and the limit is not reached,
all bodies are the same, and so are all other accesses that are reported. -/
theorem build_indexed {file name : String} {catalog : Catalog} {ds ds' : List Declaration}
    (put : Declaration.Replaced (Expression.Indexed name) ds ds')
    (lowered : (∃ tree, Tree.ofProgram file ds = .ok tree) ∨
      ∃ tree', Tree.ofProgram file ds' = .ok tree') :
    ∃ m m' e, Tree.ofProgram file ds = .ok m.tree ∧ Model.build m.tree catalog = .ok m ∧
      Tree.ofProgram file ds' = .ok m'.tree ∧ Model.build m'.tree catalog = .ok m' ∧
      m.tree.arena.Indexed m'.tree.arena e name ∧
      (∀ id, m'.bound.symbol? id = (m.bound.symbol? id).map (Symbol.moved e)) ∧
      (∀ x, m'.bound.nameSymbol? (twin e x) = m.bound.nameSymbol? x) ∧
      ((∀ id, ¬m.bound.Names m.tree.arena true e id) →
        m'.target? (e + 2) = m.target? (e + 1) ∧
        m'.violation? (e + 2) = (m.violation? (e + 1)).map (Access.moved e) ∧
        (∀ items,
          m.Spared m' catalog e (items.map (Item.renumbered e) ++ [.expression (e + 2)]) →
          answerAfter (.ofModel m' catalog) (items.map (Item.renumbered e)) (e + 2) =
            answerAfter (.ofModel m catalog) items (e + 1)) ∧
        (m.bound.Unread m.tree.arena (e + 1) →
          m.Spared m' catalog e ((bodied (.ofModel m' catalog)).map .body) →
          (∀ x, m'.target? (twin e x) = m.target? x) ∧
          (∀ id, m'.body? id = m.body? id) ∧
          (∀ x, m'.violation? (twin e x) = (m.violation? x).map (Access.moved e)) ∧
          m'.violation? (e + 1) = none ∧
          m'.check.map Diagnostic.text = m.check.map Diagnostic.text)) := by
  obtain ⟨tree, tree', e, lowered, lowered', arena, root⟩ := Tree.ofProgram_selected put lowered
  obtain ⟨m, built⟩ := Model.build_total lowered catalog
  obtain ⟨m', built'⟩ := Model.build_total lowered' catalog
  obtain ⟨rfl, bound, bodies⟩ := Analysis.build_ok built
  obtain ⟨rfl, bound', bodies'⟩ := Analysis.build_ok built'
  obtain ⟨b', same, follows⟩ :=
    Bound.ofTree_enlarged arena.enlarged (Binder.follows_indexed arena) root bound
  rw [bound'] at same
  cases same
  obtain ⟨_, laid⟩ := Tree.ofProgram_root lowered
  obtain ⟨_, laid'⟩ := Tree.ofProgram_root lowered'
  have walk : (m'.tree.arena.visit m'.tree.root).filter (· ≠ e + 1) =
      (m.tree.arena.visit m.tree.root).map (twin e) := by
    obtain ⟨order', walk', same⟩ := arena.walk (Arena.lays_preOrder laid (Nat.le_succ _))
    rw [List.map_singleton, ← root] at walk'
    have whole := Arena.preOrder_unique (Arena.lays_preOrder laid' (Nat.le_succ _)) walk'
    exact (congrArg (List.filter (· ≠ e + 1)) whole).trans same
  refine ⟨m, m', e, lowered, built, lowered', built', arena, follows.symbol?,
    follows.names (Bound.spares_indexed arena m.bound), fun single => ?_⟩
  have plain : m.bound.elementTarget? m.tree.arena e = none :=
    Option.eq_none_iff_forall_ne_some.2 fun id found => single id (Bound.elementTarget?_iff.1 found)
  have h : m.Indexed m' catalog e name := ⟨arena, follows, plain, bodies, bodies'⟩
  refine ⟨h.target?_access, h.violation?_access, h.answer_access, fun unread spared => ?_⟩
  have twins := h.violation?_twin unread spared
  have string := violation?_string arena
  exact ⟨(h.subject unread).target?_twin, (h.enlarged unread spared).bodies, twins, string,
    check_enlarged twins string walk⟩

def namedByMember (member : Expression) : List Declaration :=
  [.var "v" (.object [("n", .string (some "a") [] none)] none) none,
    .resource "r" "T@1" true (.object [("name", member)] none) [] none,
    .resource "u" "T@1" true (.object [("name", .call "reference" [] none)] none) [] none,
    .output "o" (.index (.ident "u" none) (.string (some "tags") [] none) none) none]

def memberByDot : List Declaration := namedByMember (.property (.ident "v" none) "n" none)

def memberByIndex : List Declaration :=
  namedByMember (.index (.ident "v" none) (.string (some "n") [] none) none)

theorem memberByDot_indexed :
    Declaration.Replaced (Expression.Indexed "n") memberByDot memberByIndex :=
  .beside _ (.resource _ _ _ _ _ _
    (.inside (.entry [] "name" [] none) (.access (.ident "v" none) none none (.value none))))

theorem build_indexed_memberByDot : ∃ m m',
    Tree.ofProgram "main.json" memberByDot = .ok m.tree ∧ build m.tree .empty = .ok m ∧
      Tree.ofProgram "main.json" memberByIndex = .ok m'.tree ∧ build m'.tree .empty = .ok m' ∧
      answerAfter (.ofModel m .empty) [] 4 = true ∧ answerAfter (.ofModel m' .empty) [] 5 = true ∧
      m.check.length = 1 ∧ (∀ id, m'.body? id = m.body? id) ∧
      m'.check.map Diagnostic.text = m.check.map Diagnostic.text := by
  have facts : (Analysis.modelled? memberByDot).map (fun t =>
      ((List.range t.1.arena.size).filter fun q =>
          (t.1.arena.data? q).any fun data => data.kindName == "property",
        (List.range t.1.arena.size).filter fun q =>
          (t.1.arena.children q).contains 4 && (t.2.bound.target? t.1.arena q).isSome,
        t.2.bound.elementTarget? t.1.arena 3, answerAfter (.ofModel t.2 .empty) [] 4,
        t.2.check.length)) = some ([4], [], none, true, 1) := by
    decide +kernel
  have uncut : (Analysis.modelled? memberByIndex).map (fun t =>
      (decide (Uncut (.ofModel t.2 .empty) [.expression 5]),
        decide (Uncut (.ofModel t.2 .empty) ((bodied (.ofModel t.2 .empty)).map .body)))) =
      some (true, true) := by
    decide +kernel
  obtain ⟨⟨tree, m⟩, found, facts⟩ := Option.map_eq_some_iff.1 facts
  obtain ⟨⟨tree', m'⟩, found', uncut⟩ := Option.map_eq_some_iff.1 uncut
  obtain ⟨lowered, built⟩ := Analysis.modelled_ok found
  obtain ⟨lowered', built'⟩ := Analysis.modelled_ok found'
  obtain rfl := build_tree built
  obtain rfl := build_tree built'
  simp only [Prod.mk.injEq, decide_eq_true_eq] at facts uncut
  obtain ⟨accesses, readers, plain, constant, one⟩ := facts
  obtain ⟨answered, settled⟩ := uncut
  obtain ⟨m₁, m₁', e, lowered₁, built₁, lowered₁', built₁', arena, _, _, rest⟩ :=
    build_indexed memberByDot_indexed (.inl ⟨_, lowered⟩)
  have same : m₁.tree = m.tree := Except.ok.inj (lowered₁.symm.trans lowered)
  rw [same, built] at built₁
  cases built₁
  have same' : m₁'.tree = m'.tree := Except.ok.inj (lowered₁'.symm.trans lowered')
  rw [same', built'] at built₁'
  cases built₁'
  -- The only property of the program is its fifth node.
  obtain rfl : e = 3 := by
    obtain ⟨i, property, _⟩ := arena.access.property
    have access : e + 1 ∈ [4] := by
      rw [← accesses]
      refine List.mem_filter.2 ⟨List.mem_range.2 (Arena.data?_lt property), ?_⟩
      rw [property]
      rfl
    exact Nat.succ.inj (List.mem_singleton.1 access)
  have single : ∀ id, ¬m.bound.Names m.tree.arena true 3 id := by
    intro id names
    cases plain.symm.trans (Bound.elementTarget?_iff.2 names)
  have unread : m.bound.Unread m.tree.arena 4 := by
    intro q member
    by_contra found
    have child := Arena.memberOf_child member
    have reader : q ∈ ([] : List Nat) := by
      rw [← readers]
      refine List.mem_filter.2 ⟨?_, ?_⟩
      · rw [List.mem_range]
        by_contra outside
        rw [Arena.IsChild, Arena.children_of_size_le (Nat.le_of_not_lt outside)] at child
        cases child
      · rw [Bool.and_eq_true, List.contains_iff_mem, Option.isSome_iff_ne_none]
        exact ⟨child, found⟩
    cases reader
  obtain ⟨_, _, answers, others⟩ := rest single
  obtain ⟨_, bodies, _, _, check⟩ := others unread fun _ => settled
  exact ⟨m, m', lowered, built, lowered', built', constant,
    (answers [] fun _ => answered).trans constant, one, bodies, check⟩

def tagsOfReturned (outputs : Expression) : List Declaration :=
  [.module "m" "m.bcz" (.object [] none) [⟨"r", some "T@1"⟩] none,
    .output "o" (.property (.property outputs "r" none) "tags" none) none]

def outputsByDot : List Declaration := tagsOfReturned (.property (.ident "m" none) "outputs" none)

def outputsByIndex : List Declaration :=
  tagsOfReturned (.index (.ident "m" none) (.string (some "outputs") [] none) none)

/-- The outputs of a module are an exception: where they are selected by an index, the access to
the resource behind them is not reported. -/
theorem outputsByIndex_lost : ∃ tree m tree' m',
    Declaration.Replaced (Expression.Indexed "outputs") outputsByDot outputsByIndex ∧
      Analysis.modelled? outputsByDot = some (tree, m) ∧
      Analysis.modelled? outputsByIndex = some (tree', m') ∧
      m.bound.symbols.all (fun symbol => !symbol.isCollection) = true ∧
      Uncut (.ofModel m .empty) ((bodied (.ofModel m .empty)).map .body) ∧
      Uncut (.ofModel m' .empty) ((bodied (.ofModel m' .empty)).map .body) ∧
      m.violation? 3 = none ∧ m.check.length = 1 ∧ m'.check = [] := by
  have put : Declaration.Replaced (Expression.Indexed "outputs") outputsByDot outputsByIndex :=
    .beside _ (.output _ _ _ (.inside (.propertyBase "tags" none)
      (.inside (.propertyBase "r" none) (.access (.ident "m" none) none none (.value none)))))
  have reported : (Analysis.modelled? outputsByDot).map (fun t =>
      (t.2.bound.symbols.all fun symbol => !symbol.isCollection,
        decide (Uncut (.ofModel t.2 .empty) ((bodied (.ofModel t.2 .empty)).map .body)),
        (t.2.violation? 3).isNone, t.2.check.length)) = some (true, true, true, 1) := by
    decide +kernel
  have missing : (Analysis.modelled? outputsByIndex).map (fun t =>
      (decide (Uncut (.ofModel t.2 .empty) ((bodied (.ofModel t.2 .empty)).map .body)),
        t.2.check)) = some (true, []) := by
    decide +kernel
  obtain ⟨⟨tree, m⟩, found, facts⟩ := Option.map_eq_some_iff.1 reported
  obtain ⟨⟨tree', m'⟩, found', facts'⟩ := Option.map_eq_some_iff.1 missing
  simp only [Prod.mk.injEq, decide_eq_true_eq] at facts facts'
  obtain ⟨single, uncut, allowed, one⟩ := facts
  obtain ⟨uncut', none⟩ := facts'
  exact ⟨tree, m, tree', m', put, found, found', single, uncut, uncut',
    Option.isNone_iff_eq_none.1 allowed, one, none⟩

end Model

end DeployCheck
