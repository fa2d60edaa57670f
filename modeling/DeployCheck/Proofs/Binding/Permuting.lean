import DeployCheck.Proofs.Binding.Blocks

/-!
# Programs in another order

Two programs have the same declarations, with distinct names, in any two orders.
The nodes and the symbols of each declaration correspond by their places in it, and
every name is bound to corresponding symbols.
-/

set_option autoImplicit false

namespace DeployCheck

namespace Bound

variable {b b' : Bound} {owner owner' : Owner} {name : String} {r : Nat → Nat → Prop}

theorem member?_rel
    (fwd : ∀ j, Bears b owner name j → ∃ j', r j j' ∧ Bears b' owner' name j')
    (bwd : ∀ j', Bears b' owner' name j' → ∃ j, r j j' ∧ Bears b owner name j)
    (order : ∀ i i' j j', r i i' → r j j' → i' < j' → i < j) :
    Option.Rel r (b.member? owner name) (b'.member? owner' name) := by
  cases found : b.member? owner name with
  | none =>
    have none' : b'.member? owner' name = none := by
      rw [member?_eq_none_iff] at found ⊢
      intro j' bears
      obtain ⟨j, _, bears⟩ := bwd j' bears
      exact found j bears
    rw [none']
    exact .none
  | some j =>
    obtain ⟨bears, first⟩ := member?_eq_some_iff.1 found
    obtain ⟨j', related, bears'⟩ := fwd j bears
    have found' : b'.member? owner' name = some j' := by
      rw [member?_eq_some_iff]
      refine ⟨bears', fun i' early earlier => ?_⟩
      obtain ⟨i, related', earlier⟩ := bwd i' earlier
      exact first i (order i i' j j' related' related early) earlier
    rw [found']
    exact .some related

end Bound

namespace Binder

/-- A declaration that two programs have, with its nodes and its symbols in both. -/
inductive Matched (a a' : Arena) (b b' : Bound) (n n₁ n' lo hi lo' : Nat) : Prop where
  | intro {d : Declaration} {ids ids' : List Nat} {n₁' hi' : Nat}
      (spans : Spans a b [d] ids n n₁ lo hi) (spans' : Spans a' b' [d] ids' n' n₁' lo' hi')
      (closed : Closed b lo hi) (closed' : Closed b' lo' hi')

def Nodes (a a' : Arena) (b b' : Bound) (x x' : Nat) : Prop :=
  ∃ n n₁ n' lo hi lo', Matched a a' b b' n n₁ n' lo hi lo' ∧ Block n n₁ n' x x'

def Symbols (a a' : Arena) (b b' : Bound) (k k' : Nat) : Prop :=
  ∃ n n₁ n' lo hi lo', Matched a a' b b' n n₁ n' lo hi lo' ∧ Block lo hi lo' k k'

section Matched

variable {a a' : Arena} {b b' : Bound} {n n₁ n' lo hi lo' k k' : Nat}

theorem likewise_nodes : Likewise a a' (Nodes a a' b b') := by
  rintro x x' ⟨n, n₁, n', lo, hi, lo', matched, block⟩
  have whole := matched
  obtain ⟨spans, spans', _, _⟩ := matched
  obtain ⟨data, data', here, here', label, below⟩ := likewise_block spans.laid spans'.laid block
  refine ⟨data, data', here, here', label, below.imp fun c c' inner => ?_⟩
  exact ⟨n, n₁, n', lo, hi, lo', whole, inner⟩

theorem same_mono {q r : Nat → Nat → Prop} {symbol symbol' : Symbol} (le : ∀ x x', q x x' → r x x')
    (h : Same a a' b b' q lo lo' k symbol symbol') : Same a a' b b' r lo lo' k symbol symbol' :=
  ⟨h.name, h.kind, h.owner, le _ _ h.node, h.mark, h.scope⟩

theorem matched_same (matched : Matched a a' b b' n n₁ n' lo hi lo') (block : Block lo hi lo' k k') :
    ∃ symbol symbol', b.symbol? k = some symbol ∧ b'.symbol? k' = some symbol' ∧
      Same a a' b b' (Nodes a a' b b') lo lo' k symbol symbol' := by
  have whole := matched
  obtain ⟨spans, spans', _, _⟩ := matched
  obtain ⟨symbol, symbol', found, found', same⟩ :=
    (spans_same spans spans').same k k' block.1 block.2.1 block.2.2
  refine ⟨symbol, symbol', found, found', same_mono (fun x x' inner => ?_) same⟩
  exact ⟨n, n₁, n', lo, hi, lo', whole, inner⟩

theorem owner_match {m j j' : Nat} {owner owner' : Owner} (h : OwnerPaired (Block lo m lo') owner owner')
    (shift : Arena.Shift lo lo' j j') : (owner = .resource j ↔ owner' = .resource j') ∧
      (owner = .module j ↔ owner' = .module j') := by
  have places : ∀ {i i' : Nat}, Block lo m lo' i i' → (i = j ↔ i' = j') := by
    rintro i i' ⟨_, _, place⟩
    simp only [Arena.Shift] at shift place
    omega
  cases h with
  | resource near => simp [places near]
  | module near => simp [places near]
  | _ => simp

theorem steps_member? {q : Nat → Nat → Prop} {hi' : Nat} {owner owner' : Owner}
    (steps : Steps a a' b b' q lo lo' lo hi hi')
    (own : ∀ m o o', OwnerPaired (Block lo m lo') o o' → (o = owner ↔ o' = owner'))
    (inside : ∀ (j : Nat) symbol, b.symbol? j = some symbol → symbol.owner = owner → lo ≤ j ∧ j < hi)
    (inside' : ∀ (j : Nat) symbol, b'.symbol? j = some symbol → symbol.owner = owner' →
      lo' ≤ j ∧ j < hi') (name : String) :
    Option.Rel (Block lo hi lo') (b.member? owner name) (b'.member? owner' name) := by
  have transfer : ∀ {j j' : Nat}, Block lo hi lo' j j' →
      (Bound.Bears b owner name j ↔ Bound.Bears b' owner' name j') := by
    rintro j j' ⟨above, under, shift⟩
    obtain ⟨symbol, symbol', found, found', alike⟩ := steps.same j j' above under shift
    rw [Bound.Bears, Bound.Bears, found, found']
    simp only [Option.some.injEq, exists_eq_left', alike.name, own _ _ _ alike.owner]
  have finish := steps.finish
  simp only [Arena.Shift] at finish
  apply Bound.member?_rel
  · intro j bears
    have whole := bears
    obtain ⟨symbol, found, owns, _⟩ := bears
    obtain ⟨above, under⟩ := inside j symbol found owns
    have block : Block lo hi lo' j (j + lo' - lo) := by
      refine ⟨above, under, ?_⟩
      simp only [Arena.Shift]
      omega
    exact ⟨_, block, (transfer block).1 whole⟩
  · intro j' bears
    have whole := bears
    obtain ⟨symbol, found, owns, _⟩ := bears
    obtain ⟨above, under⟩ := inside' j' symbol found owns
    have block : Block lo hi lo' (j' + lo - lo') j' := by
      refine ⟨by omega, by omega, ?_⟩
      simp only [Arena.Shift]
      omega
    exact ⟨_, block, (transfer block).2 whole⟩
  · rintro i i' j j' ⟨_, _, place⟩ ⟨_, _, place'⟩ before
    simp only [Arena.Shift] at place place'
    omega

theorem matched_members (matched : Matched a a' b b' n n₁ n' lo hi lo')
    (block : Block lo hi lo' k k') (name : String) :
    Option.Rel (Block lo hi lo') (b.child? k name) (b'.child? k' name) ∧
      Option.Rel (Block lo hi lo') (b.moduleOutput? k name) (b'.moduleOutput? k' name) := by
  obtain ⟨above, under, shift⟩ := block
  cases matched with
  | @intro d ids ids' n₁' hi' spans spans' closed closed' =>
    have steps := spans_same spans spans'
    have finish := steps.finish
    have within : lo' ≤ k' ∧ k' < hi' := by
      simp only [Arena.Shift] at shift finish
      omega
    constructor
    · apply steps_member? steps
      · exact fun _ _ _ owner => (owner_match owner shift).1
      · exact fun j symbol found own => closed j symbol k found (.inl own) above under
      · exact fun j symbol found own =>
          closed' j symbol k' found (.inl own) within.1 within.2
    · apply steps_member? steps
      · exact fun _ _ _ owner => (owner_match owner shift).2
      · exact fun j symbol found own => closed j symbol k found (.inr own) above under
      · exact fun j symbol found own =>
          closed' j symbol k' found (.inr own) within.1 within.2

end Matched

/-- The declarations of a program with all their symbols; all others are variables
of loops. -/
structure Whole (a : Arena) (b : Bound) (ds : List Declaration) (total : Nat) : Prop where
  spans : ∃ ids root, Spans a b ds ids 0 root 0 total
  locals : ∀ k symbol, total ≤ k → b.symbol? k = some symbol → ∃ loop, symbol.owner = .loop loop

def Stands (a : Arena) (b : Bound) (d : Declaration) (lo hi : Nat) : Prop :=
  ∃ ids n n₁, Spans a b [d] ids n n₁ lo hi ∧ Closed b lo hi

section Whole

variable {a a' : Arena} {b b' : Bound} {ds ds' : List Declaration} {d : Declaration}
  {total total' lo hi k : Nat}

theorem whole_ofProgram {file : String} {tree : Tree} (lowered : Tree.ofProgram file ds = .ok tree)
    (bound : Bound.ofTree tree = .ok b) : ∃ total, Whole tree.arena b ds total := by
  obtain ⟨ids, root, laid, size⟩ := Tree.ofProgram_lays lowered
  obtain ⟨total, resolves⟩ := resolves_ofTree root laid size bound
  exact ⟨total, ⟨ids, tree.root, laid, resolves.declares, resolves.nodes⟩, resolves.locals⟩

theorem whole_inside (whole : Whole a b ds total) {symbol : Symbol} (found : b.symbol? k = some symbol)
    (other : ∀ loop, symbol.owner ≠ .loop loop) : k < total := by
  by_contra outside
  obtain ⟨loop, own⟩ := whole.locals k symbol (Nat.le_of_not_lt outside) found
  exact other loop own

theorem whole_closed (whole : Whole a b ds total) : Closed b 0 total := by
  intro k symbol j found own _ _
  refine ⟨Nat.zero_le k, whole_inside whole found fun loop local' => ?_⟩
  rw [local'] at own
  rcases own with own | own <;> cases own

theorem whole_unowned (whole : Whole a b ds total) : Unowned b := by
  have free : ∀ {k : Nat} {symbol : Symbol} {loop : NodeId}, b.symbol? k = some symbol →
      symbol.owner = .loop loop → ∀ (j : Nat) other, b.symbol? j = some other →
        ¬(other.owner = .resource k ∨ other.owner = .module k) := by
    intro k symbol loop found local' j other found' own
    obtain ⟨ids, root, spans⟩ := whole.spans
    have inside : j < total := by
      apply whole_inside whole found'
      intro loop' local''
      rw [local''] at own
      rcases own with own | own <;> cases own
    obtain ⟨_, found₁, _, owner⟩ := spans_owner spans (Nat.zero_le j) inside
    rw [found'] at found₁
    cases found₁
    have before : k < j := (owner k own).2
    obtain ⟨_, found₂, declared, _⟩ :=
      spans_owner spans (Nat.zero_le k) (Nat.lt_trans before inside)
    rw [found] at found₂
    cases found₂
    exact declared loop local'
  intro k symbol loop found local' name
  constructor
  · apply Bound.member?_eq_none_iff.2
    rintro j ⟨other, found', own, _⟩
    exact free found local' j other found' (.inl own)
  · apply Bound.member?_eq_none_iff.2
    rintro j ⟨other, found', own, _⟩
    exact free found local' j other found' (.inr own)

theorem whole_stands (whole : Whole a b ds total) {before after : List Declaration}
    (split : ds = before ++ d :: after) :
    ∃ hi, Stands a b d (Declaration.allSymbolNames before).length hi := by
  obtain ⟨ids, root, spans⟩ := whole.spans
  obtain ⟨id, n, n₁, hi, one, closed⟩ := spans_append split spans (whole_closed whole)
  rw [Nat.zero_add] at one closed
  exact ⟨hi, [id], n, n₁, one, closed⟩

theorem stands_names (h : Stands a b d lo hi) : Spelled b lo d.symbolNames hi := by
  obtain ⟨ids, n, n₁, spans, _⟩ := h
  have names := spelled_declarations [d] spans.laid spans.declares
  rw [Declaration.allSymbolNames, Declaration.allSymbolNames, List.append_nil] at names
  exact names

theorem symbolNames_head (d : Declaration) : d.symbolNames[0]? = some d.name := by
  cases d <;> simp [Declaration.symbolNames, Declaration.name]

theorem marked_head {around : Option (SymbolId × TypeReference)} {id : Nat} {ids : List Nat}
    (h : Declares a b around lo (id :: ids) hi) : b.declarationSymbol? id = some lo := by
  cases h with
  | plain _ _ marked _ | module _ _ marked _ _ | resource _ _ marked _ _ => exact marked.mark

theorem declares_program {around : Option (SymbolId × TypeReference)} {ids : List Nat} {symbol : Symbol}
    (h : Declares a b around lo ids hi) (above : lo ≤ k) (under : k < hi)
    (found : b.symbol? k = some symbol) (own : symbol.owner = .program) :
    around = none ∧ ∃ id ∈ ids, b.declarationSymbol? id = some k := by
  have head : ∀ {around : Option (SymbolId × TypeReference)} {lo id : Nat} {name : String}
      {kind : SymbolKind}, Marked b around id lo name kind → k = lo →
      around = none ∧ b.declarationSymbol? id = some k := by
    rintro around lo id name kind ⟨here, mark⟩ rfl
    rw [found] at here
    cases here
    cases around with
    | none => exact ⟨rfl, mark⟩
    | some _ => cases own
  induction h with
  | nil => exact absurd under (Nat.not_lt_of_le above)
  | @plain around lo hi id ids data name kind here sort marked beside ih =>
    by_cases first : k = lo
    · obtain ⟨top, mark⟩ := head marked first
      exact ⟨top, id, List.mem_cons_self, mark⟩
    · obtain ⟨top, other, member, mark⟩ := ih (by omega) under
      exact ⟨top, other, List.mem_cons_of_mem id member, mark⟩
  | @module around lo mid hi id body ids name path outputs inner here inside marked outs beside ih =>
    by_cases first : k = lo
    · obtain ⟨top, mark⟩ := head marked first
      exact ⟨top, id, List.mem_cons_self, mark⟩
    · by_cases returned : k < mid
      · obtain ⟨_, found', own'⟩ := outputs_owner outs (by omega) returned
        rw [found] at found'
        cases found'
        rw [own] at own'
        cases own'
      · obtain ⟨top, other, member, mark⟩ := ih (Nat.le_of_not_lt returned) under
        exact ⟨top, other, List.mem_cons_of_mem id member, mark⟩
  | @resource around lo mid hi id body ids nested name type existing inner here inside marked _ beside
      ihu ihb =>
    by_cases first : k = lo
    · obtain ⟨top, mark⟩ := head marked first
      exact ⟨top, id, List.mem_cons_self, mark⟩
    · by_cases below : k < mid
      -- What is nested belongs to its resource.
      · cases (ihu (by omega) below).1
      · obtain ⟨top, other, member, mark⟩ := ihb (Nat.le_of_not_lt below) under
        exact ⟨top, other, List.mem_cons_of_mem id member, mark⟩

theorem stands_program (h : Stands a b d lo hi) (above : lo ≤ k) (under : k < hi) {symbol : Symbol}
    (found : b.symbol? k = some symbol) (own : symbol.owner = .program) :
    k = lo ∧ symbol.name = d.name := by
  obtain ⟨head, found', same⟩ := spelled_get (stands_names h) (symbolNames_head d)
  obtain ⟨ids, n, n₁, spans, _⟩ := h
  obtain ⟨_, id, member, mark⟩ := declares_program spans.declares above under found own
  have one : ids = [id] := by
    have length := Arena.lays_length spans.laid
    rw [Declaration.shapes, Declaration.shapes, List.length_singleton] at length
    obtain ⟨x, rfl⟩ := List.length_eq_one_iff.1 length
    rw [List.mem_singleton.1 member]
  subst one
  have first := marked_head spans.declares
  rw [mark] at first
  cases first
  rw [Nat.add_zero, found] at found'
  cases found'
  exact ⟨rfl, same⟩

theorem whole_program (whole : Whole a b ds total) {name : String}
    (bears : Bound.Bears b .program name k) :
    ∃ d ∈ ds, ∃ hi, Stands a b d k hi ∧ k < hi ∧ Name.same d.name name = true := by
  obtain ⟨symbol, found, own, same⟩ := bears
  have inside : k < total := by
    apply whole_inside whole found
    intro loop local'
    rw [own] at local'
    cases local'
  obtain ⟨ids, root, spans⟩ := whole.spans
  obtain ⟨d, member, id, n, n₁, lo, hi, one, closed, above, under⟩ :=
    spans_find spans (whole_closed whole) (Nat.zero_le k) inside
  have stands : Stands a b d lo hi := ⟨[id], n, n₁, one, closed⟩
  obtain ⟨rfl, named⟩ := stands_program stands above under found own
  rw [named] at same
  exact ⟨d, member, hi, stands, under, same⟩

end Whole

structure Permuted (a a' : Arena) (b b' : Bound) (ds ds' : List Declaration) (total total' : Nat) :
    Prop where
  whole : Whole a b ds total
  whole' : Whole a' b' ds' total'
  members : ∀ d, d ∈ ds ↔ d ∈ ds'
  distinct : ∀ d ∈ ds, ∀ e ∈ ds, Name.same d.name e.name = true → d = e

section Permuted

variable {a a' : Arena} {b b' : Bound} {ds ds' : List Declaration} {d : Declaration}
  {total total' lo hi lo' hi' k k' : Nat}

theorem permuted_of_perm (perm : ds.Perm ds')
    (distinct : ds.Pairwise fun d e => Name.same d.name e.name = false) (whole : Whole a b ds total)
    (whole' : Whole a' b' ds' total') : Permuted a a' b b' ds ds' total total' := by
  apply Permuted.mk whole whole'
  · exact fun d => perm.mem_iff
  · intro d hd e he same
    by_contra other
    have : Std.Symm fun d e : Declaration => Name.same d.name e.name = false := by
      constructor
      intro d e different
      rw [Name.same_comm]
      exact different
    have different := distinct.forall hd he other
    rw [same] at different
    cases different

theorem permuted_symm (h : Permuted a a' b b' ds ds' total total') :
    Permuted a' a b' b ds' ds total' total := by
  apply Permuted.mk h.whole' h.whole
  · exact fun d => (h.members d).symm
  · intro d hd e he same
    exact h.distinct d ((h.members d).2 hd) e ((h.members e).2 he) same

theorem stands_matched (h : Stands a b d lo hi) (h' : Stands a' b' d lo' hi') :
    ∃ n n₁ n', Matched a a' b b' n n₁ n' lo hi lo' := by
  obtain ⟨ids, n, n₁, spans, closed⟩ := h
  obtain ⟨ids', n', n₁', spans', closed'⟩ := h'
  exact ⟨n, n₁, n', .intro spans spans' closed closed'⟩

theorem stands_symbols (h : Stands a b d lo hi) (h' : Stands a' b' d lo' hi')
    (block : Block lo hi lo' k k') : Symbols a a' b b' k k' := by
  obtain ⟨n, n₁, n', matched⟩ := stands_matched h h'
  exact ⟨n, n₁, n', lo, hi, lo', matched, block⟩

theorem stands_block (h : Stands a b d lo hi) {name : String} (named : d.symbolNames[k]? = some name)
    (lo' : Nat) : Block lo hi lo' (lo + k) (lo' + k) := by
  have length := spelled_length (stands_names h)
  have inside := (List.getElem?_eq_some_iff.1 named).1
  refine ⟨Nat.le_add_right lo k, by omega, ?_⟩
  simp only [Arena.Shift]
  omega

theorem block_head (h : lo < hi) : Block lo hi lo' lo lo' :=
  ⟨Nat.le_refl lo, h, Nat.add_comm lo' lo⟩

theorem permuted_program (h : Permuted a a' b b' ds ds' total total') {name : String}
    (bears : Bound.Bears b .program name k) : ∃ k', Bound.Bears b' .program name k' := by
  obtain ⟨d, member, hi, stands, under, same⟩ := whole_program h.whole bears
  obtain ⟨before, after, split⟩ := List.append_of_mem ((h.members d).1 member)
  obtain ⟨hi', stands'⟩ := whole_stands h.whole' split
  obtain ⟨n, n₁, n', matched⟩ := stands_matched stands stands'
  obtain ⟨symbol, symbol', found, found', alike⟩ := matched_same matched (block_head under)
  obtain ⟨_, found₁, own, spelled⟩ := bears
  rw [found] at found₁
  cases found₁
  have owner := alike.owner
  rw [own] at owner
  rw [alike.name] at spelled
  generalize own' : symbol'.owner = owner' at owner
  cases owner
  exact ⟨_, symbol', found', own', spelled⟩

theorem permuted_global? (h : Permuted a a' b b' ds ds' total total') (name : String) :
    Option.Rel (Symbols a a' b b') (b.global? name) (b'.global? name) := by
  cases found : b.global? name with
  | none =>
    have none' : b'.global? name = none := by
      apply Bound.member?_eq_none_iff.2
      intro k' bears'
      obtain ⟨k, bears⟩ := permuted_program (permuted_symm h) bears'
      exact Bound.member?_eq_none_iff.1 found k bears
    rw [none']
    exact .none
  | some k =>
    have bears := (Bound.member?_eq_some_iff.1 found).1
    cases found' : b'.global? name with
    | none =>
      obtain ⟨k', bears'⟩ := permuted_program h bears
      exact absurd bears' (Bound.member?_eq_none_iff.1 found' k')
    | some k' =>
      have bears' := (Bound.member?_eq_some_iff.1 found').1
      obtain ⟨d, member, hi, stands, under, same⟩ := whole_program h.whole bears
      obtain ⟨e, member', hi', stands', under', same'⟩ := whole_program h.whole' bears'
      rw [Name.same_comm] at same'
      have one := h.distinct d member e ((h.members e).2 member') (Name.same_trans same same')
      subst one
      exact .some (stands_symbols stands stands' (block_head under))

/-- The declarations of programs in two orders correspond, and so do their scopes. -/
theorem permuted_twins (h : Permuted a a' b b' ds ds' total total') :
    Twins a a' b b' (Nodes a a' b b') (Symbols a a' b b') := by
  have scopes : ∀ {k k' : Nat}, Symbols a a' b b' k k' → ∀ name,
      Option.Rel (Symbols a a' b b') (b.child? k name) (b'.child? k' name) ∧
        Option.Rel (Symbols a a' b b') (b.moduleOutput? k name) (b'.moduleOutput? k' name) := by
    rintro k k' ⟨n, n₁, n', lo, hi, lo', matched, block⟩ name
    have inner : ∀ j j', Block lo hi lo' j j' → Symbols a a' b b' j j' :=
      fun j j' block => ⟨n, n₁, n', lo, hi, lo', matched, block⟩
    obtain ⟨children, outputs⟩ := matched_members matched block name
    exact ⟨rel_mono inner children, rel_mono inner outputs⟩
  apply Twins.mk
  · exact likewise_nodes
  · exact permuted_global? h
  · exact fun related name => (scopes related name).1
  · exact fun related name => (scopes related name).2
  · exact whole_unowned h.whole
  · exact whole_unowned h.whole'

theorem isSimple_label (data : NodeData) : isSimple data.label = isSimple data := by
  cases data <;> rfl

theorem scoped_simple {around : List Frame} {id : Nat} {data : NodeData}
    (here : a.data? id = some data) (simple : isSimple data = true)
    (h : ScopedDeclaration a b around id) : ∀ c : Nat, c ∈ data.children → Scoped a b around c := by
  cases h with
  | simple here₁ _ inner =>
    rw [here] at here₁
    cases here₁
    exact inner
  | resource here₁ =>
    rw [here] at here₁
    cases here₁
    cases simple

theorem inside_map {id : Nat} {enclosing : List Nat} : inside b id (enclosing.map .nested) =
    ((b.declarationSymbol? id).toList ++ enclosing).map .nested := by
  rw [inside, List.map_append]

variable (twins : Twins a a' b b' (Nodes a a' b b') (Symbols a a' b b'))

include twins

theorem twins_lookup {enclosing enclosing' : List Nat}
    (h : List.Forall₂ (Symbols a a' b b') enclosing enclosing') (name : String) :
    Option.Rel (Means a a' b b' (Nodes a a' b b') (Symbols a a' b b'))
      (lookup b (enclosing.map .nested) name) (lookup b' (enclosing'.map .nested) name) := by
  induction h with
  | nil => exact rel_mono (fun _ _ => .declared) (twins.globals name)
  | cons one _ ih =>
    rw [List.map_cons, List.map_cons, lookup_cons, lookup_cons]
    exact rel_or (rel_mono (fun _ _ => .declared) (twins.nested one name)) ih

theorem twins_declaration (h : Symbols a a' b b' k k') : ∃ symbol symbol',
    b.symbol? k = some symbol ∧ b'.symbol? k' = some symbol' ∧ symbol.name = symbol'.name ∧
      KindPaired (fun _ _ => False) symbol.kind symbol'.kind ∧
      OwnerPaired (Symbols a a' b b') symbol.owner symbol'.owner ∧
      ∃ data data', a.data? symbol.declaration = some data ∧
        a'.data? symbol'.declaration = some data' ∧
        data.Paired (Alike a a' b b' (Nodes a a' b b') (Symbols a a' b b')) data' := by
  obtain ⟨n, n₁, n', lo, hi, lo', matched, block⟩ := h
  obtain ⟨symbol, symbol', found, found', same⟩ := matched_same matched block
  have near : ∀ {m : Nat}, m ≤ hi → ∀ j j', Block lo m lo' j j' → Symbols a a' b b' j j' :=
    fun le j j' inner => ⟨n, n₁, n', lo, hi, lo', matched, block_mono le inner⟩
  have early := near (Nat.le_of_lt block.2.1)
  refine ⟨symbol, symbol', found, found', same.name, same.kind, owner_mono early same.owner, ?_⟩
  obtain ⟨data, data', here, here', label, below⟩ := twins.nodes same.node
  obtain ⟨enclosing, enclosing', frames, scope, scope'⟩ := same.scope
  have related : List.Forall₂ (Symbols a a' b b') enclosing enclosing' :=
    frames.imp fun j j' => early j j'
  refine ⟨data, data', here, here', ?_⟩
  by_cases simple : isSimple data = true
  · have simple' : isSimple data' = true := by
      rw [← isSimple_label, ← label, isSimple_label, simple]
    apply NodeData.paired_of_label label
    apply alike_list below
    · exact scoped_simple here simple scope
    · exact scoped_simple here' simple' scope'
    · exact twins_lookup twins related
  -- What is nested in a resource is declared by itself, so only the body is looked at here.
  · have paired : data.Paired (Nodes a a' b b') data' := NodeData.paired_of_label label below
    cases scope with
    | simple here₁ plain =>
      rw [here] at here₁
      cases here₁
      exact absurd plain simple
    | resource here₁ inner =>
      rw [here] at here₁
      cases here₁
      cases paired with
      | resource names body =>
        have inner' := (scoped_resource here' scope').1
        rw [inside_map] at inner inner'
        apply NodeData.Paired.resource names
        apply Alike.intro body inner inner'
        apply twins_lookup twins
        apply List.rel_append _ related
        have marks := same.mark
        generalize b.declarationSymbol? symbol.declaration = mark at marks ⊢
        generalize b'.declarationSymbol? symbol'.declaration = mark' at marks ⊢
        cases marks with
        | none => exact .nil
        | some mark => exact .cons (near block.2.1 _ _ mark) .nil

end Permuted

end Binder

end DeployCheck
