import DeployCheck.Binding.Bind
import DeployCheck.Proofs.Analysis.Work
import DeployCheck.Tree.Lowering

/-!
# What the analysis answers

The tables can be filled in any order. Whatever has been asked before, a positive
answer has a derivation, and a program without cycles and without chains beyond
the limit is answered exactly as the rules say.
-/

set_option autoImplicit false

namespace DeployCheck.Analysis

/-- The tables after some expressions and bodies were asked for, in some order. -/
inductive Reached (s : Subject) : Memo → Prop where
  | start : Reached s (.start s)
  | constant {memo : Memo} (before : Reached s memo) (id : NodeId) :
      Reached s ((constant s id).run memo).2
  | body {memo : Memo} (before : Reached s memo) (id : SymbolId) :
      Reached s ((body s id).run memo).2

variable {s : Subject} {memo : Memo} {kept : SymbolId → Prop}

theorem reached_accurate (h : Reached s memo) : Accurate s (fun _ => False) memo := by
  induction h with
  | start => exact accurate_start
  | constant _ id ih => exact (yields_constant id _ ih).2
  | body _ id ih => exact (yields_body id _ ih).2

theorem body_stores (accurate : Accurate s kept memo) {id : SymbolId} {symbol : Symbol}
    (found : s.bound.symbol? id = some symbol) (declared : symbol.isResourceOrModule = true) :
    (((body s id).run memo).2.body? id).isSome = true := by
  have inside : id < s.bound.symbols.size := (Array.getElem?_eq_some_iff.1 found).1
  have stored : ∀ {memo : Memo} {type : ObjectType}, Accurate s kept memo →
      ((memo.setBody id type).body? id).isSome = true := by
    intro memo type accurate
    have known : id < memo.bodies.size := by
      rw [accurate.size]
      exact inside
    rw [body?_setBody known]
    rfl
  rw [body, enoughFuel, bodyWithin_succ, bodyStep, StateT.run_bind, StateT.run_get]
  cases known : memo.body? id with
  | some type =>
    simp only [pure_bind, known]
    show (memo.body? id).isSome = true
    rw [known]
    rfl
  | none =>
    simp only [pure_bind, known, found]
    rw [if_neg (by simp)]
    cases kind : symbol.kind with
    | resource type existing collection =>
      have fits : Fits s (depthLimit + s.bound.symbols.size + 1) ⟨[], [id]⟩ :=
        fits_symbol fits_start List.not_mem_nil inside
      have inner : Works s kept _ _ := works _ _ fits
      have trail : Trail s ⟨[], []⟩ (.body id) := .start _
      have bodied := yields_resourceBody found kind trail inner
      exact stored (bodied memo accurate).2
    | module modulePath collection => exact stored accurate
    | _ =>
      rw [Symbol.isResourceOrModule, kind] at declared
      cases declared

theorem body_keeps (accurate : Accurate s kept memo) {id : SymbolId} {symbol : Symbol}
    (found : s.bound.symbol? id = some symbol) (declared : symbol.isResourceOrModule = true) :
    Accurate s (fun k => kept k ∨ k = id) ((body s id).run memo).2 := by
  have after := (yields_body id memo accurate).2
  apply Accurate.mk
  · exact after.size
  · exact after.constants
  · exact after.bodies
  · rintro k (old | rfl)
    · exact after.keeps k old
    · exact body_stores accurate found declared

theorem forM_body (ids : List SymbolId) (accurate : Accurate s kept memo)
    (reached : Reached s memo) (declared : ∀ id ∈ ids, ∃ symbol,
      s.bound.symbol? id = some symbol ∧ symbol.isResourceOrModule = true) :
    Accurate s (fun k => kept k ∨ k ∈ ids)
        ((ids.forM fun id => discard (body s id)).run memo).2 ∧
      Reached s ((ids.forM fun id => discard (body s id)).run memo).2 := by
  induction ids generalizing memo kept with
  | nil =>
    have same : (fun k => kept k ∨ k ∈ ([] : List SymbolId)) = kept := by
      funext k
      simp
    rw [same]
    exact ⟨accurate, reached⟩
  | cons id ids ih =>
    obtain ⟨symbol, found, known⟩ := declared id List.mem_cons_self
    have next := ih (body_keeps accurate found known) (reached.body id)
      fun k hk => declared k (List.mem_cons_of_mem id hk)
    have same : (fun k => kept k ∨ k ∈ id :: ids) = fun k => (kept k ∨ k = id) ∨ k ∈ ids := by
      funext k
      rw [List.mem_cons, or_assoc]
    rw [same]
    exact next

theorem mem_bodied {id : SymbolId} {symbol : Symbol} (found : s.bound.symbol? id = some symbol)
    (declared : symbol.isResourceOrModule = true) : id ∈ bodied s := by
  have inside : id < s.bound.symbols.size := (Array.getElem?_eq_some_iff.1 found).1
  rw [bodied, List.mem_filter, List.mem_range, found]
  exact ⟨inside, declared⟩

theorem run_accurate : Accurate s (· ∈ bodied s) (run s) ∧ Reached s (run s) := by
  have declared : ∀ id ∈ bodied s, ∃ symbol,
      s.bound.symbol? id = some symbol ∧ symbol.isResourceOrModule = true := by
    intro id hid
    exact (Option.any_eq_true _ _).1 (List.mem_filter.1 hid).2
  have whole := forM_body (bodied s) accurate_start .start declared
  simp only [false_or] at whole
  exact whole

theorem run_body {id : SymbolId} {symbol : Symbol} (found : s.bound.symbol? id = some symbol)
    (declared : symbol.isResourceOrModule = true) :
    ∃ type, (run s).body? id = some type ∧ Bodied s id type := by
  have accurate := (run_accurate (s := s)).1
  obtain ⟨type, known⟩ := Option.isSome_iff_exists.1 (accurate.keeps id (mem_bodied found declared))
  exact ⟨type, known, accurate.bodies id type known⟩

theorem derives_of_bodied {id : SymbolId} {symbol : Symbol} {type : ObjectType}
    (found : s.bound.symbol? id = some symbol) (existing : symbol.isExistingResource = true)
    (bodied : Bodied s id type) (readable : type.isReadable ObjectType.nameProperty = true) :
    Derives s (.identity id) := by
  obtain ⟨type', collection, resource⟩ := Symbol.isExistingResource_iff.1 existing
  obtain ⟨rule, all⟩ := (bodied_readable bodied ObjectType.nameProperty).sound readable
  cases rule with
  | typed found' kind other =>
    cases found.symm.trans found'
    cases resource.symm.trans kind
    rcases other with other | other
    · cases other
    · rw [Name.same_refl] at other
      cases other
  | name => exact all _ (List.mem_singleton.2 rfl)
  | module found' kind =>
    cases found.symm.trans found'
    cases resource.symm.trans kind

/-- Whatever was asked for before, in whatever order: an expression that is judged
constant, and an existing resource whose name is readable, have a derivation. So
nothing that is circular is judged constant. The run over all bodies is one such
order. -/
theorem answers_derive (reached : Reached s memo) :
    (∀ id, ((constant s id).run memo).1 = true → Derives s (.constant id)) ∧
      (∀ id symbol type, s.bound.symbol? id = some symbol → symbol.isExistingResource = true →
        (memo.body? id = some type ∨ ((body s id).run memo).1 = some type) →
        type.isReadable ObjectType.nameProperty = true → Derives s (.identity id)) ∧
      (∀ facts, Circular s facts → ∀ id, facts (.constant id) →
        ((constant s id).run memo).1 = false) ∧
      Reached s (run s) := by
  have accurate := reached_accurate reached
  have constants : ∀ id, ((constant s id).run memo).1 = true → Derives s (.constant id) :=
    fun id => (yields_constant id memo accurate).1.sound
  refine ⟨constants, ?_, ?_, run_accurate.2⟩
  · rintro id symbol type found existing (known | known) readable
    · exact derives_of_bodied found existing (accurate.bodies id type known) readable
    · have bodied := (yields_body id memo accurate).1
      rw [known] at bodied
      exact derives_of_bodied found existing bodied readable
  · intro facts circular id member
    apply Bool.eq_false_iff.2
    intro positive
    exact not_derives_of_circular circular (constants id positive) member

def Subject.ofProgram? (program : List Declaration) : Option Subject := do
  let tree ← (Tree.ofProgram "main.json" program).toOption
  let bound ← (Bound.ofTree tree).toOption
  return ⟨tree, bound, .empty⟩

/-- A variable reads the name of an existing resource, which is that of another
variable, which is a parameter. -/
def chained : List Declaration :=
  [.param "p" none none, .var "v" (.ident "p" none) none,
    .resource "r" "T@1" true (.object [("name", .ident "v" none)] none) [] none,
    .var "w" (.property (.ident "r" none) "name" none) none]

theorem answers_derive_chained : ∃ s, Subject.ofProgram? chained = some s ∧ Reached s (run s) ∧
    ((constant s 7).run (run s)).1 = true ∧ Derives s (.constant 7) := by
  have run : (Subject.ofProgram? chained).map (fun s => ((constant s 7).run (run s)).1)
      = some true := by
    decide +kernel
  obtain ⟨s, found, positive⟩ := Option.map_eq_some_iff.1 run
  have derives := (answers_derive (s := s) run_accurate.2).1 7 positive
  exact ⟨s, found, run_accurate.2, positive, derives⟩

theorem judges_iff {fact : Fact} {answer : Bool} (judged : Judges s fact answer)
    (settled : Settled s fact.item) : answer = true ↔ Derives s fact :=
  ⟨judged.sound, judged.complete settled⟩

theorem bodied_existing {id : SymbolId} {symbol : Symbol} {type : TypeReference}
    {collection : Bool} {body : ObjectType} (settled : Settled s (.body id))
    (found : s.bound.symbol? id = some symbol) (kind : symbol.kind = .resource type true collection)
    (bodied : Bodied s id body) :
    ∃ known : Bool, (known = true ↔ Derives s (.identity id)) ∧
      body = markName (s.declaredType type) known := by
  cases bodied with
  | fresh found' kind' | module found' kind' =>
    rw [found] at found'
    cases found'
    rw [kind] at kind'
    cases kind'
  | existing found' kind' judged =>
    rw [found] at found'
    cases found'
    rw [kind] at kind'
    cases kind'
    exact ⟨_, judges_iff judged settled, rfl⟩

theorem bodied_unique {id : SymbolId} {body body' : ObjectType} (settled : Settled s (.body id))
    (bodied : Bodied s id body) (bodied' : Bodied s id body') : body = body' := by
  have one : ∀ {symbol symbol' : Symbol}, s.bound.symbol? id = some symbol →
      s.bound.symbol? id = some symbol' → symbol'.kind = symbol.kind := by
    intro symbol symbol' h h'
    rw [h] at h'
    cases h'
    rfl
  cases bodied with
  | fresh found kind =>
    cases bodied' with
    | fresh found' kind' =>
      cases kind.symm.trans ((one found' found).trans kind')
      rfl
    | existing found' kind' | module found' kind' =>
      cases kind.symm.trans ((one found' found).trans kind')
  | module found kind =>
    cases bodied' with
    | module found' kind' =>
      cases kind.symm.trans ((one found' found).trans kind')
      rfl
    | fresh found' kind' | existing found' kind' =>
      cases kind.symm.trans ((one found' found).trans kind')
  | @existing symbol type collection known found kind judged =>
    obtain ⟨known', exact', rfl⟩ := bodied_existing settled found kind bodied'
    have same : known = known' := by
      rw [Bool.eq_iff_iff, judges_iff judged settled, exact']
    rw [same]

theorem body_found (reached : Reached s memo) {id : SymbolId} {symbol : Symbol}
    (settled : Settled s (.body id)) (found : s.bound.symbol? id = some symbol)
    (declared : symbol.isResourceOrModule = true) :
    ∃ type, ((body s id).run memo).1 = some type ∧ (run s).body? id = some type ∧
      Bodied s id type := by
  obtain ⟨type, known, bodied⟩ := run_body found declared
  have asked := (yields_body id memo (reached_accurate reached)).1
  cases answer : ((body s id).run memo).1 with
  | none =>
    rw [answer] at asked
    rw [asked settled symbol found] at declared
    cases declared
  | some other =>
    rw [answer] at asked
    rw [bodied_unique settled asked bodied]
    exact ⟨type, rfl, known, bodied⟩

/-- Where nothing is on a cycle or beyond the limit, the answers are those of the
rules: for every expression, for the identity of every existing resource, and for
every property of every body. -/
theorem answers_exact (acyclic : ∀ x, ¬Relation.TransGen (Consults s) x x)
    (shallow : ∀ x n, Chain s x n → n ≤ depthLimit) (reached : Reached s memo) :
    (∀ id, ((constant s id).run memo).1 = true ↔ Derives s (.constant id)) ∧
      (∀ id symbol type collection, s.bound.symbol? id = some symbol →
        symbol.kind = .resource type true collection → ∃ known : Bool,
          (known = true ↔ Derives s (.identity id)) ∧
          ((body s id).run memo).1 = some (markName (s.declaredType type) known) ∧
          (run s).body? id = some (markName (s.declaredType type) known)) ∧
      (∀ id symbol, s.bound.symbol? id = some symbol → symbol.isResourceOrModule = true →
        ∃ type, ((body s id).run memo).1 = some type ∧ (run s).body? id = some type ∧
          ∀ property, type.isReadable property = true ↔ Derives s (.readable id property)) := by
  have settled : ∀ x, Settled s x := fun x => ⟨fun y _ => acyclic y, fun y n _ => shallow y n⟩
  refine ⟨?_, ?_, ?_⟩
  · intro id
    exact judges_iff (yields_constant id memo (reached_accurate reached)).1 (settled _)
  · intro id symbol type collection found kind
    have declared : symbol.isResourceOrModule = true := by
      rw [Symbol.isResourceOrModule, kind]
    obtain ⟨_, asked, ran, bodied⟩ := body_found reached (settled _) found declared
    obtain ⟨known, exact, rfl⟩ := bodied_existing (settled _) found kind bodied
    exact ⟨known, exact, asked, ran⟩
  · intro id symbol found declared
    obtain ⟨type, asked, ran, bodied⟩ := body_found reached (settled _) found declared
    exact ⟨type, asked, ran, fun property => judges_iff (bodied_readable bodied property) (settled _)⟩

def chainedRank : Item → Nat
  | .expression id => 2 * (id % 16)
  | .body _ => 9

theorem answers_exact_chained : ∃ s, Subject.ofProgram? chained = some s ∧
    (∀ x, ¬Relation.TransGen (Consults s) x x) ∧ (∀ x n, Chain s x n → n ≤ depthLimit) ∧
    (((constant s 7).run (run s)).1 = true ↔ Derives s (.constant 7)) := by
  have ranked : (Subject.ofProgram? chained).map (Subject.descends · chainedRank) = some true := by
    decide +kernel
  obtain ⟨s, found, ranked⟩ := Option.map_eq_some_iff.1 ranked
  have descends := descends_consults ranked
  have bounded : ∀ x, chainedRank x < depthLimit := by
    intro x
    cases x <;> simp only [chainedRank, depthLimit] <;> omega
  have acyclic := acyclic_of_rank descends
  have shallow : ∀ x n, Chain s x n → n ≤ depthLimit :=
    fun x n chain => shallow_of_rank descends bounded chain
  exact ⟨s, found, acyclic, shallow, (answers_exact acyclic shallow run_accurate.2).1 7⟩

end DeployCheck.Analysis
