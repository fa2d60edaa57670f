import DeployCheck.Proofs.Analysis.Answers

/-!
# Reads of resources whose names are not known

A body stays in its table as it was put there, so a positive answer about a read goes
back to a flag in a body that is still there. The flag that counts is that of the
property itself: whether the name of the resource is known is only asked for reads of
the name.
-/

set_option autoImplicit false

namespace DeployCheck.Analysis

variable {s : Subject} {memo memo' memo'' : Memo}

def Held (s : Subject) (memo : Memo) : Fact → Prop
  | .readable target property =>
    ∃ type, memo.body? target = some type ∧ type.isReadable property = true
  | .constant id => ∀ target property, Rule s (.constant id) [.readable target property] →
      ∃ type, memo.body? target = some type ∧ type.isReadable property = true
  | .identity _ => True

/-- Positive answers in the tables go back to what is in the tables. -/
structure Backed (s : Subject) (memo : Memo) : Prop where
  size : memo.bodies.size = s.bound.symbols.size
  constants : ∀ id, memo.constant? id = some true → Held s memo (.constant id)
  names : ∀ {id : SymbolId} {symbol : Symbol} {type : TypeReference} {collection : Bool}
    {body : ObjectType}, s.bound.symbol? id = some symbol →
    symbol.kind = .resource type true collection → memo.body? id = some body →
    body.isReadable ObjectType.nameProperty = true →
    ∀ ps, Rule s (.identity id) ps → ∀ p ∈ ps, Held s memo p

/-- Bodies stay as they are, and those that are waited for are not put into the table. -/
structure Extends (active : List SymbolId) (memo memo' : Memo) : Prop where
  bodies : ∀ id type, memo.body? id = some type → memo'.body? id = some type
  waiting : ∀ id ∈ active, memo'.body? id = memo.body? id

section Extends

variable {active : List SymbolId}

theorem extends_refl : Extends active memo memo := ⟨fun _ _ h => h, fun _ _ => rfl⟩

theorem extends_trans (h : Extends active memo memo') (h' : Extends active memo' memo'') :
    Extends active memo memo'' := by
  constructor
  · exact fun id type known => h'.bodies id type (h.bodies id type known)
  · intro id waiting
    rw [h'.waiting id waiting, h.waiting id waiting]

theorem held_mono (h : Extends active memo memo') {fact : Fact} (held : Held s memo fact) :
    Held s memo' fact := by
  cases fact with
  | readable target property =>
    obtain ⟨type, known, flagged⟩ := held
    exact ⟨type, h.bodies target type known, flagged⟩
  | constant id =>
    intro target property rule
    obtain ⟨type, known, flagged⟩ := held target property rule
    exact ⟨type, h.bodies target type known, flagged⟩
  | identity id => trivial

end Extends

def Advances {α : Type} (s : Subject) (active : List SymbolId) (memo : Memo) (w : Work α)
    (post : α → Memo → Prop) : Prop :=
  Backed s (w.run memo).2 ∧ Extends active memo (w.run memo).2 ∧ post (w.run memo).1 (w.run memo).2

section Advances

variable {α β : Type} {active : List SymbolId} {w : Work α} {post : α → Memo → Prop}
  {post' : β → Memo → Prop}

theorem advances_pure (backed : Backed s memo) {a : α} (h : post a memo) :
    Advances s active memo (pure a) post := ⟨backed, extends_refl, h⟩

theorem advances_bind {f : α → Work β} (first : Advances s active memo w post)
    (rest : ∀ a memo', Backed s memo' → post a memo' → Advances s active memo' (f a) post') :
    Advances s active memo (w >>= f) post' := by
  obtain ⟨backed, ext, result⟩ := first
  obtain ⟨backed', ext', result'⟩ := rest _ _ backed result
  exact ⟨backed', extends_trans ext ext', result'⟩

theorem advances_get {f : Memo → Work β} (h : Advances s active memo (f memo) post') :
    Advances s active memo (get >>= f) post' := h

theorem advances_modify {f : Memo → Memo} {g : Unit → Work β} (ext : Extends active memo (f memo))
    (rest : Advances s active (f memo) (g ()) post') :
    Advances s active memo (modify f >>= g) post' :=
  ⟨rest.1, extends_trans ext rest.2.1, rest.2.2⟩

theorem advances_mono (h : Advances s active memo w post) {post' : α → Memo → Prop}
    (le : ∀ a memo', Extends active memo memo' → post a memo' → post' a memo') :
    Advances s active memo w post' := ⟨h.1, h.2.1, le _ _ h.2.1 h.2.2⟩

theorem advances_allM {asked : Fact → Work Bool} (ps : List Fact)
    (h : ∀ p ∈ ps, ∀ memo, Backed s memo →
      Advances s active memo (asked p) fun answer memo' => answer = true → Held s memo' p)
    (backed : Backed s memo) : Advances s active memo (ps.allM asked) fun answer memo' =>
      answer = true → ∀ p ∈ ps, Held s memo' p := by
  induction ps generalizing memo with
  | nil => exact advances_pure backed fun _ => List.forall_mem_nil _
  | cons p ps ih =>
    obtain ⟨first, others⟩ := List.forall_mem_cons.1 h
    apply advances_bind (first memo backed)
    intro answer memo' backed' held
    cases answer with
    | false =>
      apply advances_pure backed'
      intro positive
      cases positive
    | true =>
      apply advances_mono (ih others backed')
      intro all memo'' ext inner positive
      exact List.forall_mem_cons.2 ⟨held_mono ext (held rfl), inner positive⟩

end Advances

section Steps

variable {path : Path} {fuel : Nat}

structure Keeps (s : Subject) (fuel : Nat) : Prop where
  constant : ∀ path id memo, Backed s memo → Advances s path.symbols memo (constantWithin s fuel path id)
    fun answer memo' => answer = true → Held s memo' (.constant id)
  body : ∀ path id memo, Backed s memo → Advances s path.symbols memo (bodyWithin s fuel path id)
    fun answer memo' => ∀ type, answer = some type → memo'.body? id = some type

theorem advances_ask (keeps : Keeps s fuel) (path : Path) (fact : Fact) (backed : Backed s memo) :
    Advances s path.symbols memo (ask (constantWithin s fuel path) (bodyWithin s fuel path) fact)
      fun answer memo' => answer = true → Held s memo' fact := by
  cases fact with
  | constant id => exact keeps.constant path id memo backed
  | identity id => exact advances_pure backed fun positive => by cases positive
  | readable target property =>
    apply advances_bind (keeps.body path target memo backed)
    intro answer memo' backed' stored
    cases answer with
    | none => exact advances_pure backed' fun positive => by cases positive
    | some type => exact advances_pure backed' fun positive => ⟨type, stored type rfl, positive⟩

theorem advances_judge (keeps : Keeps s fuel) (path : Path) (fact : Fact) (backed : Backed s memo) :
    Advances s path.symbols memo
      (judge (ask (constantWithin s fuel path) (bodyWithin s fuel path)) (s.premises fact))
      fun answer memo' => answer = true → ∀ ps, Rule s fact ps → ∀ p ∈ ps, Held s memo' p := by
  cases found : s.premises fact with
  | none => exact advances_pure backed fun positive => by cases positive
  | some ps =>
    apply advances_mono (advances_allM ps (fun p _ memo => advances_ask keeps path p) backed)
    intro answer memo' _ all positive ps' rule
    rw [rule_unique rule (rule_iff.2 found)]
    exact all positive

theorem held_of_premises {id : NodeId}
    (all : ∀ ps, Rule s (.constant id) ps → ∀ p ∈ ps, Held s memo p) :
    Held s memo (.constant id) :=
  fun _ _ rule => all _ rule _ (List.mem_singleton.2 rfl)

theorem backed_setConstant (backed : Backed s memo) {id : NodeId} {answer : Bool}
    (held : answer = true → Held s memo (.constant id)) : Backed s (memo.setConstant id answer) := by
  constructor
  · exact backed.size
  · intro n known
    rcases join_setIfInBounds known with ⟨rfl, rfl⟩ | known
    · exact held rfl
    · exact backed.constants n known
  · exact backed.names

theorem extends_setBody {active : List SymbolId} {id : SymbolId} (type : ObjectType)
    (fresh : memo.body? id = none) (other : id ∉ active) :
    Extends active memo (memo.setBody id type) := by
  have same : ∀ k, id ≠ k → (memo.setBody id type).body? k = memo.body? k := by
    intro k other
    rw [Memo.body?, Memo.setBody, Array.getElem?_setIfInBounds, if_neg other]
    rfl
  constructor
  · intro k known found
    rw [same k, found]
    rintro rfl
    rw [fresh] at found
    cases found
  · intro k waiting
    apply same
    rintro rfl
    exact other waiting

theorem backed_setBody (backed : Backed s memo) {id : SymbolId} {body : ObjectType}
    (fresh : memo.body? id = none)
    (names : ∀ {symbol : Symbol} {type : TypeReference} {collection : Bool},
      s.bound.symbol? id = some symbol → symbol.kind = .resource type true collection →
      body.isReadable ObjectType.nameProperty = true →
      ∀ ps, Rule s (.identity id) ps → ∀ p ∈ ps, Held s memo p) :
    Backed s (memo.setBody id body) := by
  have ext : Extends [] memo (memo.setBody id body) :=
    extends_setBody body fresh List.not_mem_nil
  constructor
  · exact Array.size_setIfInBounds.trans backed.size
  · exact fun n known => held_mono ext (backed.constants n known)
  · intro k symbol type collection other found kind known readable ps rule p member
    rcases join_setIfInBounds known with ⟨rfl, rfl⟩ | known
    · exact held_mono ext (names found kind readable ps rule p member)
    · exact held_mono ext (backed.names found kind known readable ps rule p member)

theorem advances_setBody {active : List SymbolId} {id : SymbolId} {w : Work ObjectType}
    {post : ObjectType → Memo → Prop} (fresh : memo.body? id = none) (other : id ∉ active)
    (inside : id < s.bound.symbols.size) (inner : Advances s (id :: active) memo w post)
    (names : ∀ body memo', post body memo' → ∀ {symbol : Symbol} {type : TypeReference}
      {collection : Bool}, s.bound.symbol? id = some symbol →
      symbol.kind = .resource type true collection →
      body.isReadable ObjectType.nameProperty = true →
      ∀ ps, Rule s (.identity id) ps → ∀ p ∈ ps, Held s memo' p) :
    Advances s active memo (do
        let body ← w
        modify (·.setBody id body)
        return some body)
      fun answer memo' => ∀ type, answer = some type → memo'.body? id = some type := by
  obtain ⟨backed, ext, result⟩ := inner
  -- While the body is worked out nobody else puts it into the table.
  have fresh' := (ext.waiting id List.mem_cons_self).trans fresh
  have narrow : Extends active memo (w.run memo).2 :=
    ⟨ext.bodies, fun k waiting => ext.waiting k (List.mem_cons_of_mem id waiting)⟩
  refine ⟨backed_setBody backed fresh' (names _ _ result),
    extends_trans narrow (extends_setBody _ fresh' other), fun type same => ?_⟩
  cases same
  exact body?_setBody (backed.size ▸ inside)

theorem keeps_constant (keeps : Keeps s fuel) (id : NodeId) (backed : Backed s memo) :
    Advances s path.symbols memo (constantWithin s (fuel + 1) path id)
      fun answer memo' => answer = true → Held s memo' (.constant id) := by
  rw [constantWithin_succ, constantStep]
  apply advances_get
  cases known : memo.constant? id with
  | some answer =>
    apply advances_pure backed
    rintro rfl
    exact backed.constants id known
  | none =>
    dsimp only
    split
    · exact advances_pure backed fun positive => by cases positive
    split
    · exact advances_pure backed fun positive => by cases positive
    · rw [expressionIsConstant_eq]
      apply advances_bind (advances_judge keeps ⟨id :: path.nodes, path.symbols⟩
        (.constant id) backed)
      intro answer memo' backed' all
      have held : answer = true → Held s memo' (.constant id) :=
        fun positive => held_of_premises (all positive)
      apply advances_modify ⟨fun _ _ known => known, fun _ _ => rfl⟩
      exact advances_pure (backed_setConstant backed' held) held

theorem keeps_resourceBody (keeps : Keeps s fuel) (path : Path) {id : SymbolId} {symbol : Symbol}
    {type : TypeReference} {existing collection : Bool}
    (found : s.bound.symbol? id = some symbol)
    (kind : symbol.kind = .resource type existing collection) (backed : Backed s memo) :
    Advances s path.symbols memo
      (resourceBody s (constantWithin s fuel path) (bodyWithin s fuel path) symbol type existing)
      fun body memo' => existing = true → body.isReadable ObjectType.nameProperty = true →
        ∀ ps, Rule s (.identity id) ps → ∀ p ∈ ps, Held s memo' p := by
  have marked : ∀ {memo : Memo}, Backed s memo → Advances s path.symbols memo (do
      if !existing then return s.declaredType type
      return markName (s.declaredType type) (← identityIsConstant s
        (constantWithin s fuel path) (bodyWithin s fuel path) symbol))
      fun body memo' => existing = true → body.isReadable ObjectType.nameProperty = true →
        ∀ ps, Rule s (.identity id) ps → ∀ p ∈ ps, Held s memo' p := by
    intro memo backed
    cases existing with
    | false => exact advances_pure backed fun positive => by cases positive
    | true =>
      rw [identityIsConstant_eq _ _ found kind]
      apply advances_bind (advances_judge keeps path (.identity id) backed)
      intro known memo' backed' all
      apply advances_pure backed'
      intro _ readable
      rw [isReadable_markName, if_pos (Name.same_refl _), Bool.and_eq_true] at readable
      exact all readable.2
  rw [resourceBody]
  by_cases unknown : (s.catalog.lookup type).isNone = true
  · simp only [unknown, if_true]
    apply advances_modify ⟨fun _ _ known => known, fun _ _ => rfl⟩
    exact marked ⟨backed.size, backed.constants, backed.names⟩
  · simp only [unknown]
    exact marked backed

theorem keeps_body (keeps : Keeps s fuel) (id : SymbolId) (backed : Backed s memo) :
    Advances s path.symbols memo (bodyWithin s (fuel + 1) path id)
      fun answer memo' => ∀ type, answer = some type → memo'.body? id = some type := by
  rw [bodyWithin_succ, bodyStep]
  apply advances_get
  cases known : memo.body? id with
  | some type =>
    apply advances_pure backed
    intro other same
    exact known.trans same
  | none =>
    dsimp only
    split
    · exact advances_pure backed fun _ none => by cases none
    · next fresh =>
      have other : id ∉ path.symbols := by simpa using fresh
      cases found : s.bound.symbol? id with
      | none => exact advances_pure backed fun _ none => by cases none
      | some symbol =>
        have inside : id < s.bound.symbols.size := (Array.getElem?_eq_some_iff.1 found).1
        dsimp only
        cases kind : symbol.kind with
        | resource type existing collection =>
          have inner : Advances s (id :: path.symbols) memo _ _ :=
            keeps_resourceBody keeps ⟨path.nodes, id :: path.symbols⟩ found kind backed
          apply advances_setBody known other inside inner
          intro body memo' names symbol' type' collection' found' kind'
          cases found.symm.trans found'
          cases kind.symm.trans kind'
          exact names rfl
        | module modulePath collection =>
          apply advances_modify (extends_setBody _ known other)
          apply advances_pure
          · apply backed_setBody backed known
            intro symbol' type' collection' found' kind'
            cases found.symm.trans found'
            cases kind.symm.trans kind'
          · intro type same
            rw [← same]
            exact body?_setBody (backed.size ▸ inside)
        | _ => exact advances_pure backed fun _ none => by cases none

theorem keeps (fuel : Nat) : Keeps s fuel := by
  induction fuel with
  | zero =>
    constructor
    · intro path id memo backed
      exact advances_pure backed fun positive => by cases positive
    · intro path id memo backed
      exact advances_pure backed fun _ none => by cases none
  | succ fuel ih =>
    exact ⟨fun path id memo => keeps_constant ih id, fun path id memo => keeps_body ih id⟩

end Steps

theorem backed_start : Backed s (.start s) := by
  constructor
  · exact Array.size_replicate
  · intro id known
    cases (start_constant? id).symm.trans known
  · intro id symbol type collection body _ _ known
    cases (start_body? id).symm.trans known

theorem reached_backed (h : Reached s memo) : Backed s memo := by
  induction h with
  | start => exact backed_start
  | constant _ id ih => exact ((keeps _).constant ⟨[], []⟩ id _ ih).1
  | body _ id ih => exact ((keeps _).body ⟨[], []⟩ id _ ih).1

/-- An expression reads a property of a resource or module: `base.P`, or `base['P']`. -/
inductive Reads (s : Subject) : NodeId → SymbolId → String → Prop where
  | property {id base : NodeId} {name : Identifier} {target : SymbolId}
      (here : s.tree.arena.data? id = some (.property base name))
      (resolved : s.target? base = some target) : Reads s id target name.name
  | index {id base index : NodeId} {property : String} {target : SymbolId}
      (here : s.tree.arena.data? id = some (.index base index))
      (resolved : s.target? base = some target)
      (literal : (s.tree.arena.data? index).bind NodeData.literal? = some property) :
      Reads s id target property

def Subject.read? (s : Subject) (id : NodeId) : Option (SymbolId × String) :=
  match s.tree.arena.data? id with
  | some (.property base name) => (s.target? base).map (·, name.name)
  | some (.index base index) => (s.target? base).bind fun target =>
    ((s.tree.arena.data? index).bind NodeData.literal?).map (target, ·)
  | _ => none

theorem reads_of_read? {id : NodeId} {target : SymbolId} {property : String}
    (h : s.read? id = some (target, property)) : Reads s id target property := by
  rw [Subject.read?] at h
  split at h
  · next here =>
    obtain ⟨_, resolved, same⟩ := Option.map_eq_some_iff.1 h
    cases same
    exact .property here resolved
  · next here =>
    obtain ⟨_, resolved, h⟩ := Option.bind_eq_some_iff.1 h
    obtain ⟨_, literal, same⟩ := Option.map_eq_some_iff.1 h
    cases same
    exact .index here resolved literal
  · cases h

def NamedBy (s : Subject) (symbol : Symbol) (value : NodeId) : Prop :=
  ∃ entries, declaredEntries? s symbol = some entries ∧
    keyed? entries ObjectType.nameProperty = some value

variable {id value : NodeId} {target : SymbolId} {property : String} {symbol : Symbol}
  {type : TypeReference} {collection : Bool} {body : ObjectType}

theorem rule_of_reads (reads : Reads s id target property) :
    Rule s (.constant id) [.readable target property] := by
  cases reads with
  | property here resolved => exact .propertyOfTarget here resolved
  | index here resolved literal =>
    obtain ⟨data, selector, literal⟩ := Option.bind_eq_some_iff.1 literal
    exact .indexOfTarget here resolved selector literal

theorem readable_beside (reached : Reached s memo) (found : s.bound.symbol? target = some symbol)
    (kind : symbol.kind = .resource type true collection) (known : memo.body? target = some body)
    (runtime : body.isReadable ObjectType.nameProperty = false) :
    body.isReadable property = true ↔ Name.same property ObjectType.nameProperty = false ∧
      (s.declaredType type).isReadable property = true := by
  have bodied := (reached_accurate reached).bodies target body known
  cases bodied with
  | fresh found' kind' | module found' kind' =>
    cases found.symm.trans found'
    cases kind.symm.trans kind'
  | existing found' kind' judged =>
    cases found.symm.trans found'
    cases kind.symm.trans kind'
    rw [isReadable_markName, if_pos (Name.same_refl _)] at runtime
    rw [isReadable_markName]
    -- Only the flag of the name depends on whether the name is known.
    cases same : Name.same property ObjectType.nameProperty with
    | false => simp
    | true =>
      have again : (s.declaredType type).property? property =
          (s.declaredType type).property? ObjectType.nameProperty := Roster.find?_congr _ same
      rw [← again] at runtime
      simp [runtime]

theorem constant_of_identity {ps : List Fact} (found : s.bound.symbol? target = some symbol)
    (named : NamedBy s symbol value) (rule : Rule s (.identity target) ps) :
    .constant value ∈ ps := by
  obtain ⟨entries, declared, identifies⟩ := named
  have premises := premises_of_rule rule
  rw [Subject.premises, found, Option.bind_some, Subject.identityPremises, declared] at premises
  split at premises
  · split at premises
    · cases premises
    · simp only [identifies, Option.map_some, Option.some.injEq] at premises
      rw [← premises]
      exact List.mem_cons_self
  · cases premises

theorem ask_readable (fuel : Nat) (path : Path) (known : memo.body? target = some body) :
    (ask (constantWithin s (fuel + 1) path) (bodyWithin s (fuel + 1) path)
      (.readable target property)).run memo = (body.isReadable property, memo) := by
  have found : (bodyWithin s (fuel + 1) path target).run memo = (some body, memo) := by
    rw [bodyWithin_succ, bodyStep, StateT.run_bind, StateT.run_get]
    simp only [pure_bind, known]
    rfl
  rw [ask, readable, StateT.run_bind, found]
  rfl

theorem constant_of_known (fresh : memo.constant? id = none) (reads : Reads s id target property)
    (known : memo.body? target = some body) :
    ((constant s id).run memo).1 = body.isReadable property := by
  have rule := rule_iff.1 (rule_of_reads reads)
  rw [constant, enoughFuel, constantWithin_succ, constantStep, StateT.run_bind, StateT.run_get]
  simp only [pure_bind, fresh]
  rw [if_neg (by simp), if_neg (by simp [depthLimit]), expressionIsConstant_eq, rule, judge, allM_singleton,
    StateT.run_bind, ask_readable _ _ known]
  rfl

/-- An expression reads a property of an existing resource whose name is not readable. It
is judged constant only if the property is not the name and readable in the type of the
resource; whether the name is known does not matter. If it was not judged before, it is
judged constant then. An existing resource that is named by the expression has a readable
name only in this case. -/
theorem reads_flagged (reached : Reached s memo) (reads : Reads s id target property)
    (found : s.bound.symbol? target = some symbol) (kind : symbol.kind = .resource type true collection)
    (known : memo.body? target = some body)
    (runtime : body.isReadable ObjectType.nameProperty = false) :
    (((constant s id).run memo).1 = true →
      Name.same property ObjectType.nameProperty = false ∧
        (s.declaredType type).isReadable property = true) ∧
    (memo.constant? id = none → Name.same property ObjectType.nameProperty = false →
      (s.declaredType type).isReadable property = true → ((constant s id).run memo).1 = true) ∧
    (∀ {other : SymbolId} {named : Symbol} {body' : ObjectType},
      s.bound.symbol? other = some named → named.isExistingResource = true →
      NamedBy s named id → memo.body? other = some body' →
      body'.isReadable ObjectType.nameProperty = true →
      Name.same property ObjectType.nameProperty = false ∧
        (s.declaredType type).isReadable property = true) := by
  have rule := rule_of_reads reads
  have backed := reached_backed reached
  have flagged : body.isReadable property = true ↔ _ :=
    readable_beside reached found kind known runtime
  refine ⟨fun positive => ?_, fun fresh other readable => ?_, ?_⟩
  · obtain ⟨_, ext, held⟩ := (keeps (enoughFuel s)).constant ⟨[], []⟩ id memo backed
    obtain ⟨type', stored, readable⟩ := held positive target property rule
    cases stored.symm.trans (ext.bodies target body known)
    exact flagged.1 readable
  · rw [constant_of_known fresh reads known]
    exact flagged.2 ⟨other, readable⟩
  · intro other named body' found' existing byName stored readable
    obtain ⟨type', collection', kind'⟩ := Symbol.isExistingResource_iff.1 existing
    have bodied := (reached_accurate reached).bodies other body' stored
    obtain ⟨rule', _⟩ := derives_of_bodied found' existing bodied readable
    have held := backed.names found' kind' stored readable _ rule' _
      (constant_of_identity found' byName rule')
    obtain ⟨type'', stored', readable'⟩ := held target property rule
    cases stored'.symm.trans known
    exact flagged.1 readable'

def namedById : List Declaration :=
  [.resource "r" "T@1" true (.object [("name", .call "reference" [] none)] none) [] none,
    .resource "s" "T@1" true
      (.object [("name", .property (.ident "r" none) "id" none)] none) [] none]

theorem reads_flagged_namedById : ∃ s symbol type collection body,
    Subject.ofProgram? namedById = some s ∧ Reached s (run s) ∧ Reads s 4 0 "id" ∧
    s.bound.symbol? 0 = some symbol ∧ symbol.kind = .resource type true collection ∧
    (run s).body? 0 = some body ∧ body.isReadable ObjectType.nameProperty = false ∧
    (((constant s 4).run (run s)).1 = true →
      Name.same "id" ObjectType.nameProperty = false ∧
        (s.declaredType type).isReadable "id" = true) := by
  have facts : (Subject.ofProgram? namedById).map (fun s => (s.read? 4,
      (s.bound.symbol? 0).map Symbol.isExistingResource,
      ((run s).body? 0).map (·.isReadable ObjectType.nameProperty))) =
      some (some (0, "id"), some true, some false) := by
    decide +kernel
  obtain ⟨s, subject, facts⟩ := Option.map_eq_some_iff.1 facts
  simp only [Prod.mk.injEq, Option.map_eq_some_iff] at facts
  obtain ⟨read, ⟨symbol, found, existing⟩, body, known, runtime⟩ := facts
  obtain ⟨type, collection, kind⟩ := Symbol.isExistingResource_iff.1 existing
  have reads := reads_of_read? read
  exact ⟨s, symbol, type, collection, body, subject, run_accurate.2, reads, found, kind, known,
    runtime, (reads_flagged run_accurate.2 reads found kind known runtime).1⟩

/-- The name of the first resource is not readable, but its id is judged constant, and so
the second resource, which is named by this id, has a readable name. -/
theorem namedById_constant : ∃ s, Subject.ofProgram? namedById = some s ∧
    Reads s 4 0 "id" ∧
    ((run s).body? 0).map (·.isReadable ObjectType.nameProperty) = some false ∧
    ((constant s 4).run (run s)).1 = true ∧
    ((run s).body? 1).map (·.isReadable ObjectType.nameProperty) = some true := by
  have facts : (Subject.ofProgram? namedById).map (fun s => ((s.read? 4,
      ((run s).body? 0).map (·.isReadable ObjectType.nameProperty)),
      ((constant s 4).run (run s)).1,
      ((run s).body? 1).map (·.isReadable ObjectType.nameProperty))) =
      some ((some (0, "id"), some false), true, some true) := by
    decide +kernel
  obtain ⟨s, subject, facts⟩ := Option.map_eq_some_iff.1 facts
  simp only [Prod.mk.injEq] at facts
  obtain ⟨⟨read, runtime⟩, positive, named⟩ := facts
  exact ⟨s, subject, reads_of_read? read, runtime, positive, named⟩

end DeployCheck.Analysis
