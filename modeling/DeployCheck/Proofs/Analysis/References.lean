import DeployCheck.Proofs.Analysis.RuntimeCalls
import DeployCheck.Proofs.Binding.Denoting

/-!
# References to resources and modules

An expression that denotes a resource or module is never constant itself, only its members
may be. No rule gives such an expression: a name is bound to something else than a variable,
a collection is no variable either, and the outputs of a module are not readable. Answers
are never positive without a derivation, on whatever path and with whatever fuel they are
given, so this holds in the middle of the analysis as well.
-/

set_option autoImplicit false

namespace DeployCheck.Analysis

variable {s : Subject} {memo : Memo}

def Grounded (s : Subject) (id : SymbolId) (type : ObjectType) : Prop :=
  ∀ property, type.isReadable property = true → Derives s (.readable id property)

structure Sound (s : Subject) (memo : Memo) : Prop where
  constants : ∀ id, memo.constant? id = some true → Derives s (.constant id)
  bodies : ∀ id type, memo.body? id = some type → Grounded s id type

theorem sound_start : Sound s (.start s) := by
  have accurate := accurate_start (s := s)
  exact ⟨fun id known => (accurate.constants id true known).sound rfl,
    fun id type known property => (bodied_readable (accurate.bodies id type known) property).sound⟩

theorem sound_report (sound : Sound s memo) (d : Diagnostic) : Sound s (memo.report d) :=
  ⟨sound.constants, sound.bodies⟩

theorem sound_setConstant (sound : Sound s memo) {id : NodeId} {answer : Bool}
    (derives : answer = true → Derives s (.constant id)) :
    Sound s (memo.setConstant id answer) := by
  constructor
  · intro k known
    rcases join_setIfInBounds known with ⟨rfl, rfl⟩ | known
    · exact derives rfl
    · exact sound.constants k known
  · exact sound.bodies

theorem sound_setBody (sound : Sound s memo) {id : SymbolId} {type : ObjectType}
    (grounded : Grounded s id type) : Sound s (memo.setBody id type) := by
  constructor
  · exact sound.constants
  · intro k other known
    rcases join_setIfInBounds known with ⟨rfl, rfl⟩ | known
    · exact grounded
    · exact sound.bodies k other known

section Bodies

variable {id : SymbolId} {symbol : Symbol} {type : TypeReference} {collection : Bool}
  (found : s.bound.symbol? id = some symbol)

include found

theorem grounded_fresh (kind : symbol.kind = .resource type false collection) :
    Grounded s id (s.declaredType type) :=
  fun _ readable => .intro (.typed found kind (.inl rfl) readable) (List.forall_mem_nil _)

theorem grounded_module {path : String} (kind : symbol.kind = .module path collection) :
    Grounded s id (.ofModule path) :=
  fun _ readable => .intro (.module found kind readable) (List.forall_mem_nil _)

theorem grounded_existing (kind : symbol.kind = .resource type true collection) {known : Bool}
    (derives : known = true → Derives s (.identity id)) :
    Grounded s id (markName (s.declaredType type) known) := by
  intro property readable
  rw [isReadable_markName] at readable
  by_cases same : Name.same property ObjectType.nameProperty = true
  · rw [if_pos same, Bool.and_eq_true] at readable
    exact .intro (.name found kind same readable.1)
      (List.forall_mem_singleton.2 (derives readable.2))
  · rw [if_neg same] at readable
    have other : Name.same property ObjectType.nameProperty = false := by simpa using same
    exact .intro (.typed found kind (.inr other) readable) (List.forall_mem_nil _)

end Bodies

section Positive

variable {asked : Fact → Work Bool} {fuel : Nat}

theorem positive_judge {fact : Fact}
    (h : ∀ p, Yields (Sound s) (asked p) fun answer => answer = true → Derives s p) :
    Yields (Sound s) (judge asked (s.premises fact))
      fun answer => answer = true → Derives s fact := by
  have all : ∀ ps : List Fact, Yields (Sound s) (ps.allM asked)
      fun answer => answer = true → ∀ p ∈ ps, Derives s p := by
    intro ps
    induction ps with
    | nil => exact yields_pure fun _ => List.forall_mem_nil _
    | cons p ps ih =>
      apply yields_bind (h p)
      intro answer derives
      cases answer with
      | false => exact yields_pure fun positive => by cases positive
      | true =>
        intro memo sound
        obtain ⟨others, kept⟩ := ih memo sound
        exact ⟨fun positive => List.forall_mem_cons.2 ⟨derives rfl, others positive⟩, kept⟩
  cases found : s.premises fact with
  | none => exact yields_pure fun positive => by cases positive
  | some ps =>
    intro memo sound
    obtain ⟨derives, kept⟩ := all ps memo sound
    exact ⟨fun positive => .intro (rule_iff.2 found) (derives positive), kept⟩

structure Positive (s : Subject) (fuel : Nat) : Prop where
  constant : ∀ path id, Yields (Sound s) (constantWithin s fuel path id)
    fun answer => answer = true → Derives s (.constant id)
  body : ∀ path id, Yields (Sound s) (bodyWithin s fuel path id)
    fun answer => ∀ type, answer = some type → Grounded s id type

theorem positive_ask (positive : Positive s fuel) (path : Path) (fact : Fact) :
    Yields (Sound s) (ask (constantWithin s fuel path) (bodyWithin s fuel path) fact)
      fun answer => answer = true → Derives s fact := by
  cases fact with
  | constant id => exact positive.constant path id
  | identity id => exact yields_pure fun answer => by cases answer
  | readable target property =>
    apply yields_bind (positive.body path target)
    intro answer grounded
    cases answer with
    | none => exact yields_pure fun answer => by cases answer
    | some type => exact yields_pure (grounded type rfl property)

theorem positive_constantWithin (positive : Positive s fuel) (path : Path) (id : NodeId) :
    Yields (Sound s) (constantWithin s (fuel + 1) path id)
      fun answer => answer = true → Derives s (.constant id) := by
  rw [constantWithin_succ, constantStep]
  apply yields_get
  intro memo sound
  cases known : memo.constant? id with
  | some answer =>
    apply yields_pure
    rintro rfl
    exact sound.constants id known
  | none =>
    dsimp only
    split
    · exact yields_pure fun answer => by cases answer
    split
    · exact yields_pure fun answer => by cases answer
    · rw [expressionIsConstant_eq]
      apply yields_bind (positive_judge (positive_ask positive ⟨id :: path.nodes, path.symbols⟩))
      intro answer derives
      apply yields_modify
      · exact fun memo sound => sound_setConstant sound derives
      · exact yields_pure derives

theorem positive_resourceBody (positive : Positive s fuel) (path : Path) {id : SymbolId}
    {symbol : Symbol} {type : TypeReference} {existing collection : Bool}
    (found : s.bound.symbol? id = some symbol)
    (kind : symbol.kind = .resource type existing collection) :
    Yields (Sound s)
      (resourceBody s (constantWithin s fuel path) (bodyWithin s fuel path) symbol type existing)
      (Grounded s id) := by
  have marked : Yields (Sound s) (do
      if !existing then return s.declaredType type
      return markName (s.declaredType type) (← identityIsConstant s (constantWithin s fuel path)
        (bodyWithin s fuel path) symbol)) (Grounded s id) := by
    cases existing with
    | false => exact yields_pure (grounded_fresh found kind)
    | true =>
      rw [identityIsConstant_eq _ _ found kind]
      apply yields_bind (positive_judge (positive_ask positive path))
      exact fun known derives => yields_pure (grounded_existing found kind derives)
  rw [resourceBody]
  by_cases unknown : (s.catalog.lookup type).isNone = true
  · simp only [unknown, if_true]
    apply yields_modify
    · exact fun memo sound => sound_report sound _
    · exact marked
  · simp only [unknown]
    exact marked

theorem positive_bodyWithin (positive : Positive s fuel) (path : Path) (id : SymbolId) :
    Yields (Sound s) (bodyWithin s (fuel + 1) path id)
      fun answer => ∀ type, answer = some type → Grounded s id type := by
  have stored : ∀ {type : ObjectType}, Grounded s id type → Yields (Sound s) (do
      modify (·.setBody id type)
      return some type) fun answer => ∀ type, answer = some type → Grounded s id type := by
    intro type grounded
    apply yields_modify
    · exact fun memo sound => sound_setBody sound grounded
    · apply yields_pure
      rintro _ ⟨⟩
      exact grounded
  have missing : Yields (Sound s) (pure none)
      fun answer => ∀ type, answer = some type → Grounded s id type :=
    yields_pure fun _ found => by cases found
  rw [bodyWithin_succ, bodyStep]
  apply yields_get
  intro memo sound
  cases known : memo.body? id with
  | some type =>
    apply yields_pure
    rintro _ ⟨⟩
    exact sound.bodies id type known
  | none =>
    dsimp only
    split
    · exact missing
    · cases found : s.bound.symbol? id with
      | none => exact missing
      | some symbol =>
        dsimp only
        cases kind : symbol.kind with
        | resource type existing collection =>
          apply yields_bind
            (positive_resourceBody positive ⟨path.nodes, id :: path.symbols⟩ found kind)
          exact fun body grounded => stored grounded
        | module modulePath collection => exact stored (grounded_module found kind)
        | _ => exact missing

theorem positive (fuel : Nat) : Positive s fuel := by
  induction fuel with
  | zero =>
    constructor
    · exact fun path id => yields_pure fun answer => by cases answer
    · exact fun path id => yields_pure fun _ found => by cases found
  | succ fuel ih => exact ⟨positive_constantWithin ih, positive_bodyWithin ih⟩

end Positive

/-- The tables that the analysis has at some time. In the middle of its work it has asked for
some expressions and bodies on the path to what it works out, and has reported some types. -/
inductive Attained (s : Subject) : Memo → Prop where
  | start : Attained s (.start s)
  | report {memo : Memo} (before : Attained s memo) (d : Diagnostic) : Attained s (memo.report d)
  | constant {memo : Memo} (before : Attained s memo) (fuel : Nat) (path : Path) (id : NodeId) :
      Attained s ((constantWithin s fuel path id).run memo).2
  | body {memo : Memo} (before : Attained s memo) (fuel : Nat) (path : Path) (id : SymbolId) :
      Attained s ((bodyWithin s fuel path id).run memo).2

theorem attained_of_reached (h : Reached s memo) : Attained s memo := by
  induction h with
  | start => exact .start
  | constant _ id ih => exact ih.constant _ _ id
  | body _ id ih => exact ih.body _ _ id

theorem attained_sound (h : Attained s memo) : Sound s memo := by
  induction h with
  | start => exact sound_start
  | report _ d ih => exact sound_report ih d
  | constant _ fuel path id ih => exact ((positive fuel).constant path id _ ih).2
  | body _ fuel path id ih => exact ((positive fuel).body path id _ ih).2

section References

variable {x base : Nat} {t : SymbolId}

theorem not_constant_of_names {collection : Bool}
    (names : s.bound.Names s.tree.arena collection x t) : ¬Derives s (.constant x) := by
  obtain ⟨⟨data, here, sort⟩, bound, symbol, found, declared, _⟩ := names
  have named : s.named? x = some symbol := by
    rw [Subject.named?, bound]
    exact found
  have undefined : s.definitionPremises symbol = none := by
    rw [Symbol.isResourceOrModule] at declared
    rw [Subject.definitionPremises]
    cases kind : symbol.kind with
    | resource _ _ _ | module _ _ | output => rfl
    | _ =>
      rw [kind] at declared
      cases declared
  rintro ⟨rule, _⟩
  have premises := premises_of_rule rule
  rw [Subject.premises, Subject.constantPremises, here] at premises
  cases data with
  | ident name =>
    rw [named, Option.bind_some, undefined] at premises
    cases premises
  | resourceAccess _ _ => cases premises
  | _ => cases sort

theorem target?_of_collection (names : s.bound.Names s.tree.arena true x t) :
    s.target? x = none := by
  obtain ⟨⟨data, here, sort⟩, bound, symbol, known, _, collection⟩ := names
  rw [Subject.target?, Bound.target?, targetLimit, Bound.targetWithin_name here sort]
  cases found : s.bound.declared? false x with
  | none => rfl
  | some k =>
    obtain ⟨bound', symbol', known', _, single⟩ := Bound.declared?_eq_some.1 found
    cases bound.symm.trans bound'
    cases known.symm.trans known'
    cases collection.symm.trans single

theorem not_readable_outputs {m : SymbolId} {symbol : Symbol} {property : String}
    (found : s.bound.symbol? m = some symbol) (module : symbol.isModule = true)
    (same : Name.same property ObjectType.outputsProperty = true) :
    ¬Derives s (.readable m property) := by
  rintro ⟨rule, _⟩
  cases rule with
  | typed found' kind _ _ | name found' kind _ _ =>
    cases found.symm.trans found'
    rw [Symbol.isModule, kind] at module
    cases module
  | @module _ _ path _ _ found' kind flagged =>
    have outputs : (ObjectType.ofModule path).property? property =
        (ObjectType.ofModule path).property? ObjectType.outputsProperty := Roster.find?_congr _ same
    rw [ObjectType.isReadable, outputs] at flagged
    rw [ObjectType.ofModule, ObjectType.withProperty, ObjectType.property?_insertProperty,
      if_pos (Name.same_refl _)] at flagged
    exact absurd flagged (by decide)

theorem not_constant_outputs {m : SymbolId} {symbol : Symbol} {name : String}
    (selects : s.tree.arena.Selects x base name) (target : s.target? base = some m)
    (found : s.bound.symbol? m = some symbol) (module : symbol.isModule = true)
    (same : Name.same name ObjectType.outputsProperty = true) : ¬Derives s (.constant x) := by
  intro derives
  apply not_readable_outputs found module same
  cases selects with
  | dot here =>
    exact List.forall_mem_singleton.1 ((derives_iff (.propertyOfTarget here target)).1 derives)
  | literal here literal =>
    obtain ⟨data, selector, spelled⟩ := Option.bind_eq_some_iff.1 literal
    have rule : Rule s (.constant x) _ := .indexOfTarget here target selector spelled
    exact List.forall_mem_singleton.1 ((derives_iff rule).1 derives)

variable (bound : Bound.ofTree s.tree = .ok s.bound)

include bound

theorem not_readsOutputs_of_module {inner steps : Nat} {m : SymbolId} {symbol : Symbol}
    (denotes : s.bound.Denotes s.tree.arena x steps m) (found : s.bound.symbol? m = some symbol)
    (module : symbol.isModule = true) : ¬s.tree.arena.ReadsOutputs x inner := by
  rintro ⟨property, here, _⟩
  cases denotes with
  | name names =>
    obtain ⟨data, there, sort⟩ := names.sort
    cases here.symm.trans there
    cases sort
  | element there _ | paren there _ => cases here.symm.trans there
  | output _ _ _ returns =>
    obtain ⟨symbol', type, found', kind⟩ := Bound.returns_resource bound returns
    cases found.symm.trans found'
    rw [Symbol.isModule, kind] at module
    cases module

theorem target?_of_outputs {outputs steps : Nat} {m : SymbolId} {name : String}
    (reads : s.tree.arena.ReadsOutputs outputs base)
    (denotes : s.bound.Denotes s.tree.arena base steps m) (returns : s.bound.Returns m name t) :
    s.target? outputs = none := by
  obtain ⟨symbol, known, module⟩ := returns.module
  obtain ⟨property, here, _⟩ := reads
  cases found : s.target? outputs with
  | none => rfl
  | some k =>
    rw [Subject.target?, Bound.target?, targetLimit, Bound.targetWithin, here] at found
    obtain ⟨inner, _, reads', _⟩ := Bound.outputTarget?_iff.1 found
    exact absurd reads' (not_readsOutputs_of_module bound denotes known module)

theorem not_constant_of_denotes {steps : Nat} (denotes : s.bound.Denotes s.tree.arena x steps t)
    (near : steps ≤ targetLimit) : ¬Derives s (.constant x) := by
  induction denotes with
  | name names => exact not_constant_of_names names
  | element here names =>
    have rule : Rule s (.constant _) _ := .index here (target?_of_collection names)
    intro derives
    have all := (derives_iff rule).1 derives
    exact not_constant_of_names names (all _ List.mem_cons_self)
  | paren here _ ih =>
    intro derives
    have all := (derives_iff (.paren here)).1 derives
    exact ih (Nat.le_of_succ_le near) (List.forall_mem_singleton.1 all)
  | @output x outputs base steps name m t selects reads denotes returns ih =>
    have module : s.target? base = some m :=
      Bound.targetWithin_iff_denotes.2 ⟨steps, Nat.le_of_succ_le near, denotes⟩
    have unresolved := target?_of_outputs bound reads denotes returns
    obtain ⟨property, inner, same⟩ := reads
    obtain ⟨symbol, found, kind⟩ := returns.module
    have object : ¬Derives s (.constant outputs) :=
      not_constant_outputs (.dot inner) module found kind same
    intro derives
    cases selects with
    | dot here =>
      have all := (derives_iff (.property here unresolved)).1 derives
      exact object (List.forall_mem_singleton.1 all)
    | literal here _ =>
      have all := (derives_iff (.index here unresolved)).1 derives
      exact object (all _ List.mem_cons_self)

/-- In no state of the analysis, and on no path, an expression that denotes a resource or
module is judged constant. -/
theorem target_not_constant {e : NodeId} {k : SymbolId} (target : s.target? e = some k)
    (attained : Attained s memo) :
    memo.constant? e ≠ some true ∧
      ∀ fuel path, ((constantWithin s fuel path e).run memo).1 = false := by
  obtain ⟨steps, near, denotes⟩ := Bound.denotes_of_targetWithin target
  have underived := not_constant_of_denotes bound denotes near
  have sound := attained_sound attained
  constructor
  · exact fun known => underived (sound.constants e known)
  · intro fuel path
    apply Bool.eq_false_iff.2
    exact fun answer => underived (((positive fuel).constant path e memo sound).1 answer)

end References

def namedByOutput : List Declaration :=
  [.module "m" "m.bcz" (.object [] none) [⟨"r", some "T@1"⟩] none,
    .resource "s" "T@1" true (.object [("name", .paren (.index
      (.property (.ident "m" none) "outputs" none) (.string (some "r") [] none) none) none)] none)
      [] none]

theorem target_not_constant_namedByOutput : ∃ s, Subject.ofProgram? namedByOutput = some s ∧
    s.target? 6 = some 1 ∧ (run s).constant? 6 = some false ∧ Attained s (run s) ∧
    ∀ fuel path, ((constantWithin s fuel path 6).run (run s)).1 = false := by
  have facts : (Subject.ofProgram? namedByOutput).map (fun s =>
      (s.target? 6, (run s).constant? 6)) = some (some 1, some false) := by
    decide +kernel
  obtain ⟨s, subject, facts⟩ := Option.map_eq_some_iff.1 facts
  obtain ⟨target, known⟩ := Prod.mk.inj facts
  obtain ⟨_, bound⟩ := ofProgram?_ok subject
  have attained := attained_of_reached (run_accurate (s := s)).2
  exact ⟨s, subject, target, known, attained, (target_not_constant bound target attained).2⟩

end DeployCheck.Analysis
