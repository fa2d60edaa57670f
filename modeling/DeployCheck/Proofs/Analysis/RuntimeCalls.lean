import DeployCheck.Proofs.Analysis.Answers
import DeployCheck.Proofs.Binding.Lexical

/-!
# Calls that have to wait for the deployment

An expression that is judged constant contains no call that reads deployed state, nor a
call of a function that is not known: all its operands are judged, and what a target is
reached through are names, parentheses, properties and literals. There is one exception.
The index that selects an element of a collection is neither judged nor part of the way
to the target, so such a call goes unseen in it.
-/

set_option autoImplicit false

namespace DeployCheck

/-- A call that reads deployed state, or of a function that is not known. -/
def NodeData.isRuntimeCall : NodeData → Bool
  | instanceCall .. => true
  | call name _ => match Builtin.find? name.name with
    | some f => f.flags.requiresInlining
    | none => true
  | _ => false

namespace Analysis

open Relation Binder

def Child (a : Arena) (n c : NodeId) : Prop := c ∈ a.children n

/-- A node selects an element of a collection by an index. -/
def Selects (s : Subject) (n index : NodeId) : Prop :=
  ∃ base, s.tree.arena.data? n = some (.index base index) ∧
    (s.bound.elementTarget? s.tree.arena base).isSome = true

/-- A child other than the index that selects an element. -/
def Operand (s : Subject) (n c : NodeId) : Prop := Child s.tree.arena n c ∧ ¬Selects s n c

def Still (s : Subject) (id : NodeId) : Prop :=
  ∀ n, ReflTransGen (Operand s) id n → ∀ data, s.tree.arena.data? n = some data →
    data.isRuntimeCall = false

section Still

variable {s : Subject} {id : NodeId} {data : NodeData}

theorem still_of_operands (here : s.tree.arena.data? id = some data)
    (plain : data.isRuntimeCall = false)
    (inner : ∀ c ∈ data.children, ¬Selects s id c → Still s c) : Still s id := by
  intro n path
  rcases path.cases_head with rfl | ⟨c, ⟨child, other⟩, rest⟩
  · intro data' here'
    cases here.symm.trans here'
    exact plain
  · rw [Child, Arena.children_of_data here] at child
    exact inner c child other n rest

theorem operand_or_selected {n : NodeId} (path : ReflTransGen (Child s.tree.arena) id n) :
    ReflTransGen (Operand s) id n ∨ ∃ m index, ReflTransGen (Child s.tree.arena) id m ∧
      Selects s m index ∧ ReflTransGen (Child s.tree.arena) index n := by
  induction path using ReflTransGen.head_induction_on with
  | refl => exact .inl .refl
  | @head n' c step rest ih =>
    by_cases selects : Selects s n' c
    · exact .inr ⟨n', c, .refl, selects, rest⟩
    · rcases ih with operands | ⟨m, index, above, selected, below⟩
      · exact .inl (.head ⟨step, selects⟩ operands)
      · exact .inr ⟨m, index, .head step above, selected, below⟩

end Still

section Targets

variable {s : Subject} {file : String} {program : List Declaration}
  (lowered : Tree.ofProgram file program = .ok s.tree) (bound : Bound.ofTree s.tree = .ok s.bound)

include lowered bound in
theorem still_of_name {id : NodeId} {k : SymbolId} (named : s.bound.nameSymbol? id = some k) :
    Still s id := by
  obtain ⟨around, scopes⟩ := scoped_of_bound lowered bound named
  induction scopes generalizing k with
  | ident here _ => exact still_of_operands here rfl fun c child => by cases child
  | access here _ through ih =>
    refine still_of_operands here rfl fun c child _ => ?_
    cases List.mem_singleton.1 child
    rw [through] at named
    obtain ⟨p, base, _⟩ := Option.bind_eq_some_iff.1 named
    exact ih base
  | loop _ _ _ _ free | plain _ _ _ free =>
    rw [free] at named
    cases named

theorem data_of_outputTarget? {b : Bound} {a : Arena} {target : NodeId → Option SymbolId}
    {outputs : NodeId} {name : String} {k : SymbolId}
    (h : b.outputTarget? a target outputs name = some k) :
    ∃ base property p, a.data? outputs = some (.property base property) ∧ target base = some p := by
  obtain ⟨data, here, h⟩ := Option.bind_eq_some_iff.1 h
  cases data with
  | property base property =>
    obtain ⟨_, _, h⟩ := Option.bind_eq_some_iff.1 h
    obtain ⟨p, found, _⟩ := Option.bind_eq_some_iff.1 h
    exact ⟨base, property, p, here, found⟩
  | _ => cases h

theorem named_of_declared? {b : Bound} {collection : Bool} {node : NodeId} {k : SymbolId}
    (h : b.declared? collection node = some k) : ∃ p, b.nameSymbol? node = some p := by
  obtain ⟨p, named, _⟩ := Option.bind_eq_some_iff.1 h
  exact ⟨p, named⟩

theorem still_of_outputTarget? {target : NodeId → Option SymbolId} {outputs : NodeId}
    {name : String} {k : SymbolId} (inner : ∀ base p, target base = some p → Still s base)
    (h : s.bound.outputTarget? s.tree.arena target outputs name = some k) : Still s outputs := by
  obtain ⟨base, property, p, here, found⟩ := data_of_outputTarget? h
  refine still_of_operands here rfl fun c child _ => ?_
  cases List.mem_singleton.1 child
  exact inner base p found

theorem still_of_literal {index : NodeId} {name : String}
    (literal : (s.tree.arena.data? index).bind NodeData.literal? = some name) : Still s index := by
  obtain ⟨data, here, literal⟩ := Option.bind_eq_some_iff.1 literal
  cases data with
  | string segments holes =>
    cases holes with
    | nil => exact still_of_operands here rfl fun c child => by cases child
    | cons _ _ => cases literal
  | _ => cases literal

include lowered bound in
/-- What a target is reached through is no call. -/
theorem still_of_target {steps : Nat} {id : NodeId} {k : SymbolId}
    (h : s.bound.targetWithin s.tree.arena steps id = some k) : Still s id := by
  induction steps generalizing id k with
  | zero => cases h
  | succ steps ih =>
    obtain ⟨data, here, h⟩ := Option.bind_eq_some_iff.1 h
    cases data with
    | paren inner =>
      refine still_of_operands here rfl fun c child _ => ?_
      cases List.mem_singleton.1 child
      exact ih h
    | ident _ | resourceAccess _ _ =>
      obtain ⟨p, named⟩ := named_of_declared? h
      exact still_of_name lowered bound named
    | property base name =>
      refine still_of_operands here rfl fun c child _ => ?_
      cases List.mem_singleton.1 child
      exact still_of_outputTarget? (fun base p => ih) h
    | index base index =>
      rcases Option.or_eq_some_iff.1 h with output | ⟨_, element⟩
      · obtain ⟨name, literal, output⟩ := Option.bind_eq_some_iff.1 output
        refine still_of_operands here rfl fun c child _ => ?_
        rcases List.mem_cons.1 child with rfl | child
        · exact still_of_outputTarget? (fun base p => ih) output
        · cases List.mem_singleton.1 child
          exact still_of_literal literal
      · -- Nothing is known of the index, but it is no operand.
        refine still_of_operands here rfl fun c child other => ?_
        rcases List.mem_cons.1 child with rfl | child
        · obtain ⟨data, _, element⟩ := Option.bind_eq_some_iff.1 element
          cases data with
          | ident _ | resourceAccess _ _ =>
            obtain ⟨p, named⟩ := named_of_declared? element
            exact still_of_name lowered bound named
          | _ => cases element
        · cases List.mem_singleton.1 child
          exact absurd ⟨base, here, Option.isSome_iff_exists.2 ⟨k, element⟩⟩ other
    | _ => cases h

include lowered bound in
theorem still_of_derives {fact : Fact} (derives : Derives s fact) :
    ∀ id, fact = .constant id → Still s id := by
  induction derives with
  | @intro fact premises rule _ ih =>
    rintro id rfl
    have operands : ∀ {data : NodeData}, s.tree.arena.data? id = some data →
        data.isRuntimeCall = false → (∀ c ∈ data.children, .constant c ∈ premises) → Still s id := by
      intro data here plain all
      exact still_of_operands here plain fun c child _ => ih _ (all c child) c rfl
    -- The rules have facts about all children as premises, except for reads of targets.
    cases rule with
    | int here | bool here | null here | param here | var here | loopItem here | loopIndex here =>
      exact still_of_operands here rfl fun c child => by cases child
    | string here | array here | object here =>
      exact operands here rfl fun c child => List.mem_map_of_mem child
    | call here found plain =>
      exact operands here (by simp [NodeData.isRuntimeCall, found, plain])
        fun c child => List.mem_map_of_mem child
    | property here _ | index here _ | paren here | unary here | binary here | ternary here =>
      exact operands here rfl fun c child => by simpa [NodeData.children] using child
    | propertyOfTarget here resolved =>
      refine still_of_operands here rfl fun c child _ => ?_
      cases List.mem_singleton.1 child
      exact still_of_target lowered bound resolved
    | indexOfTarget here resolved selector literal =>
      refine still_of_operands here rfl fun c child _ => ?_
      rcases List.mem_cons.1 child with rfl | child
      · exact still_of_target lowered bound resolved
      · cases List.mem_singleton.1 child
        exact still_of_literal (Option.bind_eq_some_iff.2 ⟨_, selector, literal⟩)

variable {memo : Memo}

include lowered bound in
/-- Whatever was asked for before: if an expression is judged constant, every runtime call
in it stands in an index that selects an element of a collection. An expression without
such an index contains no runtime call. -/
theorem calls_selected (reached : Reached s memo) {id : NodeId}
    (positive : ((constant s id).run memo).1 = true) :
    (∀ n data, ReflTransGen (Child s.tree.arena) id n → s.tree.arena.data? n = some data →
      data.isRuntimeCall = true → ∃ m index, ReflTransGen (Child s.tree.arena) id m ∧
        Selects s m index ∧ ReflTransGen (Child s.tree.arena) index n) ∧
    ((∀ m index, ReflTransGen (Child s.tree.arena) id m → ¬Selects s m index) →
      ∀ n data, ReflTransGen (Child s.tree.arena) id n → s.tree.arena.data? n = some data →
        data.isRuntimeCall = false) := by
  have sound := (yields_constant id memo (reached_accurate reached)).1.sound
  have still := still_of_derives lowered bound (sound positive) id rfl
  have selected : ∀ n data, ReflTransGen (Child s.tree.arena) id n →
      s.tree.arena.data? n = some data → data.isRuntimeCall = true →
      ∃ m index, ReflTransGen (Child s.tree.arena) id m ∧ Selects s m index ∧
        ReflTransGen (Child s.tree.arena) index n := by
    intro n data path here call
    rcases operand_or_selected path with operands | selected
    · rw [still n operands data here] at call
      cases call
    · exact selected
  refine ⟨selected, fun free n data path here => ?_⟩
  rw [← Bool.not_eq_true]
  intro call
  obtain ⟨m, index, above, selects, _⟩ := selected n data path here call
  exact free m index above selects

end Targets

theorem ofProgram?_ok {s : Subject} {program : List Declaration}
    (h : Subject.ofProgram? program = some s) :
    Tree.ofProgram "main.json" program = .ok s.tree ∧ Bound.ofTree s.tree = .ok s.bound := by
  obtain ⟨tree, lowered, h⟩ := Option.bind_eq_some_iff.1 h
  obtain ⟨b, bound, h⟩ := Option.bind_eq_some_iff.1 h
  cases h
  exact ⟨ok_of_toOption lowered, ok_of_toOption bound⟩

def selectedByCall : List Declaration :=
  [.resource "c" "T@1" true (.loop "i" none (.array [] none)
      (.object [("name", .ident "i" none)] none) none) [] none,
    .resource "r" "T@1" true (.object [("name", .property
      (.index (.ident "c" none) (.call "reference" [] none) none) "name" none)] none) [] none]

theorem calls_selected_selectedByCall : ∃ s, Subject.ofProgram? selectedByCall = some s ∧
    Tree.ofProgram "main.json" selectedByCall = .ok s.tree ∧ Bound.ofTree s.tree = .ok s.bound ∧
    Reached s (run s) ∧ ((constant s 8).run (run s)).1 = true ∧
    (∀ n data, ReflTransGen (Child s.tree.arena) 8 n → s.tree.arena.data? n = some data →
      data.isRuntimeCall = true → ∃ m index, ReflTransGen (Child s.tree.arena) 8 m ∧
        Selects s m index ∧ ReflTransGen (Child s.tree.arena) index n) := by
  have run : (Subject.ofProgram? selectedByCall).map (fun s => ((constant s 8).run (run s)).1) =
      some true := by
    decide +kernel
  obtain ⟨s, subject, positive⟩ := Option.map_eq_some_iff.1 run
  obtain ⟨lowered, bound⟩ := ofProgram?_ok subject
  exact ⟨s, subject, lowered, bound, run_accurate.2, positive,
    (calls_selected lowered bound run_accurate.2 positive).1⟩

/-- The second resource is named by an expression that contains the call, which is judged
constant, and so its name is readable. -/
theorem selectedByCall_constant : ∃ s, Subject.ofProgram? selectedByCall = some s ∧
    ((constant s 8).run (run s)).1 = true ∧ ReflTransGen (Child s.tree.arena) 8 6 ∧
    (∃ data, s.tree.arena.data? 6 = some data ∧ data.isRuntimeCall = true) ∧
    ((run s).body? 1).map (·.isReadable ObjectType.nameProperty) = some true := by
  have facts : (Subject.ofProgram? selectedByCall).map (fun s => ((((constant s 8).run (run s)).1,
      s.tree.arena.children 8, s.tree.arena.children 7),
      (s.tree.arena.data? 6).map NodeData.isRuntimeCall,
      ((run s).body? 1).map (·.isReadable ObjectType.nameProperty))) =
      some ((true, [7], [5, 6]), some true, some true) := by
    decide +kernel
  obtain ⟨s, subject, facts⟩ := Option.map_eq_some_iff.1 facts
  simp only [Prod.mk.injEq, Option.map_eq_some_iff] at facts
  obtain ⟨⟨positive, outer, inner⟩, call, named⟩ := facts
  have first : Child s.tree.arena 8 7 := by simp [Child, outer]
  have second : Child s.tree.arena 7 6 := by simp [Child, inner]
  obtain ⟨body, known, readable⟩ := named
  exact ⟨s, subject, positive, .head first (.single second), call,
    Option.map_eq_some_iff.2 ⟨body, known, readable⟩⟩

end Analysis

end DeployCheck
