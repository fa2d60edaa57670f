import DeployCheck.Proofs.Binding.Returned
import DeployCheck.Proofs.Binding.Scoping
import DeployCheck.Proofs.Binding.Targets
import Mathlib.Logic.Relation

/-!
# What an expression denotes

A grammar says which expressions denote a resource or module: a name, an element of a
collection, an output of a module that an expression denotes, and any of these in
parentheses. Following an expression to its target finds what the grammar says, as long as
no more than the permitted number of steps is needed. An expression whose steps run in a
circle denotes nothing.
-/

set_option autoImplicit false

namespace DeployCheck

open Relation

def NodeData.isName : NodeData → Bool
  | ident _ | resourceAccess .. => true
  | _ => false

namespace Arena

/-- A node reads the property `outputs` of an expression. -/
def ReadsOutputs (a : Arena) (x base : Nat) : Prop :=
  ∃ property, a.data? x = some (.property base property) ∧
    Name.same property.name ObjectType.outputsProperty = true

/-- A node selects a name from an expression, by a dot or by an index that is a string. -/
inductive Selects (a : Arena) (x base : Nat) : String → Prop where
  | dot {name : Identifier} (here : a.data? x = some (.property base name)) :
      Selects a x base name.name
  | literal {index : Nat} {name : String} (here : a.data? x = some (.index base index))
      (literal : (a.data? index).bind NodeData.literal? = some name) : Selects a x base name

/-- The expression to go on with from a node. -/
inductive Leads (a : Arena) (x : Nat) : Nat → Prop where
  | paren {inner : Nat} (here : a.data? x = some (.paren inner)) : Leads a x inner
  | output {outputs base : Nat} {name : String} (selects : a.Selects x outputs name)
      (reads : a.ReadsOutputs outputs base) : Leads a x base

end Arena

namespace Bound

/-- An identifier or `::` node is bound to a resource or module. Its body is a loop or not. -/
structure Names (b : Bound) (a : Arena) (collection : Bool) (x : Nat) (t : SymbolId) : Prop where
  sort : ∃ data, a.data? x = some data ∧ data.isName = true
  bound : b.nameSymbol? x = some t
  kind : ∃ symbol, b.symbol? t = some symbol ∧ symbol.isResourceOrModule = true ∧
    symbol.isCollection = collection

/-- A symbol is that of a module, and another one is the first of a name that belongs to it. -/
structure Returns (b : Bound) (m : SymbolId) (name : String) (t : SymbolId) : Prop where
  module : ∃ symbol, b.symbol? m = some symbol ∧ symbol.isModule = true
  bears : Bears b (.module m) name t
  first : ∀ n < t, ¬Bears b (.module m) name n

/-- An expression denotes a symbol, which is a number of steps away. -/
inductive Denotes (b : Bound) (a : Arena) : Nat → Nat → SymbolId → Prop where
  | name {x : Nat} {t : SymbolId} (names : b.Names a false x t) : Denotes b a x 1 t
  | element {x base index : Nat} {t : SymbolId} (here : a.data? x = some (.index base index))
      (names : b.Names a true base t) : Denotes b a x 1 t
  | output {x outputs base steps : Nat} {name : String} {m t : SymbolId}
      (selects : a.Selects x outputs name) (reads : a.ReadsOutputs outputs base)
      (module : Denotes b a base steps m) (returns : b.Returns m name t) :
      Denotes b a x (steps + 1) t
  | paren {x inner steps : Nat} {t : SymbolId} (here : a.data? x = some (.paren inner))
      (denotes : Denotes b a inner steps t) : Denotes b a x (steps + 1) t

section Following

variable {b : Bound} {a : Arena} {x y steps : Nat} {t : SymbolId}

theorem declared?_eq_some {collection : Bool} : b.declared? collection x = some t ↔
    b.nameSymbol? x = some t ∧ ∃ symbol, b.symbol? t = some symbol ∧
      symbol.isResourceOrModule = true ∧ symbol.isCollection = collection := by
  rw [declared?]
  constructor
  · intro h
    obtain ⟨id, named, h⟩ := Option.bind_eq_some_iff.1 h
    obtain ⟨symbol, found, h⟩ := Option.bind_eq_some_iff.1 h
    obtain ⟨sort, h⟩ := guard_bind_eq_some.1 h
    cases h
    simp only [Bool.and_eq_true, beq_iff_eq] at sort
    exact ⟨named, symbol, found, sort⟩
  · rintro ⟨named, symbol, found, sort, rfl⟩
    refine Option.bind_eq_some_iff.2 ⟨t, named, Option.bind_eq_some_iff.2 ⟨symbol, found, ?_⟩⟩
    exact guard_bind_eq_some.2 ⟨by simp [sort], rfl⟩

theorem names_iff {collection : Bool} {data : NodeData} (here : a.data? x = some data) :
    b.Names a collection x t ↔ data.isName = true ∧ b.declared? collection x = some t := by
  rw [declared?_eq_some]
  constructor
  · rintro ⟨⟨data', there, sort⟩, bound, kind⟩
    cases here.symm.trans there
    exact ⟨sort, bound, kind⟩
  · rintro ⟨sort, bound, kind⟩
    exact ⟨⟨data, here, sort⟩, bound, kind⟩

theorem elementTarget?_iff : b.elementTarget? a x = some t ↔ b.Names a true x t := by
  rw [elementTarget?]
  cases here : a.data? x with
  | none =>
    constructor
    · intro h
      cases h
    · rintro ⟨⟨_, there, _⟩, _, _⟩
      cases here.symm.trans there
  | some data =>
    rw [names_iff here]
    cases data with
    | _ => simp [NodeData.isName]

theorem outputTarget?_iff {target : Nat → Option SymbolId} {name : String} :
    b.outputTarget? a target x name = some t ↔
      ∃ base m, a.ReadsOutputs x base ∧ target base = some m ∧ b.Returns m name t := by
  rw [outputTarget?_eq_some]
  constructor
  · rintro ⟨base, property, m, symbol, here, same, found, known, module, output⟩
    obtain ⟨bears, first⟩ := member?_eq_some_iff.1 output
    exact ⟨base, m, ⟨property, here, same⟩, found, ⟨symbol, known, module⟩, bears, first⟩
  · rintro ⟨base, m, ⟨property, here, same⟩, found, ⟨symbol, known, module⟩, bears, first⟩
    have output := member?_eq_some_iff.2 ⟨bears, first⟩
    exact ⟨base, property, m, symbol, here, same, found, known, module, output⟩

theorem targetWithin_name {data : NodeData} (here : a.data? x = some data)
    (sort : data.isName = true) : b.targetWithin a (steps + 1) x = b.declared? false x := by
  rw [targetWithin, here]
  cases data with
  | ident _ | resourceAccess _ _ => rfl
  | _ => cases sort

theorem targetWithin_step : b.targetWithin a (steps + 1) x = some t ↔
    b.Names a false x t ∨
    (∃ base index, a.data? x = some (.index base index) ∧ b.Names a true base t) ∨
    (∃ outputs base name m, a.Selects x outputs name ∧ a.ReadsOutputs outputs base ∧
      b.targetWithin a steps base = some m ∧ b.Returns m name t) ∨
    ∃ inner, a.data? x = some (.paren inner) ∧ b.targetWithin a steps inner = some t := by
  constructor
  · intro h
    cases here : a.data? x with
    | none =>
      rw [targetWithin, here] at h
      cases h
    | some data =>
      cases data with
      | ident _ | resourceAccess _ _ =>
        rw [targetWithin, here] at h
        exact .inl ((names_iff here).2 ⟨rfl, h⟩)
      | paren inner =>
        rw [targetWithin, here] at h
        exact .inr (.inr (.inr ⟨inner, rfl, h⟩))
      | property outputs name =>
        rw [targetWithin, here] at h
        obtain ⟨base, m, reads, found, returns⟩ := outputTarget?_iff.1 h
        exact .inr (.inr (.inl ⟨outputs, base, name.name, m, .dot here, reads, found, returns⟩))
      | index base index =>
        rcases (targetWithin_index here).1 h with ⟨name, literal, output⟩ | element
        · obtain ⟨inner, m, reads, found, returns⟩ := outputTarget?_iff.1 output
          exact .inr (.inr (.inl
            ⟨base, inner, name, m, .literal here literal, reads, found, returns⟩))
        · exact .inr (.inl ⟨base, index, rfl, elementTarget?_iff.1 element⟩)
      | _ =>
        rw [targetWithin, here] at h
        cases h
  · rintro (names | ⟨base, index, here, names⟩ |
      ⟨outputs, base, name, m, selects, reads, found, returns⟩ | ⟨inner, here, found⟩)
    · obtain ⟨data, here, sort⟩ := names.sort
      rw [targetWithin_name here sort]
      exact ((names_iff here).1 names).2
    · exact (targetWithin_index here).2 (.inr (elementTarget?_iff.2 names))
    · have output := outputTarget?_iff.2 ⟨base, m, reads, found, returns⟩
      cases selects with
      | dot here =>
        rw [targetWithin, here]
        exact output
      | literal here literal => exact (targetWithin_index here).2 (.inl ⟨name, literal, output⟩)
    · rw [targetWithin, here]
      exact found

theorem denotes_of_targetWithin (h : b.targetWithin a steps x = some t) :
    ∃ n ≤ steps, b.Denotes a x n t := by
  induction steps generalizing x t with
  | zero => cases h
  | succ steps ih =>
    rcases targetWithin_step.1 h with names | ⟨base, index, here, names⟩ |
      ⟨outputs, base, name, m, selects, reads, found, returns⟩ | ⟨inner, here, found⟩
    · exact ⟨1, Nat.succ_pos steps, .name names⟩
    · exact ⟨1, Nat.succ_pos steps, .element here names⟩
    · obtain ⟨n, le, denotes⟩ := ih found
      exact ⟨n + 1, Nat.succ_le_succ le, .output selects reads denotes returns⟩
    · obtain ⟨n, le, denotes⟩ := ih found
      exact ⟨n + 1, Nat.succ_le_succ le, .paren here denotes⟩

theorem targetWithin_of_denotes (h : b.Denotes a x steps t) :
    b.targetWithin a steps x = some t := by
  induction h with
  | name names => exact targetWithin_step.2 (.inl names)
  | element here names => exact targetWithin_step.2 (.inr (.inl ⟨_, _, here, names⟩))
  | output selects reads _ returns ih =>
    exact targetWithin_step.2 (.inr (.inr (.inl ⟨_, _, _, _, selects, reads, ih, returns⟩)))
  | paren here _ ih => exact targetWithin_step.2 (.inr (.inr (.inr ⟨_, here, ih⟩)))

theorem targetWithin_iff_denotes :
    b.targetWithin a steps x = some t ↔ ∃ n ≤ steps, b.Denotes a x n t := by
  constructor
  · exact denotes_of_targetWithin
  · rintro ⟨n, le, denotes⟩
    exact targetWithin_mono le (targetWithin_of_denotes denotes)

theorem readsOutputs_unique {base base' : Nat} (reads : a.ReadsOutputs x base)
    (reads' : a.ReadsOutputs x base') : base = base' := by
  obtain ⟨_, here, _⟩ := reads
  obtain ⟨_, there, _⟩ := reads'
  cases here.symm.trans there
  rfl

theorem not_names_of_readsOutputs {collection : Bool} {base : Nat} (reads : a.ReadsOutputs x base) :
    ¬b.Names a collection x t := by
  rintro ⟨⟨data, there, sort⟩, _, _⟩
  obtain ⟨_, here, _⟩ := reads
  cases here.symm.trans there
  cases sort

theorem targetWithin_leads (leads : a.Leads x y) (h : b.targetWithin a (steps + 1) x = some t) :
    ∃ s, b.targetWithin a steps y = some s := by
  have nearer : ∀ {outputs name}, a.ReadsOutputs outputs y →
      b.outputTarget? a (b.targetWithin a steps) outputs name = some t →
      ∃ s, b.targetWithin a steps y = some s := by
    intro outputs name reads output
    obtain ⟨base, m, reads', found, _⟩ := outputTarget?_iff.1 output
    exact ⟨m, readsOutputs_unique reads reads' ▸ found⟩
  cases leads with
  | paren here =>
    rw [targetWithin, here] at h
    exact ⟨t, h⟩
  | output selects reads =>
    cases selects with
    | dot here =>
      rw [targetWithin, here] at h
      exact nearer reads h
    | literal here _ =>
      rcases (targetWithin_index here).1 h with ⟨_, _, output⟩ | element
      · exact nearer reads output
      · exact absurd (elementTarget?_iff.1 element) (not_names_of_readsOutputs reads)

theorem targetWithin_of_lt {n : Nat} (h : b.Denotes a x n t) (less : steps < n) :
    b.targetWithin a steps x = none := by
  have further : ∀ {x y n : Nat}, a.Leads x y → (∀ steps < n, b.targetWithin a steps y = none) →
      ∀ steps < n + 1, b.targetWithin a steps x = none := by
    intro x y n leads missing steps less
    cases steps with
    | zero => rfl
    | succ steps =>
      cases found : b.targetWithin a (steps + 1) x with
      | none => rfl
      | some t =>
        obtain ⟨s, nearer⟩ := targetWithin_leads leads found
        cases (missing steps (Nat.lt_of_succ_lt_succ less)).symm.trans nearer
  induction h generalizing steps with
  | name _ | element _ _ =>
    rw [Nat.lt_one_iff.1 less]
    rfl
  | output selects reads _ _ ih => exact further (.output selects reads) (fun _ => ih) steps less
  | paren here _ ih => exact further (.paren here) (fun _ => ih) steps less

theorem denotes_unique {n n' : Nat} {t' : SymbolId} (h : b.Denotes a x n t)
    (h' : b.Denotes a x n' t') : n = n' ∧ t = t' := by
  have found := targetWithin_of_denotes h
  have found' := targetWithin_of_denotes h'
  rcases Nat.lt_trichotomy n n' with less | rfl | less
  · cases (targetWithin_of_lt h' less).symm.trans found
  · exact ⟨rfl, Option.some.inj (found.symm.trans found')⟩
  · cases (targetWithin_of_lt h less).symm.trans found'

theorem targetWithin_path (path : TransGen a.Leads x y) (h : b.targetWithin a steps x = some t) :
    ∃ n < steps, ∃ s, b.targetWithin a n y = some s := by
  have single : ∀ {x y steps : Nat} {t : SymbolId}, a.Leads x y →
      b.targetWithin a steps x = some t → ∃ n < steps, ∃ s, b.targetWithin a n y = some s := by
    intro x y steps t leads found
    cases steps with
    | zero => cases found
    | succ steps => exact ⟨steps, Nat.lt_succ_self steps, targetWithin_leads leads found⟩
  induction path with
  | single leads => exact single leads h
  | tail _ leads ih =>
    obtain ⟨n, less, s, found⟩ := ih
    obtain ⟨n', less', rest⟩ := single leads found
    exact ⟨n', Nat.lt_trans less' less, rest⟩

/-- What is followed in a circle has no target. -/
theorem targetWithin_circle (circle : TransGen a.Leads x x) : b.targetWithin a steps x = none := by
  -- One round uses up a step, so the induction is on the number of steps.
  induction steps using Nat.strong_induction_on with
  | _ steps ih =>
    cases found : b.targetWithin a steps x with
    | none => rfl
    | some t =>
      obtain ⟨n, less, s, nearer⟩ := targetWithin_path circle found
      cases (ih n less).symm.trans nearer

theorem target?_circle (path : ReflTransGen a.Leads x y) (circle : TransGen a.Leads y y) :
    b.target? a x = none := by
  cases found : b.target? a x with
  | none => rfl
  | some t =>
    rcases reflTransGen_iff_eq_or_transGen.1 path with rfl | path
    · cases (targetWithin_circle circle).symm.trans found
    · obtain ⟨n, _, s, nearer⟩ := targetWithin_path path found
      cases (targetWithin_circle circle).symm.trans nearer

end Following

end Bound

theorem Bound.returns_resource {tree : Tree} {b : Bound} (bound : Bound.ofTree tree = .ok b)
    {m t : SymbolId} {name : String} (returns : b.Returns m name t) :
    ∃ symbol type, b.symbol? t = some symbol ∧ symbol.kind = .resource type true false := by
  obtain ⟨symbol, found, owned, _⟩ := returns.bears
  have returned := Binder.ownsReturned_ofTree bound symbol (Array.mem_of_getElem? found)
  obtain ⟨type, kind⟩ := returned m owned
  exact ⟨symbol, type, found, kind⟩

/-- An expression has a target exactly if it denotes it in no more than the permitted number
of steps. It denotes one symbol at most, and none if its steps run in a circle. What a module
of a bound program returns is a resource. -/
theorem Bound.target?_iff_denotes (b : Bound) (a : Arena) (x : NodeId) :
    (∀ t, b.target? a x = some t ↔ ∃ steps ≤ targetLimit, b.Denotes a x steps t) ∧
      (∀ steps steps' t t', b.Denotes a x steps t → b.Denotes a x steps' t' →
        steps = steps' ∧ t = t') ∧
      (∀ y, ReflTransGen a.Leads x y → TransGen a.Leads y y → b.target? a x = none) ∧
      ∀ tree, Bound.ofTree tree = .ok b → ∀ m name t, b.Returns m name t →
        ∃ symbol type, b.symbol? t = some symbol ∧ symbol.kind = .resource type true false := by
  refine ⟨fun t => targetWithin_iff_denotes, fun steps steps' t t' h h' => denotes_unique h h',
    fun y path circle => target?_circle path circle, ?_⟩
  exact fun tree bound m name t returns => returns_resource bound returns

def returnedArena : Arena :=
  ⟨#[⟨default, .object []⟩,
    ⟨default, .module ⟨"m", default⟩ "m.bcz" 0 [⟨⟨"r", default⟩, some "T@1"⟩]⟩,
    ⟨default, .ident ⟨"m", default⟩⟩, ⟨default, .property 2 ⟨"Outputs", default⟩⟩,
    ⟨default, .string ["R"] []⟩, ⟨default, .index 3 4⟩, ⟨default, .paren 5⟩,
    ⟨default, .output ⟨"o", default⟩ 6⟩, ⟨default, .program [1, 7]⟩,
    ⟨default, .paren 10⟩, ⟨default, .paren 9⟩]⟩

theorem returnedArena_denotes : ∃ b, Bound.ofTree ⟨"main.json", returnedArena, 8⟩ = .ok b ∧
    (∃ steps ≤ targetLimit, b.Denotes returnedArena 6 steps 1) ∧
    (∃ symbol type, b.symbol? 1 = some symbol ∧ symbol.kind = .resource type true false) ∧
    b.target? returnedArena 9 = none := by
  have facts : (Bound.ofTree ⟨"main.json", returnedArena, 8⟩).toOption.map (fun b =>
      (b.target? returnedArena 6, (b.symbol? 0).map Symbol.isModule, b.moduleOutput? 0 "R")) =
      some (some 1, some true, some 1) := by
    decide +kernel
  obtain ⟨b, bound, facts⟩ := Option.map_eq_some_iff.1 facts
  simp only [Prod.mk.injEq] at facts
  obtain ⟨found, module, output⟩ := facts
  have bound := ok_of_toOption bound
  obtain ⟨bears, first⟩ := Bound.member?_eq_some_iff.1 output
  have returns : b.Returns 0 "R" 1 := ⟨Option.map_eq_some_iff.1 module, bears, first⟩
  have there : returnedArena.Leads 9 10 := .paren rfl
  have back : returnedArena.Leads 10 9 := .paren rfl
  obtain ⟨within, _, _, resources⟩ := Bound.target?_iff_denotes b returnedArena 6
  obtain ⟨_, _, circles, _⟩ := Bound.target?_iff_denotes b returnedArena 9
  exact ⟨b, bound, (within 1).1 found, resources _ bound 0 "R" 1 returns,
    circles 9 .refl (.tail (.single there) back)⟩

end DeployCheck
