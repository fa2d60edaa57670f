import DeployCheck.Proofs.Analysis.Lockstep
import DeployCheck.Proofs.Analysis.Simulation
import DeployCheck.Proofs.Insertion.Targets

/-!
# Premises with a node more

The rules for a node that is kept have the same premises with a node more, about what
stands in the places of the expressions.
-/

set_option autoImplicit false

namespace DeployCheck.Analysis

abbrev Fact.moved (place : Nat → Nat) : Fact → Fact := Fact.mapped place id

/-- The second program is the first one with a node more behind `e`. Every expression
denotes what the one in its place does. -/
structure Subject.Enlarged (s s' : Subject) (e : Nat) (place : Nat → Nat) (kept : Nat → Prop) :
    Prop where
  arena : s.tree.arena.Enlarged s'.tree.arena e place kept
  bound : s.bound.Follows s.tree.arena s'.tree.arena e s'.bound
  names : ∀ x, s'.bound.nameSymbol? (twin e x) = s.bound.nameSymbol? x
  targets : ∀ x, s'.target? (place x) = s.target? x
  selectors : ∀ x base index target, kept x → s.tree.arena.data? x = some (.index base index) →
    s.target? base = some target → (s'.tree.arena.data? (place index)).bind NodeData.literal? =
      (s.tree.arena.data? index).bind NodeData.literal?
  catalog : s'.catalog = s.catalog

theorem constants_moved (place : Nat → Nat) (xs : List Nat) :
    (xs.map place).map Fact.constant = (xs.map Fact.constant).map (Fact.moved place) := by
  rw [List.map_map, List.map_map]
  rfl

theorem map_of_rel {place : Nat → Nat} {o o' : Option Nat}
    (h : Option.Rel (fun x x' => x' = place x) o o') : o' = o.map place := by
  cases h with
  | none => rfl
  | some same => exact congrArg some same

theorem bodyEntries?_enough {arena : Arena} {depth : Nat} (enough : arena.size + 1 ≤ depth)
    (id : NodeId) : bodyEntries? arena depth id = bodyEntries? arena (arena.size + 1) id := by
  ext entries
  exact ⟨fun found => bodyEntries?_iff.2 (body_of_bodyEntries? found), bodyEntries?_mono enough⟩

namespace Subject.Enlarged

variable {s s' : Subject} {e : Nat} {place : Nat → Nat} {kept : Nat → Prop}
  (h : s.Enlarged s' e place kept)

include h

theorem named?_twin (x : Nat) : s'.named? (twin e x) = (s.named? x).map (Symbol.moved e) := by
  rw [named?, named?, h.names, Option.map_bind]
  exact congrArg _ (funext h.bound.symbol?)

theorem definitionPremises_moved (symbol : Symbol) : s'.definitionPremises (symbol.moved e) =
    (s.definitionPremises symbol).map (List.map (Fact.moved place)) := by
  obtain ⟨name, declaration, owner, kind⟩ := symbol
  cases kind with
  | var =>
    rw [definitionPremises, definitionPremises]
    dsimp only [Symbol.moved, Symbol.mapped, SymbolKind.mapped]
    obtain ⟨here, there⟩ | ⟨_, _, _, here, there, _, paired⟩ |
      ⟨_, _, here, there, member, member'⟩ := h.arena.twin_cases declaration
    · rw [here, there]
      rfl
    · rw [here, there]
      cases paired with
      | var same moved => rw [moved]; rfl
      | _ => rfl
    · rw [here, there]
      cases member <;> cases member' <;> rfl
  | loopItem loop =>
    rw [definitionPremises, definitionPremises]
    dsimp only [Symbol.moved, Symbol.mapped, SymbolKind.mapped]
    obtain ⟨here, there⟩ | ⟨_, _, _, here, there, _, paired⟩ |
      ⟨_, _, here, there, member, member'⟩ := h.arena.twin_cases loop
    · rw [here, there]
      rfl
    · rw [here, there]
      cases paired with
      | loop same sameCounter iterated body => rw [iterated]; rfl
      | _ => rfl
    · rw [here, there]
      cases member <;> cases member' <;> rfl
  | _ => rfl

theorem constantPremises_twin {x : Nat} (keep : kept x) : s'.constantPremises (twin e x) =
    (s.constantPremises x).map (List.map (Fact.moved place)) := by
  rw [constantPremises, constantPremises]
  cases here : s.tree.arena.data? x with
  | none => rw [h.arena.twin_missing here]; rfl
  | some data =>
    obtain ⟨data', there, children, paired⟩ := h.arena.twin_paired keep here
    rw [there]
    cases paired with
    | string _ | array _ | object _ =>
      exact congrArg some ((congrArg _ children).trans (constants_moved place _))
    | ident same =>
      show (s'.named? (twin e x)).bind s'.definitionPremises = _
      rw [named?_twin h, Option.bind_map, Option.map_bind]
      exact congrArg _ (funext (definitionPremises_moved h))
    | @property name name' base _ moved same =>
      subst moved
      dsimp only
      rw [h.targets, same]
      cases s.target? base <;> rfl
    | @index base _ index _ moved moved' =>
      subst moved moved'
      dsimp only
      rw [h.targets]
      cases resolved : s.target? base with
      | none => rfl
      | some target =>
        dsimp only
        rw [h.selectors x base index target keep here resolved]
        cases (s.tree.arena.data? index).bind NodeData.literal? <;> rfl
    | @call name name' args args' same _ =>
      obtain rfl : args' = args.map place := children
      dsimp only
      rw [← same]
      cases Builtin.find? name.name with
      | none => rfl
      | some f =>
        dsimp only
        cases f.flags.requiresInlining with
        | true => rfl
        | false => exact congrArg some (constants_moved place args)
    | paren moved | unary moved => rw [moved]; rfl
    | binary left right => rw [left, right]; rfl
    | ternary c t f => rw [c, t, f]; rfl
    | _ => rfl

theorem premises_twin {x : Nat} (keep : kept x) : s'.premises (.constant (twin e x)) =
    (s.premises (.constant x)).map (List.map (Fact.moved place)) :=
  constantPremises_twin h keep

theorem bodyEntries?_twin (depth x : Nat) : Option.Rel
    (List.Forall₂ fun o o' : ObjectEntry => o.key.name = o'.key.name ∧ o'.value = place o.value)
    (bodyEntries? s.tree.arena depth x) (bodyEntries? s'.tree.arena depth (twin e x)) := by
  induction depth generalizing x with
  | zero => exact .none
  | succ depth ih =>
    rw [bodyEntries?, bodyEntries?]
    obtain ⟨here, there⟩ | ⟨data, _, keep, here, there, _, paired⟩ |
      ⟨_, _, here, there, member, member'⟩ := h.arena.twin_cases x
    · rw [here, there]
      exact .none
    · have stays : ∀ c ∈ data.children, data.operandCount = 0 → place c = twin e c :=
        fun c child none => h.arena.stays keep here none c child
      rw [here, there]
      cases paired with
      | object below => exact .some below
      | loop _ _ _ moved =>
        rw [moved, stays _ (List.mem_cons_of_mem _ List.mem_cons_self) rfl]
        exact ih _
      | condition _ moved =>
        rw [moved, stays _ (List.mem_cons_of_mem _ List.mem_cons_self) rfl]
        exact ih _
      | _ => exact .none
    · rw [here, there]
      cases member <;> cases member' <;> exact .none

theorem declaredEntries?_moved (symbol : Symbol) : Option.Rel
    (List.Forall₂ fun o o' : ObjectEntry => o.key.name = o'.key.name ∧ o'.value = place o.value)
    (declaredEntries? s symbol) (declaredEntries? s' (symbol.moved e)) := by
  rw [declaredEntries?, declaredEntries?]
  dsimp only [Symbol.moved, Symbol.mapped]
  obtain ⟨here, there⟩ | ⟨_, _, keep, here, there, _, paired⟩ |
    ⟨_, _, here, there, member, member'⟩ := h.arena.twin_cases symbol.declaration
  · rw [here, there]
    exact .none
  · rw [here, there]
    cases paired with
    | @resource _ _ _ _ body _ _ _ _ moved =>
      subst moved
      dsimp only
      rw [h.arena.stays keep here rfl body List.mem_cons_self, h.arena.size,
        ← bodyEntries?_enough (Nat.le_succ _)]
      exact bodyEntries?_twin h _ body
    | _ => exact .none
  · rw [here, there]
    cases member <;> cases member' <;> exact .none

theorem parentOf?_moved (symbol : Symbol) {entries entries' : List ObjectEntry}
    (same : ∀ name, keyed? entries' name = (keyed? entries name).map place) :
    s'.parentOf? (symbol.moved e) entries' = s.parentOf? symbol entries := by
  rw [parentOf?, parentOf?, same, symbol.parent?_mapped, Option.bind_map]
  exact congrArg (fun targets => ((keyed? entries parentProperty).bind targets).or _)
    (funext h.targets)

theorem identityPremises_moved (symbol : Symbol) : s'.identityPremises (symbol.moved e) =
    (s.identityPremises symbol).map (List.map (Fact.moved place)) := by
  have kinds : (symbol.moved e).kind = symbol.kind.moved e := rfl
  have entries := declaredEntries?_moved h symbol
  rw [identityPremises, identityPremises, kinds, symbol.module?_mapped]
  cases symbol.kind with
  | resource type existing collection =>
    dsimp only [SymbolKind.mapped, id_eq]
    cases symbol.module?.isSome with
    | true => rfl
    | false =>
      generalize declaredEntries? s symbol = declared at entries
      generalize declaredEntries? s' (symbol.moved e) = declared' at entries
      cases entries with
      | none => rfl
      | @some known known' below =>
        have keyed := fun name => map_of_rel (keyed?_rel below name)
        dsimp only
        rw [keyed, keyed, parentOf?_moved h symbol keyed]
        cases keyed? known ObjectType.nameProperty with
        | none => rfl
        | some value =>
          cases keyed? known scopeProperty <;> cases s.parentOf? symbol known <;> rfl
  | _ => rfl

theorem premises_identity (id : SymbolId) : s'.premises (.identity id) =
    (s.premises (.identity id)).map (List.map (Fact.moved place)) := by
  show (s'.bound.symbol? id).bind s'.identityPremises = _
  rw [h.bound.symbol?, Option.bind_map]
  show _ = ((s.bound.symbol? id).bind s.identityPremises).map _
  rw [Option.map_bind]
  exact congrArg _ (funext (identityPremises_moved h))

end Subject.Enlarged

end DeployCheck.Analysis
