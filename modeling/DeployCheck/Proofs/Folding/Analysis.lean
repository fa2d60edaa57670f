import DeployCheck.Proofs.Analysis.Limit
import DeployCheck.Proofs.Folding.Binding

/-!
# Analysing folded programs

The analysis of a folded program goes through the same steps. It gives the same
answers and bodies with the same members; only the type that a body is named after
may be in another case.
-/

set_option autoImplicit false

namespace DeployCheck

namespace ObjectType

def members (t : ObjectType) : Roster Property × Roster FunctionType := (t.properties, t.functions)

variable {t t' : ObjectType}

theorem property?_members (same : t'.members = t.members) (name : String) :
    t'.property? name = t.property? name :=
  congrArg (fun m => m.1.find? name) same

theorem function?_members (same : t'.members = t.members) (name : String) :
    t'.function? name = t.function? name :=
  congrArg (fun m => m.2.find? name) same

theorem isReadable_members (same : t'.members = t.members) (name : String) :
    t'.isReadable name = t.isReadable name := by
  rw [isReadable, isReadable, property?_members same]

theorem isReadable_key (t : ObjectType) (name : String) :
    t.isReadable (Name.key name) = t.isReadable name := by
  rw [isReadable, isReadable, property?, Roster.find?_congr _ (Name.same_key name), property?]

theorem function?_key (t : ObjectType) (name : String) :
    t.function? (Name.key name) = t.function? name :=
  t.functions.find?_congr (Name.same_key name)

end ObjectType

namespace Analysis

open ObjectType (members)

theorem markName_members {t t' : ObjectType} (same : t'.members = t.members) (readable : Bool) :
    (markName t' readable).members = (markName t readable).members := by
  rw [markName, markName, ObjectType.updateFlags, ObjectType.updateFlags,
    ObjectType.property?_members same]
  have inserted : ∀ p, (t'.insertProperty p).members = (t.insertProperty p).members :=
    fun p => congrArg (fun m => (m.1.put p, m.2)) same
  cases t.property? ObjectType.nameProperty with
  | none => exact same
  | some p => exact inserted _

/-- The second table holds what the first one does, for the folded program. -/
structure Memo.Folds (memo memo' : Memo) : Prop where
  constants : memo'.constants = memo.constants
  bodies : memo'.bodies.map (Option.map members) = memo.bodies.map (Option.map members)
  places : memo'.diagnostics.map Diagnostic.place = memo.diagnostics.map Diagnostic.place

theorem Memo.Folds.constant? {memo memo' : Memo} (h : memo.Folds memo') (node : NodeId) :
    memo'.constant? node = memo.constant? node := by
  rw [Memo.constant?, Memo.constant?, h.constants]

theorem Memo.Folds.body? {memo memo' : Memo} (h : memo.Folds memo') (symbol : SymbolId) :
    (memo'.body? symbol).map members = (memo.body? symbol).map members := by
  have entry : ∀ memo : Memo, (memo.body? symbol).map members =
      (memo.bodies.map (Option.map members))[symbol]?.join := by
    intro memo
    rw [Memo.body?, Array.getElem?_map]
    cases memo.bodies[symbol]? <;> rfl
  rw [entry, entry, h.bodies]

theorem Memo.Folds.setConstant {memo memo' : Memo} (h : memo.Folds memo') (node : NodeId)
    (constant : Bool) : (memo.setConstant node constant).Folds (memo'.setConstant node constant) :=
  ⟨congrArg (·.setIfInBounds node (some constant)) h.constants, h.bodies, h.places⟩

theorem Memo.Folds.setBody {memo memo' : Memo} (h : memo.Folds memo') (symbol : SymbolId)
    {body body' : ObjectType} (same : body'.members = body.members) :
    (memo.setBody symbol body).Folds (memo'.setBody symbol body') := by
  refine ⟨h.constants, ?_, h.places⟩
  simp [Memo.setBody, Array.map_setIfInBounds, h.bodies, same]

namespace Subject

variable (s : Subject) (b : Bound)

def folded : Subject := ⟨s.tree.folded, b, s.catalog⟩

theorem data?_folded (node : NodeId) :
    (s.folded b).tree.arena.data? node = (s.tree.arena.data? node).map NodeData.folded :=
  s.tree.arena.data?_folded node

theorem span_folded (node : NodeId) :
    (s.folded b).tree.arena.span node = s.tree.arena.span node := s.tree.arena.span_folded node

theorem size_folded : (s.folded b).tree.arena.size = s.tree.arena.size := s.tree.arena.size_folded

end Subject

abbrev Fact.folded : Fact → Fact := Fact.mapped id Name.key

section Rules

variable {s : Subject} {b : Bound}

theorem bodyEntries?_folded (a : Arena) (depth : Nat) (node : NodeId) :
    bodyEntries? a.folded depth node =
      (bodyEntries? a depth node).map (List.map ObjectEntry.folded) := by
  induction depth generalizing node with
  | zero => rfl
  | succ depth ih =>
    rw [bodyEntries?, bodyEntries?, a.data?_folded]
    cases a.data? node with
    | none => rfl
    | some data =>
      cases data with
      | loop item counter iterated body => exact ih body
      | condition c body => exact ih body
      | _ => rfl

theorem keyed?_folded (entries : List ObjectEntry) (name : String) :
    keyed? (entries.map ObjectEntry.folded) name = keyed? entries name := by
  simp [keyed?, List.find?_map, Function.comp_def, ObjectEntry.folded, Identifier.folded,
    Name.same_key_left]

theorem declaredEntries?_folded (symbol : Symbol) : declaredEntries? (s.folded b) symbol.folded =
    (declaredEntries? s symbol).map (List.map ObjectEntry.folded) := by
  rw [declaredEntries?, declaredEntries?, Symbol.folded, Symbol.mapped, id_eq, s.data?_folded,
    s.size_folded]
  cases s.tree.arena.data? symbol.declaration with
  | none => rfl
  | some data =>
    cases data with
    | resource name type existing body nested => exact bodyEntries?_folded s.tree.arena _ body
    | _ => rfl

theorem typeSpan_folded (symbol : Symbol) :
    typeSpan (s.folded b) symbol.folded = typeSpan s symbol := by
  rw [typeSpan, typeSpan, Symbol.folded, Symbol.mapped, id_eq, s.data?_folded, s.span_folded]
  cases s.tree.arena.data? symbol.declaration with
  | none => rfl
  | some data =>
    cases data with
    | module name path body outputs =>
      simp only [Option.map_some, NodeData.folded, List.find?_map, Function.comp_def,
        OutputSignature.folded]
      cases outputs.find? fun o => o.name.name == symbol.name <;> rfl
    | _ => rfl

theorem definitionPremises_folded (symbol : Symbol) :
    (s.folded b).definitionPremises symbol.folded =
      (s.definitionPremises symbol).map (List.map Fact.folded) := by
  obtain ⟨name, declaration, owner, kind⟩ := symbol
  rw [Subject.definitionPremises, Subject.definitionPremises]
  dsimp only [Symbol.folded, Symbol.mapped]
  cases kind with
  | var =>
    dsimp only [SymbolKind.mapped, id_eq]
    rw [s.data?_folded]
    cases s.tree.arena.data? declaration with
    | none => rfl
    | some data => cases data <;> rfl
  | loopItem loop =>
    dsimp only [SymbolKind.mapped, id_eq]
    rw [s.data?_folded]
    cases s.tree.arena.data? loop with
    | none => rfl
    | some data => cases data <;> rfl
  | _ => rfl

theorem constants_folded (xs : List NodeId) :
    (xs.map Fact.constant).map Fact.folded = xs.map Fact.constant := by
  rw [List.map_map]
  rfl

variable (h : s.bound.Folds b)

include h

theorem named?_folded (x : NodeId) : (s.folded b).named? x = (s.named? x).map Symbol.folded := by
  show (b.nameSymbol? x).bind b.symbol? = _
  rw [Subject.named?, h.nameSymbol?, Option.map_bind]
  exact congrArg _ (funext h.symbol?)

theorem constantPremises_folded (x : NodeId) : (s.folded b).constantPremises x =
    (s.constantPremises x).map (List.map Fact.folded) := by
  have target : ∀ base, (s.folded b).target? base = s.target? base := h.target? s.tree.arena
  rw [Subject.constantPremises, Subject.constantPremises, s.data?_folded]
  cases s.tree.arena.data? x with
  | none => rfl
  | some data =>
    cases data with
    | string segments xs | array xs => exact congrArg some (constants_folded xs).symm
    | object entries =>
      have values : (entries.map ObjectEntry.folded).map ObjectEntry.value =
          entries.map ObjectEntry.value := List.map_map
      dsimp only [Option.map_some, NodeData.folded]
      rw [values, constants_folded]
    | ident name =>
      show ((s.folded b).named? x).bind (s.folded b).definitionPremises = _
      rw [named?_folded h, Option.bind_map, Option.map_bind]
      exact congrArg _ (funext definitionPremises_folded)
    | property base name =>
      dsimp only [Option.map_some, NodeData.folded]
      rw [target]
      cases s.target? base <;> rfl
    | index base index =>
      have literal : ((s.folded b).tree.arena.data? index).bind NodeData.literal? =
          ((s.tree.arena.data? index).bind NodeData.literal?).map Name.key :=
        s.tree.arena.literal?_folded index
      dsimp only [Option.map_some, NodeData.folded]
      rw [target, literal]
      cases s.target? base with
      | none => rfl
      | some symbol => cases (s.tree.arena.data? index).bind NodeData.literal? <;> rfl
    | call name args =>
      have known : Builtin.find? name.folded.name = Builtin.find? name.name :=
        Builtin.find?_congr (Name.same_key name.name)
      dsimp only [Option.map_some, NodeData.folded]
      rw [known]
      cases Builtin.find? name.name with
      | none => rfl
      | some f =>
        dsimp only
        cases f.flags.requiresInlining with
        | true => rfl
        | false => exact congrArg some (constants_folded args).symm
    | _ => rfl

theorem parentOf?_folded (symbol : Symbol) (entries : List ObjectEntry) :
    (s.folded b).parentOf? symbol.folded (entries.map ObjectEntry.folded) =
      s.parentOf? symbol entries := by
  have target : (s.folded b).target? = s.target? := funext (h.target? s.tree.arena)
  rw [Subject.parentOf?, Subject.parentOf?, keyed?_folded, symbol.parent?_mapped, target]

theorem identityPremises_folded (symbol : Symbol) :
    (s.folded b).identityPremises symbol.folded =
      (s.identityPremises symbol).map (List.map Fact.folded) := by
  have kinds : symbol.folded.kind = symbol.kind.mapped id TypeReference.folded := rfl
  rw [Subject.identityPremises, Subject.identityPremises, kinds, symbol.module?_mapped,
    declaredEntries?_folded]
  cases symbol.kind with
  | resource type existing collection =>
    dsimp only [SymbolKind.mapped]
    cases symbol.module?.isSome with
    | true => rfl
    | false =>
      cases declaredEntries? s symbol with
      | none => rfl
      | some entries =>
        dsimp only [Option.map_some]
        rw [keyed?_folded, keyed?_folded, parentOf?_folded h]
        cases keyed? entries ObjectType.nameProperty with
        | none => rfl
        | some value =>
          cases keyed? entries scopeProperty <;> cases s.parentOf? symbol entries <;> rfl
  | _ => rfl

theorem identity_folded (id : SymbolId) : (s.folded b).premises (.identity id) =
    (s.premises (.identity id)).map (List.map Fact.folded) := by
  show (b.symbol? id).bind (s.folded b).identityPremises = _
  rw [h.symbol?, Option.bind_map]
  show _ = ((s.bound.symbol? id).bind s.identityPremises).map _
  rw [Option.map_bind]
  exact congrArg _ (funext (identityPremises_folded h))

theorem corresponding_folded : Corresponding s (s.folded b) id id TypeReference.folded Name.key
    Memo.Folds fun t t' => t'.members = t.members where
  symbols := h.symbol?
  identity := identity_folded h
  unknown t := by
    show (s.catalog.lookup t.folded).isNone = _
    rw [s.catalog.lookup_folded]
  declared t := by
    show ((s.catalog.lookup t.folded).getD _).members = ((s.catalog.lookup t).getD _).members
    rw [s.catalog.lookup_folded]
    cases s.catalog.lookup t <;> rfl
  module _ := rfl
  mark := markName_members
  readable {t t'} same name := by
    rw [ObjectType.isReadable_members same, ObjectType.isReadable_key]
  constant? tables := tables.constant?
  body? tables symbol := by
    have same := tables.body? symbol
    cases known : Memo.body? _ symbol with
    | none =>
      rw [known, Option.map_none, Option.map_eq_none_iff] at same
      rw [same]
      exact .none
    | some body =>
      rw [known, Option.map_some, Option.map_eq_some_iff] at same
      obtain ⟨body', known', same⟩ := same
      rw [known']
      exact .some same
  setBody tables _ _ same symbol := tables.setBody symbol same
  report tables symbol t := by
    have place : (untyped (s.folded b) symbol.folded t.folded).place = (untyped s symbol t).place := by
      simp only [untyped, typeSpan_folded]
      rfl
    refine ⟨tables.constants, tables.bodies, ?_⟩
    simp only [Memo.report, Array.map_push, tables.places]
    rw [place]

theorem run_folded : (run s).Folds (run (s.folded b)) := by
  have size : (s.folded b).bound.symbols.size = s.bound.symbols.size := by
    simp [Subject.folded, h.symbols]
  have start : (Memo.start s).Folds (Memo.start (s.folded b)) := by
    rw [Memo.start, Memo.start, size, s.size_folded]
    exact ⟨rfl, rfl, rfl⟩
  refine run_related (corresponding_folded h) (together_works (corresponding_folded h)
    (ways_same s (s.folded b)) ?_ _ _ _ _ fits_start fits_start) (fun _ => rfl) start
  intro fuel fuel' path path' x memo memo' way tables unknown unknown' fresh fresh' room room' fits
    fits' together
  subst way
  refine meets_entered ?_ (fun tables => tables.setConstant x) tables unknown unknown' fresh fresh'
    room room'
  exact lockstep_expression (corresponding_folded h)
    (together _ _ _ (fits_node fits room x) (fits_node fits' room' x)) (constantPremises_folded h x)
    fun _ _ => rfl

end Rules

end Analysis

end DeployCheck
