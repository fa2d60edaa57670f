import DeployCheck.Proofs.Analysis.Order
import DeployCheck.Proofs.Binding.Lexical
import DeployCheck.Proofs.Failures
import DeployCheck.Proofs.Text.Filling

/-!
# Resources of unknown types

A resource whose type is not in the catalog gets a generic body and a warning. Bodies are
worked out in an order that depends on who asks first, and a body that is being worked out
can be asked for again. The warnings reported so far are always those of the resources
whose bodies are in the table or are being worked out, so in the end each resource of an
unknown type has one.
-/

set_option autoImplicit false

namespace DeployCheck

namespace Text

theorem fill_one {template : String} {before after : List Char} (plain : '{' ∉ before)
    (plain' : '{' ∉ after) (split : template.toList = before ++ placeholder 0 ++ after)
    (value : String) : fill template [value] =
      String.ofList before ++ value ++ String.ofList after := by
  have rest : replaceAll (placeholder 0) value.toList after = after := by
    apply replaceAll_of_none
    have none := occurrences_plain (k := 0) plain' []
    rwa [List.append_nil] at none
  rw [fill, fillFrom, fillFrom, split, List.append_assoc, replaceAll_plain plain,
    replaceAll_placeholder, rest]
  simp [String.append_assoc]

end Text

/-- What is said about a resource of an unknown type. -/
def unknownType (file : String) (span : Span) (type : TypeReference) : Diagnostic where
  file
  start := span.start
  length := span.length
  message := "Resource type \"" ++ type.text ++ "\" does not have types available."
  severity := .warning
  code := 81
  members := none

theorem untyped_eq (s : Analysis.Subject) (symbol : Symbol) (type : TypeReference) :
    Analysis.untyped s symbol type =
      unknownType s.tree.file (Analysis.typeSpan s symbol) type := by
  have filled : Text.fill Rule.untypedResource.template [type.text] =
      "Resource type \"" ++ type.text ++ "\" does not have types available." := by
    have split : Rule.untypedResource.template.toList =
        "Resource type \"".toList ++ Text.placeholder 0 ++
          "\" does not have types available.".toList := by decide
    simpa using Text.fill_one (by decide) (by decide) split type.text
  rw [Analysis.untyped, Diagnostic.ofRule, filled]
  rfl

inductive Sited (t : Tree) (b : Bound) (id : SymbolId) (symbol : Symbol) : Prop where
  | declared {name : Identifier} {type : String} {existing : Bool} {body : NodeId}
      {nested : List NodeId} (mark : b.declarationSymbol? symbol.declaration = some id)
      (here : t.arena.data? symbol.declaration = some (.resource name type existing body nested))
      (named : name.name = symbol.name)
  | returned {module : SymbolId} {name : Identifier} {path : String} {body : NodeId}
      {outputs : List OutputSignature} {o : OutputSignature} {type : String}
      (own : symbol.module? = some module)
      (mark : b.declarationSymbol? symbol.declaration = some module)
      (here : t.arena.data? symbol.declaration = some (.module name path body outputs))
      (listed : o ∈ outputs) (typed : o.resource = some type) (named : o.name.name = symbol.name)

namespace Binder

section Sites

variable {t : Tree} {b : Bound} {around : Option (SymbolId × TypeReference)} {lo hi k : Nat}
  {ids : List Nat} {symbol : Symbol}

theorem outputs_listed {declaration module : Nat} {outputs : List OutputSignature}
    (h : Outputs b declaration module lo outputs hi) (above : lo ≤ k) (under : k < hi) :
    ∃ o ∈ outputs, ∃ type, o.resource = some type ∧ b.symbol? k =
      some ⟨o.name.name, declaration, .module module, .resource (.ofText type none) true false⟩ := by
  induction h with
  | nil => omega
  | value _ _ ih =>
    obtain ⟨o, listed, rest⟩ := ih above under
    exact ⟨o, List.mem_cons_of_mem _ listed, rest⟩
  | @resource lo hi o type rest typed found _ ih =>
    by_cases first : k = lo
    · exact ⟨o, List.mem_cons_self, type, typed, first ▸ found⟩
    · obtain ⟨o', listed, rest⟩ := ih (by omega) under
      exact ⟨o', List.mem_cons_of_mem _ listed, rest⟩

theorem declares_sited (h : Declares t.arena b around lo ids hi) (above : lo ≤ k) (under : k < hi)
    (found : b.symbol? k = some symbol) {type : TypeReference}
    (typed : symbol.type? = some type) : Sited t b k symbol := by
  induction h with
  | nil => omega
  | @plain around lo hi id ids data name kind here sort marked _ ih =>
    by_cases first : k = lo
    · subst first
      cases found.symm.trans marked.found
      cases data <;> cases sort <;> cases typed
    · exact ih (by omega) under
  | @module around lo mid hi id body ids name path outputs inner here inside marked returned _ ih =>
    by_cases first : k = lo
    · subst first
      cases found.symm.trans marked.found
      cases typed
    · by_cases own : k < mid
      · obtain ⟨o, listed, type', resource, found'⟩ := outputs_listed returned (by omega) own
        cases found.symm.trans found'
        exact .returned rfl marked.mark here listed resource rfl
      · exact ih (by omega) under
  | @resource around lo mid hi id body ids nested name text existing inner here inside marked _ _
      ihu ihb =>
    by_cases first : k = lo
    · subst first
      cases found.symm.trans marked.found
      exact .declared marked.mark here rfl
    · by_cases own : k < mid
      · exact ihu (by omega) own
      · exact ihb (by omega) under

theorem type?_loopSymbols {n : NodeId} (h : symbol ∈ t.loopSymbols n) : symbol.type? = none := by
  rw [Tree.loopSymbols] at h
  split at h
  · next item index iterated body here =>
    obtain ⟨v, member, rfl⟩ := List.mem_map.1 h
    rcases List.mem_cons.1 member with rfl | later
    · rfl
    · obtain ⟨i, _, rfl⟩ := List.mem_map.1 later
      rfl
  · cases h

theorem sited_ofTree {file : String} {program : List Declaration}
    (lowered : Tree.ofProgram file program = .ok t) (bound : Bound.ofTree t = .ok b)
    (found : b.symbol? k = some symbol) {type : TypeReference}
    (typed : symbol.type? = some type) : Sited t b k symbol := by
  obtain ⟨ids, total, settled⟩ := settled_ofTree lowered bound
  by_cases low : k < total
  · exact declares_sited settled.resolves.declares (Nat.zero_le k) low found typed
  · obtain ⟨loop, own⟩ := settled.resolves.locals k symbol (Nat.le_of_not_lt low) found
    obtain ⟨declared, locals, all, other, perm⟩ := (accounts_ofTree lowered bound).symbols
    have member : symbol ∈ b.symbols.toList :=
      Array.mem_toList_iff.2 (Array.mem_of_getElem? found)
    rw [all] at member
    rcases List.mem_append.1 member with early | late
    · exact absurd own (other symbol early loop)
    · obtain ⟨n, _, looped⟩ := List.mem_flatMap.1 (perm.mem_iff.1 late)
      rw [type?_loopSymbols looped] at typed
      cases typed

end Sites

end Binder

namespace Analysis

def Subject.warning? (s : Subject) (id : SymbolId) : Option Diagnostic := do
  let symbol ← s.bound.symbol? id
  let type ← symbol.type?
  if (s.catalog.lookup type).isNone then some (untyped s symbol type) else none

theorem breaks_warning {s : Subject} {id : SymbolId} {d : Diagnostic}
    (warned : s.warning? id = some d) : d.Breaks .untypedResource := by
  obtain ⟨symbol, _, rest⟩ := Option.bind_eq_some_iff.1 warned
  obtain ⟨type, _, rest⟩ := Option.bind_eq_some_iff.1 rest
  split at rest
  · cases rest
    exact Diagnostic.breaks_ofRule ..
  · cases rest

/-- The body of a resource is in the table or waited for. -/
def Memo.begun (memo : Memo) (waiting : List SymbolId) (id : SymbolId) : Bool :=
  (memo.body? id).isSome || waiting.contains id

/-- The warnings so far are those of the resources whose bodies have been begun, one for
each. -/
structure Told (s : Subject) (waiting : List SymbolId) (memo : Memo) : Prop where
  size : memo.bodies.size = s.bound.symbols.size
  reports : memo.diagnostics.toList.Perm
    (((List.range s.bound.symbols.size).filter (memo.begun waiting)).filterMap s.warning?)

section Told

variable {s : Subject} {waiting : List SymbolId} {memo memo' : Memo} {id : SymbolId}

theorem filter_perm_cons {α : Type} {l : List α} (nodup : l.Nodup) {x : α} (member : x ∈ l)
    {p q : α → Bool} (new : p x = false) (same : ∀ y, q y = true ↔ p y = true ∨ y = x) :
    (l.filter q).Perm (x :: l.filter p) := by
  have fresh : x ∉ l.filter p := by simp [new]
  apply (List.perm_ext_iff_of_nodup (nodup.filter q) (List.nodup_cons.2 ⟨fresh, nodup.filter p⟩)).2
  intro y
  rw [List.mem_filter, List.mem_cons, List.mem_filter, same]
  constructor
  · rintro ⟨inside, old | rfl⟩
    · exact .inr ⟨inside, old⟩
    · exact .inl rfl
  · rintro (rfl | ⟨inside, old⟩)
    · exact ⟨member, .inr rfl⟩
    · exact ⟨inside, .inl old⟩

theorem told_begin (told : Told s waiting memo) (inside : id < s.bound.symbols.size)
    (fresh : memo.begun waiting id = false) (bodies : memo'.bodies = memo.bodies)
    (reported : memo'.diagnostics.toList = memo.diagnostics.toList ++ (s.warning? id).toList) :
    Told s (id :: waiting) memo' := by
  have same : ∀ k, memo'.begun (id :: waiting) k = true ↔
      memo.begun waiting k = true ∨ k = id := by
    intro k
    simp only [Memo.begun, Memo.body?, bodies, Bool.or_eq_true, List.contains_iff_mem,
      List.mem_cons]
    exact or_left_comm.trans or_comm
  have perm := filter_perm_cons List.nodup_range (List.mem_range.2 inside) fresh same
  have more := perm.filterMap s.warning?
  refine ⟨by rw [bodies, told.size], ?_⟩
  rw [reported]
  apply ((told.reports.append_right _).trans List.perm_append_comm).trans
  refine List.Perm.trans (.of_eq ?_) more.symm
  cases warned : s.warning? id <;> simp [warned]

theorem told_setBody (told : Told s (id :: waiting) memo) (inside : id < s.bound.symbols.size)
    (body : ObjectType) : Told s waiting (memo.setBody id body) := by
  have same : (memo.setBody id body).begun waiting = memo.begun (id :: waiting) := by
    funext k
    by_cases own : k = id
    · subst own
      simp [Memo.begun, body?_setBody (told.size ▸ inside)]
    · have other : (memo.setBody id body).body? k = memo.body? k := by
        rw [Memo.body?, Memo.setBody, Array.getElem?_setIfInBounds, if_neg (Ne.symm own)]
        rfl
      simp [Memo.begun, other, own]
  exact ⟨Array.size_setIfInBounds.trans told.size, same ▸ told.reports⟩

theorem told_start : Told s [] (.start s) := by
  have nothing : (Memo.start s).begun [] = fun _ => false := by
    funext k
    simp only [Memo.begun, Memo.body?, Memo.start, Array.getElem?_replicate]
    split <;> rfl
  refine ⟨Array.size_replicate, .of_eq ?_⟩
  rw [nothing, List.filter_false]
  rfl

end Told

section Steps

variable {s : Subject} {inv : Memo → Prop} {asked : Fact → Work Bool}

theorem yields_judge_any (h : ∀ fact, Yields inv (asked fact) fun _ => True)
    (premises : Option (List Fact)) : Yields inv (judge asked premises) fun _ => True := by
  cases premises with
  | none => exact yields_pure trivial
  | some ps =>
    rw [judge]
    induction ps with
    | nil => exact yields_pure trivial
    | cons p ps ih =>
      apply yields_bind (h p)
      intro answer _
      cases answer with
      | true => exact ih
      | false => exact yields_pure trivial

structure Tells (s : Subject) (fuel : Nat) : Prop where
  constant : ∀ path id, Yields (Told s path.symbols) (constantWithin s fuel path id) fun _ => True
  body : ∀ path id, Yields (Told s path.symbols) (bodyWithin s fuel path id) fun _ => True

variable {fuel : Nat}

theorem tells_ask (tells : Tells s fuel) (path : Path) (fact : Fact) : Yields (Told s path.symbols)
    (ask (constantWithin s fuel path) (bodyWithin s fuel path) fact) fun _ => True := by
  cases fact with
  | constant id => exact tells.constant path id
  | identity id => exact yields_pure trivial
  | readable target property =>
    apply yields_bind (tells.body path target)
    intro answer _
    cases answer with
    | some type => exact yields_pure trivial
    | none => exact yields_pure trivial

theorem tells_constant (tells : Tells s fuel) (path : Path) (id : NodeId) :
    Yields (Told s path.symbols) (constantWithin s (fuel + 1) path id) fun _ => True := by
  rw [constantWithin_succ, constantStep]
  apply yields_get
  intro memo _
  cases memo.constant? id with
  | some answer => exact yields_pure trivial
  | none =>
    dsimp only
    split
    · exact yields_pure trivial
    split
    · exact yields_pure trivial
    · rw [expressionIsConstant_eq]
      apply yields_bind (yields_judge_any (tells_ask tells ⟨id :: path.nodes, path.symbols⟩) _)
      intro answer _
      exact yields_modify (fun _ told => ⟨told.size, told.reports⟩) (yields_pure trivial)

theorem tells_resourceBody (tells : Tells s fuel) (path : Path) {id : SymbolId} {symbol : Symbol}
    {type : TypeReference} {existing collection : Bool}
    (found : s.bound.symbol? id = some symbol)
    (kind : symbol.kind = .resource type existing collection) {memo : Memo}
    (told : Told s path.symbols memo) (fresh : memo.begun path.symbols id = false) :
    Told s (id :: path.symbols) ((resourceBody s
      (constantWithin s fuel ⟨path.nodes, id :: path.symbols⟩)
      (bodyWithin s fuel ⟨path.nodes, id :: path.symbols⟩) symbol type existing).run memo).2 := by
  have inside : id < s.bound.symbols.size := (Array.getElem?_eq_some_iff.1 found).1
  have marked : Yields (Told s (id :: path.symbols)) (do
      if !existing then return s.declaredType type
      return markName (s.declaredType type) (← identityIsConstant s
        (constantWithin s fuel ⟨path.nodes, id :: path.symbols⟩)
        (bodyWithin s fuel ⟨path.nodes, id :: path.symbols⟩) symbol)) fun _ => True := by
    cases existing with
    | false => exact yields_pure trivial
    | true =>
      rw [identityIsConstant_eq _ _ found kind]
      exact yields_bind (yields_judge_any (tells_ask tells ⟨path.nodes, id :: path.symbols⟩) _)
        fun _ _ => yields_pure trivial
  have typed : symbol.type? = some type := by rw [Symbol.type?, kind]
  have warned : s.warning? id =
      if (s.catalog.lookup type).isNone then some (untyped s symbol type) else none := by
    rw [Subject.warning?, found]
    simp [typed]
  rw [resourceBody]
  by_cases unknown : (s.catalog.lookup type).isNone = true
  · simp only [unknown, if_true]
    have begun : Told s (id :: path.symbols) (memo.report (untyped s symbol type)) :=
      told_begin told inside fresh rfl (by simp [warned, unknown, Memo.report])
    exact (marked _ begun).2
  · simp only [unknown]
    have begun : Told s (id :: path.symbols) memo :=
      told_begin told inside fresh rfl (by simp [warned, unknown])
    exact (marked _ begun).2

theorem tells_body (tells : Tells s fuel) (path : Path) (id : SymbolId) :
    Yields (Told s path.symbols) (bodyWithin s (fuel + 1) path id) fun _ => True := by
  rw [bodyWithin_succ, bodyStep]
  intro memo told
  refine ⟨trivial, ?_⟩
  rw [StateT.run_bind, StateT.run_get, pure_bind]
  cases known : memo.body? id with
  | some type => exact told
  | none =>
    dsimp only
    split
    · exact told
    · next free =>
      have fresh : memo.begun path.symbols id = false := by simpa [Memo.begun, known] using free
      cases found : s.bound.symbol? id with
      | none => exact told
      | some symbol =>
        have inside : id < s.bound.symbols.size := (Array.getElem?_eq_some_iff.1 found).1
        dsimp only
        cases kind : symbol.kind with
        | resource type existing collection =>
          exact told_setBody (tells_resourceBody tells path found kind told fresh) inside _
        | module modulePath collection =>
          have silent : s.warning? id = none := by
            rw [Subject.warning?, found]
            simp [Symbol.type?, kind]
          exact told_setBody (told_begin told inside fresh rfl (by simp [silent])) inside _
        | _ => exact told

theorem tells (fuel : Nat) : Tells s fuel := by
  induction fuel with
  | zero => exact ⟨fun _ _ => yields_pure trivial, fun _ _ => yields_pure trivial⟩
  | succ fuel ih => exact ⟨tells_constant ih, tells_body ih⟩

theorem told_run : Told s [] (run s) := by
  have all : ∀ (ids : List SymbolId) (memo : Memo), Told s [] memo →
      Told s [] ((ids.forM fun id => discard (body s id)).run memo).2 := by
    intro ids
    induction ids with
    | nil => exact fun _ told => told
    | cons id ids ih =>
      intro memo told
      have next : Told s [] ((body s id).run memo).2 := ((tells _).body ⟨[], []⟩ id memo told).2
      exact ih _ next
  exact all _ _ told_start

theorem run_warnings (s : Subject) : (run s).diagnostics.toList.Perm
    ((List.range s.bound.symbols.size).filterMap s.warning?) := by
  refine told_run.reports.trans (.of_eq ?_)
  rw [List.filterMap_filter]
  apply List.filterMap_congr
  intro id _
  split
  · rfl
  · next missing =>
    cases found : s.bound.symbol? id with
    | none => simp [Subject.warning?, found]
    | some symbol =>
      cases kind : symbol.kind with
      | resource type existing collection =>
        obtain ⟨body, known, _⟩ := run_body found (by rw [Symbol.isResourceOrModule, kind])
        simp [Memo.begun, known] at missing
      | _ => simp [Subject.warning?, found, Symbol.type?, kind]

theorem breaks_run (s : Subject) {d : Diagnostic} (member : d ∈ (run s).diagnostics.toList) :
    d.Breaks .untypedResource := by
  obtain ⟨id, _, warned⟩ := List.mem_filterMap.1 ((run_warnings s).mem_iff.1 member)
  exact breaks_warning warned

end Steps

end Analysis

/-- The warning about a resource stands at its name: in the declaration, or among the
outputs of the module that returns it, as far as these have the name once. -/
inductive Model.Warns (m : Model) (id : SymbolId) (d : Diagnostic) : Prop where
  | declared {symbol : Symbol} {type : TypeReference} {name : Identifier} {text : String}
      {existing : Bool} {body : NodeId} {nested : List NodeId}
      (found : m.bound.symbol? id = some symbol) (typed : symbol.type? = some type)
      (mark : m.bound.declarationSymbol? symbol.declaration = some id)
      (here : m.tree.arena.data? symbol.declaration =
        some (.resource name text existing body nested))
      (named : name.name = symbol.name) (reads : d = unknownType m.tree.file name.span type)
  | returned {symbol : Symbol} {type : TypeReference} {module : SymbolId} {name : Identifier}
      {path text : String} {body : NodeId} {outputs : List OutputSignature} {o : OutputSignature}
      {span : Span} (found : m.bound.symbol? id = some symbol) (typed : symbol.type? = some type)
      (own : symbol.module? = some module)
      (mark : m.bound.declarationSymbol? symbol.declaration = some module)
      (here : m.tree.arena.data? symbol.declaration = some (.module name path body outputs))
      (listed : o ∈ outputs) (resource : o.resource = some text)
      (named : o.name.name = symbol.name) (reads : d = unknownType m.tree.file span type)
      (site : (outputs.filter fun o' => o'.name.name == symbol.name) = [o] → span = o.name.span)

section Models

variable {file : String} {program : List Declaration} {tree : Tree} {catalog : Catalog} {m : Model}

theorem typeSpan_declared {s : Analysis.Subject} {symbol : Symbol} {name : Identifier}
    {text : String} {existing : Bool} {body : NodeId} {nested : List NodeId}
    (here : s.tree.arena.data? symbol.declaration =
      some (.resource name text existing body nested)) :
    Analysis.typeSpan s symbol = name.span := by
  rw [Analysis.typeSpan, here]

theorem typeSpan_returned {s : Analysis.Subject} {symbol : Symbol} {name : Identifier}
    {path : String} {body : NodeId} {outputs : List OutputSignature} {o : OutputSignature}
    (here : s.tree.arena.data? symbol.declaration = some (.module name path body outputs))
    (once : (outputs.filter fun o' => o'.name.name == symbol.name) = [o]) :
    Analysis.typeSpan s symbol = o.name.span := by
  have first : (outputs.find? fun o' => o'.name.name == symbol.name) = some o := by
    rw [← List.head?_filter, once]
    rfl
  simp only [Analysis.typeSpan, here, first]

theorem Model.warns_of_warning (lowered : Tree.ofProgram file program = .ok m.tree)
    (bound : Bound.ofTree m.tree = .ok m.bound) {id : SymbolId} {d : Diagnostic}
    (warned : (Analysis.Subject.ofModel m catalog).warning? id = some d) : m.Warns id d := by
  obtain ⟨symbol, found, rest⟩ := Option.bind_eq_some_iff.1 warned
  obtain ⟨type, typed, rest⟩ := Option.bind_eq_some_iff.1 rest
  split at rest
  · cases rest
    cases Binder.sited_ofTree lowered bound found typed with
    | declared mark here named =>
      refine .declared found typed mark here named ?_
      rw [untyped_eq, typeSpan_declared here]
      rfl
    | returned own mark here listed resource named =>
      refine .returned found typed own mark here listed resource named (untyped_eq ..) ?_
      exact typeSpan_returned here
  · cases rest

theorem Model.warning?_isSome_iff {id : SymbolId} :
    ((Analysis.Subject.ofModel m catalog).warning? id).isSome = true ↔
      ∃ symbol type, m.bound.symbol? id = some symbol ∧ symbol.type? = some type ∧
        catalog.lookup type = none := by
  have bound : (Analysis.Subject.ofModel m catalog).bound = m.bound := rfl
  have types : (Analysis.Subject.ofModel m catalog).catalog = catalog := rfl
  rw [Analysis.Subject.warning?, bound, types]
  cases m.bound.symbol? id with
  | none => simp
  | some symbol =>
    cases typed : symbol.type? with
    | none => simp [typed]
    | some type =>
      cases known : catalog.lookup type <;> simp [typed, known]

theorem Model.filter_untyped (lowered : Tree.ofProgram file program = .ok tree)
    (built : Model.build tree catalog = .ok m) :
    (m.diagnostics.filter fun d => d.code == 81).Perm
      ((List.range m.bound.symbols.size).filterMap
        (Analysis.Subject.ofModel m catalog).warning?) := by
  obtain ⟨b, bound, rfl⟩ := Model.build_eq_ok_iff.1 built
  have none : b.diagnostics.toList.filter (fun d => d.code == 81) = [] := by
    refine List.filter_eq_nil_iff.2 fun d member => ?_
    rcases Binder.breaks_bound (Binder.accounts_ofTree lowered bound) member with twice | unknown
    · simp [twice.code, Rule.code]
    · simp [unknown.code, Rule.code]
  have only : (Analysis.run ⟨tree, b, catalog⟩).diagnostics.toList.filter
      (fun d => d.code == 81) = (Analysis.run ⟨tree, b, catalog⟩).diagnostics.toList := by
    refine List.filter_eq_self.2 fun d member => ?_
    simp [(Analysis.breaks_run _ member).code, Rule.code]
  refine ((List.mergeSort_perm _ _).filter _).trans ?_
  rw [List.filter_append, none, only]
  exact Analysis.run_warnings ⟨tree, b, catalog⟩

/-- Whatever refers to what, cycles included, each resource whose type the catalog does not
have is warned about once: the warnings are those of these resources, one for each, and
every one of them names the type and stands at the name of its resource. -/
theorem Model.untyped_warned (lowered : Tree.ofProgram file program = .ok tree)
    (catalog : Catalog) : ∃ m ids ds, Model.build tree catalog = .ok m ∧ ids.Nodup ∧
      (∀ id, id ∈ ids ↔ ∃ symbol type, m.bound.symbol? id = some symbol ∧
        symbol.type? = some type ∧ catalog.lookup type = none) ∧
      (m.diagnostics.filter fun d => d.code == 81).Perm ds ∧
      List.Forall₂ m.Warns ids ds := by
  obtain ⟨m, built⟩ := Model.build_total lowered catalog
  obtain ⟨rfl, bound, _⟩ := Analysis.build_ok built
  refine ⟨m, (List.range m.bound.symbols.size).filter fun id =>
      ((Analysis.Subject.ofModel m catalog).warning? id).isSome, _, built,
    List.nodup_range.filter _, fun id => ?_, Model.filter_untyped lowered built, ?_⟩
  · rw [List.mem_filter, Model.warning?_isSome_iff, List.mem_range]
    refine ⟨And.right, fun unknown => ⟨?_, unknown⟩⟩
    obtain ⟨symbol, _, found, _⟩ := unknown
    exact (Array.getElem?_eq_some_iff.1 found).1
  · induction List.range m.bound.symbols.size with
    | nil => exact .nil
    | cons id ids ih =>
      cases warned : (Analysis.Subject.ofModel m catalog).warning? id with
      | none => simpa [warned] using ih
      | some d => simpa [warned] using ⟨Model.warns_of_warning lowered bound warned, ih⟩

def Model.unknownTypes : List Declaration :=
  [Analysis.locatedAt "r" "s", Analysis.locatedAt "s" "r",
    .module "m" "m.json" (.object [] none) [⟨"x", some "T@1"⟩, ⟨"x", some "T@2"⟩] none]

theorem Model.untyped_warned_unknownTypes : ∃ tree m ids ds,
    Tree.ofProgram "main.json" Model.unknownTypes = .ok tree ∧
    Model.build tree .empty = .ok m ∧ ids.Nodup ∧ (∀ id ∈ [0, 1, 3, 4], id ∈ ids) ∧
    (m.diagnostics.filter fun d => d.code == 81).Perm ds ∧ List.Forall₂ m.Warns ids ds := by
  have facts : (Analysis.modelled? Model.unknownTypes).map (fun p => [0, 1, 3, 4].all fun id =>
      ((p.2.bound.symbol? id).bind Symbol.type?).isSome) = some true := by
    decide +kernel
  obtain ⟨⟨tree, m⟩, found, all⟩ := Option.map_eq_some_iff.1 facts
  obtain ⟨lowered, built⟩ := Analysis.modelled_ok found
  obtain ⟨m', ids, ds, built', nodup, unknown, perm, warns⟩ := Model.untyped_warned lowered .empty
  cases built.symm.trans built'
  refine ⟨tree, m, ids, ds, lowered, built, nodup, fun id listed => ?_, perm, warns⟩
  obtain ⟨type, typed⟩ := Option.isSome_iff_exists.1 (List.all_eq_true.1 all id listed)
  obtain ⟨symbol, there, typed⟩ := Option.bind_eq_some_iff.1 typed
  exact (unknown id).2 ⟨symbol, type, there, typed, rfl⟩

end Models

end DeployCheck
