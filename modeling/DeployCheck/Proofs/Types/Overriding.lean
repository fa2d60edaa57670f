import DeployCheck.CompilationUnit
import DeployCheck.Proofs.Binding.Qualifying
import Mathlib.Data.Finset.Card

/-!
# What a catalog finds

A catalog is made by calls that insert definitions. Whatever the calls are, the definition
that counts is the last one whose text is that of the type, ignoring case, whether the text
can be read as a reference or not, and the catalog has as many entries as there are
different texts.
-/

set_option autoImplicit false

namespace DeployCheck

namespace Roster

variable {α : Type} [Named α]

/-- The last of some entries that has a name. -/
def last? (entries : List α) (name : String) : Option α :=
  entries.reverse.find? fun e => Name.same (Named.name e) name

def keys (entries : List α) : Finset String :=
  (entries.map fun e => Name.key (Named.name e)).toFinset

theorem last?_append (entries more : List α) (name : String) :
    last? (entries ++ more) name = (last? more name).or (last? entries name) := by
  rw [last?, List.reverse_append, List.find?_append, last?, last?]

theorem find?_eq_last? (r : Roster α) (name : String) : r.find? name = last? r.entries name := by
  have distinct : r.entries.reverse.Pairwise fun a b =>
      Name.same (Named.name a) (Named.name b) = false := by
    rw [List.pairwise_reverse]
    exact r.distinct.imp fun {a b} other => by rwa [Name.same_comm]
  let backwards : Roster α := ⟨r.entries.reverse, distinct⟩
  ext e
  have last : backwards.find? name = some e ↔ _ := find?_eq_some_iff
  rw [List.mem_reverse] at last
  exact find?_eq_some_iff.trans last.symm

theorem find?_putAll (r : Roster α) (entries : List α) (name : String) :
    (r.putAll entries).find? name = last? (r.entries ++ entries) name := by
  induction entries generalizing r with
  | nil => rw [List.append_nil, ← find?_eq_last?, putAll, List.foldl_nil]
  | cons e rest ih =>
    have step : r.putAll (e :: rest) = (r.put e).putAll rest := rfl
    have first : last? [e] name = if Name.same (Named.name e) name then some e else none := by
      rw [last?, List.reverse_singleton, List.find?_singleton]
    rw [step, ih, last?_append, ← find?_eq_last?, find?_put, find?_eq_last?,
      List.append_cons, last?_append, last?_append, first]
    split <;> rfl

theorem keys_cons (e : α) (entries : List α) :
    keys (e :: entries) = insert (Name.key (Named.name e)) (keys entries) := by
  rw [keys, List.map_cons, List.toFinset_cons, keys]

theorem keys_append (entries more : List α) : keys (entries ++ more) = keys entries ∪ keys more := by
  rw [keys, List.map_append, List.toFinset_append, keys, keys]

theorem keys_putIn (entry : α) (entries : List α) :
    keys (putIn entry entries) = keys (entries ++ [entry]) := by
  induction entries with
  | nil => rfl
  | cons e rest ih =>
    rw [putIn]
    split
    · next same =>
      rw [Name.same_iff] at same
      rw [List.cons_append, keys_cons, keys_cons, keys_append, keys_cons, same]
      simp [keys]
    · rw [List.cons_append, keys_cons, keys_cons, ih]

theorem keys_putAll (r : Roster α) (entries : List α) :
    keys (r.putAll entries).entries = keys (r.entries ++ entries) := by
  induction entries generalizing r with
  | nil => rw [List.append_nil, putAll, List.foldl_nil]
  | cons e rest ih =>
    have step : r.putAll (e :: rest) = (r.put e).putAll rest := rfl
    rw [step, ih, keys_append, put, keys_putIn, List.append_cons r.entries e rest, keys_append _ rest]

theorem size_eq_card (r : Roster α) : r.size = (keys r.entries).card := by
  have nodup : (r.entries.map fun e => Name.key (Named.name e)).Nodup := by
    rw [List.Nodup, List.pairwise_map]
    exact r.distinct.imp fun {a b} other same => by
      rw [(Name.same_iff _ _).2 same] at other
      cases other
  rw [keys, List.toFinset_card_of_nodup nodup, List.length_map, size]

end Roster

namespace Catalog

open Roster

inductive Call where
  | insert (type : String) (body : ObjectType)
  | define (definitions : List TypeDefinition)
  | extend (other : Catalog)

namespace Call

def run (c : Catalog) : Call → Catalog
  | insert type body => c.insert type body
  | define definitions => c.define definitions
  | extend other => c.extend other

/-- The definitions that a call inserts: of another catalog those that it has by then. -/
def definitions : Call → List TypeDefinition
  | insert type body => [⟨type, body⟩]
  | define definitions => definitions
  | extend other => other.types.entries

theorem types_run (c : Catalog) (call : Call) :
    (call.run c).types = c.types.putAll call.definitions := by
  cases call <;> rfl

theorem types_runs (c : Catalog) (calls : List Call) :
    (calls.foldl run c).types = c.types.putAll (calls.flatMap definitions) := by
  induction calls generalizing c with
  | nil => rfl
  | cons call rest ih =>
    rw [List.foldl_cons, ih, types_run, List.flatMap_cons, putAll, putAll, putAll,
      List.foldl_append]

end Call

theorem mem_entries_iff (c : Catalog) (d : TypeDefinition) :
    d ∈ c.types.entries ↔ c.types.find? d.type = some d := by
  rw [find?_eq_some_iff]
  exact (and_iff_left (Name.same_refl d.type)).symm

theorem key_parse? (text : String) :
    ((TypeReference.parse? text).map TypeReference.key).getD (Name.key text) = Name.key text := by
  cases read : TypeReference.parse? text with
  | none => rfl
  | some r =>
    rw [Option.map_some, Option.getD_some, TypeReference.key, TypeReference.text_of_parse? read]

theorem types_catalog (u : CompilationUnit) (overrides : Option Catalog) :
    (u.catalog overrides).types =
      builtin.types.putAll (u.types ++ overrides.elim [] fun o => o.types.entries) := by
  cases overrides with
  | none => rw [Option.elim_none, List.append_nil]; rfl
  | some o =>
    rw [Option.elim_some, putAll, List.foldl_append]
    rfl

theorem lookup_catalog (u : CompilationUnit) (overrides : Option Catalog) (text : String) :
    (u.catalog overrides).lookup (.ofText text none) =
      ((overrides.bind fun o => last? o.types.entries text).or
        ((last? u.types text).or (last? builtin.types.entries text))).map TypeDefinition.body := by
  rw [lookup, TypeReference.text_ofText, types_catalog, find?_putAll, last?_append, last?_append,
    Option.or_assoc]
  cases overrides <;> rfl

/-- Whatever a catalog starts with and whatever is done to it, the last definition counts that
was inserted under the text of a type, ignoring case and whether the text can be read or
not: it is found under the reference that a declaration at the top has if it writes this text,
and the entries are the definitions that are the last ones of their texts, as many as there are
different texts. So for a unit the last overriding definition goes before the last one of
its own, and this one before the builtin one. -/
theorem lookup_last (start : Catalog) (calls : List Call) :
    let c := calls.foldl Call.run start
    let definitions := start.types.entries ++ calls.flatMap Call.definitions
    (∀ text, c.lookup (.ofText text none) = (last? definitions text).map TypeDefinition.body) ∧
    (∀ file program t b d text, Tree.ofProgram file program = .ok t → Bound.ofTree t = .ok b →
      d ∈ t.declarations → t.typeText? d = some text →
        ∃ k symbol r, b.declarationSymbol? d = some k ∧ b.symbol? k = some symbol ∧
          symbol.type? = some r ∧
          c.lookup r = (last? definitions text).map TypeDefinition.body) ∧
    (∀ d, d ∈ c.types.entries ↔ last? definitions d.type = some d) ∧
    c.size = (keys definitions).card ∧
    (∀ text, ((TypeReference.parse? text).map TypeReference.key).getD (Name.key text) =
      Name.key text) ∧
    ∀ u overrides text, (CompilationUnit.catalog u overrides).lookup (.ofText text none) =
      ((overrides.bind fun o => last? o.types.entries text).or
        ((last? u.types text).or (last? builtin.types.entries text))).map TypeDefinition.body := by
  intro c definitions
  have types : c.types = start.types.putAll (calls.flatMap Call.definitions) :=
    Call.types_runs start calls
  have found : ∀ text, c.lookup (.ofText text none) =
      (last? definitions text).map TypeDefinition.body := by
    intro text
    rw [lookup, TypeReference.text_ofText, types, find?_putAll]
  refine ⟨found, ?_, fun d => ?_, ?_, key_parse?, lookup_catalog⟩
  · intro file program t b d text lowered bound declared typed
    obtain ⟨ids, total, settled⟩ := Binder.settled_ofTree lowered bound
    obtain ⟨k, symbol, r, mark, here, own, completed⟩ :=
      Binder.nests_type settled (.top declared typed)
    refine ⟨k, symbol, r, mark, here, own, ?_⟩
    rw [TypeReference.completed_unique completed (TypeReference.completed_start (.inl rfl)), found]
  · rw [mem_entries_iff, types, find?_putAll]
  · rw [size, size_eq_card, types, keys_putAll]

def unreadable : List Call :=
  [.insert "a//B@" (.named "first"), .define [⟨"A//b@", .named "second"⟩, ⟨"K", .named "other"⟩],
    .extend (empty.insert "a//b@" (.named "last"))]

theorem lookup_last_unreadable : ∃ t b k symbol r,
    Tree.ofProgram "main.json" [.resource "r" "A//B@" true (.null none) [] none] = .ok t ∧
    Bound.ofTree t = .ok b ∧ t.declarations = [1] ∧ t.typeText? 1 = some "A//B@" ∧
    b.declarationSymbol? 1 = some k ∧ b.symbol? k = some symbol ∧ symbol.type? = some r ∧
    (unreadable.foldl Call.run builtin).lookup r = some (.named "last") := by
  have run : ((Tree.ofProgram "main.json"
      [.resource "r" "A//B@" true (.null none) [] none]).toOption.bind fun t =>
      (Bound.ofTree t).toOption.map fun _ => (t.declarations, t.typeText? 1)) =
      some ([1], some "A//B@") := by
    decide +kernel
  have last : (last? (builtin.types.entries ++ unreadable.flatMap Call.definitions) "A//B@").map
      TypeDefinition.body = some (.named "last") := by
    decide +kernel
  obtain ⟨t, lowered, run⟩ := Option.bind_eq_some_iff.1 run
  obtain ⟨b, bound, facts⟩ := Option.map_eq_some_iff.1 run
  obtain ⟨top, typed⟩ := Prod.mk.inj facts
  have lowered := ok_of_toOption lowered
  have bound := ok_of_toOption bound
  obtain ⟨k, symbol, r, mark, here, own, found⟩ := (lookup_last builtin unreadable).2.1 _ _ t b 1
    "A//B@" lowered bound (by simp [top]) typed
  exact ⟨t, b, k, symbol, r, lowered, bound, top, typed, mark, here, own, found.trans last⟩

end Catalog

end DeployCheck
