import DeployCheck.Proofs.Types.Overriding
import DeployCheck.Types.ObjectType

/-!
# The members of an object type

A document lists the members of a type, and a name may come up several times in it. The type
has one member for each name, ignoring case: they stand in the order in which the names come
up first, and each is the one that comes up last. A type is also what its own document says,
whatever has been done to it.
-/

set_option autoImplicit false

namespace DeployCheck

namespace Roster

variable {α : Type} [Named α]

def keyList (entries : List α) : List String := entries.map fun e => Name.key (Named.name e)

/-- The different names of some entries, in the order in which they come up first. -/
def names (entries : List α) : List String := (keyList entries).eraseDups

theorem keyList_nodup (r : Roster α) : (keyList r.entries).Nodup := by
  rw [keyList, List.Nodup, List.pairwise_map]
  exact r.distinct.imp fun {a b} other same => by
    rw [(Name.same_iff _ _).2 same] at other
    cases other

theorem keyList_putIn (entry : α) (entries : List α) :
    keyList (putIn entry entries) = if Name.key (Named.name entry) ∈ keyList entries
      then keyList entries else keyList entries ++ [Name.key (Named.name entry)] := by
  induction entries with
  | nil => rfl
  | cons e rest ih =>
    have cons : ∀ es : List α, keyList (e :: es) = Name.key (Named.name e) :: keyList es := fun _ => rfl
    rw [putIn]
    by_cases h : Name.same (Named.name e) (Named.name entry) = true
    · have key := (Name.same_iff _ _).1 h
      rw [if_pos h, cons, key, if_pos List.mem_cons_self]
      rfl
    · have key : Name.key (Named.name entry) ≠ Name.key (Named.name e) :=
        fun same => h ((Name.same_iff _ _).2 same.symm)
      rw [if_neg h, cons, cons, ih]
      by_cases known : Name.key (Named.name entry) ∈ keyList rest <;> simp [known, key]

theorem keyList_putAll (r : Roster α) (entries : List α) :
    keyList (r.putAll entries).entries =
      keyList r.entries ++ ((keyList entries).removeAll (keyList r.entries)).eraseDups := by
  induction entries generalizing r with
  | nil => exact (List.append_nil _).symm
  | cons e rest ih =>
    have cons : keyList (e :: rest) = Name.key (Named.name e) :: keyList rest := rfl
    have step : r.putAll (e :: rest) = (r.put e).putAll rest := rfl
    have put : keyList (r.put e).entries = _ := keyList_putIn e r.entries
    rw [step, ih, put, cons]
    by_cases known : Name.key (Named.name e) ∈ keyList r.entries
    · rw [if_pos known]
      simp [List.removeAll, known]
    · rw [if_neg known, List.append_assoc]
      simp [List.removeAll, known, List.eraseDups_cons, List.filter_filter, beq_eq_decide,
        Bool.and_comm]

theorem keyList_ofList (entries : List α) : keyList (ofList entries).entries = names entries := by
  have none : keyList (empty : Roster α).entries = [] := rfl
  rw [ofList, keyList_putAll, none, List.nil_append, names]
  simp [List.removeAll]

theorem entries_eq_find (r : Roster α) : r.entries.map some = (keyList r.entries).map r.find? := by
  rw [keyList, List.map_map]
  refine List.map_congr_left fun e inside => ?_
  have same : Name.same (Named.name e) (Name.key (Named.name e)) = true := by
    rw [Name.same_iff, Name.key_key]
  exact (find?_mem inside same).symm

theorem entries_ofList (entries : List α) :
    (ofList entries).entries.map some = (names entries).map (last? entries) := by
  have found : (ofList entries).find? = last? entries :=
    funext fun name => find?_putAll empty entries name
  rw [entries_eq_find, keyList_ofList, found]

theorem eraseDups_of_nodup {keys : List String} (distinct : keys.Nodup) : keys.eraseDups = keys := by
  induction keys with
  | nil => rfl
  | cons k rest ih =>
    obtain ⟨fresh, distinct⟩ := List.nodup_cons.1 distinct
    have others : rest.filter (fun b => !b == k) = rest := by
      rw [List.filter_eq_self]
      intro b inside
      have other : b ≠ k := fun same => fresh (same ▸ inside)
      simp [other]
    rw [List.eraseDups_cons, others, ih distinct]

theorem ofList_entries (r : Roster α) : ofList r.entries = r := by
  have found : last? r.entries = r.find? := funext fun name => (find?_eq_last? r name).symm
  have same := entries_ofList r.entries
  rw [names, eraseDups_of_nodup (keyList_nodup r), found, ← entries_eq_find] at same
  exact ext (List.map_injective_iff.2 (Option.some_injective α) same)

theorem putAll_ofList (entries more : List α) :
    (ofList entries).putAll more = ofList (entries ++ more) := by
  rw [ofList, ofList, putAll, putAll, putAll, List.foldl_append]

end Roster

namespace ObjectType

open Roster

inductive Edit where
  | insertProperty (p : Property)
  | withProperty (name : String) (kind : TypeKind) (flags : PropertyFlags)
  | withFunction (name : String) (flags : FunctionFlags)

namespace Edit

def run (t : ObjectType) : Edit → ObjectType
  | insertProperty p => t.insertProperty p
  | withProperty name kind flags => t.withProperty name kind flags
  | withFunction name flags => t.withFunction name flags

def properties : Edit → List Property
  | insertProperty p => [p]
  | withProperty name kind flags => [⟨name, kind, flags⟩]
  | withFunction .. => []

def functions : Edit → List FunctionType
  | withFunction name flags => [⟨name, flags⟩]
  | _ => []

end Edit

/-- A document with the members that edits bring written behind its own. -/
def Document.edited (d : Document) (edits : List Edit) : Document :=
  ⟨d.name, d.properties ++ edits.flatMap Edit.properties, d.functions ++ edits.flatMap Edit.functions⟩

theorem run_ofDocument (d : Document) (e : Edit) : e.run (ofDocument d) = ofDocument (d.edited [e]) := by
  have properties := putAll_ofList d.properties e.properties
  have functions := putAll_ofList d.functions e.functions
  rw [ofDocument, ofDocument, Document.edited, List.flatMap_singleton, List.flatMap_singleton,
    ← properties, ← functions]
  cases e <;> rfl

theorem runs_ofDocument (d : Document) (edits : List Edit) :
    edits.foldl Edit.run (ofDocument d) = ofDocument (d.edited edits) := by
  induction edits generalizing d with
  | nil => simp [Document.edited]
  | cons e rest ih =>
    rw [List.foldl_cons, run_ofDocument, ih]
    simp [Document.edited]

theorem ofDocument_document (t : ObjectType) : ofDocument t.document = t := by
  rw [ofDocument, document, ofList_entries, ofList_entries]

/-- The type of a document has its name and, for each name of a property, one property: the
properties stand in the order in which their names come up first, and each is the last one of
its name, and so with functions. Looking a name up finds the member with this name, ignoring
case, and nothing if there is none. An edit does what writing its member behind those of the
document does, and every type, whatever it was made from and by which edits, is the type of
its own document. -/
theorem ofDocument_exact :
    (∀ d : Document, (ofDocument d).name = d.name ∧
      (ofDocument d).properties.entries.map some = (names d.properties).map (last? d.properties) ∧
      (ofDocument d).functions.entries.map some = (names d.functions).map (last? d.functions)) ∧
    (∀ (t : ObjectType) (n : String),
      (keyList t.properties.entries).Nodup ∧ (keyList t.functions.entries).Nodup ∧
      (∀ p, t.property? n = some p ↔ p ∈ t.properties.entries ∧ Name.same p.name n = true) ∧
      ∀ f, t.function? n = some f ↔ f ∈ t.functions.entries ∧ Name.same f.name n = true) ∧
    (∀ (d : Document) (edits : List Edit),
      edits.foldl Edit.run (ofDocument d) = ofDocument (d.edited edits)) ∧
    (∀ name, named name = ofDocument ⟨name, [], []⟩) ∧
    ∀ t : ObjectType, ofDocument t.document = t := by
  refine ⟨fun d => ⟨rfl, entries_ofList _, entries_ofList _⟩, fun t n => ?_, runs_ofDocument,
    fun _ => rfl, ofDocument_document⟩
  exact ⟨keyList_nodup _, keyList_nodup _, fun p => find?_eq_some_iff, fun f => find?_eq_some_iff⟩

example : (ofDocument ⟨"t", [⟨"a", .int, .none⟩, ⟨"b", .bool, .none⟩, ⟨"A", .string, .none⟩,
      ⟨"c", .null, .none⟩, ⟨"a", .any, .required⟩], []⟩).document.properties =
    [⟨"a", .any, .required⟩, ⟨"b", .bool, .none⟩, ⟨"c", .null, .none⟩] := by
  decide +kernel

end ObjectType

end DeployCheck
