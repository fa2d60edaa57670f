import DeployCheck.Proofs.Binding.Members
import DeployCheck.Proofs.Types.RoundTrip

/-!
# The types of nested resources

A resource that is nested in another one may name only the last segment of its type. It is
completed one level at a time, from the reference that was worked out for the resource
around it. In the end the segments are those of all texts from the innermost one that is not
a single segment on, and the version is the innermost one that is written.
-/

set_option autoImplicit false

namespace DeployCheck

namespace TypeReference

variable {text : String} {types : List String} {outer : TypeReference}

/-- The text can be read and names a single segment, with a version or without. -/
def IsRelativeText (text : String) : Prop := ∃ r, parse? text = some r ∧ r.segments.length = 1

/-- What a chain of types comes to, the innermost first. It starts at the innermost text that
is no single segment, or else at the outermost one. The segments stand in the order from
there to the inside, and the version is the innermost one. A text that cannot be read is one
segment without a version. -/
def Completed (types : List String) (r : TypeReference) : Prop :=
  ∃ inner start outer, types = inner ++ start :: outer ∧
    (∀ text ∈ inner, IsRelativeText text) ∧ (outer = [] ∨ ¬IsRelativeText start) ∧
    r.segments = (inner ++ [start]).reverse.flatMap (fun text => (ofText text none).segments) ∧
    r.version = (inner ++ [start]).findSome? fun text => (ofText text none).version

theorem ofText_relative (relative : IsRelativeText text) (outer : TypeReference) :
    ofText text (some outer) = (ofText text none).qualify outer := by
  obtain ⟨r, read, one⟩ := relative
  simp [ofText, read, isRelative, one]

theorem ofText_absolute (absolute : ¬IsRelativeText text) (outer : TypeReference) :
    ofText text (some outer) = ofText text none := by
  cases read : parse? text with
  | none => simp [ofText, read]
  | some r =>
    have other : r.segments.length ≠ 1 := fun one => absolute ⟨r, read, one⟩
    simp [ofText, read, isRelative, other]

theorem completed_start (start : types = [] ∨ ¬IsRelativeText text) :
    Completed (text :: types) (ofText text none) := by
  refine ⟨[], text, types, rfl, List.forall_mem_nil _, start, by simp, ?_⟩
  cases written : (ofText text none).version <;> simp [written]

theorem completed_qualify (relative : IsRelativeText text) (completed : Completed types outer) :
    Completed (text :: types) ((ofText text none).qualify outer) := by
  obtain ⟨inner, start, rest, rfl, relatives, starts, segments, version⟩ := completed
  refine ⟨text :: inner, start, rest, rfl, List.forall_mem_cons.2 ⟨relative, relatives⟩, starts,
    ?_, ?_⟩
  · simp [qualify, segments]
  · rw [qualify, version, List.cons_append, List.findSome?_cons]
    cases (ofText text none).version <;> rfl

theorem completed_cons (text : String) (completed : Completed types outer) :
    Completed (text :: types) (ofText text (some outer)) := by
  by_cases relative : IsRelativeText text
  · rw [ofText_relative relative]
    exact completed_qualify relative completed
  · rw [ofText_absolute relative]
    exact completed_start (.inr relative)

theorem completed_cases {r : TypeReference} (completed : Completed (text :: types) r) :
    (types = [] ∨ ¬IsRelativeText text) ∧ r = ofText text none ∨
      types ≠ [] ∧ IsRelativeText text ∧
        ∃ outer, Completed types outer ∧ r = (ofText text none).qualify outer := by
  obtain ⟨inner, start, rest, split, relatives, starts, segments, version⟩ := completed
  obtain ⟨own, wrote⟩ := r
  dsimp only at segments version
  cases inner with
  | nil =>
    cases split
    refine .inl ⟨starts, ?_⟩
    rw [segments, version]
    cases written : (ofText text none).version <;> simp [← written]
  | cons first inner =>
    cases split
    obtain ⟨relative, relatives⟩ := List.forall_mem_cons.1 relatives
    refine .inr ⟨by simp, relative, ⟨_, _⟩, ⟨inner, start, rest, rfl, relatives, starts, rfl, rfl⟩,
      ?_⟩
    rw [qualify, segments, version, List.cons_append, List.findSome?_cons, List.reverse_cons,
      List.flatMap_append, List.flatMap_singleton]
    cases (ofText text none).version <;> rfl

theorem completed_unique {r r' : TypeReference} (completed : Completed types r)
    (completed' : Completed types r') : r = r' := by
  induction types generalizing r r' with
  | nil =>
    obtain ⟨inner, start, outer, split, _⟩ := completed
    simp at split
  | cons text types ih =>
    rcases completed_cases completed with ⟨starts, rfl⟩ | ⟨some, relative, outer, rest, rfl⟩
    · rcases completed_cases completed' with ⟨_, rfl⟩ | ⟨some, relative, _⟩
      · rfl
      · exact absurd relative (starts.resolve_left some)
    · rcases completed_cases completed' with ⟨starts, _⟩ | ⟨_, _, outer', rest', rfl⟩
      · exact absurd relative (starts.resolve_left some)
      · rw [ih rest rest']

end TypeReference

namespace Tree

def typeText? (t : Tree) (d : NodeId) : Option String :=
  match t.arena.data? d with
  | some (.resource _ type _ _ _) => some type
  | _ => none

/-- The texts of the types of a resource and of the resources around it, the innermost
first. -/
inductive Nests (t : Tree) : List String → NodeId → Prop where
  | top {type : String} {d : NodeId} (declared : d ∈ t.declarations)
      (typed : t.typeText? d = some type) : Nests t [type] d
  | inside {types : List String} {type : String} {d c : NodeId} (around : Nests t types d)
      (nested : c ∈ (Scope.resource d).declarations t) (typed : t.typeText? c = some type) :
      Nests t (type :: types) c

variable {t : Tree} {d : Nat} {type : String}

theorem typeText?_eq_some_iff : t.typeText? d = some type ↔ ∃ name existing body nested,
    t.arena.data? d = some (.resource name type existing body nested) := by
  rw [typeText?]
  constructor
  · intro typed
    split at typed
    · next here =>
      cases typed
      exact ⟨_, _, _, _, here⟩
    · cases typed
  · rintro ⟨name, existing, body, nested, here⟩
    rw [here]

theorem mem_nested {c body : NodeId} {name : Identifier} {existing : Bool} {nested : List NodeId}
    (here : t.arena.data? d = some (.resource name type existing body nested)) :
    c ∈ (Scope.resource d).declarations t ↔ c ∈ nested := by
  rw [Scope.declarations, here]

theorem nests_exists {file : String} {program : List Declaration}
    (lowered : Tree.ofProgram file program = .ok t) (typed : t.typeText? d = some type) :
    ∃ types, t.Nests types d := by
  obtain ⟨ids, root, laid, size⟩ := Tree.ofProgram_lays lowered
  have top : t.declarations = ids := by rw [Tree.declarations, root]
  have sorts := Tree.ofProgram_sorts lowered
  rw [top] at sorts
  -- Declarations stand at the top or directly in a resource, so the chain grows on the way down.
  have chained := Arena.lays_closed (p := fun n => t.arena.IsExpression n ∨
      t.arena.IsDeclaration n ∧ ∀ type, t.typeText? n = some type → ∃ types, t.Nests types n) laid
    (by
      rintro n data (expression | ⟨declaration, chained⟩) here c child
      · cases expression with
        | intro here' _ inner =>
          cases here.symm.trans here'
          exact .inl (inner c child)
      · cases declaration with
        | simple here' _ inner =>
          cases here.symm.trans here'
          exact .inl (inner c child)
        | resource here' inner under =>
          cases here.symm.trans here'
          rcases List.mem_cons.1 child with rfl | child
          · exact .inl inner
          · obtain ⟨types, around⟩ := chained _ (typeText?_eq_some_iff.2 ⟨_, _, _, _, here⟩)
            exact .inr ⟨under c child, fun _ typed => ⟨_, .inside around ((mem_nested here).2 child)
              typed⟩⟩)
    (fun id member => .inr ⟨sorts id member, fun _ typed => ⟨_, .top (top ▸ member) typed⟩⟩)
  obtain ⟨name, existing, body, nested, here⟩ := typeText?_eq_some_iff.1 typed
  have inside := Arena.data?_lt here
  have other : d ≠ t.root := by
    rintro rfl
    cases here.symm.trans root
  rcases chained d (Nat.zero_le d) (by omega) with expression | ⟨_, chained⟩
  · cases expression with
    | intro here' sort _ =>
      cases here.symm.trans here'
      cases sort
  · exact chained type typed

end Tree

namespace Binder

open TypeReference

variable {t : Tree} {b : Bound} {ids : List NodeId} {total : Nat}

theorem nests_declares (settled : Settled t b ids total) {types : List String} {d : NodeId}
    (nests : t.Nests types d) : ∃ around lo hi type, Declares t.arena b around lo [d] hi ∧
      t.typeText? d = some type ∧ Completed types (.ofText type (around.map Prod.snd)) := by
  induction nests with
  | @top type d declared typed =>
    rw [settled_declarations settled] at declared
    obtain ⟨lo, hi, declares, _⟩ := declares_each settled.resolves.declares d declared
    exact ⟨none, lo, hi, type, declares, typed, completed_start (.inl rfl)⟩
  | @inside types type d c _ nested typed ih =>
    obtain ⟨around, lo, hi, outer, declares, typed', completed⟩ := ih
    obtain ⟨name, existing, body, inner, here⟩ := Tree.typeText?_eq_some_iff.1 typed'
    cases declares with
    | plain here' sort _ _ =>
      cases here.symm.trans here'
      cases sort
    | module here' _ _ _ _ => cases here.symm.trans here'
    | resource here' _ _ under _ =>
      cases here.symm.trans here'
      obtain ⟨lo', hi', declares', _⟩ := declares_each under c ((Tree.mem_nested here).1 nested)
      exact ⟨_, lo', hi', type, declares', typed, completed_cons type completed⟩

theorem nests_type (settled : Settled t b ids total) {types : List String} {d : NodeId}
    (nests : t.Nests types d) : ∃ k symbol r, b.declarationSymbol? d = some k ∧
      b.symbol? k = some symbol ∧ symbol.type? = some r ∧ Completed types r := by
  obtain ⟨around, lo, hi, type, declares, typed, completed⟩ := nests_declares settled nests
  obtain ⟨name, existing, body, inner, here⟩ := Tree.typeText?_eq_some_iff.1 typed
  cases declares with
  | plain here' sort _ _ =>
    cases here.symm.trans here'
    cases sort
  | module here' _ _ _ _ => cases here.symm.trans here'
  | resource here' _ marked _ _ =>
    cases here.symm.trans here'
    exact ⟨lo, _, _, marked.mark, marked.found, rfl, completed⟩

end Binder

namespace Bound

/-- Every resource declaration, at the top or nested at any depth, stands in a chain, and its
symbol has the one type that the texts of the chain come to. -/
theorem ofTree_completed {file : String} {program : List Declaration} {t : Tree}
    (lowered : Tree.ofProgram file program = .ok t) : ∃ b, ofTree t = .ok b ∧
      ∀ d type, t.typeText? d = some type → (∃ types, t.Nests types d) ∧
        ∀ types, t.Nests types d → ∃ k symbol, b.declarationSymbol? d = some k ∧
          b.symbol? k = some symbol ∧
          ∀ r, symbol.type? = some r ↔ TypeReference.Completed types r := by
  obtain ⟨b, bound⟩ := Binder.ofTree_total lowered
  obtain ⟨ids, total, settled⟩ := Binder.settled_ofTree lowered bound
  refine ⟨b, bound, fun d type typed => ⟨Tree.nests_exists lowered typed, fun types nests => ?_⟩⟩
  obtain ⟨k, symbol, r, mark, found, own, completed⟩ := Binder.nests_type settled nests
  refine ⟨k, symbol, mark, found, fun r' => ⟨fun own' => ?_, fun completed' => ?_⟩⟩
  · cases own.symm.trans own'
    exact completed
  · rw [own, TypeReference.completed_unique completed completed']

def nestedTypes : List Declaration :=
  [.resource "r" "A/b@1" false (.null none)
    [.resource "c" "x//y@3" false (.null none)
      [.resource "d" "d@2" true (.null none)
        [.resource "e" "e" false (.null none) [] none] none] none] none]

theorem ofTree_completed_nestedTypes : ∃ t b k symbol,
    Tree.ofProgram "main.json" nestedTypes = .ok t ∧ ofTree t = .ok b ∧
    t.Nests ["e", "d@2", "x//y@3", "A/b@1"] 4 ∧ b.declarationSymbol? 4 = some k ∧
    b.symbol? k = some symbol ∧ symbol.type? = some ⟨["x//y@3", "d", "e"], some "2"⟩ ∧
    TypeReference.Completed ["e", "d@2", "x//y@3", "A/b@1"]
      ⟨["x//y@3", "d", "e"], some "2"⟩ := by
  have run : ((Tree.ofProgram "main.json" nestedTypes).toOption.bind fun t =>
      (ofTree t).toOption.map fun b =>
        ((t.declarations, [7, 6, 5].map fun d => (Scope.resource d).declarations t),
          [7, 6, 5, 4].map t.typeText?,
          ((b.declarationSymbol? 4).bind b.symbol?).bind Symbol.type?)) =
      some (([7], [[6], [5], [4]]), [some "A/b@1", some "x//y@3", some "d@2", some "e"],
        some ⟨["x//y@3", "d", "e"], some "2"⟩) := by
    decide +kernel
  obtain ⟨t, lowered, run⟩ := Option.bind_eq_some_iff.1 run
  obtain ⟨b, bound, facts⟩ := Option.map_eq_some_iff.1 run
  simp only [List.map_cons, List.map_nil, Prod.mk.injEq, List.cons.injEq, and_true] at facts
  obtain ⟨⟨top, inR, inC, inD⟩, ⟨typeR, typeC, typeD, typeE⟩, type⟩ := facts
  have lowered := ok_of_toOption lowered
  have nests : t.Nests ["e", "d@2", "x//y@3", "A/b@1"] 4 := by
    have r : t.Nests ["A/b@1"] 7 := .top (by simp [top]) typeR
    have c : t.Nests ["x//y@3", "A/b@1"] 6 := .inside r (by simp [inR]) typeC
    have d : t.Nests ["d@2", "x//y@3", "A/b@1"] 5 := .inside c (by simp [inC]) typeD
    exact .inside d (by simp [inD]) typeE
  obtain ⟨b', bound', all⟩ := ofTree_completed lowered
  cases (ok_of_toOption bound).symm.trans bound'
  obtain ⟨k, symbol, mark, found, own⟩ := (all 4 "e" typeE).2 _ nests
  rw [mark, Option.bind_some, found, Option.bind_some] at type
  exact ⟨t, b, k, symbol, lowered, bound', nests, mark, found, type, (own _).1 type⟩

end Bound

end DeployCheck
