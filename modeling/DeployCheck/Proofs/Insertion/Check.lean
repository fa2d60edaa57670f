import DeployCheck.Check
import DeployCheck.Proofs.Insertion.Binding

/-!
# Checking with a node more

If the expressions denote what they did and all bodies are the same, an access is against the
rules with a node more if it was without it.
-/

set_option autoImplicit false

namespace DeployCheck

def Access.moved (e : Nat) (a : Access) : Access := ⟨a.id, a.symbol.moved e, a.body⟩

def Diagnostic.text (d : Diagnostic) : Nat × String × Option AccessibleMembers :=
  (d.code, d.message, d.members)

theorem Access.isRuntimeConstrained_moved (e : Nat) (a : Access) :
    (a.moved e).isRuntimeConstrained = a.isRuntimeConstrained := by
  rw [isRuntimeConstrained, isRuntimeConstrained, moved, a.symbol.isExistingResource_mapped]

namespace Model

variable {m m' : Model} {e : Nat} {place : Nat → Nat} {kept : Nat → Prop}

/-- The second model says the same about every expression and what stands in its place. -/
structure Enlarged (m m' : Model) (e : Nat) (place : Nat → Nat) (kept : Nat → Prop) : Prop where
  arena : m.tree.arena.Enlarged m'.tree.arena e place kept
  symbols : ∀ id, m'.bound.symbol? id = (m.bound.symbol? id).map (Symbol.moved e)
  targets : ∀ x, m'.target? (place x) = m.target? x
  bodies : ∀ id, m'.body? id = m.body? id

namespace Enlarged

variable (h : m.Enlarged m' e place kept)

include h

theorem access? (x : Nat) : m'.access? (place x) = (m.access? x).map (Access.moved e) := by
  rw [Model.access?, Model.access?, h.targets]
  cases m.target? x with
  | none => rfl
  | some id =>
    simp only [Option.bind_eq_bind, Option.bind_some, h.symbols, h.bodies]
    cases m.bound.symbol? id with
    | none => rfl
    | some symbol => cases m.body? id <;> rfl

theorem constrained? {q q' : Access → Bool} (same : ∀ a : Access, q' (a.moved e) = q a) (x : Nat) :
    (m'.constrained? (place x)).filter q' =
      ((m.constrained? x).filter q).map (Access.moved e) := by
  rw [Model.constrained?, Model.constrained?, h.access?]
  cases m.access? x with
  | none => rfl
  | some a =>
    simp only [Option.map_some, Option.filter_some, a.isRuntimeConstrained_moved]
    cases a.isRuntimeConstrained with
    | false => rfl
    | true =>
      simp only [if_true, Option.filter_some, same]
      cases q a <;> rfl

theorem forbidsIndex_twin (x : Nat) (a : Access) :
    m'.forbidsIndex (a.moved e) (twin e x) = m.forbidsIndex a x := by
  rw [forbidsIndex, forbidsIndex]
  obtain ⟨here, there⟩ | ⟨_, _, _, here, there, _, paired⟩ | ⟨_, _, here, there, member, member'⟩ :=
    h.arena.twin_cases x
  · rw [here, there]
  · rw [here, there]
    cases paired with
    | string below => cases below <;> rfl
    | _ => rfl
  · rw [here, there]
    cases member <;> cases member' <;> rfl

theorem violation?_twin {x : Nat} (keep : kept x)
    (other : ∀ base, m.tree.arena.data? x ≠ some (.index base e)) :
    m'.violation? (twin e x) = (m.violation? x).map (Access.moved e) := by
  rw [violation?, violation?]
  cases here : m.tree.arena.data? x with
  | none =>
    rw [h.arena.twin_missing here]
    rfl
  | some data =>
    obtain ⟨data', there, _, paired⟩ := h.arena.twin_paired keep here
    rw [there]
    cases paired with
    | property moved same =>
      subst moved
      exact h.constrained? (fun a => by rw [same]; rfl) _
    | @index base _ index _ moved moved' =>
      subst moved moved'
      have plain : index ≠ e := fun same => other base (same ▸ here)
      rw [h.arena.others index plain]
      exact h.constrained? (h.forbidsIndex_twin index) base
    | instanceCall moved same _ =>
      subst moved
      exact h.constrained? (fun a => by rw [same]; rfl) _
    | _ => rfl

end Enlarged

theorem check_enlarged
    (twins : ∀ x, m'.violation? (twin e x) = (m.violation? x).map (Access.moved e))
    (new : m'.violation? (e + 1) = none)
    (walk : (m'.tree.arena.visit m'.tree.root).filter (· ≠ e + 1) =
      (m.tree.arena.visit m.tree.root).map (twin e)) :
    m'.check.map Diagnostic.text = m.check.map Diagnostic.text := by
  let said (m : Model) (x : Nat) := (m.violation? x).map fun a =>
    (a.diagnostic m.tree.file (m.tree.arena.span x)).text
  have silent : (m'.tree.arena.visit m'.tree.root).filterMap (said m') =
      ((m'.tree.arena.visit m'.tree.root).filter (· ≠ e + 1)).filterMap (said m') := by
    rw [List.filterMap_filter]
    refine List.filterMap_congr fun x _ => ?_
    by_cases same : x = e + 1
    · simp [same, said, new]
    · simp [same]
  have moved : said m' ∘ twin e = said m := by
    funext x
    show (m'.violation? (twin e x)).map _ = (m.violation? x).map _
    rw [twins]
    cases m.violation? x <;> rfl
  have texts : ∀ m : Model, m.check.map Diagnostic.text =
      (m.tree.arena.visit m.tree.root).filterMap (said m) := by
    intro m
    rw [check, List.map_filterMap]
    exact List.filterMap_congr fun x _ => by rw [Option.map_map]; rfl
  rw [texts, texts, silent, walk, List.filterMap_map, moved]

end Model

end DeployCheck
