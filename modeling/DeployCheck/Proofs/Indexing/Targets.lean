import DeployCheck.Proofs.Indexing.Binding
import DeployCheck.Proofs.Insertion.Targets

/-!
# Targets of members selected by an index

An index of a string denotes what the property of that name does, unless the base names a
collection. Everything else denotes what it did, but for one thing: an output of a module is
only found behind a property `outputs`, so the access must not be the one that a reference to an
output goes through.
-/

set_option autoImplicit false

namespace DeployCheck

def Arena.MemberOf (a : Arena) (base q : Nat) : Prop :=
  (∃ name, a.data? q = some (.property base name)) ∨ ∃ index, a.data? q = some (.index base index)

theorem Arena.memberOf_child {a : Arena} {base q : Nat} (member : a.MemberOf base q) :
    a.IsChild q base := by
  rcases member with ⟨name, here⟩ | ⟨index, here⟩
  · exact isChild_of_data here List.mem_cons_self
  · exact isChild_of_data here List.mem_cons_self

namespace Bound

/-- Nothing that selects a member of `x` has a target. -/
def Unread (b : Bound) (a : Arena) (x : Nat) : Prop := ∀ q, a.MemberOf x q → b.target? a q = none

section Indexed

variable {a a' : Arena} {e : Nat} {name : String} (h : a.Indexed a' e name) {b b' : Bound}
  (follows : b.Follows a a' e b')

include h follows

theorem targetWithin_access (plain : b.elementTarget? a e = none) {steps : Nat}
    (below : ∀ y < e, b'.targetWithin a' steps (twin e y) = b.targetWithin a steps y) :
    b'.targetWithin a' (steps + 1) (e + 2) = b.targetWithin a (steps + 1) (e + 1) := by
  obtain ⟨i, property, same⟩ := h.access.property
  have kept : e ≠ e + 1 := Nat.ne_of_lt (Nat.lt_succ_self e)
  have output := outputTarget?_twin h.enlarged follows (b'.targetWithin a' steps) kept name
  have element := elementTarget?_twin h.enlarged follows (spares_indexed h b) e
  rw [twin_self] at output element
  rw [targetWithin, targetWithin, h.access.index, property]
  show (((a'.data? (e + 1)).bind NodeData.literal?).bind _).or (b'.elementTarget? a' e) =
    b.outputTarget? a (b.targetWithin a steps) e i.name
  rw [h.access.string, element, plain, Option.or_none, same]
  exact output.trans (outputTarget?_congr fun y child => below y (h.descends e y child))

theorem targetWithin_indexed (plain : b.elementTarget? a e = none) (steps : Nat)
    (le : steps ≤ targetLimit) {x : Nat}
    (unread : ∀ q ≤ x, a.MemberOf (e + 1) q → b.target? a q = none) :
    b'.targetWithin a' steps (twin e x) = b.targetWithin a steps x := by
  induction steps generalizing x with
  | zero => rfl
  | succ steps ih =>
    have below : ∀ y < x, b'.targetWithin a' steps (twin e y) = b.targetWithin a steps y :=
      fun y less => ih (Nat.le_of_succ_le le) fun q before => unread q (by omega)
    have output : ∀ base, base < x → base ≠ e + 1 → ∀ n,
        b'.outputTarget? a' (b'.targetWithin a' steps) (twin e base) n =
          b.outputTarget? a (b.targetWithin a steps) base n := by
      intro base less other n
      rw [outputTarget?_twin h.enlarged follows _ other]
      exact outputTarget?_congr fun y child =>
        below y (Nat.lt_trans (h.descends base y child) less)
    -- No output is read from an index.
    have lost : ∀ n, b'.outputTarget? a' (b'.targetWithin a' steps) (twin e (e + 1)) n = none := by
      intro n
      rw [twin_succ, outputTarget?, h.access.index]
      rfl
    by_cases access : x = e + 1
    · rw [access, twin_succ]
      exact targetWithin_access h follows plain fun y less => below y (by omega)
    cases here : a.data? x with
    | none => rw [targetWithin, targetWithin, here, h.enlarged.twin_missing here]; rfl
    | some data =>
      obtain ⟨data', there, _, paired⟩ := h.enlarged.twin_paired access here
      have less : ∀ c ∈ data.children, c < x := fun c child =>
        (h.enlarged.place_lt_twin access here child).1
      -- What reads a member of the access has no target, so nothing is lost.
      have missing : a.MemberOf (e + 1) x → b.targetWithin a (steps + 1) x = none := by
        intro member
        have none := unread x (Nat.le_refl x) member
        rw [Option.eq_none_iff_forall_ne_some] at none ⊢
        exact fun t found => none t (targetWithin_mono le found)
      cases paired with
      | paren moved =>
        subst moved
        rw [targetWithin, targetWithin, here, there]
        exact below _ (less _ List.mem_cons_self)
      | ident same | resourceAccess moved same =>
        rw [targetWithin, targetWithin, here, there]
        exact declared?_twin follows (spares_indexed h b) false x
      | @property n n' base _ moved same =>
        subst moved
        by_cases through : base = e + 1
        · rw [missing (.inl ⟨n, through ▸ here⟩), targetWithin, there, through]
          exact lost n'.name
        · rw [targetWithin, targetWithin, here, there]
          show _ = b.outputTarget? a _ base n.name
          rw [same]
          exact output base (less base List.mem_cons_self) through n'.name
      | @index base _ index _ moved moved' =>
        subst moved moved'
        have element := elementTarget?_twin h.enlarged follows (spares_indexed h b) base
        have literal := literal?_twin h.enlarged index
        by_cases through : base = e + 1
        · obtain ⟨i, property, _⟩ := h.access.property
          rw [missing (.inr ⟨index, through ▸ here⟩), Option.eq_none_iff_forall_ne_some]
          intro t found
          rw [targetWithin_index there, element, through, elementTarget?, property] at found
          rcases found with ⟨n, _, found⟩ | found
          · cases (lost n).symm.trans found
          · cases found
        · ext t
          rw [targetWithin_index here, targetWithin_index there, literal, element]
          simp only [output base (less base List.mem_cons_self) through]
      | _ =>
        rw [targetWithin, targetWithin, here, there]
        rfl

theorem target?_before (plain : b.elementTarget? a e = none) {x : Nat} (before : x ≤ e + 1) :
    b'.target? a' (twin e x) = b.target? a x :=
  targetWithin_indexed h follows plain targetLimit (Nat.le_refl _) fun q less member =>
    absurd (h.descends q _ (Arena.memberOf_child member)) (by omega)

theorem target?_indexed (plain : b.elementTarget? a e = none) (unread : b.Unread a (e + 1))
    (x : Nat) : b'.target? a' (twin e x) = b.target? a x :=
  targetWithin_indexed h follows plain targetLimit (Nat.le_refl _) fun q _ => unread q

end Indexed

theorem module_of_read {a a' : Arena} {e : Nat} {name : String} (h : a.Indexed a' e name)
    {b : Bound} (read : ¬b.Unread a (e + 1)) : ∃ id symbol, b.target? a e = some id ∧
      b.symbol? id = some symbol ∧ symbol.isModule = true ∧
      Name.same name ObjectType.outputsProperty = true := by
  obtain ⟨i, property, same⟩ := h.access.property
  simp only [Unread, not_forall] at read
  obtain ⟨q, member, found⟩ := read
  obtain ⟨t, found⟩ := Option.ne_none_iff_exists'.1 found
  rw [target?, targetLimit] at found
  have output : ∃ n, b.outputTarget? a (b.targetWithin a 63) (e + 1) n = some t := by
    rcases member with ⟨n, here⟩ | ⟨index, here⟩
    · rw [targetWithin, here] at found
      exact ⟨n.name, found⟩
    · rcases (targetWithin_index here).1 found with ⟨n, _, output⟩ | element
      · exact ⟨n, output⟩
      · rw [elementTarget?, property] at element
        cases element
  obtain ⟨n, output⟩ := output
  obtain ⟨base, _, id, symbol, here, outputs, target, known, module, _⟩ :=
    outputTarget?_eq_some.1 output
  cases property.symm.trans here
  exact ⟨id, symbol, targetWithin_succ target, known, module, same ▸ outputs⟩

end Bound

end DeployCheck
