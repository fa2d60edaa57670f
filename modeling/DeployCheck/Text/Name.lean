/-!
# Names

Identifiers, property names, function names and type references are compared
without regard to the case of ASCII letters. Two names are the same exactly
when their keys are equal.
-/

set_option autoImplicit false

namespace DeployCheck.Name

/-- The spelling under which a name is looked up. -/
def key (name : String) : String := String.ofList (name.toList.map Char.toLower)

def same (left right : String) : Bool := key left == key right

theorem toLower_toLower (c : Char) : c.toLower.toLower = c.toLower := by
  by_cases h : c.val ≥ 'A'.val ∧ c.val ≤ 'Z'.val
  · have hv : c.toLower.val = c.val + 32 := by
      have hc : c.toLower = ⟨c.val + ('a'.val - 'A'.val), _⟩ := dif_pos h
      rw [hc]; rfl
    have hn : ¬(c.toLower.val ≥ 'A'.val ∧ c.toLower.val ≤ 'Z'.val) := by
      simp only [hv, ge_iff_le, UInt32.le_iff_toNat_le, UInt32.toNat_add] at h ⊢
      simp at h ⊢
      omega
    exact dif_neg hn
  · have hc : c.toLower = c := dif_neg h
    rw [hc, hc]

theorem key_key (name : String) : key (key name) = key name := by
  simp only [key, String.toList_ofList, List.map_map, Function.comp_def, toLower_toLower]

theorem same_iff (left right : String) : same left right = true ↔ key left = key right := by
  simp [same]

theorem same_refl (name : String) : same name name = true := by
  simp [same]

theorem same_comm (left right : String) : same left right = same right left := by
  simp only [same, Bool.beq_comm]

theorem same_trans {a b c : String} (hab : same a b = true) (hbc : same b c = true) :
    same a c = true := by
  rw [same_iff] at *
  exact hab.trans hbc

end DeployCheck.Name
