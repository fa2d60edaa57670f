import DeployCheck.Text.Name

/-!
# Rosters

A roster lists entries that have names, in the order in which the names were
first seen. Names are compared without regard to case, and no two entries of a
roster have the same name: an entry whose name is already there takes the place
of the old one.
-/

set_option autoImplicit false

namespace DeployCheck

class Named (α : Type) where
  name : α → String

structure Roster (α : Type) [Named α] where
  entries : List α
  distinct : entries.Pairwise fun a b => Name.same (Named.name a) (Named.name b) = false

namespace Roster

variable {α : Type} [Named α]

instance [DecidableEq α] : DecidableEq (Roster α) := fun r s =>
  decidable_of_iff (r.entries = s.entries) <| by
    cases r
    cases s
    simp

theorem ext {r s : Roster α} (h : r.entries = s.entries) : r = s := by
  cases r
  cases s
  simp_all

def empty : Roster α := ⟨[], .nil⟩

instance : Inhabited (Roster α) := ⟨empty⟩

/-- Put an entry into a list: in the place of the entry of the same name, or at
the end. -/
def putIn (entry : α) : List α → List α
  | [] => [entry]
  | e :: rest =>
    if Name.same (Named.name e) (Named.name entry) then entry :: rest else e :: putIn entry rest

theorem mem_putIn {entry e : α} {entries : List α} (h : e ∈ putIn entry entries) :
    e = entry ∨ e ∈ entries := by
  induction entries with
  | nil => simpa [putIn] using h
  | cons a rest ih =>
    rw [putIn] at h
    split at h
    · rcases List.mem_cons.1 h with h | h
      · exact .inl h
      · exact .inr (List.mem_cons_of_mem _ h)
    · rcases List.mem_cons.1 h with rfl | h
      · exact .inr (List.mem_cons_self ..)
      · exact (ih h).imp_right (List.mem_cons_of_mem _)

theorem distinct_putIn (entry : α) {entries : List α}
    (h : entries.Pairwise fun a b => Name.same (Named.name a) (Named.name b) = false) :
    (putIn entry entries).Pairwise fun a b => Name.same (Named.name a) (Named.name b) = false := by
  induction h with
  | nil => simp [putIn]
  | @cons a rest hd tail ih =>
    rw [putIn]
    split
    · next hs =>
      refine .cons (fun b hb => ?_) tail
      rw [← Bool.not_eq_true]
      intro hc
      have := Name.same_trans hs hc
      simp [hd b hb] at this
    · next hs =>
      refine .cons (fun b hb => ?_) ih
      rcases mem_putIn hb with rfl | hb
      · simpa using hs
      · exact hd b hb

def put (r : Roster α) (entry : α) : Roster α :=
  ⟨putIn entry r.entries, distinct_putIn entry r.distinct⟩

def putAll (r : Roster α) (entries : List α) : Roster α := entries.foldl put r

def ofList (entries : List α) : Roster α := empty.putAll entries

def find? (r : Roster α) (name : String) : Option α :=
  r.entries.find? fun e => Name.same (Named.name e) name

def size (r : Roster α) : Nat := r.entries.length

def isEmpty (r : Roster α) : Bool := r.entries.isEmpty

theorem find?_putIn (entry : α) (entries : List α) (name : String) :
    (putIn entry entries).find? (fun e => Name.same (Named.name e) name) =
      if Name.same (Named.name entry) name then some entry
      else entries.find? fun e => Name.same (Named.name e) name := by
  induction entries with
  | nil =>
    simp only [putIn, List.find?_cons, List.find?_nil]
    split <;> simp_all
  | cons e rest ih =>
    rw [putIn]
    by_cases hs : Name.same (Named.name e) (Named.name entry)
    · have : Name.same (Named.name e) name = Name.same (Named.name entry) name := by
        simp only [Name.same, beq_iff_eq] at hs
        simp [Name.same, hs]
      rw [if_pos hs]
      simp only [List.find?_cons, this]
      split <;> simp_all
    · rw [if_neg hs]
      simp only [List.find?_cons]
      split
      · next he =>
        split
        · next hn =>
          rw [Name.same_comm] at hn
          exact absurd (Name.same_trans he hn) hs
        · rfl
      · exact ih

theorem find?_put (r : Roster α) (entry : α) (name : String) :
    (r.put entry).find? name =
      if Name.same (Named.name entry) name then some entry else r.find? name :=
  find?_putIn entry r.entries name

theorem find?_mem {r : Roster α} {entry : α} {name : String} (h : entry ∈ r.entries)
    (hs : Name.same (Named.name entry) name = true) : r.find? name = some entry := by
  have alone : ∀ entries : List α,
      entries.Pairwise (fun a b => Name.same (Named.name a) (Named.name b) = false) →
      entry ∈ entries → entries.find? (fun e => Name.same (Named.name e) name) = some entry := by
    intro entries hd hm
    induction hd with
    | nil => cases hm
    | @cons e rest he _ ih =>
      rcases List.mem_cons.1 hm with rfl | hm
      · exact List.find?_cons_of_pos hs
      · have other : ¬Name.same (Named.name e) name = true := by
          intro hsame
          rw [Name.same_comm] at hs
          have both := he entry hm
          rw [Name.same_trans hsame hs] at both
          cases both
        exact (List.find?_cons_of_neg (p := fun e => Name.same (Named.name e) name) other).trans
          (ih hm)
  exact alone r.entries r.distinct h

theorem find?_eq_some_iff {r : Roster α} {entry : α} {name : String} :
    r.find? name = some entry ↔ entry ∈ r.entries ∧ Name.same (Named.name entry) name = true :=
  ⟨fun h => ⟨List.mem_of_find?_eq_some h, by simpa using List.find?_some h⟩,
    fun h => find?_mem h.1 h.2⟩

theorem find?_any (r : Roster α) (name : String) (p : α → Bool) :
    (r.find? name).any p = true ↔
      ∃ e ∈ r.entries, Name.same (Named.name e) name = true ∧ p e = true := by
  constructor
  · intro h
    obtain ⟨e, he, hp⟩ := Option.any_eq_true _ _ |>.1 h
    obtain ⟨hm, hs⟩ := find?_eq_some_iff.1 he
    exact ⟨e, hm, hs, hp⟩
  · rintro ⟨e, hm, hs, hp⟩
    rw [find?_mem hm hs]
    exact hp

theorem find?_congr (r : Roster α) {name other : String} (h : Name.same name other = true) :
    r.find? name = r.find? other := by
  rw [Name.same_iff] at h
  simp only [find?, Name.same, h]

end Roster

end DeployCheck
