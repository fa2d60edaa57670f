import DeployCheck.Types.Catalog

/-!
# Names in lower case

A name in lower case is the same name, and it takes as many bytes. So does a type
reference, which reads in lower case as it reads in any other.
-/

set_option autoImplicit false

namespace DeployCheck

namespace Name

theorem toNat_toLower {c : Char} (upper : 65 ≤ c.toNat ∧ c.toNat ≤ 90) :
    c.toLower.toNat = c.toNat + 32 := by
  have h : c.val ≥ 'A'.val ∧ c.val ≤ 'Z'.val := by
    simp only [ge_iff_le, UInt32.le_iff_toNat_le]
    exact upper
  have moved : c.toLower.val = c.val + 32 := congrArg Char.val (dif_pos h)
  have sum : c.toLower.toNat = (c.toNat + 32) % 2 ^ 32 := congrArg UInt32.toNat moved
  omega

theorem toLower_of_not_upper {c : Char} (other : ¬(65 ≤ c.toNat ∧ c.toNat ≤ 90)) :
    c.toLower = c := by
  apply dif_neg
  simp only [ge_iff_le, UInt32.le_iff_toNat_le]
  exact other

theorem utf8Size_toLower (c : Char) : c.toLower.utf8Size = c.utf8Size := by
  by_cases upper : 65 ≤ c.toNat ∧ c.toNat ≤ 90
  · have byte : ∀ d : Char, d.toNat ≤ 127 → d.utf8Size = 1 := fun d h => if_pos h
    have lower := toNat_toLower upper
    rw [byte c (by omega), byte c.toLower (by omega)]
  · rw [toLower_of_not_upper upper]

theorem toLower_eq_iff {c mark : Char} (h : mark.toNat < 65) : c.toLower = mark ↔ c = mark := by
  by_cases upper : 65 ≤ c.toNat ∧ c.toNat ≤ 90
  · have lower := toNat_toLower upper
    constructor
    · rintro rfl
      omega
    · rintro rfl
      omega
  · rw [toLower_of_not_upper upper]

theorem toList_key (name : String) : (key name).toList = name.toList.map Char.toLower := by
  rw [key, String.toList_ofList]

theorem key_ofList (cs : List Char) :
    key (String.ofList cs) = String.ofList (cs.map Char.toLower) := by
  rw [key, String.toList_ofList]

theorem key_append (front back : String) : key (front ++ back) = key front ++ key back := by
  simp [← String.toList_inj, toList_key]

theorem utf8ByteSize_key (name : String) : (key name).utf8ByteSize = name.utf8ByteSize := by
  have bytes : ∀ cs : List Char,
      (String.ofList (cs.map Char.toLower)).utf8ByteSize = (String.ofList cs).utf8ByteSize := by
    intro cs
    induction cs with
    | nil => rfl
    | cons c cs ih => simp [String.ofList_cons, utf8Size_toLower, ih]
  rw [key, bytes, String.ofList_toList]

theorem same_key (name : String) : same (key name) name = true := by
  rw [same_iff, key_key]

theorem same_key_left (left right : String) : same (key left) right = same left right := by
  simp only [same, key_key]

theorem same_key_right (left right : String) : same left (key right) = same left right := by
  simp only [same, key_key]

end Name

namespace TypeReference

def folded (r : TypeReference) : TypeReference := ⟨r.segments.map Name.key, r.version.map Name.key⟩

theorem folded_folded (r : TypeReference) : r.folded.folded = r.folded := by
  simp [folded, Function.comp_def, Name.key_key]

theorem key_intercalate (segments : List String) :
    Name.key ("/".intercalate segments) = "/".intercalate (segments.map Name.key) := by
  induction segments with
  | nil => rfl
  | cons segment rest ih =>
    cases rest with
    | nil => simp
    | cons next rest =>
      have slash : Name.key "/" = "/" := rfl
      rw [String.intercalate_cons_cons, Name.key_append, Name.key_append, ih, slash]
      exact String.intercalate_cons_cons.symm

theorem text_folded (r : TypeReference) : r.folded.text = Name.key r.text := by
  rw [text, text, folded, Name.key_append, key_intercalate]
  cases r.version with
  | none => rfl
  | some version => rw [Option.map_some, Name.key_append]; rfl

theorem cutVersion_toLower (cs : List Char) : cutVersion (cs.map Char.toLower) =
    ((cutVersion cs).1.map Char.toLower, (cutVersion cs).2.map (List.map Char.toLower)) := by
  induction cs with
  | nil => rfl
  | cons c cs ih =>
    rw [List.map_cons, cutVersion, cutVersion]
    by_cases at_ : c = '@'
    · rw [if_pos at_, if_pos ((Name.toLower_eq_iff (by decide)).2 at_)]
      rfl
    · rw [if_neg at_, if_neg (mt (Name.toLower_eq_iff (by decide)).1 at_), ih]
      rfl

theorem splitOn_toLower (cs : List Char) :
    (cs.map Char.toLower).splitOn '/' = (cs.splitOn '/').map (List.map Char.toLower) := by
  induction cs with
  | nil => rfl
  | cons c cs ih =>
    rw [List.map_cons, List.splitOn_cons_eq_if_modifyHead, List.splitOn_cons_eq_if_modifyHead, ih]
    by_cases slash : c = '/'
    · rw [if_pos (beq_iff_eq.2 slash),
        if_pos (beq_iff_eq.2 ((Name.toLower_eq_iff (by decide)).2 slash))]
      rfl
    · rw [if_neg (mt beq_iff_eq.1 slash),
        if_neg (mt beq_iff_eq.1 (mt (Name.toLower_eq_iff (by decide)).1 slash))]
      cases cs.splitOn '/' <;> rfl

theorem parse?_key (text : String) : parse? (Name.key text) = (parse? text).map folded := by
  have empty : ∀ segments : List (List Char),
      (segments.map (List.map Char.toLower)).any List.isEmpty = segments.any List.isEmpty := by
    intro segments
    induction segments with
    | nil => rfl
    | cons segment rest ih =>
      rw [List.map_cons, List.any_cons, List.any_cons, ih]
      cases segment <;> rfl
  have bare : ∀ version : Option (List Char),
      version.map (List.map Char.toLower) = some [] ↔ version = some [] := by
    rintro (_ | version)
    · simp
    · simp
  simp only [parse?, Name.toList_key, cutVersion_toLower, splitOn_toLower, empty, bare]
  split
  · rfl
  · simp [folded, Function.comp_def, Name.key_ofList]

theorem ofText_key (text : String) (parent : Option TypeReference) :
    ofText (Name.key text) (parent.map folded) = (ofText text parent).folded := by
  simp only [ofText, parse?_key]
  cases parse? text with
  | none => rfl
  | some r =>
    cases parent with
    | none => rfl
    | some p =>
      have relative : r.folded.isRelative = r.isRelative := by simp [isRelative, folded]
      simp only [Option.map_some, relative]
      split
      · simp only [qualify, folded, List.map_append]
        cases r.version <;> rfl
      · rfl

end TypeReference

theorem Catalog.lookup_folded (c : Catalog) (r : TypeReference) : c.lookup r.folded = c.lookup r := by
  rw [lookup, lookup, TypeReference.text_folded, Roster.find?_congr _ (Name.same_key r.text)]

end DeployCheck
