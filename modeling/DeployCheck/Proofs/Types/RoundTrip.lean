import DeployCheck.Types.Reference
import Mathlib.Data.List.Basic

/-!
# The text of a type reference

A reference is written as its segments with slashes between them and, if it has one, its
version behind an `@`. A text can be read exactly if it is written like this, with segments
that are not empty and have neither mark in them, and a version that is not empty. Reading
and writing are inverse to each other there.
-/

set_option autoImplicit false

namespace DeployCheck

namespace Text

variable {separator c : Char} {cs piece : List Char} {ps : List (List Char)}

theorem free_of_mem_splitOn (inside : piece ∈ cs.splitOn separator) : separator ∉ piece := by
  induction cs generalizing piece with
  | nil =>
    cases List.mem_singleton.1 inside
    exact List.not_mem_nil
  | cons c cs ih =>
    rw [List.splitOn_cons_eq_if_modifyHead] at inside
    split at inside
    · rcases List.mem_cons.1 inside with rfl | inside
      · exact List.not_mem_nil
      · exact ih inside
    · next other =>
      cases cut : cs.splitOn separator with
      | nil => exact absurd cut (List.splitOn_ne_nil separator cs)
      | cons first rest =>
        rw [cut, List.modifyHead_cons] at inside
        rw [cut] at ih
        rcases List.mem_cons.1 inside with rfl | inside
        · rw [List.mem_cons, not_or]
          exact ⟨fun same => other (beq_iff_eq.2 same.symm), ih List.mem_cons_self⟩
        · exact ih (List.mem_cons_of_mem first inside)

theorem mem_intercalate_of_mem (inside : piece ∈ ps) (member : c ∈ piece) :
    c ∈ [separator].intercalate ps := by
  induction ps with
  | nil => cases inside
  | cons first rest ih =>
    cases rest with
    | nil =>
      cases List.mem_singleton.1 inside
      rwa [List.intercalate_singleton]
    | cons second rest =>
      rw [List.intercalate_cons_cons]
      rcases List.mem_cons.1 inside with rfl | inside
      · exact List.mem_append_left _ (List.mem_append_left _ member)
      · exact List.mem_append_right _ (ih inside)

theorem mem_intercalate (h : c ∈ [separator].intercalate ps) :
    c = separator ∨ ∃ piece ∈ ps, c ∈ piece := by
  induction ps with
  | nil => cases h
  | cons first rest ih =>
    cases rest with
    | nil =>
      rw [List.intercalate_singleton] at h
      exact .inr ⟨first, List.mem_cons_self, h⟩
    | cons second rest =>
      rw [List.intercalate_cons_cons, List.mem_append, List.mem_append, List.mem_singleton] at h
      rcases h with (here | same) | later
      · exact .inr ⟨first, List.mem_cons_self, here⟩
      · exact .inl same
      · refine (ih later).imp_right ?_
        rintro ⟨piece, inside, member⟩
        exact ⟨piece, List.mem_cons_of_mem first inside, member⟩

theorem splitOn_eq_iff : cs.splitOn separator = ps ↔
    ps ≠ [] ∧ (∀ piece ∈ ps, separator ∉ piece) ∧ cs = [separator].intercalate ps := by
  constructor
  · rintro rfl
    exact ⟨List.splitOn_ne_nil separator cs, fun piece => free_of_mem_splitOn,
      (List.intercalate_splitOn separator).symm⟩
  · rintro ⟨some, free, rfl⟩
    exact List.splitOn_intercalate separator free some

end Text

namespace TypeReference

variable {r child parent : TypeReference} {text : String}

/-- A segment is not empty, and neither mark is in it. -/
structure IsSegment (s : String) : Prop where
  filled : s ≠ ""
  unslashed : '/' ∉ s.toList
  unmarked : '@' ∉ s.toList

/-- A reference that can be written such that it is read again. -/
structure WellFormed (r : TypeReference) : Prop where
  filled : r.segments ≠ []
  segments : ∀ s ∈ r.segments, IsSegment s
  version : r.version ≠ some ""

/-- The characters of a reference: the segments with slashes between them, then the version
behind an `@`, if there is one. -/
def spelling (r : TypeReference) : List Char :=
  ['/'].intercalate (r.segments.map String.toList) ++
    r.version.elim [] fun version => '@' :: version.toList

theorem toList_text (r : TypeReference) : r.text.toList = r.spelling := by
  rw [TypeReference.text, spelling, String.toList_append, String.toList_intercalate]
  cases r.version <;> simp

theorem cutVersion_eq_iff {cs types : List Char} {version : Option (List Char)} :
    cutVersion cs = (types, version) ↔
      '@' ∉ types ∧ cs = types ++ version.elim [] fun v => '@' :: v := by
  induction cs generalizing types with
  | nil =>
    rw [cutVersion]
    cases types <;> cases version <;> simp
  | cons c cs ih =>
    rw [cutVersion]
    by_cases mark : c = '@'
    · rw [if_pos mark]
      cases types with
      | nil => cases version <;> simp [mark, eq_comm]
      | cons d types =>
        simp only [Prod.mk.injEq, List.mem_cons, List.cons_append, List.cons.injEq]
        constructor
        · rintro ⟨⟨⟩, -⟩
        · rintro ⟨free, rfl, -⟩
          exact absurd (.inl mark.symm) free
    · rw [if_neg mark]
      cases types with
      | nil => cases version <;> simp [mark]
      | cons d types =>
        have rest : (cutVersion cs).1 = types ∧ (cutVersion cs).2 = version ↔ _ :=
          Prod.ext_iff.symm.trans ih
        simp only [Prod.mk.injEq, List.cons.injEq, and_assoc, rest, List.mem_cons, not_or,
          List.cons_append]
        constructor
        · rintro ⟨rfl, free, split⟩
          exact ⟨Ne.symm mark, free, rfl, split⟩
        · rintro ⟨-, free, same, split⟩
          exact ⟨same, free, split⟩

theorem wellFormed_of_parse? (read : parse? text = some r) :
    r.WellFormed ∧ text.toList = r.spelling := by
  rw [parse?] at read
  rcases cut : cutVersion text.toList with ⟨types, version⟩
  obtain ⟨unmarked, split⟩ := cutVersion_eq_iff.1 cut
  obtain ⟨filled, unslashed, joined⟩ := Text.splitOn_eq_iff.1 (Eq.refl (types.splitOn '/'))
  rw [cut] at read
  dsimp only at read
  generalize types.splitOn '/' = pieces at *
  split at read
  · cases read
  · next clean =>
    simp only [Bool.or_eq_true, decide_eq_true_eq, not_or, List.any_eq_true, not_exists,
      not_and, List.isEmpty_iff] at clean
    cases read
    refine ⟨⟨by simpa using filled, ?_, ?_⟩, ?_⟩
    · rw [List.forall_mem_map]
      intro piece inside
      refine ⟨by simpa using clean.2 piece inside, ?_, ?_⟩
      · rw [String.toList_ofList]
        exact unslashed piece inside
      · rw [String.toList_ofList]
        intro member
        rw [joined] at unmarked
        exact unmarked (Text.mem_intercalate_of_mem inside member)
    · cases version with
      | none => simp
      | some v => simpa using clean.1
    · rw [split, joined, spelling, List.map_map]
      cases version <;> simp

theorem parse?_of_spelling (formed : r.WellFormed) (written : text.toList = r.spelling) :
    parse? text = some r := by
  have free : '@' ∉ ['/'].intercalate (r.segments.map String.toList) := by
    intro member
    rcases Text.mem_intercalate member with mark | ⟨piece, inside, member⟩
    · cases mark
    · obtain ⟨s, listed, rfl⟩ := List.mem_map.1 inside
      exact (formed.segments s listed).unmarked member
  have cut : cutVersion text.toList =
      (['/'].intercalate (r.segments.map String.toList), r.version.map String.toList) := by
    refine cutVersion_eq_iff.2 ⟨free, ?_⟩
    rw [written, spelling]
    cases r.version <;> rfl
  have pieces : (['/'].intercalate (r.segments.map String.toList)).splitOn '/' =
      r.segments.map String.toList := by
    refine Text.splitOn_eq_iff.2 ⟨by simpa using formed.filled, ?_, rfl⟩
    rw [List.forall_mem_map]
    exact fun s listed => (formed.segments s listed).unslashed
  have clean : ¬((decide (r.version.map String.toList = some []) ||
      (r.segments.map String.toList).any List.isEmpty) = true) := by
    rw [Bool.or_eq_true, decide_eq_true_eq, List.any_eq_true]
    rintro (empty | ⟨piece, inside, empty⟩)
    · refine formed.version ?_
      simpa using empty
    · obtain ⟨s, listed, rfl⟩ := List.mem_map.1 inside
      refine (formed.segments s listed).filled ?_
      simpa using empty
  rw [parse?, cut]
  dsimp only
  rw [pieces, if_neg clean]
  simp

theorem parse?_eq_some_iff : parse? text = some r ↔ r.WellFormed ∧ text.toList = r.spelling :=
  ⟨wellFormed_of_parse?, fun h => parse?_of_spelling h.1 h.2⟩

theorem text_of_parse? (read : parse? text = some r) : r.text = text := by
  rw [← String.toList_inj, toList_text, (wellFormed_of_parse? read).2]

theorem ofText_none (text : String) : ofText text none = (parse? text).getD (verbatim text) := by
  cases read : parse? text <;> simp [ofText, read]

theorem text_ofText (text : String) : (ofText text none).text = text := by
  rw [ofText_none]
  cases read : parse? text with
  | none => simp [verbatim, TypeReference.text]
  | some r => exact text_of_parse? read

theorem wellFormed_qualify (inner : child.WellFormed) (outer : parent.WellFormed) :
    (child.qualify parent).WellFormed := by
  refine ⟨?_, fun s member => ?_, ?_⟩
  · rw [qualify, Ne, List.append_eq_nil_iff]
    exact fun none => outer.filled none.1
  · rcases List.mem_append.1 member with above | below
    · exact outer.segments s above
    · exact inner.segments s below
  · have own := inner.version
    rw [qualify]
    cases written : child.version with
    | none => exact outer.version
    | some version =>
      rw [written] at own
      exact own

/-- A text is read as a reference exactly if the reference is well-formed and written like the
text. So what was read is written as it was, exactly the well-formed references are read
from their own texts, and the reference of a child that is completed from its parent's is one
of them. -/
theorem parse?_inverse :
    (∀ text r, parse? text = some r ↔ r.WellFormed ∧ text.toList = r.spelling) ∧
    (∀ text r, parse? text = some r → r.text = text) ∧
    (∀ r, parse? r.text = some r ↔ r.WellFormed) ∧
    ∀ text text' child parent, parse? text = some child → parse? text' = some parent →
      parse? (child.qualify parent).text = some (child.qualify parent) := by
  have own : ∀ r, parse? r.text = some r ↔ r.WellFormed := by
    intro r
    rw [parse?_eq_some_iff, toList_text]
    exact and_iff_left rfl
  refine ⟨fun _ _ => parse?_eq_some_iff, fun _ _ => text_of_parse?, own, ?_⟩
  intro text text' child parent inner outer
  exact (own _).2 (wellFormed_qualify (wellFormed_of_parse? inner).1 (wellFormed_of_parse? outer).1)

theorem parse?_inverse_blobServices : ∃ child parent,
    parse? "blobServices@2@x/y" = some child ∧
    parse? "Microsoft.Storage/storageAccounts@2021-04-01" = some parent ∧
    parse? (child.qualify parent).text = some (child.qualify parent) ∧
    (child.qualify parent).text = "Microsoft.Storage/storageAccounts/blobServices@2@x/y" := by
  have inner : parse? "blobServices@2@x/y" = some ⟨["blobServices"], some "2@x/y"⟩ := by
    decide +kernel
  have outer : parse? "Microsoft.Storage/storageAccounts@2021-04-01" =
      some ⟨["Microsoft.Storage", "storageAccounts"], some "2021-04-01"⟩ := by
    decide +kernel
  exact ⟨_, _, inner, outer, parse?_inverse.2.2.2 _ _ _ _ inner outer, by decide +kernel⟩

end TypeReference

end DeployCheck
