import DeployCheck.Source.LineMap
import Mathlib.Algebra.Group.Nat.Defs
import Mathlib.Data.List.Basic
import Mathlib.Data.List.GetD

/-!
# Positions in a source text

The line of an offset is the number of newlines before it, and its character the distance
from the start of this line, which is zero or right behind a newline. So an offset and its
position give each other, in the same order, behind the end of the text too.
-/

set_option autoImplicit false

namespace DeployCheck

def Position.Before (p q : Position) : Prop :=
  p.line < q.line ∨ p.line = q.line ∧ p.character < q.character

namespace LineMap

def bytes (source : String) : List UInt8 := source.toUTF8.data.toList

def newline : UInt8 := 10

theorem bytes_eq (source : String) : bytes source = source.toList.flatMap String.utf8EncodeChar := by
  rw [bytes, String.toUTF8_eq_toByteArray, ← String.utf8Encode_toList, List.utf8Encode,
    List.data_toByteArray]

theorem length_bytes (source : String) : (bytes source).length = source.utf8ByteSize := by
  rw [bytes, Array.length_toList]
  rfl

theorem encode_newline : String.utf8EncodeChar '\n' = [newline] := by decide

theorem encode_other {c : Char} (other : c ≠ '\n') : newline ∉ String.utf8EncodeChar c := by
  have code : c.val.toNat ≠ 10 := by
    intro same
    exact other (Char.ext (UInt32.toNat_inj.1 same))
  have byte : ∀ n, newline = UInt8.ofNat n ↔ n % 256 = 10 := by
    intro n
    rw [← UInt8.toNat_inj, UInt8.toNat_ofNat', eq_comm]
    rfl
  rw [String.utf8EncodeChar]
  split_ifs <;> simp only [List.mem_cons, List.not_mem_nil, or_false, byte] <;> omega

/-- The offsets right behind the newlines of some bytes that stand at an offset. -/
def startsOf : Nat → List UInt8 → List Nat
  | _, [] => []
  | offset, b :: bs =>
    if b = newline then (offset + 1) :: startsOf (offset + 1) bs else startsOf (offset + 1) bs

theorem startsOf_plain {bs : List UInt8} (plain : newline ∉ bs) (offset : Nat) (rest : List UInt8) :
    startsOf offset (bs ++ rest) = startsOf (offset + bs.length) rest := by
  induction bs generalizing offset with
  | nil => rfl
  | cons b bs ih =>
    have other : b ≠ newline := fun same => plain (same ▸ List.mem_cons_self)
    have plain' : newline ∉ bs := fun h => plain (List.mem_cons_of_mem b h)
    rw [List.cons_append, startsOf, if_neg other, ih plain', List.length_cons]
    congr 1
    omega

theorem startsFrom_eq (cs : List Char) (offset : Nat)
    (short : offset + (cs.flatMap String.utf8EncodeChar).length ≤ lastOffset) :
    startsFrom offset cs = startsOf offset (cs.flatMap String.utf8EncodeChar) := by
  induction cs generalizing offset with
  | nil => rfl
  | cons c cs ih =>
    rw [List.flatMap_cons, List.length_append, String.length_utf8EncodeChar] at short
    have next := ih (offset + c.utf8Size) (by omega)
    rw [startsFrom, List.flatMap_cons]
    by_cases h : c = '\n'
    · subst h
      have size : '\n'.utf8Size = 1 := rfl
      rw [size] at short next
      simp only [encode_newline, List.singleton_append, startsOf, if_true, size, next]
      congr 1
      omega
    · rw [startsOf_plain (encode_other h), String.length_utf8EncodeChar]
      simp only [if_neg h, next]

theorem mem_startsOf {offset s : Nat} {bs : List UInt8} :
    s ∈ startsOf offset bs ↔ ∃ i, s = offset + i + 1 ∧ bs[i]? = some newline := by
  induction bs generalizing offset with
  | nil => simp [startsOf]
  | cons b bs ih =>
    have later : (∃ i, s = offset + i + 1 ∧ (b :: bs)[i]? = some newline) ↔
        (s = offset + 1 ∧ b = newline) ∨ s ∈ startsOf (offset + 1) bs := by
      rw [ih]
      constructor
      · rintro ⟨_ | i, rfl, here⟩
        · exact .inl ⟨rfl, by simpa using here⟩
        · exact .inr ⟨i, by omega, here⟩
      · rintro (⟨rfl, here⟩ | ⟨i, rfl, here⟩)
        · exact ⟨0, rfl, by simpa using here⟩
        · exact ⟨i + 1, by omega, here⟩
    rw [later, startsOf]
    by_cases h : b = newline <;> simp [h]

theorem startsOf_ascend (offset : Nat) (bs : List UInt8) :
    (startsOf offset bs).Pairwise (· < ·) := by
  induction bs generalizing offset with
  | nil => exact .nil
  | cons b bs ih =>
    rw [startsOf]
    split
    · refine .cons (fun s later => ?_) (ih _)
      obtain ⟨i, rfl, _⟩ := mem_startsOf.1 later
      omega
    · exact ih _

theorem countP_startsOf (bs : List UInt8) (base offset : Nat) :
    (startsOf base bs).countP (· ≤ offset) = (bs.take (offset - base)).count newline := by
  induction bs generalizing base with
  | nil => simp [startsOf]
  | cons b bs ih =>
    by_cases h : offset ≤ base
    · have none : ∀ s ∈ startsOf base (b :: bs), ¬(s ≤ offset) := by
        intro s inside
        obtain ⟨i, rfl, _⟩ := mem_startsOf.1 inside
        omega
      rw [Nat.sub_eq_zero_of_le h, List.take_zero, List.count_nil]
      simpa using none
    · have step : offset - base = offset - (base + 1) + 1 := by omega
      rw [step, List.take_succ_cons, startsOf]
      by_cases hb : b = newline
      · have here : base + 1 ≤ offset := by omega
        simp [hb, here, ih]
      · simp [hb, ih]

/-- A line starts at `start`, which is zero or right behind a newline, and there is no newline
from there to the offset. -/
structure StartsLine (bs : List UInt8) (offset start : Nat) : Prop where
  begins : start = 0 ∨ ∃ i, start = i + 1 ∧ bs[i]? = some newline
  before : start ≤ offset
  last : ∀ i, start ≤ i → i < offset → bs[i]? ≠ some newline

theorem startsLine_unique {bs : List UInt8} {offset s t : Nat} (hs : StartsLine bs offset s)
    (ht : StartsLine bs offset t) : s = t := by
  have no_later : ∀ {s t}, StartsLine bs offset s → StartsLine bs offset t → ¬s < t := by
    intro s t hs ht less
    rcases ht.begins with rfl | ⟨i, rfl, here⟩
    · omega
    · exact hs.last i (by omega) (by have := ht.before; omega) here
  have := no_later hs ht
  have := no_later ht hs
  omega

structure LastUpTo (entries : List Nat) (key i : Nat) : Prop where
  inside : i < entries.length
  upTo : entries.getD i 0 ≤ key
  last : ∀ j, i < j → j < entries.length → key < entries.getD j 0

section Search

variable {entries : List Nat} {key : Nat} (ordered : entries.Pairwise (· ≤ ·))

include ordered

theorem getD_mono {i j : Nat} (le : i ≤ j) (inside : j < entries.length) :
    entries.getD i 0 ≤ entries.getD j 0 := by
  rw [List.getD_eq_getElem _ _ inside, List.getD_eq_getElem _ _ (Nat.lt_of_le_of_lt le inside)]
  rcases Nat.lt_or_eq_of_le le with less | rfl
  · exact List.pairwise_iff_getElem.1 ordered _ _ _ inside less
  · exact Nat.le_refl _

theorem halve_last (rounds : Nat) {base size : Nat} (enough : size ≤ rounds) (some : 0 < size)
    (room : base + size ≤ entries.length) (upTo : entries.getD base 0 ≤ key)
    (beyond : ∀ j, base + size ≤ j → j < entries.length → key < entries.getD j 0) :
    LastUpTo entries key (halve entries key rounds base size) := by
  induction rounds generalizing base size with
  | zero => omega
  | succ rounds ih =>
    rw [halve]
    by_cases single : size ≤ 1
    · rw [if_pos single]
      exact ⟨by omega, upTo, fun j after inside => beyond j (by omega) inside⟩
    · rw [if_neg single]
      by_cases greater : key < entries.getD (base + size / 2) 0
      · simp only [greater, if_true]
        refine ih (by omega) (by omega) (by omega) upTo fun j after inside => ?_
        exact Nat.lt_of_lt_of_le greater (getD_mono ordered (by omega) inside)
      · simp only [greater, if_false]
        refine ih (by omega) (by omega) (by omega) (Nat.le_of_not_lt greater) fun j after inside => ?_
        exact beyond j (by omega) inside

theorem countP_lastUpTo {i : Nat} (last : LastUpTo entries key i) :
    entries.countP (· ≤ key) = i + 1 := by
  have inside := last.inside
  have front : (entries.take (i + 1)).countP (· ≤ key) = (entries.take (i + 1)).length := by
    rw [List.countP_eq_length]
    intro s member
    obtain ⟨j, less, rfl⟩ := List.mem_take_iff_getElem.1 member
    have le := getD_mono ordered (i := j) (j := i) (by omega) inside
    rw [List.getD_eq_getElem _ _ (by omega)] at le
    exact decide_eq_true (Nat.le_trans le last.upTo)
  have back : (entries.drop (i + 1)).countP (· ≤ key) = 0 := by
    rw [List.countP_eq_zero]
    intro s member
    obtain ⟨j, less, rfl⟩ := List.mem_drop_iff_getElem.1 member
    have beyond := last.last (i + 1 + j) (by omega) (by omega)
    rw [List.getD_eq_getElem _ _ (by omega)] at beyond
    rw [decide_eq_true_iff]
    omega
  rw [← List.take_append_drop (i + 1) entries, List.countP_append, front, back, List.length_take]
  omega

end Search

theorem lineOf_last {m : LineMap} {offset : Nat} (ordered : m.starts.Pairwise (· ≤ ·))
    (first : m.starts.head? = some 0) : LastUpTo m.starts offset (m.lineOf offset) := by
  cases starts : m.starts with
  | nil =>
    rw [starts] at first
    cases first
  | cons start later =>
    rw [starts] at first ordered
    cases first
    have found := halve_last ordered (0 :: later).length (Nat.le_refl _)
      (Nat.succ_pos _) (Nat.le_of_eq (Nat.zero_add _)) (Nat.zero_le offset)
      fun j after inside => by omega
    rw [lineOf, starts, binarySearch]
    simp only [List.isEmpty_cons, Bool.false_eq_true, if_false]
    generalize halve (0 :: later) offset (0 :: later).length 0 (0 :: later).length = base at found
    split
    · next equal =>
      split at equal
      · cases equal
        exact found
      · cases equal
    · next insert missed =>
      have upTo := found.upTo
      split at missed
      · cases missed
      · cases missed
        rw [if_pos (by omega)]
        exact found

variable {source : String}

theorem starts_ofSource (short : source.utf8ByteSize < 2 ^ 32) :
    (ofSource source).starts = 0 :: startsOf 0 (bytes source) := by
  rw [bytes_eq, ofSource, startsFrom_eq]
  rw [← bytes_eq, length_bytes, lastOffset]
  omega

theorem starts_ascend (short : source.utf8ByteSize < 2 ^ 32) :
    (ofSource source).starts.Pairwise (· < ·) := by
  rw [starts_ofSource short]
  refine .cons (fun s later => ?_) (startsOf_ascend 0 _)
  obtain ⟨i, rfl, _⟩ := mem_startsOf.1 later
  omega

theorem position_spec (short : source.utf8ByteSize < 2 ^ 32) (offset : Nat) :
    ∃ start, StartsLine (bytes source) offset start ∧
      (ofSource source).starts[((ofSource source).position offset).line]? = some start ∧
      (ofSource source).position offset =
        ⟨((bytes source).take offset).count newline, offset - start⟩ := by
  have ordered := (starts_ascend short).imp fun less => Nat.le_of_lt less
  have last : LastUpTo (ofSource source).starts offset _ := lineOf_last ordered rfl
  have count := countP_lastUpTo ordered last
  obtain ⟨start, place⟩ : ∃ start,
      (ofSource source).starts[(ofSource source).lineOf offset]? = some start :=
    ⟨_, List.getElem?_eq_getElem last.inside⟩
  have start_eq : (ofSource source).starts.getD ((ofSource source).lineOf offset) 0 = start := by
    rw [List.getD_eq_getElem?_getD, place, Option.getD_some]
  have upTo := last.upTo
  rw [start_eq] at upTo
  have found : (ofSource source).lineOf offset = ((bytes source).take offset).count newline := by
    rw [starts_ofSource short, List.countP_cons_of_pos (by simp), countP_startsOf,
      Nat.sub_zero] at count
    exact (Nat.succ.inj count).symm
  have fits : (ofSource source).lineOf offset ≤ lastOffset := by
    have few : ((bytes source).take offset).count newline ≤ (bytes source).length :=
      Nat.le_trans List.count_le_length (List.length_take_le' ..)
    rw [length_bytes] at few
    rw [found, lastOffset]
    omega
  have position : (ofSource source).position offset =
      ⟨((bytes source).take offset).count newline, offset - start⟩ := by
    rw [LineMap.position, start_eq, Nat.min_eq_left fits, found]
  refine ⟨start, ⟨?_, upTo, fun i le less here => ?_⟩, ?_, position⟩
  · have inside := List.mem_of_getElem? place
    rw [starts_ofSource short, List.mem_cons, mem_startsOf] at inside
    refine inside.imp_right ?_
    rintro ⟨i, same, here⟩
    exact ⟨i, by omega, here⟩
  · -- A later newline before the offset would be one more line start up to it.
    have later : i + 1 ∈ (ofSource source).starts := by
      rw [starts_ofSource short]
      exact List.mem_cons_of_mem 0 (mem_startsOf.2 ⟨i, by omega, here⟩)
    obtain ⟨j, inside, same⟩ := List.mem_iff_getElem.1 later
    rw [← List.getD_eq_getElem _ 0 inside] at same
    by_cases after : (ofSource source).lineOf offset < j
    · have := last.last j after inside
      omega
    · have := getD_mono ordered (Nat.le_of_not_lt after) last.inside
      omega
  · rw [position, ← found, place]

theorem position_before (short : source.utf8ByteSize < 2 ^ 32) {a b : Nat} (less : a < b) :
    ((ofSource source).position a).Before ((ofSource source).position b) := by
  obtain ⟨s, hs, -, atA⟩ := position_spec short a
  obtain ⟨t, ht, -, atB⟩ := position_spec short b
  let between := ((bytes source).drop a).take (b - a)
  have split : (bytes source).take b = (bytes source).take a ++ between := by
    rw [← List.take_add, Nat.add_sub_cancel' (Nat.le_of_lt less)]
  rw [atA, atB, split, List.count_append]
  dsimp only [Position.Before]
  by_cases h : newline ∈ between
  · have := List.count_pos_iff.2 h
    exact .inl (by omega)
  · -- Both offsets are on one line, so it starts at one place.
    have same : StartsLine (bytes source) b s := by
      refine ⟨hs.begins, by have := hs.before; omega, fun i le lt here => ?_⟩
      by_cases old : i < a
      · exact hs.last i le old here
      · apply h
        rw [List.mem_iff_getElem?]
        refine ⟨i - a, ?_⟩
        rw [List.getElem?_take_of_lt (by omega), List.getElem?_drop, Nat.add_sub_cancel' (by omega),
          here]
    have here := startsLine_unique same ht
    have before := hs.before
    exact .inr ⟨by rw [List.count_eq_zero_of_not_mem h, Nat.add_zero], by omega⟩

/-- The starts of lines are in order. The line of an offset is the number of newlines before it,
its start is the last one up to the offset, zero or right behind a newline, and the character
is the distance from there. So the start of the line and the character give the offset back,
and the positions of offsets, those past the end among them, differ and have the order of the
offsets. Line numbers fit 32 bits. -/
theorem position_exact (source : String) (short : source.utf8ByteSize < 2 ^ 32) :
    (ofSource source).starts.Pairwise (· < ·) ∧
    (∀ offset, ∃ start, StartsLine (bytes source) offset start ∧
      (ofSource source).starts[((ofSource source).position offset).line]? = some start ∧
      ((ofSource source).position offset).line = ((bytes source).take offset).count newline ∧
      ((ofSource source).position offset).line < 2 ^ 32 ∧
      ((ofSource source).position offset).character = offset - start ∧
      start + ((ofSource source).position offset).character = offset) ∧
    (∀ a b, a < b → ((ofSource source).position a).Before ((ofSource source).position b)) ∧
    Function.Injective (ofSource source).position := by
  refine ⟨starts_ascend short, fun offset => ?_, fun a b => position_before short, ?_⟩
  · obtain ⟨start, begins, place, found⟩ := position_spec short offset
    refine ⟨start, begins, place, by rw [found], ?_, by rw [found], ?_⟩
    · have fits : ((bytes source).take offset).count newline ≤ (bytes source).length :=
        Nat.le_trans List.count_le_length (List.length_take_le' ..)
      rw [length_bytes] at fits
      rw [found]
      exact Nat.lt_of_le_of_lt fits short
    · rw [found]
      exact Nat.add_sub_cancel' begins.before
  · intro a b same
    have differ : ∀ {a b}, a < b → (ofSource source).position a ≠ (ofSource source).position b := by
      intro a b less same
      have before := position_before short less
      rw [same, Position.Before] at before
      omega
    rcases Nat.lt_trichotomy a b with less | equal | less
    · exact absurd same (differ less)
    · exact equal
    · exact absurd same.symm (differ less)

theorem position_exact_pastEnd :
    "ab\n\nü".utf8ByteSize < 2 ^ 32 ∧
    ∃ start, StartsLine (bytes "ab\n\nü") 9 start ∧
      ((ofSource "ab\n\nü").position 9).line = ((bytes "ab\n\nü").take 9).count newline ∧
      start + ((ofSource "ab\n\nü").position 9).character = 9 ∧
      ((ofSource "ab\n\nü").position 3).Before ((ofSource "ab\n\nü").position 9) := by
  have short : "ab\n\nü".utf8ByteSize < 2 ^ 32 := by decide
  obtain ⟨-, places, before, -⟩ := position_exact "ab\n\nü" short
  obtain ⟨start, begins, -, line, -, -, back⟩ := places 9
  exact ⟨short, start, begins, line, back, before 3 9 (by decide)⟩

example : (ofSource "ab\n\nü").position 9 = ⟨2, 5⟩ := by decide

end LineMap

end DeployCheck
