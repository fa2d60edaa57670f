import DeployCheck.Text.Template
import Mathlib.Data.List.Infix

/-!
# Filling templates

A template is filled argument by argument, and each argument is looked for in the whole text so
far. The text is the template with all arguments put in their places at once, if no argument
brings a placeholder of a later one with it.
-/

set_option autoImplicit false

namespace DeployCheck.Text

variable {k : Nat} {value : List Char}

theorem isDigit_of_mem {c : Char} (inside : c ∈ (toString k).toList) : c.isDigit = true := by
  rw [Nat.toString_eq_ofList_toDigits, String.toList_ofList] at inside
  exact Nat.isDigit_of_mem_toDigits (by decide : 0 < 10) (by decide) inside

theorem brace_not_mem (k : Nat) : '{' ∉ (toString k).toList ++ ['}'] := by
  intro inside
  rcases List.mem_append.1 inside with inside | inside
  · exact absurd (isDigit_of_mem inside) (by decide)
  · exact absurd (List.mem_singleton.1 inside) (by decide)

theorem placeholder_inj {i : Nat} {rest rest' : List Char}
    (same : placeholder k ++ rest = placeholder i ++ rest') : k = i := by
  have digits : ∀ (n : Nat) (rest : List Char),
      ((toString n).toList ++ '}' :: rest).takeWhile Char.isDigit = (toString n).toList := by
    intro n rest
    rw [List.takeWhile_append_of_pos fun c => isDigit_of_mem, List.takeWhile_cons_of_neg (by decide),
      List.append_nil]
  simp only [placeholder, List.cons_append, List.append_assoc, List.nil_append, List.cons.injEq,
    true_and] at same
  have equal := congrArg (List.takeWhile Char.isDigit) same
  rw [digits, digits, Nat.toString_eq_ofList_toDigits, Nat.toString_eq_ofList_toDigits,
    String.toList_ofList, String.toList_ofList] at equal
  rw [← Nat.ofDigitChars_ten_toDigits (n := k), equal, Nat.ofDigitChars_ten_toDigits]

/-- How often a pattern begins in a text. -/
def occurrences (pattern : List Char) : List Char → Nat
  | [] => 0
  | c :: cs => (if pattern.isPrefixOf (c :: cs) then 1 else 0) + occurrences pattern cs

theorem occurrences_append_le (pattern xs rest : List Char) :
    occurrences pattern rest ≤ occurrences pattern (xs ++ rest) := by
  induction xs with
  | nil => exact Nat.le_refl _
  | cons x xs ih =>
    rw [List.cons_append, occurrences]
    omega

theorem occurrences_plain {xs : List Char} (plain : '{' ∉ xs) (rest : List Char) :
    occurrences (placeholder k) (xs ++ rest) = occurrences (placeholder k) rest := by
  induction xs with
  | nil => rfl
  | cons x xs ih =>
    rw [List.mem_cons, not_or] at plain
    have other : (placeholder k).isPrefixOf (x :: (xs ++ rest)) = false := by
      simp [placeholder, List.isPrefixOf, plain.1]
    rw [List.cons_append, occurrences, other, ih plain.2]
    simp

theorem begins_iff {i : Nat} (rest : List Char) :
    (placeholder k).isPrefixOf (placeholder i ++ rest) = true ↔ i = k := by
  rw [List.isPrefixOf_iff_prefix]
  constructor
  · rintro ⟨tail, same⟩
    exact (placeholder_inj same).symm
  · rintro rfl
    exact List.prefix_append ..

theorem occurrences_placeholder (i : Nat) (rest : List Char) :
    occurrences (placeholder k) (placeholder i ++ rest) =
      (if i = k then 1 else 0) + occurrences (placeholder k) rest := by
  have split : placeholder i ++ rest = '{' :: ((toString i).toList ++ ['}'] ++ rest) := rfl
  have begins := begins_iff (k := k) (i := i) rest
  rw [split] at begins ⊢
  rw [occurrences, occurrences_plain (brace_not_mem i), if_congr begins rfl rfl]

theorem replaceFrom_append {pattern xs rest : List Char}
    (none : occurrences pattern (xs ++ rest) ≤ occurrences pattern rest) :
    replaceFrom pattern value 0 (xs ++ rest) = xs ++ replaceFrom pattern value 0 rest := by
  induction xs with
  | nil => rfl
  | cons x xs ih =>
    have later := occurrences_append_le pattern xs rest
    rw [List.cons_append, occurrences] at none
    have other : pattern.isPrefixOf (x :: (xs ++ rest)) = false := by
      by_contra here
      rw [if_pos (by simpa using here)] at none
      omega
    rw [List.cons_append, replaceFrom, other, if_neg Bool.false_ne_true, ih (by omega),
      List.cons_append]

theorem replaceFrom_passed (pattern value xs rest : List Char) :
    replaceFrom pattern value xs.length (xs ++ rest) = replaceFrom pattern value 0 rest := by
  induction xs with
  | nil => rfl
  | cons x xs ih => exact ih

theorem replaceFrom_placeholder (rest : List Char) :
    replaceFrom (placeholder k) value 0 (placeholder k ++ rest) =
      value ++ replaceFrom (placeholder k) value 0 rest := by
  have begins := (begins_iff (k := k) (i := k) rest).2 rfl
  have passed := replaceFrom_passed (placeholder k) value ((toString k).toList ++ ['}']) rest
  have length : (placeholder k).length - 1 = ((toString k).toList ++ ['}']).length := rfl
  have split : placeholder k ++ rest = '{' :: ((toString k).toList ++ ['}'] ++ rest) := rfl
  rw [split] at begins ⊢
  rw [replaceFrom, if_pos begins, length, passed]

theorem replaceAll_placeholder (value rest : List Char) :
    replaceAll (placeholder k) value (placeholder k ++ rest) =
      value ++ replaceAll (placeholder k) value rest :=
  replaceFrom_placeholder rest

theorem replaceAll_plain {xs : List Char} (plain : '{' ∉ xs) (rest : List Char) :
    replaceAll (placeholder k) value (xs ++ rest) = xs ++ replaceAll (placeholder k) value rest :=
  replaceFrom_append (Nat.le_of_eq (occurrences_plain plain rest))

section Scan

variable {c : Char} {cs : List Char}

theorem occurrences_char (other : ¬(placeholder k <+: c :: cs)) :
    occurrences (placeholder k) (c :: cs) = occurrences (placeholder k) cs := by
  rw [← List.isPrefixOf_iff_prefix] at other
  rw [occurrences, if_neg other, Nat.zero_add]

theorem replaceAll_char (other : ¬(placeholder k <+: c :: cs)) :
    replaceAll (placeholder k) value (c :: cs) = c :: replaceAll (placeholder k) value cs := by
  rw [← List.isPrefixOf_iff_prefix] at other
  rw [replaceAll, replaceFrom, if_neg other, replaceAll]

/-- A text is scanned from the left: a placeholder is passed over as a whole, and another
character by itself. -/
@[elab_as_elim]
theorem scan_induction {motive : List Char → Prop} (k : Nat) (text : List Char) (nil : motive [])
    (hole : ∀ rest, motive rest → motive (placeholder k ++ rest))
    (char : ∀ c cs, ¬(placeholder k <+: c :: cs) → motive cs → motive (c :: cs)) : motive text := by
  induction size : text.length using Nat.strong_induction_on generalizing text with
  | _ n ih =>
    cases text with
    | nil => exact nil
    | cons c cs =>
      by_cases begins : placeholder k <+: c :: cs
      · obtain ⟨rest, same⟩ := begins
        have length := congrArg List.length same
        rw [List.length_append, placeholder, List.length_cons] at length
        rw [← same]
        exact hole rest (ih _ (by omega) rest rfl)
      · rw [List.length_cons] at size
        exact char c cs begins (ih _ (by omega) cs rfl)

theorem count_replaceAll (c : Char) (plain : c ∉ placeholder k) (value text : List Char) :
    (replaceAll (placeholder k) value text).count c =
      text.count c + occurrences (placeholder k) text * value.count c := by
  induction text using scan_induction k with
  | nil => simp [replaceAll, replaceFrom, occurrences]
  | hole rest ih =>
    rw [replaceAll_placeholder, occurrences_placeholder, if_pos rfl, List.count_append, ih,
      List.count_append, List.count_eq_zero_of_not_mem plain, Nat.add_mul]
    omega
  | char d cs other ih =>
    rw [replaceAll_char other, occurrences_char other, List.count_cons, List.count_cons, ih]
    omega

theorem length_replaceAll (k : Nat) (value text : List Char) :
    (replaceAll (placeholder k) value text).length +
        occurrences (placeholder k) text * (placeholder k).length =
      text.length + occurrences (placeholder k) text * value.length := by
  induction text using scan_induction k with
  | nil => simp [replaceAll, replaceFrom, occurrences]
  | hole rest ih =>
    rw [replaceAll_placeholder, occurrences_placeholder, if_pos rfl, List.length_append,
      List.length_append, Nat.add_mul, Nat.add_mul]
    omega
  | char d cs other ih =>
    rw [replaceAll_char other, occurrences_char other, List.length_cons, List.length_cons]
    omega

theorem replaceAll_of_none {text : List Char} (none : occurrences (placeholder k) text = 0) :
    replaceAll (placeholder k) value text = text := by
  have only : occurrences (placeholder k) (text ++ []) ≤ occurrences (placeholder k) [] := by
    rw [List.append_nil, none]
    exact Nat.zero_le _
  have whole : replaceFrom _ value _ _ = _ := replaceFrom_append only
  simpa [replaceFrom, replaceAll] using whole

theorem occurrences_eq_zero_iff {text : List Char} :
    occurrences (placeholder k) text = 0 ↔ ¬(placeholder k <:+: text) := by
  induction text with
  | nil => simp [occurrences, placeholder]
  | cons d ds ih =>
    rw [List.infix_cons_iff, not_or, ← ih, ← List.isPrefixOf_iff_prefix, occurrences]
    by_cases begins : (placeholder k).isPrefixOf (d :: ds) = true <;> simp [begins]

theorem prefix_seam (plain : c ∉ placeholder k) (xs ys : List Char) :
    placeholder k <+: xs ++ c :: ys ↔ placeholder k <+: xs := by
  constructor
  · intro begins
    rcases List.prefix_or_prefix_of_prefix begins (List.prefix_append xs (c :: ys)) with
      inside | ⟨tail, same⟩
    · exact inside
    · rw [← same, List.prefix_append_right_inj] at begins
      cases tail with
      | nil => rw [← same, List.append_nil]
      | cons d tail =>
        rw [List.cons_prefix_cons] at begins
        rw [← same, begins.1] at plain
        exact absurd (List.mem_append_right xs List.mem_cons_self) plain
  · exact fun begins => begins.trans (List.prefix_append ..)

theorem not_prefix_cons (plain : c ∉ placeholder k) (ys : List Char) :
    ¬(placeholder k <+: c :: ys) := by
  rintro ⟨tail, same⟩
  rw [← (List.cons.inj same).1] at plain
  exact plain List.mem_cons_self

theorem occurrences_seam (plain : c ∉ placeholder k) (xs ys : List Char) :
    occurrences (placeholder k) (xs ++ c :: ys) =
      occurrences (placeholder k) xs + occurrences (placeholder k) ys := by
  induction xs with
  | nil => rw [List.nil_append, occurrences_char (not_prefix_cons plain ys), occurrences, Nat.zero_add]
  | cons x xs ih =>
    have begins : (placeholder k).isPrefixOf (x :: (xs ++ c :: ys)) = true ↔
        (placeholder k).isPrefixOf (x :: xs) = true := by
      rw [List.isPrefixOf_iff_prefix, List.isPrefixOf_iff_prefix]
      exact prefix_seam plain (x :: xs) ys
    rw [List.cons_append, occurrences, occurrences, ih, if_congr begins rfl rfl, Nat.add_assoc]

theorem replaceAll_seam (plain : c ∉ placeholder k) (value xs ys : List Char) :
    replaceAll (placeholder k) value (xs ++ c :: ys) =
      replaceAll (placeholder k) value xs ++ c :: replaceAll (placeholder k) value ys := by
  induction xs using scan_induction k with
  | nil => exact replaceAll_char (not_prefix_cons plain ys)
  | hole rest ih =>
    rw [List.append_assoc, replaceAll_placeholder, ih, replaceAll_placeholder, List.append_assoc]
  | char d ds other ih =>
    have other' : ¬(placeholder k <+: d :: (ds ++ c :: ys)) :=
      fun begins => other ((prefix_seam plain (d :: ds) ys).1 begins)
    rw [List.cons_append, replaceAll_char other', ih, replaceAll_char other, List.cons_append]

end Scan

inductive Fragment where
  | char (c : Char)
  | hole (index : Nat)
  deriving DecidableEq

def opening? (count : Nat) (text : List Char) : Option Nat :=
  (List.range count).find? fun index => (placeholder index).isPrefixOf text

/-- A template with `count` arguments, cut into characters and places. The counter says how many
characters of a placeholder are still to be passed over. -/
def fragmentsFrom (count : Nat) : Nat → List Char → List Fragment
  | _, [] => []
  | passed + 1, _ :: cs => fragmentsFrom count passed cs
  | 0, c :: cs => match opening? count (c :: cs) with
    | some index => .hole index :: fragmentsFrom count ((placeholder index).length - 1) cs
    | none => .char c :: fragmentsFrom count 0 cs

/-- What is put for a piece. Places without an argument keep their placeholders. -/
def Fragment.shown (values : List String) : Fragment → List Char
  | char c => [c]
  | hole index => match values[index]? with
    | some value => value.toList
    | none => placeholder index

/-- A template with the first `k` of its arguments in their places, put there at once. -/
def inserted (template : String) (values : List String) (k : Nat) : List Char :=
  (fragmentsFrom values.length 0 template.toList).flatMap (Fragment.shown (values.take k))

def substitute (template : String) (values : List String) : String :=
  String.ofList (inserted template values values.length)

variable {values : List String} {count : Nat}

theorem opening?_eq_some {c : Char} {cs : List Char} {index : Nat}
    (found : opening? count (c :: cs) = some index) :
    c :: cs = placeholder index ++ cs.drop ((placeholder index).length - 1) := by
  have begins := List.find?_some found
  rw [List.isPrefixOf_iff_prefix] at begins
  obtain ⟨rest, same⟩ := begins
  have tail : (toString index).toList ++ ['}'] ++ rest = cs := (List.cons.inj same).2
  have length : (placeholder index).length - 1 = ((toString index).toList ++ ['}']).length := rfl
  rw [length, ← tail, List.drop_left, tail, same]

theorem flatMap_fragmentsFrom (count passed : Nat) (text : List Char) :
    (fragmentsFrom count passed text).flatMap (Fragment.shown []) = text.drop passed := by
  induction text generalizing passed with
  | nil => cases passed <;> rfl
  | cons c cs ih =>
    cases passed with
    | succ passed => exact ih passed
    | zero =>
      rw [fragmentsFrom]
      split
      · next index found =>
        rw [List.flatMap_cons, ih]
        exact (opening?_eq_some found).symm
      · rw [List.flatMap_cons, ih]
        rfl

theorem count_le_occurrences (small : values.length ≤ k) (fragments : List Fragment) :
    fragments.count (.hole k) ≤
      occurrences (placeholder k) (fragments.flatMap (Fragment.shown values)) := by
  induction fragments with
  | nil => exact Nat.le_refl _
  | cons f rest ih =>
    rw [List.flatMap_cons]
    by_cases h : f = .hole k
    · subst h
      have shown : Fragment.shown values (.hole k) = placeholder k := by
        rw [Fragment.shown, List.getElem?_eq_none small]
      rw [shown, occurrences_placeholder, List.count_cons_self, if_pos rfl]
      omega
    · rw [List.count_cons_of_ne h]
      exact ih.trans (occurrences_append_le ..)

theorem occurrences_template (fits : k < count) (passed : Nat) (text : List Char) :
    occurrences (placeholder k) (text.drop passed) = (fragmentsFrom count passed text).count (.hole k) := by
  induction text generalizing passed with
  | nil => cases passed <;> rfl
  | cons c cs ih =>
    cases passed with
    | succ passed => exact ih passed
    | zero =>
      rw [fragmentsFrom, List.drop_zero]
      split
      · next index found =>
        rw [opening?_eq_some found, occurrences_placeholder, ih, List.count_cons, Nat.add_comm]
        simp
      · next none =>
        have other : (placeholder k).isPrefixOf (c :: cs) = false := by
          have all := List.find?_eq_none.1 none k (List.mem_range.2 fits)
          exact Bool.eq_false_iff.2 all
        rw [occurrences, other, List.count_cons_of_ne (by simp), ← ih]
        simp

/-- Filling in one argument, where it brings no occurrence of its own. -/
theorem replaceAll_inserted {value : String} (here : values[k]? = some value)
    (fragments : List Fragment)
    (only : occurrences (placeholder k) (fragments.flatMap (Fragment.shown (values.take k))) ≤
      fragments.count (.hole k)) :
    replaceAll (placeholder k) value.toList (fragments.flatMap (Fragment.shown (values.take k))) =
      fragments.flatMap (Fragment.shown (values.take (k + 1))) := by
  have small : (values.take k).length ≤ k := List.length_take_le ..
  induction fragments with
  | nil => rfl
  | cons f rest ih =>
    have least := count_le_occurrences small rest
    rw [List.flatMap_cons] at only
    rw [List.flatMap_cons, List.flatMap_cons, replaceAll]
    by_cases h : f = .hole k
    · subst h
      have before : Fragment.shown (values.take k) (.hole k) = placeholder k := by
        rw [Fragment.shown, List.getElem?_eq_none small]
      have after : Fragment.shown (values.take (k + 1)) (.hole k) = value.toList := by
        simp [Fragment.shown, here]
      rw [before, occurrences_placeholder, List.count_cons_self, if_pos rfl] at only
      rw [before, after, replaceFrom_placeholder]
      exact congrArg _ (ih (by omega))
    · have same : f.shown (values.take (k + 1)) = f.shown (values.take k) := by
        cases f with
        | char c => rfl
        | hole index =>
          have other : index ≠ k := fun same => h (congrArg _ same)
          have less : index < k + 1 ↔ index < k := by omega
          simp [Fragment.shown, List.getElem?_take, less]
      rw [List.count_cons_of_ne h] at only
      have more := occurrences_append_le (placeholder k) (f.shown (values.take k))
        (rest.flatMap (Fragment.shown (values.take k)))
      rw [same, replaceFrom_append (by omega)]
      exact congrArg _ (ih (by omega))

/-- Putting in the first arguments makes no placeholder of a later argument: it occurs as often as
in the template. -/
def BringsNone (template : String) (values : List String) : Prop :=
  ∀ k < values.length, occurrences (placeholder k) (inserted template values k) =
    occurrences (placeholder k) template.toList

instance (template : String) (values : List String) : Decidable (BringsNone template values) :=
  inferInstanceAs (Decidable (∀ k < values.length, _))

theorem inserted_zero (template : String) (values : List String) :
    inserted template values 0 = template.toList :=
  flatMap_fragmentsFrom values.length 0 template.toList

theorem fillFrom_inserted {template : String} (brings : BringsNone template values) {k : Nat}
    {rest : List String} (split : values.drop k = rest) :
    fillFrom (inserted template values k) k rest = inserted template values values.length := by
  induction rest generalizing k with
  | nil =>
    have all : values.length ≤ k := List.drop_eq_nil_iff.1 split
    rw [fillFrom, inserted, inserted, List.take_of_length_le all, List.take_length]
  | cons value rest ih =>
    have less : k < values.length := by
      by_contra beyond
      rw [List.drop_eq_nil_of_le (by omega)] at split
      cases split
    have here : values[k]? = some value := by
      rw [← List.head?_drop, split, List.head?_cons]
    have next : values.drop (k + 1) = rest := by
      rw [← List.tail_drop, split, List.tail_cons]
    have only := brings k less
    rw [← List.drop_zero (l := template.toList), occurrences_template less] at only
    have step : replaceAll (placeholder k) value.toList (inserted template values k) =
        inserted template values (k + 1) := replaceAll_inserted here _ (Nat.le_of_eq only)
    rw [fillFrom, step, ih next]

/-- Where no argument brings a placeholder of a later one, filling argument by argument is filling
all places at once. -/
theorem fill_eq_substitute {template : String} (brings : BringsNone template values) :
    fill template values = substitute template values := by
  rw [fill, substitute, ← inserted_zero template values, fillFrom_inserted brings List.drop_zero]

theorem bringsNone_single (template value : String) : BringsNone template [value] := by
  intro k less
  have first : k = 0 := by simpa using less
  subst first
  rw [inserted_zero]

end DeployCheck.Text
