import DeployCheck.Json.Printer
import DeployCheck.Json.Token
import Mathlib.Data.List.Forall2
import Mathlib.Data.List.TakeDrop

/-!
# Texts of tokens

What spells a token, and that reading it from the front of a text gives the token and the
rest. A character of a string may be spelled by itself, by a short escape, by its code or
by a pair of surrogates. An integer is spelled by its decimal digits, and the rest must
not go on as a number.
-/

set_option autoImplicit false

namespace DeployCheck.Json

def Begins (cs : List Char) (t : Token) (rest : List Char) : Prop :=
  ∃ c tail, cs = c :: tail ∧ Token.isSpace c = false ∧ Token.read c (tail ++ rest) = (t, rest)

section Words

open Token

variable (rest : List Char)

theorem begins_null : Begins ['n', 'u', 'l', 'l'] .null rest :=
  ⟨'n', ['u', 'l', 'l'], rfl, rfl, rfl⟩

theorem begins_true : Begins ['t', 'r', 'u', 'e'] (.bool true) rest :=
  ⟨'t', ['r', 'u', 'e'], rfl, rfl, rfl⟩

theorem begins_false : Begins ['f', 'a', 'l', 's', 'e'] (.bool false) rest :=
  ⟨'f', ['a', 'l', 's', 'e'], rfl, rfl, rfl⟩

end Words

inductive SpellsChar : Char → List Char → Prop where
  | plain {c : Char} (printable : 32 ≤ c.toNat) (quote : c ≠ '"') (escape : c ≠ '\\') :
      SpellsChar c [c]
  | short {c e : Char} (h : Token.escaped? e = some c) : SpellsChar c ['\\', e]
  | code {a b c d : Char} {n : Nat} (quad : Token.hexQuad a b c d = some n)
      (high : Token.isHighSurrogate n = false) (low : Token.isLowSurrogate n = false) :
      SpellsChar (Char.ofNat n) ['\\', 'u', a, b, c, d]
  | pair {a b c d a' b' c' d' : Char} {h l : Nat} (quad : Token.hexQuad a b c d = some h)
      (quad' : Token.hexQuad a' b' c' d' = some l) (high : Token.isHighSurrogate h = true)
      (low : Token.isLowSurrogate h = false) (low' : Token.isLowSurrogate l = true) :
      SpellsChar (Token.joinSurrogates h l)
        ['\\', 'u', a, b, c, d, '\\', 'u', a', b', c', d']

def SpellsString (text : String) (cs : List Char) : Prop :=
  ∃ pieces, List.Forall₂ SpellsChar text.toList pieces ∧ cs = '"' :: (pieces.flatten ++ ['"'])

open Token

theorem readString_char {c : Char} {piece : List Char} (h : SpellsChar c piece)
    (done rest : List Char) :
    readString none none done (piece ++ rest) = readString none none (c :: done) rest := by
  cases h with
  | plain printable quote escape =>
    rw [List.singleton_append, readString]
    · rw [if_neg (by omega)]
      rfl
    · exact quote
    · exact escape
  | short h =>
    unfold escaped? at h
    split at h
    all_goals cases h
    all_goals simp [readString, escaped?, unpaired]
  | code quad high low => simp [readString, quad, high, low]
  | pair quad quad' high low low' => simp [readString, quad, quad', high, low, low']

theorem readString_pieces {cs : List Char} {pieces : List (List Char)}
    (h : List.Forall₂ SpellsChar cs pieces) (done rest : List Char) :
    readString none none done (pieces.flatten ++ '"' :: rest) =
      (.string (.ok (String.ofList (done.reverse ++ cs))), rest) := by
  induction h generalizing done with
  | nil => simp [readString, unpaired]
  | cons spelled _ ih =>
    rw [List.flatten_cons, List.append_assoc, readString_char spelled, ih]
    simp

theorem begins_string {text : String} {cs : List Char} (h : SpellsString text cs)
    (rest : List Char) : Begins cs (.string (.ok text)) rest := by
  obtain ⟨pieces, spelled, rfl⟩ := h
  refine ⟨'"', _, rfl, rfl, ?_⟩
  rw [List.append_assoc, List.singleton_append]
  show readString none none [] _ = _
  rw [readString_pieces spelled, List.reverse_nil, List.nil_append, String.ofList_toList]

def quadOf (n : Nat) : List Char :=
  List.replicate (4 - (Text.hexText n).toList.length) '0' ++ (Text.hexText n).toList

theorem hexNumber?_quadOf : ∀ n < 32,
    (quadOf n).length = 4 ∧ Text.hexNumber? (quadOf n) = some n := by
  decide +kernel

theorem spells_control {n : Nat} (control : n < 32) :
    SpellsChar (Char.ofNat n) (['\\', 'u'] ++ quadOf n) := by
  obtain ⟨four, number⟩ := hexNumber?_quadOf n control
  match digits : quadOf n, four with
  | [a, b, c, d], _ =>
    rw [digits] at number
    have high : isHighSurrogate n = false := by simp [isHighSurrogate]; omega
    have low : isLowSurrogate n = false := by simp [isLowSurrogate]; omega
    exact .code number high low

theorem spells_escape (c : Char) : SpellsChar c (escape c) := by
  unfold escape
  split
  all_goals try exact .short rfl
  next quote slash _ _ _ _ _ =>
    dsimp only
    split
    · next control =>
      have spelled := spells_control control
      rw [Char.ofNat_toNat] at spelled
      exact spelled
    · next printable => exact .plain (Nat.le_of_not_lt printable) quote slash

theorem spells_quote (text : String) : SpellsString text (quote text).toList := by
  refine ⟨text.toList.map escape, ?_, ?_⟩
  · rw [List.forall₂_map_right_iff, List.forall₂_same]
    exact fun c _ => spells_escape c
  · simp [quote, List.flatMap]

/-- The rest of a text does not go on as a number. -/
def Ends (rest : List Char) : Prop :=
  ∀ c ∈ rest.head?, c.isDigit = false ∧ c ≠ '.' ∧ c ≠ 'e' ∧ c ≠ 'E'

theorem natOf_toDigits (n : Nat) : natOf (Nat.toDigits 10 n) = n := by
  have digits := Nat.ofDigitChars_toDigits (b := 10) (n := n) (by decide) (by decide)
  rw [Nat.ofDigitChars_eq_foldl] at digits
  exact digits

theorem toDigits_head (n : Nat) (positive : 0 < n) :
    ∃ c cs, Nat.toDigits 10 n = c :: cs ∧ c ≠ '0' := by
  induction n using Nat.strongRecOn with
  | ind n ih =>
    rw [Nat.toDigits_eq_if (by decide)]
    split
    · next small =>
      refine ⟨_, [], rfl, ?_⟩
      have nonzero : ∀ k < 10, 0 < k → k.digitChar ≠ '0' := by decide
      exact nonzero n small positive
    · next large =>
      obtain ⟨c, cs, head, nonzero⟩ := ih (n / 10) (by omega) (by omega)
      exact ⟨c, cs ++ [(n % 10).digitChar], by rw [head]; rfl, nonzero⟩

theorem span_toDigits (n : Nat) {rest : List Char} (ends : Ends rest) :
    (Nat.toDigits 10 n ++ rest).span Char.isDigit = (Nat.toDigits 10 n, rest) := by
  have digits : ∀ c ∈ Nat.toDigits 10 n, c.isDigit = true :=
    fun c member => Nat.isDigit_of_mem_toDigits (by decide) (by decide) member
  rw [List.span_eq_takeWhile_dropWhile, List.takeWhile_append_of_pos digits,
    List.dropWhile_append_of_pos digits]
  cases rest with
  | nil => simp
  | cons c rest => simp [(ends c rfl).1]

theorem afterWhole_ends (negative : Bool) (digits : List Char) {rest : List Char}
    (ends : Ends rest) : afterWhole negative digits rest = (ofInteger negative digits, rest) := by
  cases rest with
  | nil => rfl
  | cons c rest =>
    obtain ⟨-, point, small, large⟩ := ends c rfl
    rw [afterWhole]
    · exact fun _ same => point (List.cons.inj same).1
    · exact fun _ same => small (List.cons.inj same).1
    · exact fun _ same => large (List.cons.inj same).1

theorem readNumber_toDigits (negative : Bool) (n : Nat) {rest : List Char} (ends : Ends rest) :
    readNumber negative (Nat.toDigits 10 n ++ rest) =
      (ofInteger negative (Nat.toDigits 10 n), rest) := by
  rw [readNumber, span_toDigits n ends]
  rcases Nat.eq_zero_or_pos n with rfl | positive
  · exact afterWhole_ends negative ['0'] ends
  · obtain ⟨c, cs, head, nonzero⟩ := toDigits_head n positive
    rw [head]
    split
    · next same => simp at same
    · next same => simp_all
    · next same =>
      cases same
      exact afterWhole_ends negative _ ends

theorem isSpace_of_isDigit {c : Char} (digit : c.isDigit = true) : isSpace c = false := by
  rw [isSpace, Bool.eq_false_iff]
  intro space
  simp only [Bool.or_eq_true, beq_iff_eq] at space
  rcases space with ((rfl | rfl) | rfl) | rfl <;> cases digit

theorem read_digit {c : Char} (digit : c.isDigit = true) (rest : List Char) :
    Token.read c rest = readNumber false (c :: rest) := by
  unfold Token.read
  split
  all_goals try cases digit
  exact if_pos digit

def IsWord (n : Int) : Prop := -Word.count64 ≤ 2 * n ∧ n < Word.count64

theorem begins_int {n : Int} (word : IsWord n) {rest : List Char} (ends : Ends rest) :
    Begins (toString n).toList (.int n) rest := by
  obtain ⟨low, high⟩ := word
  cases n with
  | ofNat n =>
    have text : (toString (Int.ofNat n)).toList = Nat.toDigits 10 n := by
      show (Nat.repr n).toList = _
      rw [Nat.repr_eq_ofList_toDigits, String.toList_ofList]
    have digits : ∀ c ∈ Nat.toDigits 10 n, c.isDigit = true :=
      fun c member => Nat.isDigit_of_mem_toDigits (by decide) (by decide) member
    have small : n < Word.count64 := by
      simp only [Int.ofNat_eq_natCast, Word.count64] at high ⊢
      omega
    rw [text]
    cases head : Nat.toDigits 10 n with
    | nil => exact absurd head Nat.toDigits_ne_nil
    | cons c cs =>
      have digit : c.isDigit = true := digits c (head ▸ List.mem_cons_self)
      refine ⟨c, cs, rfl, isSpace_of_isDigit digit, ?_⟩
      rw [read_digit digit, ← List.cons_append, ← head, readNumber_toDigits false n ends, ofInteger,
        natOf_toDigits]
      simp [small]
  | negSucc n =>
    have text : (toString (Int.negSucc n)).toList = '-' :: Nat.toDigits 10 (n + 1) := by
      show ("-" ++ Nat.repr (n + 1)).toList = _
      simp [Nat.repr_eq_ofList_toDigits]
    have small : 2 * (n + 1) ≤ Word.count64 := by
      simp only [Word.count64] at low ⊢
      omega
    rw [text]
    refine ⟨'-', _, rfl, rfl, ?_⟩
    show readNumber true _ = _
    rw [readNumber_toDigits true (n + 1) ends, ofInteger, natOf_toDigits]
    simp [small, Int.negSucc_eq]

end DeployCheck.Json
