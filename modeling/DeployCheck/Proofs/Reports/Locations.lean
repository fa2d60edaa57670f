import DeployCheck.Proofs.Reports.Entries
import DeployCheck.Proofs.Source.Lines

/-!
# Locations in reports

The text report counts lines and columns from one, in words of 32 bits, and the JSON report from
zero. Line starts and offsets stay below the last offset, and so do lines and characters, but
for a diagnostic at the last offset itself: there the count from one can start again at zero.
-/

set_option autoImplicit false

namespace DeployCheck

namespace LineMap

def newlines (source : String) : Nat := source.toList.count '\n'

theorem le_getD_startsFrom (cs : List Char) (base i : Nat)
    (inside : i < (startsFrom base cs).length) :
    min (base + i + 1) lastOffset ≤ (startsFrom base cs).getD i 0 := by
  induction cs generalizing base i with
  | nil => exact absurd inside (Nat.not_lt_zero i)
  | cons c cs ih =>
    have wide := c.utf8Size_pos
    rw [startsFrom] at inside ⊢
    by_cases newline : c = '\n'
    · rw [if_pos newline] at inside ⊢
      cases i with
      | zero =>
        rw [List.getD_cons_zero]
        omega
      | succ i =>
        have later := ih (base + c.utf8Size) i (Nat.lt_of_succ_lt_succ inside)
        rw [List.getD_cons_succ]
        omega
    · rw [if_neg newline] at inside ⊢
      have later := ih (base + c.utf8Size) i inside
      omega

theorem startsFrom_ordered (cs : List Char) (base : Nat) :
    (startsFrom base cs).Pairwise (· ≤ ·) := by
  induction cs generalizing base with
  | nil => exact .nil
  | cons c cs ih =>
    rw [startsFrom]
    by_cases newline : c = '\n'
    · rw [if_pos newline]
      refine .cons (fun s later => ?_) (ih _)
      obtain ⟨i, inside, rfl⟩ := List.mem_iff_getElem.1 later
      have least := le_getD_startsFrom cs (base + c.utf8Size) i inside
      rw [List.getD_eq_getElem _ _ inside] at least
      omega
    · rw [if_neg newline]
      exact ih _

theorem length_startsFrom (cs : List Char) (base : Nat) :
    (startsFrom base cs).length = cs.count '\n' := by
  induction cs generalizing base with
  | nil => rfl
  | cons c cs ih =>
    rw [startsFrom]
    by_cases newline : c = '\n'
    · rw [if_pos newline, List.length_cons, ih, newline, List.count_cons_self]
    · rw [if_neg newline, ih, List.count_cons_of_ne newline]

theorem mem_startsFrom {cs : List Char} {base s : Nat} (member : s ∈ startsFrom base cs) :
    0 < s ∧ s ≤ lastOffset := by
  induction cs generalizing base with
  | nil => cases member
  | cons c cs ih =>
    have wide := c.utf8Size_pos
    rw [startsFrom] at member
    by_cases newline : c = '\n'
    · rw [if_pos newline, List.mem_cons] at member
      rcases member with rfl | later
      · rw [lastOffset]
        omega
      · exact ih later
    · rw [if_neg newline] at member
      exact ih member

variable {source : String} {offset : Nat}

theorem lineOf_ofSource (source : String) (offset : Nat) :
    LastUpTo (ofSource source).starts offset ((ofSource source).lineOf offset) :=
  lineOf_last (.cons (fun s _ => Nat.zero_le s) (startsFrom_ordered ..)) rfl

theorem character_position (source : String) (offset : Nat) :
    ∃ start ∈ (ofSource source).starts,
      start + ((ofSource source).position offset).character = offset := by
  obtain ⟨inside, upTo, -⟩ := lineOf_ofSource source offset
  have place := List.getD_eq_getElem (ofSource source).starts 0 inside
  refine ⟨_, List.getElem_mem inside, ?_⟩
  rw [← place]
  exact Nat.add_sub_cancel' upTo

theorem position_early (early : offset < lastOffset) :
    ((ofSource source).position offset).line < lastOffset ∧
      ((ofSource source).position offset).character < lastOffset := by
  obtain ⟨inside, upTo, -⟩ := lineOf_ofSource source offset
  have line : (ofSource source).lineOf offset ≤ offset := by
    cases number : (ofSource source).lineOf offset with
    | zero => exact Nat.zero_le offset
    | succ i =>
      rw [number] at inside upTo
      have least := le_getD_startsFrom source.toList 0 i (Nat.lt_of_succ_lt_succ inside)
      have start : (startsFrom 0 source.toList).getD i 0 ≤ offset := upTo
      omega
  obtain ⟨start, -, found⟩ := character_position source offset
  rw [position] at *
  dsimp only at *
  omega

theorem position_last (source : String) :
    ((ofSource source).position lastOffset).line = min (newlines source) lastOffset ∧
      (((ofSource source).position lastOffset).character < lastOffset ↔ 0 < newlines source) := by
  obtain ⟨inside, -, last⟩ := lineOf_ofSource source lastOffset
  have length : (ofSource source).starts.length = newlines source + 1 :=
    congrArg Nat.succ (length_startsFrom source.toList 0)
  -- Nothing starts behind the last offset.
  have line : (ofSource source).lineOf lastOffset = newlines source := by
    by_contra other
    have next : newlines source < (ofSource source).starts.length := by omega
    have beyond := last (newlines source) (by omega) next
    rw [List.getD_eq_getElem _ _ next] at beyond
    rcases List.mem_cons.1 (List.getElem_mem next) with first | later
    · omega
    · have := (mem_startsFrom later).2
      omega
  rw [position, line]
  refine ⟨rfl, ?_⟩
  show lastOffset - (ofSource source).starts.getD (newlines source) 0 < lastOffset ↔ _
  cases number : newlines source with
  | zero => exact ⟨fun less => absurd less (Nat.lt_irrefl _), fun less => absurd less (Nat.lt_irrefl _)⟩
  | succ i =>
    have next : i < (startsFrom 0 source.toList).length := by
      rw [length_startsFrom]
      exact Nat.lt_of_lt_of_eq (Nat.lt_succ_self i) number.symm
    have bounds := mem_startsFrom (List.getElem_mem next)
    rw [← List.getD_eq_getElem _ 0 next] at bounds
    show lastOffset - (startsFrom 0 source.toList).getD i 0 < lastOffset ↔ _
    omega

end LineMap

namespace CommandLine

open Json LineMap

theorem countFromOne_eq_iff {n : Nat} : countFromOne n = n + 1 ↔ n < lastOffset := by
  rw [countFromOne, Word.count32, lastOffset]
  omega

theorem countFromOne_le (n : Nat) : countFromOne n ≤ lastOffset := by
  rw [countFromOne, Word.count32, lastOffset]
  omega

theorem counts_iff {source : String} {offset : Nat} (bounded : offset ≤ lastOffset) :
    (countFromOne ((ofSource source).position offset).line =
        ((ofSource source).position offset).line + 1 ∧
      countFromOne ((ofSource source).position offset).character =
        ((ofSource source).position offset).character + 1) ↔
    offset < lastOffset ∨ 0 < newlines source ∧ newlines source < lastOffset := by
  rw [countFromOne_eq_iff, countFromOne_eq_iff]
  rcases Nat.lt_or_eq_of_le bounded with early | rfl
  · exact ⟨fun _ => .inl early, fun _ => position_early early⟩
  · obtain ⟨line, character⟩ := position_last source
    have countable : min (newlines source) lastOffset < lastOffset ↔ newlines source < lastOffset := by
      omega
    rw [line, character, countable, and_comm]
    simp

theorem entry_spanned {s : Summary} (compiled : s.IsCompiled) {e : Entry} (member : e ∈ s.entries) :
    e.diagnostic.start + e.diagnostic.length ≤ lastOffset := by
  obtain ⟨c, output, -, member⟩ := mem_entries.1 member
  obtain ⟨u, overrides, compiled⟩ := compiled c output
  obtain ⟨m, -, stems⟩ := CompilationUnit.compile_stems compiled
  obtain ⟨-, span, start, length⟩ := (stems _ member).spanned
  have ordered := span.ordered
  have bounded := span.bounded
  rw [start, length, Span.length]
  omega

/-- A diagnostic of a unit with a source text ends at the last offset at the latest, and its line
starts before it. At the same place of both reports there are the position in the JSON report
and the counts from one, which fit 32 bits, at the head of the line in the text report. They are
those of the JSON report plus one exactly if the diagnostic does not start at the last offset, or
else the text has a newline, and not more of them than can be counted. -/
theorem reports_locate {s : Summary} (compiled : s.IsCompiled) (color : Bool) {i : Nat}
    {source : String} {d : Diagnostic} (entry : s.entries[i]? = some ⟨some source, d⟩) :
    ∃ (p : Position) (line column : Nat) (rest : String) (values : List Value) (failures : Value),
      (s.lines color)[i]? = some
        (d.file ++ ":" ++ toString line ++ ":" ++ toString column ++ " - " ++ rest) ∧
      s.value = .object [("diagnostics", .array values), ("failures", failures)] ∧
      values[i]? = some (.object (diagnosticMembers d ++ [("position", positionValue p)])) ∧
      d.start + d.length ≤ lastOffset ∧
      (∃ start ∈ (LineMap.ofSource source).starts, start + p.character = d.start) ∧
      line ≤ lastOffset ∧ column ≤ lastOffset ∧
      (line = p.line + 1 ∧ column = p.character + 1 ↔
        d.start < lastOffset ∨ 0 < newlines source ∧ newlines source < lastOffset) := by
  have spanned := entry_spanned compiled (List.mem_of_getElem? entry)
  have first : d.start ≤ lastOffset := Nat.le_trans (Nat.le_add_right _ _) spanned
  refine ⟨(LineMap.ofSource source).position d.start,
    countFromOne ((LineMap.ofSource source).position d.start).line,
    countFromOne ((LineMap.ofSource source).position d.start).character,
    paintSeverity color d.severity ++ " " ++ codeStyle.paint color d.codeText ++ ": " ++ d.message,
    s.entries.map Entry.value, .array (s.failures.map failureValue), ?_, value_entries s, ?_, spanned,
    character_position source d.start, countFromOne_le _, countFromOne_le _, counts_iff first⟩
  · have inside : i < (s.entries.map (Entry.line color)).length := by
      rw [List.length_map]
      exact (List.getElem?_eq_some_iff.1 entry).1
    rw [lines_entries, List.getElem?_append_left inside, List.getElem?_map, entry]
    simp [Entry.line, diagnosticLine, location, String.append_assoc]
  · rw [List.getElem?_map, entry]
    rfl

def unknownLast (source : String) : CompilationUnit where
  file := "main.json"
  source := some source
  types := []
  program :=
    [.output "o" (.array [.null (some (.point lastOffset)), .ident "a" none] none) none]

def unknownDiagnostic : Diagnostic where
  file := "main.json"
  start := lastOffset
  length := 0
  message := "The name \"a\" does not exist in the current context."
  severity := .error
  code := 57
  members := none

theorem emitted_unknownLast (source : String) :
    (unknownLast source).emitted? none = some [unknownDiagnostic] := by
  have any : (unknownLast source).emitted? none = (unknownLast "").emitted? none := rfl
  rw [any]
  decide +kernel

theorem reports_locate_second : ∃ s : Summary, s.IsCompiled ∧
    s.entries[0]? = some ⟨some "x\ny", unknownDiagnostic⟩ ∧
    ∃ (p : Position) (line column : Nat) (rest : String),
      (s.lines false)[0]? = some
        ("main.json" ++ ":" ++ toString line ++ ":" ++ toString column ++ " - " ++ rest) ∧
      line = p.line + 1 ∧ column = p.character + 1 := by
  obtain ⟨s, compiled, -, entries⟩ := exists_summary (emitted_unknownLast "x\ny") []
  have entry : s.entries[0]? = some ⟨some "x\ny", unknownDiagnostic⟩ := by
    rw [entries]
    rfl
  obtain ⟨p, line, column, rest, -, -, text, -, -, -, -, -, -, counts⟩ :=
    reports_locate compiled false entry
  exact ⟨s, compiled, entry, p, line, column, rest, text, counts.2 (.inr (by decide))⟩

/-- At the last offset of a single line the columns start again at zero. -/
theorem lastOffset_wraps : ∃ s : Summary, s.IsCompiled ∧
    s.entries = [⟨some "x", unknownDiagnostic⟩] ∧
    s.lines false =
      ["main.json:1:0 - error BCP057: The name \"a\" does not exist in the current context."] ∧
    s.value = .object
      [("diagnostics", .array [.object (diagnosticMembers unknownDiagnostic ++
        [("position", positionValue ⟨0, 4294967295⟩)])]), ("failures", .array [])] := by
  obtain ⟨s, compiled, failures, entries⟩ := exists_summary (emitted_unknownLast "x") []
  refine ⟨s, compiled, entries, ?_, ?_⟩
  · rw [lines_entries, entries, failures]
    decide +kernel
  · have place : (LineMap.ofSource "x").position lastOffset = ⟨0, 4294967295⟩ := by decide
    rw [value_entries, entries, failures, ← place]
    rfl

end CommandLine

end DeployCheck
