import DeployCheck.Proofs.Messages
import DeployCheck.Proofs.Reports.Entries
import DeployCheck.Proofs.Types.RoundTrip

/-!
# Lines of the text report

The entries of the text report are joined with newlines, and nothing in an entry is escaped. So
cutting the report at its newlines gives the entries back exactly if no file name and no message
has a newline, and a message has one exactly if a name, type or member that it shows has one.
-/

set_option autoImplicit false

namespace DeployCheck

namespace Text

/-- A text goes over more than one line. -/
def Multiline (text : String) : Prop := '\n' ∈ text.toList

instance (text : String) : Decidable (Multiline text) := inferInstanceAs (Decidable (_ ∈ _))

def lines (text : String) : List String :=
  if text = "" then [] else (text.toList.splitOn '\n').map String.ofList

variable {s t text : String}

@[simp]
theorem multiline_append : Multiline (s ++ t) ↔ Multiline s ∨ Multiline t := by
  rw [Multiline, String.toList_append, List.mem_append]
  rfl

theorem splitOn_intercalate (separator : Char) {texts : List (List Char)} (some : texts ≠ []) :
    ([separator].intercalate texts).splitOn separator = texts.flatMap (List.splitOn separator) := by
  induction texts with
  | nil => exact absurd rfl some
  | cons first rest ih =>
    cases rest with
    | nil => rw [List.intercalate_singleton, List.flatMap_singleton]
    | cons second rest =>
      rw [List.intercalate_cons_cons, List.append_assoc, List.singleton_append,
        List.splitOn_append_cons_self, ih (List.cons_ne_nil _ _)]
      exact List.flatMap_cons.symm

theorem lines_intercalate {texts : List String} (filled : ∀ t ∈ texts, t ≠ "") :
    lines ("\n".intercalate texts) = texts.flatMap lines := by
  cases texts with
  | nil => rfl
  | cons first rest =>
    have joined : ("\n".intercalate (first :: rest)).toList =
        ['\n'].intercalate ((first :: rest).map String.toList) := String.toList_intercalate
    have nonempty : "\n".intercalate (first :: rest) ≠ "" := by
      intro empty
      rw [empty] at joined
      have one : first.toList ≠ [] := mt String.toList_eq_nil_iff.1 (filled first List.mem_cons_self)
      obtain ⟨c, member⟩ := List.exists_mem_of_ne_nil _ one
      have inside : c ∈ ['\n'].intercalate ((first :: rest).map String.toList) :=
        mem_intercalate_of_mem List.mem_cons_self member
      rw [← joined] at inside
      cases inside
    have some : (first :: rest).map String.toList ≠ [] := List.cons_ne_nil _ _
    rw [lines, if_neg nonempty, joined, splitOn_intercalate '\n' some, List.flatMap_map,
      List.map_flatMap]
    refine List.flatMap_congr fun t member => ?_
    rw [lines, if_neg (filled t member)]

theorem not_multiline_of_mem_lines (member : s ∈ lines text) : ¬Multiline s := by
  rw [lines] at member
  split at member
  · cases member
  · obtain ⟨piece, cut, rfl⟩ := List.mem_map.1 member
    rw [Multiline, String.toList_ofList]
    exact free_of_mem_splitOn cut

theorem lines_eq_singleton (filled : text ≠ "") (plain : ¬Multiline text) : lines text = [text] := by
  have whole : text.toList.splitOn '\n' = [text.toList] := List.splitOn_eq_singleton plain
  rw [lines, if_neg filled, whole, List.map_singleton, String.ofList_toList]

theorem not_multiline_nat (n : Nat) : ¬Multiline (toString n) := by
  intro inside
  exact absurd (isDigit_of_mem inside) (by decide)

theorem multiline_quotedList (names : List String) :
    Multiline (quotedList names) ↔ ∃ name ∈ names, Multiline name := by
  induction names with
  | nil => simp [quotedList_nil, Multiline]
  | cons name rest ih =>
    cases rest with
    | nil => simp [Multiline, toList_quotedList_single]
    | cons next rest =>
      rw [List.exists_mem_cons_iff, ← ih, Multiline, toList_quotedList_cons]
      simp [Multiline]

theorem multiline_refilled (value : String) (h : Multiline text) : Multiline (refilled value text) := by
  rw [Multiline, ← List.count_pos_iff] at *
  rw [refilled, String.toList_ofList, count_replaceAll '\n' (by decide)]
  omega

theorem multiline_of_refilled {value : String} (h : Multiline (refilled value text)) :
    Multiline text ∨ Multiline value := by
  rw [Multiline, Multiline]
  rw [Multiline, ← List.count_pos_iff, refilled, String.toList_ofList,
    count_replaceAll '\n' (by decide)] at h
  by_cases inside : '\n' ∈ text.toList
  · exact .inl inside
  · rw [List.count_eq_zero_of_not_mem inside, Nat.zero_add] at h
    exact .inr (List.count_pos_iff.1 (Nat.pos_of_mul_pos_left h))

theorem fill_around {template before after : String} (plain : '{' ∉ before.toList)
    (plain' : '{' ∉ after.toList)
    (split : template.toList = before.toList ++ placeholder 0 ++ after.toList) (value : String) :
    fill template [value] = before ++ value ++ after := by
  rw [fill_one plain plain' split, String.ofList_toList, String.ofList_toList]

theorem filled_duplicateName (name : String) : fill Rule.duplicateName.template [name] =
    "Identifier \"" ++ name ++ "\" is declared multiple times. Remove or rename the duplicates." :=
  fill_around (by decide) (by decide) (by decide) name

theorem filled_unknownName (name : String) : fill Rule.unknownName.template [name] =
    "The name \"" ++ name ++ "\" does not exist in the current context." :=
  fill_around (by decide) (by decide) (by decide) name

theorem multiline_clause {what name members : String} (plain : ¬Multiline what) :
    Multiline (clause what name members) ↔ Multiline name ∨ Multiline members := by
  have marks : ¬Multiline "\"" ∧ ¬Multiline "\" include " ∧ ¬Multiline "." := by decide
  simp [clause, plain, marks]

end Text

open Text

/-- The texts that a diagnostic shows: a name, a type, or a resource and its members. -/
inductive Diagnostic.Shows (d : Diagnostic) : List String → Prop where
  | duplicate (name : String) (same : d.message =
      "Identifier \"" ++ name ++ "\" is declared multiple times. Remove or rename the duplicates.") :
      Shows d [name]
  | unknown (name : String)
      (same : d.message = "The name \"" ++ name ++ "\" does not exist in the current context.") :
      Shows d [name]
  | untyped (type : TypeReference)
      (same : d.message = "Resource type \"" ++ type.text ++ "\" does not have types available.") :
      Shows d [type.text]
  | access (ms : AccessibleMembers) (payload : d.members = some ms) :
      Shows d (ms.resource :: (ms.properties ++ ms.functions))

theorem AccessibleMembers.multiline_functionsClause (ms : AccessibleMembers) (name : String) :
    Multiline (ms.functionsClause name) ↔
      ms.functions ≠ [] ∧ (Multiline name ∨ ∃ f ∈ ms.functions, Multiline f) := by
  rw [functionsClause]
  cases functions : ms.functions with
  | nil => simp [Multiline]
  | cons first rest =>
    rw [← multiline_quotedList]
    simp only [List.isEmpty_cons, ne_eq, reduceCtorEq, not_false_eq_true, true_and]
    exact multiline_clause (by decide)

theorem Access.multiline_message (a : Access) : Multiline a.message ↔
    ∃ text ∈ a.symbol.name :: (a.properties ++ a.functions), Multiline text := by
  have opening : ¬Multiline AccessibleMembers.opening := by
    rw [AccessibleMembers.opening, Multiline, String.toList_ofList]
    decide
  have shown : (∃ text ∈ a.symbol.name :: (a.properties ++ a.functions), Multiline text) ↔
      Multiline a.symbol.name ∨ Multiline (quotedList a.properties) ∨ ∃ f ∈ a.functions, Multiline f := by
    simp only [List.mem_cons, List.mem_append, multiline_quotedList, or_and_right, exists_or,
      exists_eq_left]
  have functions := a.members.multiline_functionsClause
    (refilled (quotedList a.functions) a.symbol.name)
  rw [shown, message_eq, multiline_append, multiline_append, multiline_clause (by decide)]
  generalize a.members.functionsClause _ = clause at *
  have clause_shown : Multiline clause → Multiline a.symbol.name ∨ ∃ f ∈ a.functions, Multiline f := by
    intro broken
    rcases (functions.1 broken).2 with name | member
    · rw [← multiline_quotedList]
      exact multiline_of_refilled name
    · exact .inr member
  constructor
  · rintro ((head | name | list) | broken)
    · exact absurd head opening
    · rcases multiline_of_refilled name with name | broken
      · rcases multiline_of_refilled name with name | list
        · exact .inl name
        · exact .inr (.inl list)
      · exact (clause_shown broken).imp_right .inr
    · rcases multiline_of_refilled list with list | broken
      · exact .inr (.inl list)
      · exact (clause_shown broken).imp_right .inr
    · exact (clause_shown broken).imp_right .inr
  · rintro (name | list | ⟨f, member, broken⟩)
    · exact .inl (.inr (.inl (multiline_refilled _ (multiline_refilled _ name))))
    · exact .inl (.inr (.inr (multiline_refilled _ list)))
    · exact .inr (functions.2 ⟨List.ne_nil_of_mem member, .inr ⟨f, member, broken⟩⟩)

theorem Diagnostic.stems_shows {m : Model} {d : Diagnostic} (stems : d.Stems m) :
    ∃ texts, d.Shows texts ∧ (Multiline d.message ↔ ∃ text ∈ texts, Multiline text) := by
  -- a template around one name or type
  have around : ∀ {before after text : String}, ¬Multiline before → ¬Multiline after →
      d.message = before ++ text ++ after → (Multiline d.message ↔ ∃ t ∈ [text], Multiline t) := by
    intro before after text first last same
    rw [same]
    simp [first, last]
  cases stems with
  | duplicate name same =>
    have shown : d.message = "Identifier \"" ++ name.name ++
        "\" is declared multiple times. Remove or rename the duplicates." := by
      rw [same]
      exact filled_duplicateName name.name
    exact ⟨_, .duplicate _ shown, around (by decide) (by decide) shown⟩
  | unknown name same =>
    have shown : d.message = "The name \"" ++ name.name ++
        "\" does not exist in the current context." := by
      rw [same]
      exact filled_unknownName name.name
    exact ⟨_, .unknown _ shown, around (by decide) (by decide) shown⟩
  | untyped span type same =>
    have shown : d.message = "Resource type \"" ++ type.text ++
        "\" does not have types available." := by
      rw [same]
      rfl
    exact ⟨_, .untyped _ shown, around (by decide) (by decide) shown⟩
  | access id a violates same =>
    subst same
    exact ⟨_, .access a.members rfl, a.multiline_message⟩

namespace CommandLine

theorem location_eq (d : Diagnostic) (lines : Option LineMap) :
    ∃ place, location d lines = d.file ++ place ∧ ¬Multiline place := by
  have marks : ¬Multiline "@" ∧ ¬Multiline ":" := by decide
  cases lines with
  | none =>
    refine ⟨"@" ++ toString d.start, by rw [location, String.append_assoc], ?_⟩
    rw [multiline_append, not_or]
    exact ⟨marks.1, not_multiline_nat _⟩
  | some lines =>
    let p := lines.position d.start
    refine ⟨":" ++ (toString (countFromOne p.line) ++ (":" ++ toString (countFromOne p.character))),
      by simp only [location, String.append_assoc, p], ?_⟩
    simp only [multiline_append, not_or]
    exact ⟨marks.2, not_multiline_nat _, marks.2, not_multiline_nat _⟩

theorem not_multiline_codeText (d : Diagnostic) : ¬Multiline d.codeText := by
  rw [Diagnostic.codeText, multiline_append, multiline_append, not_or, not_or]
  refine ⟨⟨by decide, ?_⟩, not_multiline_nat d.code⟩
  rw [Multiline, String.toList_ofList, List.mem_replicate]
  exact fun zero => absurd zero.2 (by decide)

theorem line_eq (e : Entry) : ∃ rest, e.line false = e.diagnostic.file ++ rest ∧ rest ≠ "" ∧
    (Multiline rest ↔ Multiline e.diagnostic.message) := by
  obtain ⟨source, d⟩ := e
  obtain ⟨place, located, plain⟩ := location_eq d (source.map LineMap.ofSource)
  refine ⟨place ++ " - " ++ d.severity.label ++ " " ++ d.codeText ++ ": " ++ d.message, ?_, ?_, ?_⟩
  · simp [Entry.line, diagnosticLine, located, paintSeverity, Style.paint, String.append_assoc]
  · intro empty
    have none := congrArg String.toList empty
    simp at none
  · have label : ¬Multiline d.severity.label := by
      cases d.severity <;> decide
    have marks : ¬Multiline " - " ∧ ¬Multiline " " ∧ ¬Multiline ": " := by decide
    simp [plain, label, not_multiline_codeText d, marks]

theorem line_ne_empty (e : Entry) : e.line false ≠ "" := by
  obtain ⟨rest, same, nonempty, -⟩ := line_eq e
  rw [same]
  exact fun empty => nonempty (String.append_eq_empty_iff.1 empty).2

theorem multiline_line (e : Entry) : Multiline (e.line false) ↔
    Multiline e.diagnostic.file ∨ Multiline e.diagnostic.message := by
  obtain ⟨rest, same, -, tail⟩ := line_eq e
  rw [same, multiline_append, tail]

theorem failureLine_ne_empty (f : FailedUnit) : failureLine false f ≠ "" := by
  intro empty
  have none := congrArg String.toList empty
  simp [failureLine] at none

theorem multiline_failureLine (f : FailedUnit) : Multiline (failureLine false f) ↔
    Multiline f.path ∨ Multiline f.error.message := by
  have marks : ¬Multiline ": " ∧ ¬Multiline Severity.error.label := by decide
  simp [failureLine, paintSeverity, Style.paint, marks]

theorem flatMap_lines {α : Type} {shown : α → String} {l : List α} (filled : ∀ x ∈ l, shown x ≠ "")
    (plain : ∀ x ∈ l, ¬Multiline (shown x)) :
    (l.flatMap fun x => lines (shown x)) = l.map shown := by
  rw [List.map_eq_flatMap]
  exact List.flatMap_congr fun x member => lines_eq_singleton (filled x member) (plain x member)

/-- The lines of the text report are those of its entries in order, and then one for each failure,
if these have no newlines. So there is one line for each entry exactly if no file name and no
message has a newline. An entry begins with the name of the file of its unit, and its message has a
newline exactly if a name, type or member has one that it shows. -/
theorem textReport_lines {s : Summary} (compiled : s.IsCompiled)
    (plain : ∀ f ∈ s.failures, ¬Multiline f.path ∧ ¬Multiline f.error.message) :
    lines (s.textReport false) =
        s.entries.flatMap (fun e => lines (e.line false)) ++ s.failures.map (failureLine false) ∧
      (lines (s.textReport false) =
          s.entries.map (Entry.line false) ++ s.failures.map (failureLine false) ↔
        ∀ e ∈ s.entries, ¬Multiline e.diagnostic.file ∧ ¬Multiline e.diagnostic.message) ∧
      ∀ e ∈ s.entries, (∃ c ∈ s.outputs, e.diagnostic ∈ c.diagnostics ∧ e.diagnostic.file = c.file) ∧
        (∃ rest, e.line false = e.diagnostic.file ++ rest) ∧
        ∃ texts, e.diagnostic.Shows texts ∧
          (Multiline e.diagnostic.message ↔ ∃ text ∈ texts, Multiline text) := by
  have failures : (s.failures.flatMap fun f => lines (failureLine false f)) =
      s.failures.map (failureLine false) := by
    refine flatMap_lines (fun f _ => failureLine_ne_empty f) fun f member => ?_
    rw [multiline_failureLine, not_or]
    exact plain f member
  have whole : lines (s.textReport false) =
      s.entries.flatMap (fun e => lines (e.line false)) ++ s.failures.map (failureLine false) := by
    have filled : ∀ text ∈ s.lines false, text ≠ "" := by
      rw [lines_entries, List.forall_mem_append, List.forall_mem_map, List.forall_mem_map]
      exact ⟨fun e _ => line_ne_empty e, fun f _ => failureLine_ne_empty f⟩
    rw [Summary.textReport, lines_intercalate filled, lines_entries, List.flatMap_append,
      List.flatMap_map, List.flatMap_map, failures]
  refine ⟨whole, ⟨?_, ?_⟩, ?_⟩
  · intro same e member
    have line : e.line false ∈ lines (s.textReport false) := by
      rw [same]
      exact List.mem_append_left _ (List.mem_map_of_mem member)
    rw [← not_or, ← multiline_line]
    exact not_multiline_of_mem_lines line
  · intro single
    rw [whole, flatMap_lines (fun e _ => line_ne_empty e)]
    intro e member
    rw [multiline_line, not_or]
    exact single e member
  · intro e member
    obtain ⟨c, output, -, inside⟩ := mem_entries.1 member
    obtain ⟨u, overrides, compiled⟩ := compiled c output
    obtain ⟨m, file, stems⟩ := CompilationUnit.compile_stems compiled
    obtain ⟨rest, begins, -⟩ := line_eq e
    have own : e.diagnostic.file = c.file := by
      rw [(stems _ inside).spanned.1, file, (CompilationUnit.compile_same compiled).1]
    exact ⟨⟨c, output, inside, own⟩, ⟨rest, begins⟩, Diagnostic.stems_shows (stems _ inside)⟩

def unknownNamed (name : String) : CompilationUnit where
  file := "main.json"
  source := none
  types := []
  program := [.output "o" (.ident name none) none]

def namedDiagnostic (name : String) : Diagnostic where
  file := "main.json"
  start := 0
  length := name.utf8ByteSize
  message := "The name \"" ++ name ++ "\" does not exist in the current context."
  severity := .error
  code := 57
  members := none

def missingFile : FailedUnit := ⟨"x.json", .loadUnit "x.json" (.unreadable "x.json" .notFound)⟩

theorem textReport_lines_named : ∃ s : Summary, s.IsCompiled ∧
    (∀ f ∈ s.failures, ¬Multiline f.path ∧ ¬Multiline f.error.message) ∧
    s.entries = [⟨none, namedDiagnostic "ab"⟩] ∧ s.failures = [missingFile] ∧
    lines (s.textReport false) =
      ["main.json@0 - error BCP057: The name \"ab\" does not exist in the current context.",
        "x.json: error: failed to load x.json: failed to read x.json: No such file or directory (os error 2)"] := by
  have emitted : (unknownNamed "ab").emitted? none = some [namedDiagnostic "ab"] := by
    decide +kernel
  obtain ⟨s, compiled, failures, entries⟩ := exists_summary emitted [missingFile]
  have plain : ∀ f ∈ s.failures, ¬Multiline f.path ∧ ¬Multiline f.error.message := by
    rw [failures, List.forall_mem_singleton]
    decide
  refine ⟨s, compiled, plain, entries, failures, ?_⟩
  rw [(textReport_lines compiled plain).2.1.2, entries, failures]
  · decide +kernel
  · rw [entries, List.forall_mem_singleton]
    decide +kernel

/-- A diagnostic about a name with a newline takes two lines. -/
theorem newline_unescaped : ∃ s : Summary, s.IsCompiled ∧ s.failures = [] ∧
    s.entries = [⟨none, namedDiagnostic "a\nb"⟩] ∧
    lines (s.textReport false) =
      ["main.json@0 - error BCP057: The name \"a", "b\" does not exist in the current context."] := by
  have emitted : (unknownNamed "a\nb").emitted? none = some [namedDiagnostic "a\nb"] := by
    decide +kernel
  obtain ⟨s, compiled, failures, entries⟩ := exists_summary emitted []
  refine ⟨s, compiled, failures, entries, ?_⟩
  rw [Summary.textReport, lines_entries, entries, failures]
  decide +kernel

end CommandLine

end DeployCheck
