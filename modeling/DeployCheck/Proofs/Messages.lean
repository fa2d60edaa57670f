import DeployCheck.Check
import DeployCheck.Proofs.Analysis.Order
import DeployCheck.Proofs.Text.Filling
import Mathlib.Algebra.GroupWithZero.Nat

/-!
# What messages show

The message about a forbidden access is filled from templates in three steps. It shows the name
of the resource and the lists of members as they are, exactly if neither the name nor a listed
property has the second placeholder in it.
-/

set_option autoImplicit false

namespace DeployCheck

namespace Text

variable {c : Char}

theorem toList_quotedList_single (name : String) :
    (quotedList [name]).toList = '"' :: (name.toList ++ ['"']) := by
  simp [quotedList]

theorem toList_quotedList_cons (name next : String) (rest : List String) :
    (quotedList (name :: next :: rest)).toList =
      '"' :: (name.toList ++ '"' :: ',' :: ' ' :: (quotedList (next :: rest)).toList) := by
  simp [quotedList, List.intercalate]

theorem occurrences_mark (plain : c ∉ placeholder 1) (cs : List Char) :
    occurrences (placeholder 1) (c :: cs) = occurrences (placeholder 1) cs :=
  occurrences_char (not_prefix_cons plain cs)

theorem occurrences_quotedList (names : List String) :
    occurrences (placeholder 1) (quotedList names).toList =
      (names.map fun name => occurrences (placeholder 1) name.toList).sum := by
  have quote : '"' ∉ placeholder 1 := by decide
  induction names with
  | nil => rfl
  | cons name rest ih =>
    rw [List.map_cons, List.sum_cons, ← ih]
    cases rest with
    | nil =>
      rw [toList_quotedList_single, occurrences_mark quote, occurrences_seam quote]
      rfl
    | cons next rest =>
      rw [toList_quotedList_cons, occurrences_mark quote, occurrences_seam quote,
        occurrences_mark (by decide), occurrences_mark (by decide)]

def clause (what name members : String) : String :=
  what ++ "\"" ++ name ++ "\" include " ++ members ++ "."

theorem toList_clause (what name members : String) : (clause what name members).toList =
    what.toList ++ '"' :: (name.toList ++
      '"' :: (" include ".toList ++ (members.toList ++ ['.']))) := by
  simp [clause]

def refilled (value text : String) : String :=
  String.ofList (replaceAll (placeholder 1) value.toList text.toList)

theorem fill_clause {template what : String} (plain : '{' ∉ what.toList)
    (split : template.toList = what.toList ++ '"' :: (placeholder 0 ++
      '"' :: (" include ".toList ++ (placeholder 1 ++ ['.'])))) (name members : String) :
    fill template [name, members] = clause what (refilled members name) members := by
  have quote : ∀ k : Nat, ∀ value xs ys : List Char, '"' ∉ placeholder k →
      replaceAll (placeholder k) value (what.toList ++ '"' :: (xs ++ '"' :: ys)) =
        what.toList ++ '"' :: (replaceAll (placeholder k) value xs ++
          '"' :: replaceAll (placeholder k) value ys) := by
    intro k value xs ys free
    rw [replaceAll_plain plain, replaceAll_char (not_prefix_cons free _), replaceAll_seam free]
  have dot : ∀ (k : Nat) (value : List Char), replaceAll (placeholder k) value ['.'] = ['.'] := by
    intro k value
    exact replaceAll_plain (by decide : '{' ∉ ['.']) []
  have first : replaceAll (placeholder 0) name.toList template.toList = what.toList ++
      '"' :: (name.toList ++ '"' :: (" include ".toList ++ (placeholder 1 ++ ['.']))) := by
    have later : occurrences (placeholder 0) (" include ".toList ++ (placeholder 1 ++ ['.'])) = 0 := by
      decide
    have here := replaceAll_placeholder (k := 0) name.toList []
    rw [List.append_nil] at here
    rw [split, quote 0 _ _ _ (by decide), here, replaceAll_of_none later]
    simp [replaceAll, replaceFrom]
  have second : replaceAll (placeholder 1) members.toList (what.toList ++
      '"' :: (name.toList ++ '"' :: (" include ".toList ++ (placeholder 1 ++ ['.'])))) =
      what.toList ++ '"' :: (replaceAll (placeholder 1) members.toList name.toList ++
        '"' :: (" include ".toList ++ (members.toList ++ ['.']))) := by
    rw [quote 1 _ _ _ (by decide), replaceAll_plain (by decide), replaceAll_placeholder, dot]
  rw [← String.toList_inj, toList_clause, refilled, fill, fillFrom, fillFrom, fillFrom,
    String.toList_ofList, String.toList_ofList, first, second]

theorem fill_pair {template opening what : String} (plain : '{' ∉ opening.toList)
    (plain' : '{' ∉ what.toList)
    (split : template.toList = opening.toList ++ (placeholder 0 ++ placeholder 1))
    (name members second : String) :
    fill template [clause what name members, second] =
      opening ++ clause what (refilled second name) (refilled second members) ++ second := by
  have one : replaceAll (placeholder 0) (clause what name members).toList template.toList =
      opening.toList ++ ((clause what name members).toList ++ placeholder 1) := by
    have later : occurrences (placeholder 0) (placeholder 1) = 0 := by decide
    rw [split, replaceAll_plain plain, replaceAll_placeholder, replaceAll_of_none later]
  have last := replaceAll_placeholder (k := 1) second.toList []
  rw [List.append_nil] at last
  have two : replaceAll (placeholder 1) second.toList
      (opening.toList ++ ((clause what name members).toList ++ placeholder 1)) =
      opening.toList ++ ((clause what (refilled second name) (refilled second members)).toList ++
        second.toList) := by
    rw [toList_clause, toList_clause, replaceAll_plain plain]
    simp only [List.append_assoc, List.cons_append, List.nil_append]
    rw [replaceAll_plain plain', replaceAll_char (not_prefix_cons (by decide) _),
      replaceAll_seam (by decide), replaceAll_plain (by decide), replaceAll_seam (by decide), last]
    simp [refilled, replaceAll, replaceFrom]
  rw [← String.toList_inj, fill, fillFrom, fillFrom, fillFrom, String.toList_ofList, one, two]
  simp

end Text

namespace AccessibleMembers

open Text

def opening : String :=
  "The expression cannot be evaluated, because the identifier properties of the referenced existing resource cannot be calculated at the start of the deployment. In this situation,"

def functionsClause (ms : AccessibleMembers) (name : String) : String :=
  if ms.functions.isEmpty then "" else
    clause " The accessible functions of " name (quotedList ms.functions)

/-- The message with the name and the members in their places. -/
def plainMessage (ms : AccessibleMembers) : String :=
  opening ++ clause " the accessible properties of " ms.resource (quotedList ms.properties)
    ++ ms.functionsClause ms.resource

end AccessibleMembers

namespace Access

open Text AccessibleMembers

/-- The name and the properties of the message are what is left of them when what comes later is
filled in. -/
theorem message_eq (a : Access) :
    let functions := a.members.functionsClause (refilled (quotedList a.functions) a.symbol.name)
    a.message = opening ++ clause " the accessible properties of "
        (refilled functions (refilled (quotedList a.properties) a.symbol.name))
        (refilled functions (quotedList a.properties)) ++ functions := by
  intro functions
  have properties : ∀ name members, fill " the accessible properties of \"{0}\" include {1}."
      [name, members] = clause " the accessible properties of " (refilled members name) members :=
    fill_clause (by decide) (by decide)
  have others : ∀ name members, fill " The accessible functions of \"{0}\" include {1}."
      [name, members] = clause " The accessible functions of " (refilled members name) members :=
    fill_clause (by decide) (by decide)
  have whole : Rule.runtimeAccess.template.toList = opening.toList ++ (placeholder 0 ++ placeholder 1) := by
    have same : Rule.runtimeAccess.template = opening ++ "{0}{1}" := by decide +kernel
    have holes : "{0}{1}".toList = placeholder 0 ++ placeholder 1 := by decide
    rw [same, String.toList_append, holes]
  have plain : '{' ∉ opening.toList := by
    rw [opening, String.toList_ofList]
    decide
  rw [message, properties, others, fill_pair plain (by decide) whole]
  rfl

def quotes (text : String) : Nat := text.toList.count '"'

theorem quotes_append (s t : String) : quotes (s ++ t) = quotes s + quotes t := by
  rw [quotes, String.toList_append, List.count_append, quotes, quotes]

theorem quotes_clause (what name members : String) :
    quotes (clause what name members) = quotes what + quotes name + quotes members + 2 := by
  have marks : quotes "\"" = 1 ∧ quotes "\" include " = 1 ∧ quotes "." = 0 := by decide
  simp only [clause, quotes_append, marks]
  omega

theorem quotes_refilled (value text : String) : quotes (refilled value text) =
    quotes text + occurrences (placeholder 1) text.toList * quotes value := by
  rw [quotes, refilled, String.toList_ofList, count_replaceAll '"' (by decide), quotes, quotes]

theorem quotes_quotedList (name : String) (rest : List String) :
    0 < quotes (quotedList (name :: rest)) := by
  rw [quotes, List.count_pos_iff]
  cases rest with
  | nil => simp [toList_quotedList_single]
  | cons next rest => simp [toList_quotedList_cons]

theorem refilled_of_none {value text : String} (none : occurrences (placeholder 1) text.toList = 0) :
    refilled value text = text := by
  rw [refilled, replaceAll_of_none none, String.ofList_toList]

theorem occurrences_of_refilled {value text : String} (same : refilled value text = text)
    (length : value.toList.length ≠ 3) : occurrences (placeholder 1) text.toList = 0 := by
  have lengths := length_replaceAll 1 value.toList text.toList
  have three : (placeholder 1).length = 3 := by decide
  have kept : replaceAll (placeholder 1) value.toList text.toList = text.toList := by
    rw [← String.toList_inj, refilled, String.toList_ofList] at same
    exact same
  rw [kept, three, Nat.add_left_cancel_iff] at lengths
  by_contra some
  exact length (Nat.eq_of_mul_eq_mul_left (Nat.pos_of_ne_zero some) lengths).symm

theorem properties_ne_nil (a : Access) : a.properties ≠ [] := by
  rw [properties]
  exact List.append_ne_nil_of_right_ne_nil _ (List.cons_ne_nil _ _)

variable {a : Access}

theorem resource_of_plain (same : a.message = a.members.plainMessage) :
    occurrences (placeholder 1) a.symbol.name.toList = 0 := by
  rw [message_eq, plainMessage] at same
  have marks := congrArg quotes same
  have some : 0 < quotes (quotedList a.properties) := by
    cases list : a.properties with
    | nil => exact absurd list a.properties_ne_nil
    | cons first rest => exact quotes_quotedList first rest
  have functions : quotes (a.members.functionsClause a.symbol.name) ≤
      quotes (a.members.functionsClause (refilled (quotedList a.functions) a.symbol.name)) := by
    rw [functionsClause, functionsClause]
    split
    · exact Nat.le_refl _
    · rw [quotes_clause, quotes_clause, quotes_refilled]
      omega
  simp only [members, quotes_append, quotes_clause, quotes_refilled] at marks functions
  have zero : occurrences (placeholder 1) a.symbol.name.toList * quotes (quotedList a.properties) =
      0 := by omega
  exact (Nat.mul_eq_zero.1 zero).resolve_right (by omega)

theorem length_functionsClause (ms : AccessibleMembers) (name : String) :
    (ms.functionsClause name).toList.length ≠ 3 := by
  rw [functionsClause]
  split
  · simp
  · have long : " The accessible functions of ".toList.length = 29 := by decide
    rw [toList_clause, List.length_append, long]
    omega

theorem properties_of_plain (same : a.message = a.members.plainMessage)
    (name : occurrences (placeholder 1) a.symbol.name.toList = 0) :
    occurrences (placeholder 1) (quotedList a.properties).toList = 0 := by
  rw [message_eq, plainMessage, refilled_of_none name, refilled_of_none name,
    refilled_of_none name] at same
  apply occurrences_of_refilled _ (length_functionsClause a.members a.symbol.name)
  rw [← String.toList_inj] at same ⊢
  simpa [toList_clause, members] using same

theorem message_eq_plainMessage_iff : a.message = a.members.plainMessage ↔
    ¬(placeholder 1 <:+: a.members.resource.toList) ∧
      ∀ p ∈ a.members.properties, ¬(placeholder 1 <:+: p.toList) := by
  have listed : (∀ p ∈ a.properties, ¬(placeholder 1 <:+: p.toList)) ↔
      occurrences (placeholder 1) (quotedList a.properties).toList = 0 := by
    rw [occurrences_quotedList, List.sum_eq_zero_iff_forall_eq_nat, List.forall_mem_map]
    exact forall₂_congr fun p _ => occurrences_eq_zero_iff.symm
  change _ ↔ ¬(placeholder 1 <:+: a.symbol.name.toList) ∧ ∀ p ∈ a.properties, _
  rw [listed, ← occurrences_eq_zero_iff]
  constructor
  · intro same
    have name := resource_of_plain same
    exact ⟨name, properties_of_plain same name⟩
  · rintro ⟨name, properties⟩
    rw [message_eq, plainMessage, refilled_of_none name, refilled_of_none name,
      refilled_of_none name, refilled_of_none properties]
    rfl

end Access

namespace Model

open Text

theorem members_of_mem_check {m : Model} {d : Diagnostic} (reported : d ∈ m.check) :
    ∃ a : Access, d.members = some a.members ∧ d.message = a.message := by
  obtain ⟨id, -, found⟩ := List.mem_filterMap.1 reported
  obtain ⟨a, -, rfl⟩ := Option.map_eq_some_iff.1 found
  exact ⟨a, rfl, rfl⟩

/-- A template is filled as if all places were filled at once, if no argument brings a placeholder
of a later one with it, and so it always is with one argument. A message about a forbidden access
is filled from pairs of arguments. It shows the name and the members in its payload as they are
exactly if neither the name nor a property has the second placeholder in it. -/
theorem check_shown (template : String) (values : List String) (m : Model) :
    (BringsNone template values → fill template values = substitute template values) ∧
    (∀ value, fill template [value] = substitute template [value]) ∧
    ∀ d ∈ m.check, ∃ ms, d.members = some ms ∧
      (d.message = ms.plainMessage ↔ ¬(placeholder 1 <:+: ms.resource.toList) ∧
        ∀ p ∈ ms.properties, ¬(placeholder 1 <:+: p.toList)) := by
  refine ⟨fill_eq_substitute, fun value => fill_eq_substitute (bringsNone_single template value), ?_⟩
  intro d reported
  obtain ⟨a, shown, text⟩ := members_of_mem_check reported
  exact ⟨a.members, shown, text ▸ Access.message_eq_plainMessage_iff⟩

def tagsOf (name : String) : List Declaration :=
  [.resource name "T@1" true (.object [("name", .call "reference" [] none)] none) [] none,
    .output "o" (.property (.ident name none) "tags" none) none]

theorem tagsOf_members (name : String) (facts : (Analysis.modelled? (tagsOf name)).map
      (fun t => t.2.check.map Diagnostic.members) =
        some [some ⟨name, ["id", "type", "apiVersion", "location", "name"], []⟩]) :
    ∃ tree m d, Analysis.modelled? (tagsOf name) = some (tree, m) ∧ d ∈ m.check ∧
      d.members = some ⟨name, ["id", "type", "apiVersion", "location", "name"], []⟩ := by
  obtain ⟨⟨tree, m⟩, found, facts⟩ := Option.map_eq_some_iff.1 facts
  obtain ⟨d, reported, payload⟩ := List.mem_map.1 (facts ▸ List.mem_singleton_self _)
  exact ⟨tree, m, d, found, reported, payload⟩

theorem check_shown_earlier :
    fill "{0} and {1}" ["{2}", "{0}"] = "{2} and {0}" ∧
    ∃ tree m d ms, Analysis.modelled? (tagsOf "{0}") = some (tree, m) ∧ d ∈ m.check ∧
      d.members = some ms ∧ ms.resource = "{0}" ∧ d.message = ms.plainMessage := by
  have brings : BringsNone "{0} and {1}" ["{2}", "{0}"] := by
    decide +kernel
  have put : substitute "{0} and {1}" ["{2}", "{0}"] =
      "{2} and {0}" := by
    decide +kernel
  obtain ⟨tree, m, d, found, reported, payload⟩ := tagsOf_members "{0}" (by decide +kernel)
  obtain ⟨filled, -, shown⟩ :=
    check_shown "{0} and {1}" ["{2}", "{0}"] m
  obtain ⟨ms, same, exact⟩ := shown d reported
  obtain rfl := Option.some.inj (payload.symm.trans same)
  refine ⟨(filled brings).trans put, tree, m, d, _, found, reported, payload, rfl, exact.2 ?_⟩
  decide +kernel

/-- A placeholder of a later argument in an argument is filled, also in the name of a resource. -/
theorem braces_refilled :
    fill "{0} and {1}" ["{1}", "x"] = "x and x" ∧
    substitute "{0} and {1}" ["{1}", "x"] = "{1} and x" ∧
    ∃ tree m d ms, Analysis.modelled? (tagsOf "{1}") = some (tree, m) ∧ d ∈ m.check ∧
      d.members = some ms ∧ ms.resource = "{1}" ∧ d.message ≠ ms.plainMessage := by
  obtain ⟨tree, m, d, found, reported, payload⟩ := tagsOf_members "{1}" (by decide +kernel)
  obtain ⟨a, members, message⟩ := members_of_mem_check reported
  have same : _ = a.members := Option.some.inj (payload.symm.trans members)
  refine ⟨by decide +kernel, by decide +kernel, tree, m, d, _, found, reported, members, ?_, ?_⟩
  · rw [← same]
  · rw [message, ne_eq, Access.message_eq_plainMessage_iff, ← same]
    decide +kernel

end Model

end DeployCheck
