import DeployCheck.Json.Reading
import DeployCheck.Proofs.Json.Tokens

/-!
# Texts of values

What spells a value, with any white space around tokens. The machine that reads texts
goes from the place where a value is due to the state after the value, and keeps what is
open around it. So a text spells one value at most, and this value is read from it.
-/

set_option autoImplicit false

namespace DeployCheck.Json

def Blank (cs : List Char) : Prop := ∀ c ∈ cs, Token.isSpace c = true

instance (cs : List Char) : Decidable (Blank cs) :=
  inferInstanceAs (Decidable (∀ c ∈ cs, Token.isSpace c = true))

def Leads (first : Bool) (cs : List Char) : Prop :=
  if first then Blank cs else ∃ before after, Blank before ∧ Blank after ∧
    cs = before ++ ',' :: after

mutual

/-- What spells a value, with nothing around it. Numbers are integers of 64 bits. -/
def Value.SpelledBy : Value → List Char → Prop
  | .null, cs => cs = ['n', 'u', 'l', 'l']
  | .bool true, cs => cs = ['t', 'r', 'u', 'e']
  | .bool false, cs => cs = ['f', 'a', 'l', 's', 'e']
  | .int n, cs => IsWord n ∧ cs = (toString n).toList
  | .float, _ => False
  | .string text, cs => SpellsString text cs
  | .array items, cs => ∃ inner, ItemsSpelledBy true items inner ∧ cs = '[' :: (inner ++ [']'])
  | .object members, cs =>
    ∃ inner, MembersSpelledBy true members inner ∧ cs = '{' :: (inner ++ ['}'])

def ItemsSpelledBy (first : Bool) : List Value → List Char → Prop
  | [], cs => Blank cs
  | v :: rest, cs => ∃ lead core after, Leads first lead ∧ v.SpelledBy core ∧
      ItemsSpelledBy false rest after ∧ cs = lead ++ (core ++ after)

def MembersSpelledBy (first : Bool) : List (String × Value) → List Char → Prop
  | [], cs => Blank cs
  | (key, v) :: rest, cs => ∃ lead name gap gap' core after, Leads first lead ∧
      SpellsString key name ∧ Blank gap ∧ Blank gap' ∧ v.SpelledBy core ∧
      MembersSpelledBy false rest after ∧ cs = lead ++ (name ++ (gap ++ ':' :: (gap' ++ (core ++ after))))

end

/-- What spells a value, with white space around it. -/
def Value.IsText (v : Value) (text : String) : Prop :=
  ∃ before core after, Blank before ∧ v.SpelledBy core ∧ Blank after ∧
    text.toList = before ++ (core ++ after)

mutual

def Value.reading : Value → Reading
  | .null => .null
  | .bool b => .bool b
  | .int n => .int n
  | .float => .float true
  | .string text => .string (.ok text)
  | .array items => .array (itemReadings items) none
  | .object members => .object (memberReadings members) none

def itemReadings : List Value → List Reading
  | [] => []
  | v :: rest => v.reading :: itemReadings rest

def memberReadings : List (String × Value) → List (Key × Reading)
  | [] => []
  | (key, v) :: rest => (.text (.ok key), v.reading) :: memberReadings rest

end

mutual

theorem value_reading (v : Value) {room : Nat} (fits : v.depth ≤ room) :
    Reading.value room v.reading = .ok v := by
  match v with
  | .null | .bool _ | .int _ | .float | .string _ => rfl
  | .array items =>
    match room, fits with
    | room + 1, fits =>
      rw [Value.depth, Nat.add_le_add_iff_right] at fits
      rw [Value.reading, Reading.value, itemValues_readings items fits]
      rfl
  | .object members =>
    match room, fits with
    | room + 1, fits =>
      rw [Value.depth, Nat.add_le_add_iff_right] at fits
      rw [Value.reading, Reading.value, memberValues_readings members fits]
      rfl

theorem itemValues_readings (items : List Value) {room : Nat}
    (fits : Value.depthOfItems items ≤ room) :
    Reading.itemValues room (itemReadings items) = .ok items := by
  match items with
  | [] => rfl
  | v :: rest =>
    rw [Value.depthOfItems, Nat.max_le] at fits
    rw [itemReadings, Reading.itemValues, value_reading v fits.1, itemValues_readings rest fits.2]
    rfl

theorem memberValues_readings (members : List (String × Value)) {room : Nat}
    (fits : Value.depthOfMembers members ≤ room) :
    Reading.memberValues room (memberReadings members) = .ok members := by
  match members with
  | [] => rfl
  | (key, v) :: rest =>
    rw [Value.depthOfMembers, Nat.max_le] at fits
    rw [memberReadings, Reading.memberValues, value_reading v fits.1,
      memberValues_readings rest fits.2]
    rfl

end

theorem reading_injective {v w : Value} (same : v.reading = w.reading) : v = w := by
  have left := value_reading v (Nat.le_max_left v.depth w.depth)
  rw [same, value_reading w (Nat.le_max_right v.depth w.depth)] at left
  exact (Except.ok.inj left).symm

open Reading

/-- From one state the machine takes a text and is in another state before the rest. -/
def Takes (state : State) (cs rest : List Char) (state' : State) : Prop :=
  ∃ used ≤ cs.length, ∀ fuel, run (fuel + used) state (cs ++ rest) = run fuel state' rest

section Machine

variable {state state' state'' : State} {cs cs' rest : List Char} {around : List Hole}

theorem takes_append (first : Takes state cs (cs' ++ rest) state')
    (second : Takes state' cs' rest state'') : Takes state (cs ++ cs') rest state'' := by
  obtain ⟨used, le, ran⟩ := first
  obtain ⟨used', le', ran'⟩ := second
  refine ⟨used' + used, ?_, fun fuel => ?_⟩
  · rw [List.length_append]
    omega
  · rw [List.append_assoc, ← Nat.add_assoc, ran, ran']

theorem run_space {c : Char} (space : Token.isSpace c = true) (fuel : Nat) :
    run (fuel + 1) state (c :: rest) = run fuel state rest := by
  conv_lhs => unfold run
  exact if_pos space

/-- A state that does not pass over the rest of the text. -/
def Active : State → Prop
  | .trailing _ | .stopped _ => False
  | _ => True

theorem run_token {c : Char} (visible : Token.isSpace c = false) (active : Active state)
    (fuel : Nat) : run (fuel + 1) state (c :: rest) =
      run fuel (step state (Token.read c rest).1) (Token.read c rest).2 := by
  conv_lhs => unfold run
  rw [if_neg (by simp [visible])]
  cases state with
  | trailing | stopped => cases active
  | _ => rfl

theorem takes_blank (blank : Blank cs) : Takes state cs rest state := by
  refine ⟨cs.length, Nat.le_refl _, fun fuel => ?_⟩
  induction cs with
  | nil => rfl
  | cons c cs ih =>
    obtain ⟨space, blank⟩ := List.forall_mem_cons.1 blank
    rw [List.length_cons, ← Nat.add_assoc, List.cons_append, run_space space, ih blank]

theorem takes_token (state : State) {t : Token} (active : Active state) (begins : Begins cs t rest) :
    Takes state cs rest (step state t) := by
  obtain ⟨c, tail, rfl, visible, read⟩ := begins
  refine ⟨1, by simp, fun fuel => ?_⟩
  rw [List.cons_append, run_token visible active, read]

inductive Awaits : State → List Hole → Prop where
  | value (around : List Hole) : Awaits (.value around) around
  | first (around : List Hole) : Awaits (.firstItem around) (.item [] :: around)

theorem takes_start {t : Token} (awaits : Awaits state around) (begins : Begins cs t rest)
    (due : t ≠ .closeArray) : Takes state cs rest (stepValue around t) := by
  cases awaits with
  | value => exact takes_token _ trivial begins
  | first around =>
    have same : step (.firstItem around) t = stepValue (.item [] :: around) t := by
      cases t <;> first | rfl | exact absurd rfl due
    rw [← same]
    exact takes_token _ trivial begins

def itemsState (around : List Hole) : List Reading → State
  | [] => .firstItem around
  | before => .afterItem around before

def membersState (around : List Hole) : List (Key × Reading) → State
  | [] => .firstKey around
  | before => .afterMember around before

theorem begins_comma (rest : List Char) : Begins [','] .comma rest := ⟨',', [], rfl, rfl, rfl⟩

theorem takes_lead (around : List Hole) (rest : List Char) {before : List Reading}
    (leads : Leads before.isEmpty cs) :
    ∃ state, Awaits state (.item before :: around) ∧
      Takes (itemsState around before) cs rest state := by
  cases before with
  | nil => exact ⟨.firstItem around, .first around, takes_blank leads⟩
  | cons v before =>
    obtain ⟨blank, blank', first, second, rfl⟩ := leads
    refine ⟨.value (.item (v :: before) :: around), .value _, ?_⟩
    show Takes (.afterItem around (v :: before)) (blank ++ ([','] ++ blank')) rest _
    apply takes_append (takes_blank first)
    exact takes_append (takes_token (.afterItem around (v :: before)) trivial
      (begins_comma _)) (takes_blank second)

inductive Names : State → List Hole → List (Key × Reading) → Prop where
  | first (around : List Hole) : Names (.firstKey around) around []
  | next (around : List Hole) (before : List (Key × Reading)) : Names (.key around before) around before

theorem takes_memberLead (around : List Hole) {before : List (Key × Reading)}
    (leads : Leads before.isEmpty cs) :
    ∃ state, Names state around before ∧ Takes (membersState around before) cs rest state := by
  cases before with
  | nil => exact ⟨.firstKey around, .first around, takes_blank leads⟩
  | cons m before =>
    obtain ⟨blank, blank', first, second, rfl⟩ := leads
    refine ⟨.key around (m :: before), .next _ _, ?_⟩
    show Takes (.afterMember around (m :: before)) (blank ++ ([','] ++ blank')) rest _
    apply takes_append (takes_blank first)
    exact takes_append (takes_token (.afterMember around (m :: before)) trivial
      (begins_comma _)) (takes_blank second)

theorem takes_name {before : List (Key × Reading)} {key : String} (names : Names state around before)
    (spelled : SpellsString key cs) :
    Takes state cs rest (.colon around before (.text (.ok key))) := by
  cases names with
  | first => exact takes_token (.firstKey around) trivial (begins_string spelled rest)
  | next => exact takes_token (.key around before) trivial (begins_string spelled rest)

theorem takes_colon {before : List (Key × Reading)} {key : Key} {gap gap' : List Char}
    (blank : Blank gap) (blank' : Blank gap') :
    Takes (.colon around before key) (gap ++ ':' :: gap') rest
      (.value (.member before key :: around)) := by
  have colon : Begins [':'] .colon (gap' ++ rest) := ⟨':', [], rfl, rfl, rfl⟩
  show Takes _ (gap ++ ([':'] ++ gap')) rest _
  apply takes_append (takes_blank blank)
  exact takes_append (takes_token (.colon around before key) trivial colon)
    (takes_blank blank')

end Machine

theorem ends_of_not_continued {c : Char} {rest : List Char} (digit : c.isDigit = false)
    (point : c ≠ '.') (small : c ≠ 'e') (large : c ≠ 'E') : Ends (c :: rest) := by
  intro d same
  cases same
  exact ⟨digit, point, small, large⟩

theorem ends_blank {cs rest : List Char} (blank : Blank cs) (ends : Ends rest) :
    Ends (cs ++ rest) := by
  cases cs with
  | nil => exact ends
  | cons c cs =>
    have space := blank c List.mem_cons_self
    rw [Token.isSpace] at space
    simp only [Bool.or_eq_true, beq_iff_eq] at space
    rcases space with ((rfl | rfl) | rfl) | rfl <;>
      exact ends_of_not_continued rfl (by decide) (by decide) (by decide)

theorem ends_lead {cs rest : List Char} (leads : Leads false cs) : Ends (cs ++ rest) := by
  obtain ⟨before, after, blank, -, rfl⟩ := leads
  rw [List.append_assoc]
  exact ends_blank blank (ends_of_not_continued rfl (by decide) (by decide) (by decide))

theorem ends_items {items : List Value} {cs rest : List Char} (h : ItemsSpelledBy false items cs)
    (ends : Ends rest) : Ends (cs ++ rest) := by
  cases items with
  | nil =>
    rw [ItemsSpelledBy] at h
    exact ends_blank h ends
  | cons v items =>
    rw [ItemsSpelledBy] at h
    obtain ⟨lead, core, after, leads, -, -, rfl⟩ := h
    rw [List.append_assoc]
    exact ends_lead leads

theorem ends_members {members : List (String × Value)} {cs rest : List Char}
    (h : MembersSpelledBy false members cs) (ends : Ends rest) : Ends (cs ++ rest) := by
  cases members with
  | nil =>
    rw [MembersSpelledBy] at h
    exact ends_blank h ends
  | cons m members =>
    rw [MembersSpelledBy] at h
    obtain ⟨lead, name, gap, gap', core, after, leads, -, -, -, -, -, rfl⟩ := h
    rw [List.append_assoc]
    exact ends_lead leads

section Closing

variable (around : List Hole) (rest : List Char)

theorem takes_closeArray (before : List Reading) :
    Takes (itemsState around before) [']'] rest (complete around (.array before.reverse none)) := by
  have closing : Begins [']'] .closeArray rest := ⟨']', [], rfl, rfl, rfl⟩
  cases before with
  | nil => exact takes_token (.firstItem around) trivial closing
  | cons v before => exact takes_token (.afterItem around (v :: before)) trivial closing

theorem takes_closeObject (before : List (Key × Reading)) :
    Takes (membersState around before) ['}'] rest
      (complete around (.object before.reverse none)) := by
  have closing : Begins ['}'] .closeObject rest := ⟨'}', [], rfl, rfl, rfl⟩
  cases before with
  | nil => exact takes_token (.firstKey around) trivial closing
  | cons m before => exact takes_token (.afterMember around (m :: before)) trivial closing

end Closing

mutual

theorem takes_value (v : Value) {state : State} {around : List Hole} {cs rest : List Char}
    (awaits : Awaits state around) (spelled : v.SpelledBy cs) (ends : Ends rest) :
    Takes state cs rest (complete around v.reading) := by
  match v with
  | .null =>
    rw [Value.SpelledBy] at spelled
    subst spelled
    exact takes_start awaits (begins_null rest) nofun
  | .bool true =>
    rw [Value.SpelledBy] at spelled
    subst spelled
    exact takes_start awaits (begins_true rest) nofun
  | .bool false =>
    rw [Value.SpelledBy] at spelled
    subst spelled
    exact takes_start awaits (begins_false rest) nofun
  | .int n =>
    rw [Value.SpelledBy] at spelled
    obtain ⟨word, rfl⟩ := spelled
    exact takes_start awaits (begins_int word ends) nofun
  | .float =>
    rw [Value.SpelledBy] at spelled
    exact spelled.elim
  | .string text =>
    rw [Value.SpelledBy] at spelled
    exact takes_start awaits (begins_string spelled rest) nofun
  | .array items =>
    rw [Value.SpelledBy] at spelled
    obtain ⟨inner, spelled, rfl⟩ := spelled
    have opening : Begins ['['] .openArray (inner ++ [']'] ++ rest) := ⟨'[', [], rfl, rfl, rfl⟩
    have follows : Ends ([']'] ++ rest) :=
      ends_of_not_continued rfl (by decide) (by decide) (by decide)
    have inside := takes_items items around [] spelled follows
    have closed := takes_closeArray around rest
      ((itemReadings items).reverse ++ [])
    rw [List.append_nil, List.reverse_reverse] at closed
    rw [List.append_nil] at inside
    exact takes_append (takes_start awaits opening nofun) (takes_append inside closed)
  | .object members =>
    rw [Value.SpelledBy] at spelled
    obtain ⟨inner, spelled, rfl⟩ := spelled
    have opening : Begins ['{'] .openObject (inner ++ ['}'] ++ rest) :=
      ⟨'{', [], rfl, rfl, rfl⟩
    have follows : Ends (['}'] ++ rest) :=
      ends_of_not_continued rfl (by decide) (by decide) (by decide)
    have inside := takes_members members around [] spelled follows
    have closed := takes_closeObject around rest
      ((memberReadings members).reverse ++ [])
    rw [List.append_nil, List.reverse_reverse] at closed
    rw [List.append_nil] at inside
    exact takes_append (takes_start awaits opening nofun) (takes_append inside closed)

theorem takes_items (items : List Value) (around : List Hole) (before : List Reading)
    {cs rest : List Char} (spelled : ItemsSpelledBy before.isEmpty items cs) (ends : Ends rest) :
    Takes (itemsState around before) cs rest
      (itemsState around ((itemReadings items).reverse ++ before)) := by
  match items with
  | [] =>
    rw [ItemsSpelledBy] at spelled
    exact takes_blank spelled
  | v :: items =>
    rw [ItemsSpelledBy] at spelled
    obtain ⟨lead, core, after, leads, spelled, others, rfl⟩ := spelled
    obtain ⟨state, awaits, lead⟩ := takes_lead around (core ++ after ++ rest) leads
    have value := takes_value v awaits spelled (ends_items others ends)
    have next := takes_items items around (v.reading :: before) others ends
    rw [itemReadings, List.reverse_cons, List.append_assoc, List.singleton_append]
    exact takes_append lead (takes_append value next)

theorem takes_members (members : List (String × Value)) (around : List Hole)
    (before : List (Key × Reading)) {cs rest : List Char}
    (spelled : MembersSpelledBy before.isEmpty members cs) (ends : Ends rest) :
    Takes (membersState around before) cs rest
      (membersState around ((memberReadings members).reverse ++ before)) := by
  match members with
  | [] =>
    rw [MembersSpelledBy] at spelled
    exact takes_blank spelled
  | (key, v) :: members =>
    rw [MembersSpelledBy] at spelled
    obtain ⟨lead, name, gap, gap', core, after, leads, named, blank, blank', spelled, others, rfl⟩ :=
      spelled
    obtain ⟨state, names, lead⟩ := takes_memberLead around leads
    have value := takes_value v (.value (.member before (.text (.ok key)) :: around)) spelled
      (ends_members others ends)
    have next := takes_members members around
      ((.text (.ok key), v.reading) :: before) others ends
    rw [memberReadings, List.reverse_cons, List.append_assoc, List.singleton_append]
    apply takes_append lead
    apply takes_append (takes_name names named)
    rw [← List.cons_append, ← List.append_assoc]
    exact takes_append (takes_colon blank blank') (takes_append value next)

end

/-- The text of a value is read as the value, to its end. -/
theorem ofText_eq {v : Value} {text : String} (h : v.IsText text) :
    Reading.ofText text = (v.reading, false) := by
  obtain ⟨before, core, after, blank, spelled, blank', same⟩ := h
  have ends : Ends (after ++ []) := ends_blank blank' nofun
  have value := takes_value v (.value []) spelled ends
  have trailing : Takes (.done v.reading) after [] (.done v.reading) := takes_blank blank'
  obtain ⟨used, le, ran⟩ := takes_append (takes_blank blank) (takes_append value trailing)
  have ran := ran (text.toList.length - used)
  rw [← same, List.append_nil] at ran
  rw [← same] at le
  rw [Nat.sub_add_cancel le] at ran
  rw [Reading.ofText]
  rw [ran]
  cases text.toList.length - used <;> rfl

theorem isText_unique {v w : Value} {text : String} (h : v.IsText text) (h' : w.IsText text) :
    v = w := by
  have same := (ofText_eq h).symm.trans (ofText_eq h')
  exact reading_injective (Prod.mk.inj same).1

mutual

def Value.Exact : Value → Prop
  | .int n => IsWord n
  | .float => False
  | .array items => ItemsExact items
  | .object members => MembersExact members
  | _ => True

def ItemsExact : List Value → Prop
  | [] => True
  | v :: rest => v.Exact ∧ ItemsExact rest

def MembersExact : List (String × Value) → Prop
  | [] => True
  | (_, v) :: rest => v.Exact ∧ MembersExact rest

end

theorem blank_space : Blank [' '] := by
  intro c member
  rw [List.mem_singleton.1 member]
  rfl

theorem blank_indentation (level : Nat) : Blank (Value.indentation level).toList := by
  intro c member
  simp only [Value.indentation, String.toList_append, String.toList_ofList, List.mem_append,
    List.mem_replicate] at member
  rcases member with member | ⟨-, rfl⟩
  · rw [List.mem_singleton.1 member]
    rfl
  · rfl

def followers (level : Nat) (entries : List String) : List Char :=
  entries.flatMap (fun s => ',' :: ((Value.indentation (level + 1)).toList ++ s.toList)) ++
    (Value.indentation level).toList

theorem toList_intercalate (level : Nat) (s : String) (entries : List String) :
    (("," ++ Value.indentation level).intercalate (s :: entries)).toList =
      s.toList ++ entries.flatMap fun s => ',' :: ((Value.indentation level).toList ++ s.toList) := by
  induction entries generalizing s with
  | nil => simp
  | cons t entries ih =>
    rw [String.intercalate_cons_cons, String.toList_append, String.toList_append, ih]
    simp

theorem toList_block (level : Nat) (opening closing s : String) (entries : List String) :
    (Value.block level opening closing (s :: entries)).toList = opening.toList ++
      ((Value.indentation (level + 1)).toList ++ (s.toList ++ followers level entries)) ++
        closing.toList := by
  simp only [Value.block, followers, String.toList_append, toList_intercalate, List.append_assoc]

theorem leads_comma (level : Nat) : Leads false (',' :: (Value.indentation level).toList) :=
  ⟨[], _, nofun, blank_indentation level, rfl⟩

mutual

theorem spelled_print (v : Value) (level : Nat) (exact : v.Exact) :
    v.SpelledBy (v.print level).toList := by
  match v with
  | .null | .bool true | .bool false =>
    rw [Value.SpelledBy, Value.print]
    rfl
  | .int n =>
    rw [Value.Exact] at exact
    rw [Value.SpelledBy, Value.print]
    exact ⟨exact, rfl⟩
  | .float =>
    rw [Value.Exact] at exact
    exact exact.elim
  | .string text =>
    rw [Value.SpelledBy, Value.print]
    exact spells_quote text
  | .array [] =>
    rw [Value.SpelledBy, Value.print, Value.printItems]
    exact ⟨[], by rw [ItemsSpelledBy]; exact nofun, by simp [Value.block]⟩
  | .array (v :: items) =>
    rw [Value.Exact, ItemsExact] at exact
    rw [Value.SpelledBy, Value.print, Value.printItems, toList_block]
    refine ⟨_, ?_, rfl⟩
    rw [ItemsSpelledBy]
    exact ⟨_, _, _, blank_indentation _, spelled_print v _ exact.1,
      spelled_printItems items level exact.2, rfl⟩
  | .object [] =>
    rw [Value.SpelledBy, Value.print, Value.printMembers]
    exact ⟨[], by rw [MembersSpelledBy]; exact nofun, by simp [Value.block]⟩
  | .object ((key, v) :: members) =>
    rw [Value.Exact, MembersExact] at exact
    rw [Value.SpelledBy, Value.print, Value.printMembers, toList_block]
    refine ⟨_, ?_, rfl⟩
    rw [MembersSpelledBy]
    refine ⟨_, _, [], [' '], _, _, blank_indentation (level + 1), spells_quote key, nofun,
      blank_space, spelled_print v (level + 1) exact.1, spelled_printMembers members level exact.2, ?_⟩
    simp

theorem spelled_printItems (items : List Value) (level : Nat) (exact : ItemsExact items) :
    ItemsSpelledBy false items (followers level (Value.printItems (level + 1) items)) := by
  match items with
  | [] =>
    rw [ItemsSpelledBy, Value.printItems]
    exact blank_indentation level
  | v :: items =>
    rw [ItemsExact] at exact
    rw [ItemsSpelledBy, Value.printItems]
    refine ⟨_, _, _, leads_comma (level + 1), spelled_print v (level + 1) exact.1,
      spelled_printItems items level exact.2, ?_⟩
    simp [followers]

theorem spelled_printMembers (members : List (String × Value)) (level : Nat)
    (exact : MembersExact members) :
    MembersSpelledBy false members (followers level (Value.printMembers (level + 1) members)) := by
  match members with
  | [] =>
    rw [MembersSpelledBy, Value.printMembers]
    exact blank_indentation level
  | (key, v) :: members =>
    rw [MembersExact] at exact
    rw [MembersSpelledBy, Value.printMembers]
    refine ⟨_, _, [], [' '], _, _, leads_comma (level + 1), spells_quote key, nofun, blank_space,
      spelled_print v (level + 1) exact.1, spelled_printMembers members level exact.2, ?_⟩
    simp [followers]

end

theorem isText_pretty (v : Value) (exact : v.Exact) : v.IsText v.pretty :=
  ⟨[], _, [], nofun, spelled_print v 0 exact, nofun, by rw [Value.pretty]; simp⟩

end DeployCheck.Json
