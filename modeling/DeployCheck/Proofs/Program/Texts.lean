import DeployCheck.Proofs.Program.Documents
import DeployCheck.Proofs.Tree.Lowering

/-!
# Programs and their texts

Any text of a program's value is read as the program if the value is nested less than 128
containers deep, and gives the tree of the program or the error of its lowering. A text
that is nested deeper is still a text of one program at most.
-/

set_option autoImplicit false

namespace DeployCheck

open Json

variable {full : Bool}

theorem Expression.readsAs_value (e : Expression) (proper : e.Proper) :
    ReadsAs Expression.ofValue (e.value full) e := by
  have within : ReadsAs (Expression.readWithin _) (e.value full) e :=
    readsAs_of_fills (Expression.fills e proper) (Nat.lt_succ_self _)
  exact ⟨within.exact, within.result⟩

theorem ModuleOutput.readsAs_value (o : ModuleOutput) : ReadsAs ModuleOutput.ofValue o.value o := by
  apply readsAs_object
  · exact .seq (fills_map (.present (readsAs_string o.name))) (fills_text "resource" o.resource)
  · decide

theorem Declaration.ofName?_kind (k : Declaration.Kind) : Tag.ofName? (Tag.name k) = some k := by
  cases k <;> rfl

theorem Declaration.form_distinct (read : Value → Except ReadError Declaration)
    (k : Declaration.Kind) : (Tag.field :: (Declaration.form read k).names).Nodup := by
  cases k <;> simp only [Declaration.form, Expression.spanField, names_map, names_seq,
    names_required, names_optional, List.cons_append, List.nil_append] <;> decide

theorem Declaration.readWithin_succ (fuel : Nat) :
    Declaration.readWithin (fuel + 1) = (fun v => do
      let (kind, record) ← Tag.splitValue v
      (Declaration.form (Declaration.readWithin fuel) kind).ofValue record) :=
  rfl

theorem Declaration.readsAs_of_fills {d : Declaration} (fills : ∀ fuel,
      (∀ m ∈ d.fields full, m.2.depth < fuel) →
      Fills (Declaration.form (Declaration.readWithin fuel) d.kind) (d.fields full) d)
    {fuel : Nat} (deep : (tagged d.kind (d.fields full)).depth < fuel) :
    ReadsAs (Declaration.readWithin fuel) (tagged d.kind (d.fields full)) d :=
  readsAs_within Declaration.readWithin_succ (Declaration.ofName?_kind _)
    (fun _ => Declaration.form_distinct _ _) fills deep

theorem fills_default (default : Option Expression) (proper : ∀ e ∈ default, e.Proper) :
    Fills (.optional "default" none (Value.nullable Expression.ofValue))
      (given "default" (default.map (Expression.value full))) default := by
  apply fills_given
  · intro v found
    obtain ⟨e, rfl, rfl⟩ := Option.map_eq_some_iff.1 found
    exact readsAs_nullable (e.readsAs_value (proper e rfl)) nofun
  · exact Option.map_eq_none_iff.1

theorem ModuleOutput.allRead (outputs : List ModuleOutput) :
    ItemsExact (outputs.map ModuleOutput.value) ∧
      (outputs.map ModuleOutput.value).mapM ModuleOutput.ofValue = .ok outputs := by
  induction outputs with
  | nil => exact ⟨by rw [List.map_nil, ItemsExact]; trivial, rfl⟩
  | cons o outputs ih =>
    rw [List.map_cons, ItemsExact, List.mapM_cons, o.readsAs_value.result, ih.2]
    exact ⟨⟨o.readsAs_value.exact, ih.1⟩, rfl⟩

mutual

theorem Declaration.fills (d : Declaration) (proper : d.Proper) (fuel : Nat)
    (room : ∀ m ∈ d.fields full, m.2.depth < fuel) :
    Fills (Declaration.form (Declaration.readWithin fuel) d.kind) (d.fields full) d := by
  match d with
  | .param name default span =>
    rw [Declaration.Proper] at proper
    rw [Declaration.fields]
    exact .seq (.seq (fills_map (.present (readsAs_string name))) (fills_default default proper))
      (fills_span span)
  | .var name value span =>
    rw [Declaration.Proper] at proper
    rw [Declaration.fields]
    exact .seq (.seq (fills_map (.present (readsAs_string name)))
      (.present (value.readsAs_value proper))) (fills_span span)
  | .resource name type existing body resources span =>
    rw [Declaration.Proper] at proper
    rw [Declaration.fields] at room ⊢
    simp only [List.forall_mem_append] at room
    have named : Fills (.optional "existing" false Value.asBool)
        (spared full "existing" (!existing) (.bool existing)) existing :=
      fills_spared (fun _ => readsAs_bool existing) (by simp)
    exact .seq (.seq (.seq (.seq (.seq (fills_map (.present (readsAs_string name)))
      (.present (readsAs_string type))) named) (.present (body.readsAs_value proper.1)))
      (fills_list fun written => Declaration.allRead resources proper.2
        (depthOfItems_lt (room.1.2 _ written)))) (fills_span span)
  | .module name path body outputs span =>
    rw [Declaration.Proper] at proper
    rw [Declaration.fields]
    exact .seq (.seq (.seq (.seq (fills_map (.present (readsAs_string name)))
      (.present (readsAs_string path))) (.present (body.readsAs_value proper)))
      (fills_list fun _ => ModuleOutput.allRead outputs)) (fills_span span)
  | .output name value span =>
    rw [Declaration.Proper] at proper
    rw [Declaration.fields]
    exact .seq (.seq (fills_map (.present (readsAs_string name)))
      (.present (value.readsAs_value proper))) (fills_span span)

theorem Declaration.allRead (ds : List Declaration) (proper : Declaration.AllProper ds) {fuel : Nat}
    (room : Value.depthOfItems (Declaration.values full ds) < fuel) :
    ItemsExact (Declaration.values full ds) ∧
      (Declaration.values full ds).mapM (Declaration.readWithin fuel) = .ok ds := by
  match ds with
  | [] => exact ⟨by rw [Declaration.values, ItemsExact]; trivial, rfl⟩
  | d :: ds =>
    rw [Declaration.AllProper] at proper
    rw [Declaration.values, Value.depthOfItems] at room
    have first := Declaration.readsAs_of_fills (Declaration.fills d proper.1)
      (Nat.lt_of_le_of_lt (Nat.le_max_left ..) room)
    have rest := Declaration.allRead ds proper.2 (Nat.lt_of_le_of_lt (Nat.le_max_right ..) room)
    rw [Declaration.values, ItemsExact, List.mapM_cons, first.result, rest.2]
    exact ⟨⟨first.exact, rest.1⟩, rfl⟩

end

theorem Program.value_exact {ds : List Declaration} (proper : Declaration.AllProper ds) :
    (Program.value full ds).Exact := by
  rw [Program.value, Value.Exact]
  exact (Declaration.allRead ds proper (Nat.lt_succ_self _)).1

theorem Program.value_injective {full full' : Bool} {ds ds' : List Declaration}
    (proper : Declaration.AllProper ds) (proper' : Declaration.AllProper ds')
    (same : Program.value full ds = Program.value full' ds') : ds = ds' := by
  have items : Declaration.values full ds = Declaration.values full' ds' := by
    rw [Program.value, Program.value] at same
    exact Value.array.inj same
  have left : (Declaration.values full ds).mapM (Declaration.readWithin _) = .ok ds :=
    (Declaration.allRead ds proper (Nat.lt_succ_self _)).2
  have right : (Declaration.values full' ds').mapM (Declaration.readWithin _) = .ok ds' :=
    (Declaration.allRead ds' proper' (Nat.lt_succ_self _)).2
  rw [items, right] at left
  exact (Except.ok.inj left).symm

theorem Declaration.reader_value (d : Declaration) (proper : d.Proper) {room : Nat}
    (fits : (d.value full).depth ≤ room) :
    Declaration.reader room (d.value full).reading = .ok d := by
  have fills : Fills (Declaration.form (Declaration.readWithin _) d.kind) (d.fields full) d :=
    Declaration.fills d proper _ fun m member => depth_member member
  have distinct := Declaration.form_distinct
    (Declaration.readWithin (Value.object (d.fields full)).depth) d.kind
  rw [List.nodup_cons] at distinct
  have plain : ∀ m ∈ d.fields full, m.1 ≠ Tag.field := fun m member same =>
    distinct.1 (same ▸ (fills_names fills).subset (List.mem_map_of_mem member))
  rw [Declaration.reader, Declaration.value, split_tagged (Declaration.ofName?_kind _) plain fits]
  exact fills_ofValue fills distinct.2

theorem Declaration.readers_values (ds : List Declaration) (proper : Declaration.AllProper ds)
    {room : Nat} (fits : Value.depthOfItems (Declaration.values full ds) ≤ room) :
    (itemReadings (Declaration.values full ds)).mapM (Declaration.reader room) = .ok ds := by
  induction ds with
  | nil => rfl
  | cons d ds ih =>
    rw [Declaration.AllProper] at proper
    rw [Declaration.values, Value.depthOfItems, Nat.max_le] at fits
    have first := Declaration.reader_value d proper.1 fits.1
    rw [Declaration.value] at first
    rw [Declaration.values, itemReadings, List.mapM_cons, first, ih proper.2 fits.2]
    rfl

theorem Program.ofText_spelled {ds : List Declaration} (proper : Declaration.AllProper ds)
    {text : String} (spelled : (Program.value full ds).IsText text)
    (nested : (Program.value full ds).depth < 128) : Program.ofText text = .ok ds := by
  have fits : Value.depthOfItems (Declaration.values full ds) ≤ 126 := by
    rw [Program.value, Value.depth] at nested
    omega
  rw [Program.ofText, Reader.text, ofText_eq spelled, Program.value, Value.reading]
  simp [nestingLimit, Reader.list, Declaration.readers_values ds proper fits, bind, Except.bind]

/-- A program can be written as a text, and as any other text of its value. Such a text
gives the tree that the program gives, or fails as it does, if containers are nested less
than 128 deep in it. Whatever its depth, it is a text of no other program. -/
theorem Tree.ofText_isText (file : String) (full : Bool) {ds : List Declaration}
    (proper : Declaration.AllProper ds) :
    (Program.value full ds).IsText (Program.value full ds).pretty ∧
      ∀ text, (Program.value full ds).IsText text →
        ((Program.value full ds).depth < 128 →
          Program.ofText text = .ok ds ∧
          Tree.ofText file text = (Tree.ofProgram file ds).mapError .ambiguous) ∧
        ∀ full' ds', Declaration.AllProper ds' → (Program.value full' ds').IsText text →
          ds' = ds := by
  refine ⟨isText_pretty _ (Program.value_exact proper), fun text spelled => ⟨fun nested => ?_, ?_⟩⟩
  · have read := Program.ofText_spelled proper spelled nested
    rw [Tree.ofText, read]
    exact ⟨rfl, rfl⟩
  · intro full' ds' proper' spelled'
    exact Program.value_injective proper' proper (isText_unique spelled' spelled)

def escapedNames : List Declaration :=
  [.resource "store" "T@1" true
    (.object [("a\"b", .string (some "tab\tand \\") [] none), ("", .int (-9223372036854775808) none)]
      (some (Span.between 3 40)))
    [.resource "inner" "U" false (.string none [.text "\x01é", .hole (.ident "p" none)] none) []
      none] none,
    .module "m" "m.json" (.null none) [⟨"x", some "T@1"⟩, ⟨"y", none⟩] (some (Span.point 41)),
    .param "p" none none]

theorem Tree.ofText_isText_escapedNames :
    Declaration.AllProper escapedNames ∧ (Program.value false escapedNames).depth = 7 ∧
      ∃ tree, Tree.ofProgram "main.json" escapedNames = .ok tree ∧
        Tree.ofText "main.json" (Program.value false escapedNames).pretty = .ok tree := by
  have proper : Declaration.AllProper escapedNames := by
    simp [escapedNames, Declaration.AllProper, Declaration.Proper, Expression.Proper,
      Expression.PropertiesProper, Part.AllProper, Word.count64]
  have depth : (Program.value false escapedNames).depth = 7 := by decide +kernel
  have lowers : (Tree.ofProgram "main.json" escapedNames).toOption.isSome = true := by
    decide +kernel
  obtain ⟨tree, lowered⟩ := Option.isSome_iff_exists.1 lowers
  have lowered := ok_of_toOption lowered
  obtain ⟨spelled, reads⟩ := Tree.ofText_isText "main.json" false proper
  have read := ((reads _ spelled).1 (by rw [depth]; decide)).2
  rw [lowered] at read
  exact ⟨proper, depth, tree, lowered, read⟩

end DeployCheck
