import DeployCheck.Program.Read
import DeployCheck.Proofs.Json.Fields

/-!
# Documents and their texts

Every document has a value in JSON: its kind first, then its fields in order, without the
fields that it does not have. A field whose value is what its absence stands for may be
left out or written. The value is read as the document, however deep it is nested, and
its text is read as long as the nesting stays within the limit.
-/

set_option autoImplicit false

namespace DeployCheck

open Json

def Span.value (span : Span) : Value := .array [.int span.start, .int span.stop]

def spanFields (span : Option Span) : List (String × Value) := given "span" (span.map Span.value)

namespace Expression

def kind : Expression → Kind
  | string .. => .string
  | int .. => .int
  | bool .. => .bool
  | null .. => .null
  | ident .. => .ident
  | array .. => .array
  | object .. => .object
  | property .. => .property
  | index .. => .index
  | resourceAccess .. => .resourceAccess
  | call .. => .call
  | instanceCall .. => .instanceCall
  | paren .. => .paren
  | unary .. => .unary
  | binary .. => .binary
  | ternary .. => .ternary
  | loop .. => .loop
  | condition .. => .condition

end Expression

variable (full : Bool)

mutual

/-- The fields of an expression behind its kind. Fields that hold what their absence stands
for are written only if everything is. -/
def Expression.fields : Expression → List (String × Value)
  | .string value parts span =>
    given "value" (value.map .string) ++
      spared full "parts" parts.isEmpty (.array (Part.values parts)) ++ spanFields span
  | .int value span => [("value", .int value)] ++ spanFields span
  | .bool value span => [("value", .bool value)] ++ spanFields span
  | .null span => spanFields span
  | .ident name span => [("name", .string name)] ++ spanFields span
  | .array items span =>
    spared full "items" items.isEmpty (.array (Expression.values items)) ++ spanFields span
  | .object properties span =>
    spared full "properties" properties.isEmpty (.object (Expression.propertyValues properties)) ++
      spanFields span
  | .property base name span =>
    [("base", tagged base.kind base.fields)] ++ [("name", .string name)] ++ spanFields span
  | .index base index span =>
    [("base", tagged base.kind base.fields)] ++ [("index", tagged index.kind index.fields)] ++
      spanFields span
  | .resourceAccess base name span =>
    [("base", tagged base.kind base.fields)] ++ [("name", .string name)] ++ spanFields span
  | .call name args span =>
    [("name", .string name)] ++ spared full "args" args.isEmpty (.array (Expression.values args)) ++
      spanFields span
  | .instanceCall base name args span =>
    [("base", tagged base.kind base.fields)] ++ [("name", .string name)] ++
      spared full "args" args.isEmpty (.array (Expression.values args)) ++ spanFields span
  | .paren inner span => [("expression", tagged inner.kind inner.fields)] ++ spanFields span
  | .unary operator operand span =>
    [("operator", .string operator.symbol)] ++
      [("expression", tagged operand.kind operand.fields)] ++ spanFields span
  | .binary operator left right span =>
    [("operator", .string operator.symbol)] ++ [("left", tagged left.kind left.fields)] ++
      [("right", tagged right.kind right.fields)] ++ spanFields span
  | .ternary condition whenTrue whenFalse span =>
    [("condition", tagged condition.kind condition.fields)] ++
      [("then", tagged whenTrue.kind whenTrue.fields)] ++
      [("else", tagged whenFalse.kind whenFalse.fields)] ++ spanFields span
  | .loop item index iterated body span =>
    [("item", .string item)] ++ given "index" (index.map .string) ++
      [("expression", tagged iterated.kind iterated.fields)] ++
      [("body", tagged body.kind body.fields)] ++ spanFields span
  | .condition condition body span =>
    [("condition", tagged condition.kind condition.fields)] ++
      [("body", tagged body.kind body.fields)] ++ spanFields span

def Expression.values : List Expression → List Value
  | [] => []
  | e :: rest => tagged e.kind e.fields :: Expression.values rest

def Expression.propertyValues : List (String × Expression) → List (String × Value)
  | [] => []
  | (key, e) :: rest => (key, tagged e.kind e.fields) :: Expression.propertyValues rest

def Part.values : List Part → List Value
  | [] => []
  | .text text :: rest => .string text :: Part.values rest
  | .hole e :: rest => tagged e.kind e.fields :: Part.values rest

end

def Expression.value (e : Expression) : Value := tagged e.kind (e.fields full)

def ModuleOutput.value (o : ModuleOutput) : Value :=
  .object ([("name", .string o.name)] ++ given "resource" (o.resource.map .string))

namespace Declaration

def kind : Declaration → Kind
  | param .. => .param
  | var .. => .var
  | resource .. => .resource
  | module .. => .module
  | output .. => .output

mutual

def fields : Declaration → List (String × Value)
  | .param name default span =>
    [("name", .string name)] ++ given "default" (default.map (Expression.value full)) ++
      spanFields span
  | .var name value span =>
    [("name", .string name)] ++ [("value", value.value full)] ++ spanFields span
  | .resource name type existing body resources span =>
    [("name", .string name)] ++ [("type", .string type)] ++
      spared full "existing" (!existing) (.bool existing) ++ [("body", body.value full)] ++
      spared full "resources" resources.isEmpty (.array (values resources)) ++ spanFields span
  | .module name path body outputs span =>
    [("name", .string name)] ++ [("path", .string path)] ++ [("body", body.value full)] ++
      spared full "outputs" outputs.isEmpty (.array (outputs.map ModuleOutput.value)) ++
      spanFields span
  | .output name value span =>
    [("name", .string name)] ++ [("value", value.value full)] ++ spanFields span

def values : List Declaration → List Value
  | [] => []
  | d :: rest => tagged d.kind (fields d) :: values rest

end

def value (d : Declaration) : Value := tagged d.kind (d.fields full)

end Declaration

def Program.value (ds : List Declaration) : Value := .array (Declaration.values full ds)

mutual

/-- Numbers have 64 bits with a sign, and no object has two properties of one name. -/
def Expression.Proper : Expression → Prop
  | .int value _ => -Word.count64 ≤ 2 * value ∧ 2 * value < Word.count64
  | .object properties _ =>
    (properties.map Prod.fst).Nodup ∧ Expression.PropertiesProper properties
  | .string _ parts _ => Part.AllProper parts
  | .bool .. | .null .. | .ident .. => True
  | .array items _ => Expression.AllProper items
  | .property base _ _ | .resourceAccess base _ _ => base.Proper
  | .index base index _ => base.Proper ∧ index.Proper
  | .call _ args _ => Expression.AllProper args
  | .instanceCall base _ args _ => base.Proper ∧ Expression.AllProper args
  | .paren inner _ => inner.Proper
  | .unary _ operand _ => operand.Proper
  | .binary _ left right _ => left.Proper ∧ right.Proper
  | .ternary condition whenTrue whenFalse _ =>
    condition.Proper ∧ whenTrue.Proper ∧ whenFalse.Proper
  | .loop _ _ iterated body _ => iterated.Proper ∧ body.Proper
  | .condition condition body _ => condition.Proper ∧ body.Proper

def Expression.AllProper : List Expression → Prop
  | [] => True
  | e :: rest => e.Proper ∧ Expression.AllProper rest

def Expression.PropertiesProper : List (String × Expression) → Prop
  | [] => True
  | (_, e) :: rest => e.Proper ∧ Expression.PropertiesProper rest

def Part.AllProper : List Part → Prop
  | [] => True
  | .text _ :: rest => Part.AllProper rest
  | .hole e :: rest => e.Proper ∧ Part.AllProper rest

end

mutual

def Declaration.Proper : Declaration → Prop
  | .param _ default _ => ∀ e ∈ default, e.Proper
  | .var _ value _ | .output _ value _ => value.Proper
  | .resource _ _ _ body resources _ => body.Proper ∧ Declaration.AllProper resources
  | .module _ _ body _ _ => body.Proper

def Declaration.AllProper : List Declaration → Prop
  | [] => True
  | d :: rest => d.Proper ∧ Declaration.AllProper rest

end

section Fields

variable {full : Bool}

theorem readsAs_string (text : String) : ReadsAs Value.asString (.string text) text :=
  ⟨by simp [Value.Exact], rfl⟩

theorem readsAs_bool (b : Bool) : ReadsAs Value.asBool (.bool b) b := ⟨by simp [Value.Exact], rfl⟩

theorem readsAs_integer {n : Int} (proper : -Word.count64 ≤ 2 * n ∧ 2 * n < Word.count64) :
    ReadsAs Value.asInteger (.int n) n := by
  constructor
  · rw [Value.Exact, IsWord]
    have := proper.2
    simp only [Word.count64] at proper ⊢
    omega
  · rw [Value.asInteger, if_pos proper]

theorem readsAs_nullable {α : Type} {read : Value → Except ReadError α} {v : Value} {a : α}
    (reads : ReadsAs read v a) (other : v ≠ .null) :
    ReadsAs (Value.nullable read) v (some a) := by
  refine ⟨reads.exact, ?_⟩
  unfold Value.nullable
  split
  · next same => exact absurd rfl other
  · rw [reads.result]
    rfl

theorem readsAs_symbol {α : Type} {ofName? : String → Option α} {name : String} {a : α}
    (found : ofName? name = some a) : ReadsAs (Value.asOneOf ofName?) (.string name) a := by
  refine ⟨by simp [Value.Exact], ?_⟩
  rw [Value.asOneOf, Reader.variant, found]

theorem readsAs_offset {n : Nat} (small : n ≤ lastOffset) : ReadsAs Value.asOffset (.int n) n := by
  rw [lastOffset] at small
  constructor
  · rw [Value.Exact, IsWord]
    simp only [Word.count64]
    omega
  · have bounds : (0 : Int) ≤ n ∧ (n : Int) < Word.count32 := by
      simp only [Word.count32]
      omega
    rw [Value.asOffset, if_pos bounds, Int.toNat_natCast]

theorem readsAs_pair {α β γ : Type} (f : α → β → γ) (name name' : String)
    {read : Value → Except ReadError α} {read' : Value → Except ReadError β} {v w : Value} {a : α}
    {b : β} (first : ReadsAs read v a) (second : ReadsAs read' w b) :
    ReadsAs (Value.asTuple (f <$> Form.required name read <*> Form.required name' read'))
      (.array [v, w]) (f a b) := by
  constructor
  · simp only [Value.Exact, ItemsExact]
    exact ⟨first.exact, second.exact, trivial⟩
  · rw [Value.asTuple, Form.ofValue]
    simp [Form.run, Form.required, Form.fieldOr, Form.both, Seq.seq, Functor.map, Fields.ofItems,
      Fields.drop, first.result, second.result]

theorem readsAs_span (span : Span) : ReadsAs Span.ofValue span.value span := by
  have first : span.start ≤ lastOffset := Nat.le_trans span.ordered span.bounded
  have same : Span.between span.start span.stop = span :=
    Span.ext (Span.start_between first) (Span.stop_between span.ordered span.bounded)
  have pair := readsAs_pair Span.between "start" "end"
    (readsAs_offset first) (readsAs_offset span.bounded)
  rw [same] at pair
  exact pair

theorem fills_span (span : Option Span) : Fills Expression.spanField (spanFields span) span := by
  apply fills_given
  · intro v found
    obtain ⟨span, rfl, rfl⟩ := Option.map_eq_some_iff.1 found
    exact readsAs_nullable (readsAs_span span) nofun
  · exact Option.map_eq_none_iff.1

theorem fills_text (name : String) (text : Option String) :
    Fills (.optional name none (Value.nullable Value.asString)) (given name (text.map .string))
      text := by
  apply fills_given
  · intro v found
    obtain ⟨text, rfl, rfl⟩ := Option.map_eq_some_iff.1 found
    exact readsAs_nullable (readsAs_string text) nofun
  · exact Option.map_eq_none_iff.1

end Fields

section Names

variable {ν α β : Type}

theorem names_map (g : α → β) (form : Form ν α) : (g <$> form).names = form.names := rfl

theorem names_seq (f : Form ν (α → β)) (x : Form ν α) : (f <*> x).names = f.names ++ x.names := rfl

theorem names_required (name : String) (read : ν → Except ReadError α) :
    (Form.required name read).names = [name] := rfl

theorem names_optional (name : String) (default : α) (read : ν → Except ReadError α) :
    (Form.optional name default read).names = [name] := rfl

end Names

theorem Expression.ofName?_kind (k : Expression.Kind) : Tag.ofName? (Tag.name k) = some k := by
  cases k <;> rfl

theorem Expression.form_distinct (read : Value → Except ReadError Expression)
    (k : Expression.Kind) : (Tag.field :: (Expression.form read k).names).Nodup := by
  cases k <;> simp only [Expression.form, Expression.spanField, names_map, names_seq,
    names_required, names_optional, List.cons_append, List.nil_append] <;> decide

theorem Expression.readWithin_succ (fuel : Nat) :
    Expression.readWithin (fuel + 1) = (fun v => do
      let (kind, record) ← Tag.splitValue v
      (Expression.form (Expression.readWithin fuel) kind).ofValue record) :=
  rfl

section Expressions

variable {full : Bool}

theorem readsAs_of_fills {e : Expression} (fills : ∀ fuel,
      (∀ m ∈ e.fields full, m.2.depth < fuel) →
      Fills (Expression.form (Expression.readWithin fuel) e.kind) (e.fields full) e)
    {fuel : Nat} (deep : (tagged e.kind (e.fields full)).depth < fuel) :
    ReadsAs (Expression.readWithin fuel) (tagged e.kind (e.fields full)) e :=
  readsAs_within Expression.readWithin_succ (Expression.ofName?_kind _)
    (fun _ => Expression.form_distinct _ _) fills deep

theorem depthOfItems_lt {items : List Value} {fuel : Nat}
    (deep : (Value.array items).depth < fuel) : Value.depthOfItems items < fuel := by
  rw [Value.depth] at deep
  omega

theorem depthOfMembers_lt {members : List (String × Value)} {fuel : Nat}
    (deep : (Value.object members).depth < fuel) : Value.depthOfMembers members < fuel := by
  rw [Value.depth] at deep
  omega

theorem setKey_fresh {key : String} {done : List (String × Expression)}
    (fresh : key ∉ done.map Prod.fst) (e : Expression) :
    Expression.setKey key e done = done ++ [(key, e)] := by
  induction done with
  | nil => rfl
  | cons p done ih =>
    rw [List.map_cons, List.mem_cons, not_or] at fresh
    rw [Expression.setKey, if_neg (Ne.symm fresh.1), ih fresh.2, List.cons_append]

theorem readsAs_array {α : Type} {read : Value → Except ReadError α} {items : List Value}
    {as : List α} (exact : ItemsExact items) (reads : items.mapM read = .ok as) :
    ReadsAs (Value.asList read) (.array items) as :=
  ⟨by rw [Value.Exact]; exact exact, reads⟩

theorem fills_list {α : Type} {name : String} {read : Value → Except ReadError α} {as : List α}
    {items : List Value} (reads : (name, Value.array items) ∈
      spared full name as.isEmpty (.array items) → ItemsExact items ∧ items.mapM read = .ok as) :
    Fills (.optional name [] (Value.asList read)) (spared full name as.isEmpty (.array items)) as :=
  fills_spared (fun written => readsAs_array (reads written).1 (reads written).2)
    List.isEmpty_iff.1

mutual

theorem Expression.fills (e : Expression) (proper : e.Proper) (fuel : Nat)
    (room : ∀ m ∈ e.fields full, m.2.depth < fuel) :
    Fills (Expression.form (Expression.readWithin fuel) e.kind) (e.fields full) e := by
  match e with
  | .string value parts span =>
    rw [Expression.Proper] at proper
    rw [Expression.fields] at room ⊢
    simp only [List.forall_mem_append] at room
    exact .seq (.seq (fills_map (fills_text "value" value)) (fills_list fun written =>
      Part.allRead parts proper (depthOfItems_lt (room.1.2 _ written)))) (fills_span span)
  | .int value span =>
    rw [Expression.Proper] at proper
    rw [Expression.fields]
    exact .seq (fills_map (.present (readsAs_integer proper))) (fills_span span)
  | .bool value span =>
    rw [Expression.fields]
    exact .seq (fills_map (.present (readsAs_bool value))) (fills_span span)
  | .null span =>
    rw [Expression.fields]
    exact fills_map (fills_span span)
  | .ident name span =>
    rw [Expression.fields]
    exact .seq (fills_map (.present (readsAs_string name))) (fills_span span)
  | .array items span =>
    rw [Expression.Proper] at proper
    rw [Expression.fields] at room ⊢
    simp only [List.forall_mem_append] at room
    exact .seq (fills_map (fills_list fun written =>
      Expression.allRead items proper (depthOfItems_lt (room.1 _ written)))) (fills_span span)
  | .object properties span =>
    rw [Expression.Proper] at proper
    rw [Expression.fields] at room ⊢
    simp only [List.forall_mem_append] at room
    refine .seq (fills_map (fills_spared (fun written => ?_) List.isEmpty_iff.1)) (fills_span span)
    have inner := Expression.propertiesRead properties proper.2 [] proper.1
      (depthOfMembers_lt (room.1 _ written))
    exact ⟨by rw [Value.Exact]; exact inner.1, inner.2⟩
  | .property base name span =>
    rw [Expression.Proper] at proper
    rw [Expression.fields] at room ⊢
    simp only [List.forall_mem_append, List.forall_mem_singleton] at room
    have inner := readsAs_of_fills (Expression.fills base proper) room.1.1
    exact .seq (.seq (fills_map (.present inner)) (.present (readsAs_string name))) (fills_span span)
  | .index base index span =>
    rw [Expression.Proper] at proper
    rw [Expression.fields] at room ⊢
    simp only [List.forall_mem_append, List.forall_mem_singleton] at room
    have inner := readsAs_of_fills (Expression.fills base proper.1) room.1.1
    have selector := readsAs_of_fills (Expression.fills index proper.2) room.1.2
    exact .seq (.seq (fills_map (.present inner)) (.present selector)) (fills_span span)
  | .resourceAccess base name span =>
    rw [Expression.Proper] at proper
    rw [Expression.fields] at room ⊢
    simp only [List.forall_mem_append, List.forall_mem_singleton] at room
    have inner := readsAs_of_fills (Expression.fills base proper) room.1.1
    exact .seq (.seq (fills_map (.present inner)) (.present (readsAs_string name))) (fills_span span)
  | .call name args span =>
    rw [Expression.Proper] at proper
    rw [Expression.fields] at room ⊢
    simp only [List.forall_mem_append] at room
    exact .seq (.seq (fills_map (.present (readsAs_string name))) (fills_list fun written =>
      Expression.allRead args proper (depthOfItems_lt (room.1.2 _ written)))) (fills_span span)
  | .instanceCall base name args span =>
    rw [Expression.Proper] at proper
    rw [Expression.fields] at room ⊢
    simp only [List.forall_mem_append, List.forall_mem_singleton] at room
    have inner := readsAs_of_fills (Expression.fills base proper.1) room.1.1.1
    exact .seq (.seq (.seq (fills_map (.present inner)) (.present (readsAs_string name)))
      (fills_list fun written => Expression.allRead args proper.2
        (depthOfItems_lt (room.1.2 _ written)))) (fills_span span)
  | .paren inner span =>
    rw [Expression.Proper] at proper
    rw [Expression.fields] at room ⊢
    simp only [List.forall_mem_append, List.forall_mem_singleton] at room
    have inner := readsAs_of_fills (Expression.fills inner proper) room.1
    exact .seq (fills_map (.present inner)) (fills_span span)
  | .unary operator operand span =>
    rw [Expression.Proper] at proper
    rw [Expression.fields] at room ⊢
    simp only [List.forall_mem_append, List.forall_mem_singleton] at room
    have symbol := readsAs_symbol (UnaryOperator.ofSymbol?_symbol operator)
    have inner := readsAs_of_fills (Expression.fills operand proper) room.1.2
    exact .seq (.seq (fills_map (.present symbol)) (.present inner)) (fills_span span)
  | .binary operator left right span =>
    rw [Expression.Proper] at proper
    rw [Expression.fields] at room ⊢
    simp only [List.forall_mem_append, List.forall_mem_singleton] at room
    have symbol := readsAs_symbol (BinaryOperator.ofSymbol?_symbol operator)
    have first := readsAs_of_fills (Expression.fills left proper.1) room.1.1.2
    have second := readsAs_of_fills (Expression.fills right proper.2) room.1.2
    exact .seq (.seq (.seq (fills_map (.present symbol)) (.present first)) (.present second))
      (fills_span span)
  | .ternary condition whenTrue whenFalse span =>
    rw [Expression.Proper] at proper
    rw [Expression.fields] at room ⊢
    simp only [List.forall_mem_append, List.forall_mem_singleton] at room
    have test := readsAs_of_fills (Expression.fills condition proper.1) room.1.1.1
    have first := readsAs_of_fills (Expression.fills whenTrue proper.2.1) room.1.1.2
    have second := readsAs_of_fills (Expression.fills whenFalse proper.2.2) room.1.2
    exact .seq (.seq (.seq (fills_map (.present test)) (.present first)) (.present second))
      (fills_span span)
  | .loop item index iterated body span =>
    rw [Expression.Proper] at proper
    rw [Expression.fields] at room ⊢
    simp only [List.forall_mem_append, List.forall_mem_singleton] at room
    have source := readsAs_of_fills (Expression.fills iterated proper.1) room.1.1.2
    have inner := readsAs_of_fills (Expression.fills body proper.2) room.1.2
    exact .seq (.seq (.seq (.seq (fills_map (.present (readsAs_string item)))
      (fills_text "index" index)) (.present source)) (.present inner)) (fills_span span)
  | .condition condition body span =>
    rw [Expression.Proper] at proper
    rw [Expression.fields] at room ⊢
    simp only [List.forall_mem_append, List.forall_mem_singleton] at room
    have test := readsAs_of_fills (Expression.fills condition proper.1) room.1.1
    have inner := readsAs_of_fills (Expression.fills body proper.2) room.1.2
    exact .seq (.seq (fills_map (.present test)) (.present inner)) (fills_span span)

theorem Expression.allRead (es : List Expression) (proper : Expression.AllProper es) {fuel : Nat}
    (room : Value.depthOfItems (Expression.values full es) < fuel) :
    ItemsExact (Expression.values full es) ∧
      (Expression.values full es).mapM (Expression.readWithin fuel) = .ok es := by
  match es with
  | [] => exact ⟨by rw [Expression.values, ItemsExact]; trivial, rfl⟩
  | e :: es =>
    rw [Expression.AllProper] at proper
    rw [Expression.values, Value.depthOfItems] at room
    have first := readsAs_of_fills (Expression.fills e proper.1)
      (Nat.lt_of_le_of_lt (Nat.le_max_left ..) room)
    have rest := Expression.allRead es proper.2 (Nat.lt_of_le_of_lt (Nat.le_max_right ..) room)
    rw [Expression.values, ItemsExact, List.mapM_cons, first.result, rest.2]
    exact ⟨⟨first.exact, rest.1⟩, rfl⟩

theorem Expression.propertiesRead (properties : List (String × Expression))
    (proper : Expression.PropertiesProper properties) (done : List (String × Expression))
    (distinct : ((done ++ properties).map Prod.fst).Nodup) {fuel : Nat}
    (room : Value.depthOfMembers (Expression.propertyValues full properties) < fuel) :
    MembersExact (Expression.propertyValues full properties) ∧
      Expression.readProperties (Expression.readWithin fuel) done
        (Expression.propertyValues full properties) = .ok (done ++ properties) := by
  match properties with
  | [] =>
    rw [Expression.propertyValues, MembersExact, Expression.readProperties, List.append_nil]
    exact ⟨trivial, rfl⟩
  | (key, e) :: properties =>
    rw [Expression.PropertiesProper] at proper
    rw [Expression.propertyValues, Value.depthOfMembers] at room
    have first := readsAs_of_fills (Expression.fills e proper.1)
      (Nat.lt_of_le_of_lt (Nat.le_max_left ..) room)
    have fresh : key ∉ done.map Prod.fst := by
      rw [List.map_append, List.nodup_append] at distinct
      exact fun earlier => distinct.2.2 key earlier key List.mem_cons_self rfl
    rw [List.append_cons] at distinct
    have rest := Expression.propertiesRead properties proper.2 (done ++ [(key, e)]) distinct
      (Nat.lt_of_le_of_lt (Nat.le_max_right ..) room)
    rw [Expression.propertyValues, MembersExact, Expression.readProperties, first.result]
    refine ⟨⟨first.exact, rest.1⟩, ?_⟩
    show Expression.readProperties _ (Expression.setKey key e done) _ = _
    rw [setKey_fresh fresh, rest.2, List.append_assoc, List.singleton_append]

theorem Part.allRead (parts : List Part) (proper : Part.AllProper parts) {fuel : Nat}
    (room : Value.depthOfItems (Part.values full parts) < fuel) :
    ItemsExact (Part.values full parts) ∧ (Part.values full parts).mapM
      (Expression.readPart (Expression.readWithin fuel)) = .ok parts := by
  match parts with
  | [] => exact ⟨by rw [Part.values, ItemsExact]; trivial, rfl⟩
  | .text text :: parts =>
    rw [Part.AllProper] at proper
    rw [Part.values, Value.depthOfItems] at room
    have rest := Part.allRead parts proper (Nat.lt_of_le_of_lt (Nat.le_max_right ..) room)
    rw [Part.values, ItemsExact, List.mapM_cons, Expression.readPart, rest.2]
    exact ⟨⟨(readsAs_string text).exact, rest.1⟩, rfl⟩
  | .hole e :: parts =>
    rw [Part.AllProper] at proper
    rw [Part.values, Value.depthOfItems] at room
    have first := readsAs_of_fills (Expression.fills e proper.1)
      (Nat.lt_of_le_of_lt (Nat.le_max_left ..) room)
    have rest := Part.allRead parts proper.2 (Nat.lt_of_le_of_lt (Nat.le_max_right ..) room)
    have piece : Expression.readPart (Expression.readWithin fuel)
        (tagged e.kind (e.fields full)) = .ok (.hole e) := by
      rw [tagged, Expression.readPart, ← tagged, first.result]
      · exact nofun
    rw [Part.values, ItemsExact, List.mapM_cons, piece, rest.2]
    exact ⟨⟨first.exact, rest.1⟩, rfl⟩

end

end Expressions

end DeployCheck
