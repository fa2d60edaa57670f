import DeployCheck.Proofs.Analysis.Dependencies

/-!
# What the tables hold

Every answer in the tables has a derivation if it is positive. If what it is
about is settled, a negative answer means that there is none. Both are kept by
every step of the work, on whatever path the step is made.
-/

set_option autoImplicit false

namespace DeployCheck.Analysis

variable {s : Subject}

/-- An answer about a fact: never positive without a derivation, and never
negative with one unless something was cut off. -/
structure Judges (s : Subject) (fact : Fact) (answer : Bool) : Prop where
  sound : answer = true → Derives s fact
  complete : Settled s fact.item → Derives s fact → answer = true

inductive Bodied (s : Subject) (id : SymbolId) : ObjectType → Prop where
  | fresh {symbol : Symbol} {type : TypeReference} {collection : Bool}
      (found : s.bound.symbol? id = some symbol)
      (kind : symbol.kind = .resource type false collection) : Bodied s id (s.declaredType type)
  | existing {symbol : Symbol} {type : TypeReference} {collection known : Bool}
      (found : s.bound.symbol? id = some symbol)
      (kind : symbol.kind = .resource type true collection) (judged : Judges s (.identity id) known) :
      Bodied s id (markName (s.declaredType type) known)
  | module {symbol : Symbol} {path : String} {collection : Bool}
      (found : s.bound.symbol? id = some symbol) (kind : symbol.kind = .module path collection) :
      Bodied s id (.ofModule path)

def Found (s : Subject) (id : SymbolId) : Option ObjectType → Prop
  | some type => Bodied s id type
  | none => Settled s (.body id) → ∀ symbol, s.bound.symbol? id = some symbol →
      symbol.isResourceOrModule = false

/-- The tables hold answers, and the bodies that have to be kept. -/
structure Accurate (s : Subject) (kept : SymbolId → Prop) (memo : Memo) : Prop where
  size : memo.bodies.size = s.bound.symbols.size
  constants : ∀ id answer, memo.constant? id = some answer → Judges s (.constant id) answer
  bodies : ∀ id type, memo.body? id = some type → Bodied s id type
  keeps : ∀ id, kept id → (memo.body? id).isSome = true

theorem isReadable_markName (type : ObjectType) (known : Bool) (property : String) :
    (markName type known).isReadable property =
      if Name.same property ObjectType.nameProperty then
        (type.property? property).isSome && known
      else type.isReadable property := by
  have again : Name.same property ObjectType.nameProperty = true →
      type.property? property = type.property? ObjectType.nameProperty := type.properties.find?_congr
  rw [markName, ObjectType.updateFlags]
  cases named : type.property? ObjectType.nameProperty with
  | none =>
    by_cases same : Name.same property ObjectType.nameProperty = true
    · rw [if_pos same, ObjectType.isReadable, again same, named]
      rfl
    · rw [if_neg same]
  | some p =>
    have own : Name.same p.name ObjectType.nameProperty = true :=
      (Roster.find?_eq_some_iff.1 named).2
    rw [ObjectType.isReadable, ObjectType.property?_insertProperty]
    by_cases same : Name.same property ObjectType.nameProperty = true
    · have both : Name.same p.name property = true := by
        rw [Name.same_comm] at same
        exact Name.same_trans own same
      rw [if_pos both, if_pos same, again same, named]
      show (p.flags.setReadable known).isReadable = known
      exact PropertyFlags.isReadable_setReadable p.flags known
    · have neither : ¬Name.same p.name property = true := by
        intro both
        rw [Name.same_comm] at both
        exact same (Name.same_trans both own)
      rw [if_neg neither, if_neg same, ObjectType.isReadable]

theorem judges_of_premises {fact : Fact} {answer : Bool}
    (h : s.premises fact = if answer then some [] else none) : Judges s fact answer := by
  cases answer with
  | true =>
    have rule : Rule s fact [] := rule_iff.2 h
    exact ⟨fun _ => (derives_iff rule).2 (List.forall_mem_nil _), fun _ _ => rfl⟩
  | false =>
    apply Judges.mk
    · intro h
      cases h
    · rintro - ⟨rule, _⟩
      rw [rule_iff, h] at rule
      cases rule

theorem declared_of_bodied {id : SymbolId} {type : ObjectType} (bodied : Bodied s id type) :
    ∃ symbol, s.bound.symbol? id = some symbol ∧ symbol.isResourceOrModule = true := by
  cases bodied with
  | fresh found kind | existing found kind | module found kind =>
    exact ⟨_, found, by rw [Symbol.isResourceOrModule, kind]⟩

theorem premises_readable {id : SymbolId} {symbol : Symbol} {type : TypeReference}
    {collection : Bool} (found : s.bound.symbol? id = some symbol)
    (kind : symbol.kind = .resource type true collection) (known : Bool) (property : String) :
    (s.premises (.readable id property) =
        if (markName (s.declaredType type) known).isReadable property then some [] else none) ∨
      s.premises (.readable id property) = some [.identity id] ∧
        (markName (s.declaredType type) known).isReadable property = known := by
  rw [isReadable_markName]
  by_cases same : Name.same property ObjectType.nameProperty = true
  · rw [if_pos same]
    cases declared : ((s.declaredType type).property? property).isSome with
    | false =>
      left
      simp [Subject.premises, Subject.readablePremises, found, kind, same, declared]
    | true =>
      right
      simp [Subject.premises, Subject.readablePremises, found, kind, same, declared]
  · rw [if_neg same]
    left
    simp [Subject.premises, Subject.readablePremises, found, kind, same]

theorem bodied_readable {id : SymbolId} {type : ObjectType} (h : Bodied s id type)
    (property : String) : Judges s (.readable id property) (type.isReadable property) := by
  cases h with
  | fresh found kind =>
    apply judges_of_premises
    simp [Subject.premises, Subject.readablePremises, found, kind]
  | module found kind =>
    apply judges_of_premises
    simp [Subject.premises, Subject.readablePremises, found, kind]
  | @existing symbol type collection known found kind judged =>
    rcases premises_readable found kind known property with decided | ⟨follows, same⟩
    · exact judges_of_premises decided
    · have rule : Rule s (.readable id property) [.identity id] := rule_iff.2 follows
      rw [same]
      apply Judges.mk
      · intro h
        rw [derives_iff rule, List.forall_mem_singleton]
        exact judged.sound h
      · intro settled h
        rw [derives_iff rule, List.forall_mem_singleton] at h
        exact judged.complete settled h

section Changes

variable {kept : SymbolId → Prop} {memo : Memo}

theorem start_constant? (id : NodeId) : (Memo.start s).constant? id = none := by
  rw [Memo.constant?, Memo.start, Array.getElem?_replicate]
  split <;> rfl

theorem start_body? (id : SymbolId) : (Memo.start s).body? id = none := by
  rw [Memo.body?, Memo.start, Array.getElem?_replicate]
  split <;> rfl

theorem accurate_start : Accurate s (fun _ => False) (.start s) := by
  apply Accurate.mk
  · exact Array.size_replicate
  · intro id answer h
    rw [start_constant?] at h
    cases h
  · intro id type h
    rw [start_body?] at h
    cases h
  · exact fun _ h => h.elim

theorem join_setIfInBounds {α : Type} {a : Array (Option α)} {n k : Nat} {v w : α}
    (h : ((a.setIfInBounds n (some v))[k]?).join = some w) :
    (n = k ∧ v = w) ∨ a[k]?.join = some w := by
  rw [Array.getElem?_setIfInBounds] at h
  by_cases hn : n = k
  · rw [if_pos hn] at h
    split at h
    · cases h
      exact .inl ⟨hn, rfl⟩
    · cases h
  · rw [if_neg hn] at h
    exact .inr h

theorem accurate_setConstant (h : Accurate s kept memo) {id : NodeId} {answer : Bool}
    (judged : Judges s (.constant id) answer) : Accurate s kept (memo.setConstant id answer) := by
  apply Accurate.mk
  · exact h.size
  · intro k b hk
    rcases join_setIfInBounds hk with ⟨rfl, rfl⟩ | hk
    · exact judged
    · exact h.constants k b hk
  · exact h.bodies
  · exact h.keeps

theorem body?_setBody {id : SymbolId} {type : ObjectType} (h : id < memo.bodies.size) :
    (memo.setBody id type).body? id = some type := by
  rw [Memo.body?, Memo.setBody, Array.getElem?_setIfInBounds, if_pos rfl, if_pos h]
  rfl

theorem accurate_setBody (h : Accurate s kept memo) {id : SymbolId} {type : ObjectType}
    (bodied : Bodied s id type) : Accurate s kept (memo.setBody id type) := by
  apply Accurate.mk
  · exact Array.size_setIfInBounds.trans h.size
  · exact h.constants
  · intro k t hk
    rcases join_setIfInBounds hk with ⟨rfl, rfl⟩ | hk
    · exact bodied
    · exact h.bodies k t hk
  · intro k hk
    by_cases same : id = k
    · have inside : id < memo.bodies.size := by
        have := h.keeps id (same ▸ hk)
        by_contra outside
        rw [Memo.body?, Array.getElem?_eq_none (Nat.le_of_not_lt outside)] at this
        cases this
      rw [← same, body?_setBody inside]
      rfl
    · rw [Memo.body?, Memo.setBody, Array.getElem?_setIfInBounds, if_neg same]
      exact h.keeps k hk

theorem accurate_report (h : Accurate s kept memo) (d : Diagnostic) :
    Accurate s kept (memo.report d) := ⟨h.size, h.constants, h.bodies, h.keeps⟩

end Changes

end DeployCheck.Analysis
