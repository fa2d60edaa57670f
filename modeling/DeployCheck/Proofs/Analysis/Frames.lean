import DeployCheck.Proofs.Analysis.Marks

/-!
# What the analysis changes in a type

Bodies are worked out while other bodies are, and all resources of one type start from the
same declared body. Whatever the order, the body of a new resource is the declared one, and
that of an existing resource differs from it in one flag of one property: the name is
readable as the identity of this very resource says.
-/

set_option autoImplicit false

namespace DeployCheck

theorem PropertyFlags.getLsbD_setReadable (f : PropertyFlags) (readable : Bool) (i : Nat) :
    (f.setReadable readable).bits.getLsbD i = if i = 4 then readable else f.bits.getLsbD i := by
  have bit : readableAtDeployTime.bits.getLsbD i = decide (i = 4) := by
    simp [readableAtDeployTime, BitVec.getLsbD_twoPow, eq_comm]
  cases readable with
  | true =>
    show (f.bits ||| readableAtDeployTime.bits).getLsbD i = _
    rw [BitVec.getLsbD_or, bit]
    by_cases four : i = 4 <;> simp [four]
  | false =>
    show (f.bits &&& ~~~readableAtDeployTime.bits).getLsbD i = _
    rw [BitVec.getLsbD_and, BitVec.getLsbD_not, bit]
    by_cases four : i = 4
    · simp [four]
    · simp only [four, decide_false, Bool.not_false, Bool.and_true, if_false]
      by_cases inside : i < 32
      · simp [inside]
      · simp [inside, BitVec.getLsbD_of_ge f.bits i (Nat.le_of_not_lt inside)]

structure Property.Flagged (known : Bool) (p q : Property) : Prop where
  name : q.name = p.name
  kind : q.kind = p.kind
  flags : ∀ i, q.flags.bits.getLsbD i =
    if i = 4 ∧ Name.same p.name ObjectType.nameProperty = true then known
    else p.flags.bits.getLsbD i

structure ObjectType.Flagged (known : Bool) (t t' : ObjectType) : Prop where
  name : t'.name = t.name
  functions : t'.functions = t.functions
  properties : List.Forall₂ (Property.Flagged known) t.properties.entries t'.properties.entries

theorem Roster.putIn_eq_map {α : Type} [Named α] {entries : List α}
    (distinct : entries.Pairwise fun a b => Name.same (Named.name a) (Named.name b) = false)
    {e : α} (member : e ∈ entries) {f : α → α} (named : Named.name (f e) = Named.name e) :
    putIn (f e) entries =
      entries.map fun x => if Name.same (Named.name x) (Named.name e) then f x else x := by
  induction distinct with
  | nil => cases member
  | @cons a rest others _ ih =>
    rw [putIn, named, List.map_cons]
    by_cases same : Name.same (Named.name a) (Named.name e) = true
    · have own : a = e := by
        rcases List.mem_cons.1 member with rfl | later
        · rfl
        · rw [others e later] at same
          cases same
      subst own
      rw [if_pos same, if_pos same]
      congr 1
      have kept : ∀ x ∈ rest, (if Name.same (Named.name x) (Named.name a) then f x else x) = x := by
        intro x later
        rw [Name.same_comm, others x later]
        rfl
      rw [List.map_congr_left kept, List.map_id']
    · have later : e ∈ rest := by
        rcases List.mem_cons.1 member with rfl | later
        · exact absurd (Name.same_refl _) same
        · exact later
      rw [if_neg same, if_neg same, ih later]

namespace Analysis

theorem entries_markName (declared : ObjectType) (known : Bool) :
    (markName declared known).properties.entries = declared.properties.entries.map fun p =>
      if Name.same p.name ObjectType.nameProperty then
        { p with flags := p.flags.setReadable known } else p := by
  rw [markName, ObjectType.updateFlags]
  cases found : declared.property? ObjectType.nameProperty with
  | none =>
    have other : ∀ p ∈ declared.properties.entries,
        (if Name.same p.name ObjectType.nameProperty then
          { p with flags := p.flags.setReadable known } else p) = p := by
      intro p member
      exact if_neg (List.find?_eq_none.1 found p member)
    rw [List.map_congr_left other, List.map_id']
  | some p =>
    obtain ⟨member, own⟩ := Roster.find?_eq_some_iff.1 found
    have placed := Roster.putIn_eq_map declared.properties.distinct member
      (f := fun p => { p with flags := p.flags.setReadable known }) rfl
    refine placed.trans (List.map_congr_left fun q _ => ?_)
    have named : Name.same q.name p.name = Name.same q.name ObjectType.nameProperty := by
      have key : Name.key p.name = Name.key ObjectType.nameProperty := (Name.same_iff ..).1 own
      rw [Name.same, Name.same, key]
    show (if Name.same q.name p.name then _ else _) = _
    rw [named]

theorem flagged_markName (declared : ObjectType) (known : Bool) :
    declared.Flagged known (markName declared known) := by
  have same : (markName declared known).name = declared.name ∧
      (markName declared known).functions = declared.functions := by
    rw [markName, ObjectType.updateFlags]
    split
    · exact ⟨rfl, rfl⟩
    · exact ⟨rfl, rfl⟩
  refine ⟨same.1, same.2, ?_⟩
  rw [entries_markName, List.forall₂_map_right_iff, List.forall₂_same]
  intro p _
  by_cases own : Name.same p.name ObjectType.nameProperty = true
  · rw [if_pos own]
    refine ⟨rfl, rfl, fun i => ?_⟩
    simp only [own, and_true]
    exact PropertyFlags.getLsbD_setReadable p.flags known i
  · rw [if_neg own]
    exact ⟨rfl, rfl, fun i => by simp [own]⟩

inductive Attested (s : Subject) (z : Analyzer) (id : SymbolId) : ObjectType → Prop where
  | fresh {symbol : Symbol} {type : TypeReference} {collection : Bool}
      (found : s.bound.symbol? id = some symbol)
      (kind : symbol.kind = .resource type false collection) : Attested s z id (s.declaredType type)
  | existing {symbol : Symbol} {type : TypeReference} {collection known : Bool}
      (found : s.bound.symbol? id = some symbol)
      (kind : symbol.kind = .resource type true collection)
      (identity : z.identity? id = some known) :
      Attested s z id (markName (s.declaredType type) known)
  | module {symbol : Symbol} {path : String} {collection : Bool}
      (found : s.bound.symbol? id = some symbol) (kind : symbol.kind = .module path collection) :
      Attested s z id (.ofModule path)

/-- The bodies in the table go back to the identities in theirs, and no resource that a
module returns is identified. Whose identity is worked out is waiting for its body. -/
structure Consistent (s : Subject) (z : Analyzer) : Prop where
  size : z.identities.size = s.bound.symbols.size
  within : ∀ id ∈ z.identified, id ∈ z.bodies
  returned : ∀ id symbol known, s.bound.symbol? id = some symbol →
    symbol.module?.isSome = true → z.identity? id = some known → known = false
  bodies : ∀ id body, z.memo.body? id = some body → Attested s z id body

/-- The marks are the same again, identities stay as they are, and those that are worked out
are not put into the table by anybody else. -/
structure Continues (z z' : Analyzer) : Prop where
  bodies : z'.bodies = z.bodies
  identified : z'.identified = z.identified
  kept : ∀ id known, z.identity? id = some known → z'.identity? id = some known
  waiting : ∀ id ∈ z.identified, z'.identity? id = z.identity? id

/-- Where work with marks gives a result, it keeps the tables consistent. -/
def Frames {α : Type} (s : Subject) (z : Analyzer) (u : Marking α) (post : α → Analyzer → Prop) :
    Prop :=
  ∀ a z', u.run z = some (a, z') → Consistent s z' ∧ Continues z z' ∧ post a z'

section Frames

variable {α β : Type} {s : Subject} {z z' z'' : Analyzer} {u : Marking α}
  {post : α → Analyzer → Prop} {post' : β → Analyzer → Prop}

theorem attested_mono {id : SymbolId} {body : ObjectType} (h : Attested s z id body)
    (kept : ∀ known, z.identity? id = some known → z'.identity? id = some known) :
    Attested s z' id body := by
  cases h with
  | fresh found kind => exact .fresh found kind
  | existing found kind identity => exact .existing found kind (kept _ identity)
  | module found kind => exact .module found kind

theorem continues_refl : Continues z z := ⟨rfl, rfl, fun _ _ h => h, fun _ _ => rfl⟩

theorem continues_trans (h : Continues z z') (h' : Continues z' z'') : Continues z z'' := by
  constructor
  · rw [h'.bodies, h.bodies]
  · rw [h'.identified, h.identified]
  · exact fun id known identity => h'.kept id known (h.kept id known identity)
  · intro id waiting
    rw [h'.waiting id (h.identified ▸ waiting), h.waiting id waiting]

theorem frames_pure (consistent : Consistent s z) {a : α} (holds : post a z) :
    Frames s z (pure a) post := by
  intro a' z' run
  cases run
  exact ⟨consistent, continues_refl, holds⟩

theorem frames_bind {f : α → Marking β} (first : Frames s z u post)
    (rest : ∀ a z', Consistent s z' → Continues z z' → post a z' → Frames s z' (f a) post') :
    Frames s z (u >>= f) post' := by
  intro b z'' run
  rw [StateT.run_bind] at run
  obtain ⟨⟨a, z'⟩, run, run'⟩ := Option.bind_eq_some_iff.1 run
  obtain ⟨consistent, continues, holds⟩ := first a z' run
  obtain ⟨consistent', continues', holds'⟩ := rest a z' consistent continues holds b z'' run'
  exact ⟨consistent', continues_trans continues continues', holds'⟩

theorem frames_get {f : Analyzer → Marking β} (h : Frames s z (f z) post') :
    Frames s z (get >>= f) post' := h

theorem frames_modify {f : Analyzer → Analyzer} {k : Unit → Marking β}
    (continues : Continues z (f z)) (rest : Frames s (f z) (k ()) post') :
    Frames s z (modify f >>= k) post' := by
  intro b z'' run
  obtain ⟨consistent, continues', holds⟩ := rest b z'' run
  exact ⟨consistent, continues_trans continues continues', holds⟩

theorem frames_bracket {enter : Analyzer → Analyzer} {leave : α → Analyzer → Analyzer}
    (result : α → β) (inner : Frames s (enter z) u post)
    (leaves : ∀ a z', Consistent s z' → Continues (enter z) z' → post a z' →
      Consistent s (leave a z') ∧ Continues z (leave a z') ∧ post' (result a) (leave a z')) :
    Frames s z (do
      modify enter
      let a ← u
      modify (leave a)
      return result a) post' := by
  intro b z'' run
  have whole : (u >>= fun a => modify (leave a) >>= fun _ => pure (result a)).run (enter z) =
      some (b, z'') := run
  rw [StateT.run_bind] at whole
  obtain ⟨⟨a, z'⟩, run, rest⟩ := Option.bind_eq_some_iff.1 whole
  obtain ⟨consistent, continues, holds⟩ := inner a z' run
  cases rest
  exact leaves a z' consistent continues holds

theorem frames_judge {asked : Fact → Marking Bool}
    (h : ∀ fact z, Consistent s z → Frames s z (asked fact) fun _ _ => True)
    (premises : Option (List Fact)) (consistent : Consistent s z) :
    Frames s z (judge asked premises) fun _ _ => True := by
  cases premises with
  | none => exact frames_pure consistent trivial
  | some ps =>
    rw [judge]
    induction ps generalizing z with
    | nil => exact frames_pure consistent trivial
    | cons p ps ih =>
      apply frames_bind (h p z consistent)
      intro answer z' consistent' _ _
      cases answer with
      | true => exact ih consistent'
      | false => exact frames_pure consistent' trivial

end Frames

section Steps

variable {s : Subject} {z : Analyzer} {fuel : Nat}

structure Steady (s : Subject) (fuel : Nat) : Prop where
  examine : ∀ id z, Consistent s z → Frames s z (examine s fuel id) fun _ _ => True
  derive : ∀ id z, Consistent s z → Frames s z (derive s fuel id) fun _ _ => True

theorem frames_ask (steady : Steady s fuel) (fact : Fact) (z : Analyzer)
    (consistent : Consistent s z) :
    Frames s z (ask (examine s fuel) (derive s fuel) fact) fun _ _ => True := by
  cases fact with
  | constant id => exact steady.examine id z consistent
  | identity id => exact frames_pure consistent trivial
  | readable target property =>
    apply frames_bind (steady.derive target z consistent)
    intro answer z' consistent' _ _
    cases answer with
    | none => exact frames_pure consistent' trivial
    | some type => exact frames_pure consistent' trivial

theorem frames_examine (steady : Steady s fuel) (id : NodeId) (consistent : Consistent s z) :
    Frames s z (examine s (fuel + 1) id) fun _ _ => True := by
  rw [examine]
  apply frames_get
  cases z.memo.constant? id with
  | some known => exact frames_pure consistent trivial
  | none =>
    dsimp only
    split
    · exact frames_pure consistent trivial
    · rw [expressionIsConstant_eq]
      have entered : Consistent s (z.enterExpression id) :=
        ⟨consistent.size, consistent.within, consistent.returned,
          fun k body here => attested_mono (consistent.bodies k body here) fun _ h => h⟩
      apply frames_bracket (fun known => known)
        (frames_judge (frames_ask steady) (s.premises (.constant id)) entered)
      intro known z' consistent' continues _
      exact ⟨⟨consistent'.size, consistent'.within, consistent'.returned,
          fun k body here => attested_mono (consistent'.bodies k body here) fun _ h => h⟩,
        ⟨continues.bodies, continues.identified, continues.kept, continues.waiting⟩, trivial⟩

theorem identity?_leaveIdentity {id k : SymbolId} (known : Bool) (other : id ≠ k) :
    (z.leaveIdentity id known).identity? k = z.identity? k := by
  rw [Analyzer.identity?, Analyzer.leaveIdentity, Array.getElem?_setIfInBounds, if_neg other]
  rfl

theorem consistent_leaveIdentity {id : SymbolId} {symbol : Symbol} {known : Bool}
    {z' : Analyzer} (found : s.bound.symbol? id = some symbol) (unknown : z.identity? id = none)
    (fresh : id ∉ z.identified) (returned : symbol.module?.isSome = true → known = false)
    (consistent : Consistent s z') (continues : Continues (z.enterIdentity id) z') :
    Consistent s (z'.leaveIdentity id known) ∧ Continues z (z'.leaveIdentity id known) ∧
      (z'.leaveIdentity id known).identity? id = some known := by
  have missing : z'.identity? id = none :=
    (continues.waiting id List.mem_cons_self).trans unknown
  have marks : (z'.leaveIdentity id known).identified = z.identified := by
    rw [Analyzer.leaveIdentity, continues.identified]
    exact List.erase_cons_head id z.identified
  have stored : (z'.leaveIdentity id known).identity? id = some known := by
    have inside : id < z'.identities.size := by
      rw [consistent.size]
      exact (Array.getElem?_eq_some_iff.1 found).1
    rw [Analyzer.identity?, Analyzer.leaveIdentity, Array.getElem?_setIfInBounds, if_pos rfl,
      if_pos inside]
    rfl
  -- Nothing was stored for the resource meanwhile, so no answer is replaced.
  have kept : ∀ k answer, z'.identity? k = some answer →
      (z'.leaveIdentity id known).identity? k = some answer := by
    intro k answer identity
    rw [identity?_leaveIdentity known, identity]
    rintro rfl
    rw [missing] at identity
    cases identity
  refine ⟨⟨?_, ?_, ?_, ?_⟩, ⟨continues.bodies, marks, ?_, ?_⟩, stored⟩
  · exact Array.size_setIfInBounds.trans consistent.size
  · intro k waiting
    rw [marks] at waiting
    apply consistent.within
    rw [continues.identified]
    exact List.mem_cons_of_mem id waiting
  · intro k symbol' answer found' output identity
    by_cases own : id = k
    · subst own
      cases found.symm.trans found'
      cases stored.symm.trans identity
      exact returned output
    · rw [identity?_leaveIdentity known own] at identity
      exact consistent.returned k symbol' answer found' output identity
  · exact fun k body here => attested_mono (consistent.bodies k body here) (kept k)
  · exact fun k answer identity => kept k answer (continues.kept k answer identity)
  · intro k waiting
    have other : id ≠ k := by
      rintro rfl
      exact fresh waiting
    rw [identity?_leaveIdentity known other]
    exact continues.waiting k (List.mem_cons_of_mem id waiting)

theorem frames_identityIsConstant (steady : Steady s fuel) {id : SymbolId} {symbol : Symbol}
    {type : TypeReference} {existing collection : Bool} (found : s.bound.symbol? id = some symbol)
    (kind : symbol.kind = .resource type existing collection) (consistent : Consistent s z) :
    Frames s z (identityIsConstant s (examine s fuel) (derive s fuel) symbol) fun known _ =>
      symbol.module?.isSome = true → known = false := by
  by_cases output : symbol.module?.isSome = true
  · rw [identityIsConstant, if_pos output]
    exact frames_pure consistent fun _ => rfl
  · rw [identityIsConstant_eq _ _ found kind]
    intro known z' run
    obtain ⟨consistent', continues, _⟩ :=
      frames_judge (frames_ask steady) (s.premises (.identity id)) consistent known z' run
    exact ⟨consistent', continues, fun returned => absurd returned output⟩

variable (ends : ∀ symbol, entriesEnd s symbol = true)

include ends

theorem frames_identify (steady : Steady s fuel) {id : SymbolId} {symbol : Symbol}
    {type : TypeReference} {existing collection : Bool} (found : s.bound.symbol? id = some symbol)
    (kind : symbol.kind = .resource type existing collection) (consistent : Consistent s z)
    (waiting : id ∈ z.bodies) (fresh : id ∉ z.identified) :
    Frames s z (identify s (examine s fuel) (derive s fuel) id symbol) fun known z' =>
      z'.identity? id = some known := by
  rw [identify]
  apply frames_get
  cases unknown : z.identity? id with
  | some known => exact frames_pure consistent unknown
  | none =>
    dsimp only
    rw [if_neg (by simpa using fresh), guard, if_pos (ends symbol)]
    simp only [pure_bind]
    have entered : Consistent s (z.enterIdentity id) := by
      refine ⟨consistent.size, fun k member => ?_, consistent.returned,
        fun k body here => attested_mono (consistent.bodies k body here) fun _ h => h⟩
      rcases List.mem_cons.1 member with rfl | member
      · exact waiting
      · exact consistent.within k member
    apply frames_bracket (fun known => known) (frames_identityIsConstant steady found kind entered)
    exact fun known z' consistent' continues returned =>
      consistent_leaveIdentity found unknown fresh returned consistent' continues

theorem frames_deriveResource (steady : Steady s fuel) {id : SymbolId} {symbol : Symbol}
    {type : TypeReference} {existing collection : Bool} (found : s.bound.symbol? id = some symbol)
    (kind : symbol.kind = .resource type existing collection) (consistent : Consistent s z)
    (waiting : id ∈ z.bodies) (fresh : id ∉ z.identified) :
    Frames s z (deriveResource s (examine s fuel) (derive s fuel) id symbol type existing)
      fun body z' => Attested s z' id body := by
  have attests : ∀ {z : Analyzer}, Consistent s z → id ∈ z.bodies → id ∉ z.identified →
      Frames s z (do
        if !existing then return s.declaredType type
        return markName (s.declaredType type)
          (← identify s (examine s fuel) (derive s fuel) id symbol))
        fun body z' => Attested s z' id body := by
    intro z consistent waiting fresh
    cases existing with
    | false => exact frames_pure consistent (.fresh found kind)
    | true =>
      exact frames_bind (frames_identify ends steady found kind consistent waiting fresh)
        fun known z' consistent' _ identity =>
          frames_pure consistent' (.existing found kind identity)
  rw [deriveResource]
  by_cases untold : (s.catalog.lookup type).isNone = true
  · simp only [untold, if_true]
    apply frames_modify ⟨rfl, rfl, fun _ _ h => h, fun _ _ => rfl⟩
    -- A report changes neither bodies nor identities.
    exact attests ⟨consistent.size, consistent.within, consistent.returned, fun k body here =>
      attested_mono (consistent.bodies k body here) fun _ h => h⟩ waiting fresh
  · simp only [untold]
    exact attests consistent waiting fresh

theorem frames_derive (steady : Steady s fuel) (id : SymbolId) (consistent : Consistent s z) :
    Frames s z (derive s (fuel + 1) id) fun _ _ => True := by
  have stores : ∀ {z z' : Analyzer} {body : ObjectType}, Consistent s z → Attested s z id body →
      z'.memo = z.memo.setBody id body → z'.identities = z.identities →
      ∀ k type, z'.memo.body? k = some type → Attested s z' k type := by
    intro z z' body consistent attested memo same k type here
    have kept : ∀ known, z.identity? k = some known → z'.identity? k = some known := by
      rw [Analyzer.identity?, Analyzer.identity?, same]
      exact fun _ h => h
    rw [memo] at here
    rcases join_setIfInBounds here with ⟨rfl, rfl⟩ | here
    · exact attested_mono attested kept
    · exact attested_mono (consistent.bodies k type here) kept
  rw [derive]
  apply frames_get
  cases z.memo.body? id with
  | some type => exact frames_pure consistent trivial
  | none =>
    dsimp only
    split
    · exact frames_pure consistent trivial
    · next free =>
      have new : id ∉ z.bodies := by simpa using free
      cases found : s.bound.symbol? id with
      | none => exact frames_pure consistent trivial
      | some symbol =>
        dsimp only
        cases kind : symbol.kind with
        | resource type existing collection =>
          have entered : Consistent s (z.enterBody id) :=
            ⟨consistent.size, fun k waiting => List.mem_cons_of_mem id (consistent.within k waiting),
              consistent.returned, fun k body here =>
                attested_mono (consistent.bodies k body here) fun _ h => h⟩
          apply frames_bracket some (frames_deriveResource ends steady found kind entered
            List.mem_cons_self fun waiting => new (consistent.within id waiting))
          intro body z' consistent' continues attested
          have marks : (z'.leaveBody id body).bodies = z.bodies := by
            rw [Analyzer.leaveBody, continues.bodies]
            exact List.erase_cons_head id z.bodies
          refine ⟨⟨consistent'.size, fun k waiting => ?_, consistent'.returned,
            stores consistent' attested rfl rfl⟩,
            ⟨marks, continues.identified, continues.kept, continues.waiting⟩, trivial⟩
          rw [marks]
          apply consistent.within
          have same : z'.identified = z.identified := continues.identified
          exact same ▸ waiting
        | module modulePath collection =>
          apply frames_modify ⟨rfl, rfl, fun _ _ h => h, fun _ _ => rfl⟩
          have stored : Consistent s (z.storeBody id (.ofModule modulePath)) :=
            ⟨consistent.size, consistent.within, consistent.returned,
              stores consistent (.module found kind) rfl rfl⟩
          exact frames_pure stored trivial
        | _ => exact frames_pure consistent trivial

theorem steady (fuel : Nat) : Steady s fuel := by
  induction fuel with
  | zero =>
    constructor
    · intro id z _ a z' run
      cases run
    · intro id z _ a z' run
      cases run
  | succ fuel ih =>
    exact ⟨fun id _ => frames_examine ih id, fun id _ => frames_derive ends ih id⟩

end Steps

variable {s : Subject} {z : Analyzer}

theorem consistent_start : Consistent s (.start s) := by
  have none_join : ∀ {α : Type} (size n : Nat),
      ((Array.replicate size (none : Option α))[n]?).join = none := by
    intro α size n
    rw [Array.getElem?_replicate]
    split <;> rfl
  refine ⟨Array.size_replicate, List.forall_mem_nil _, fun id symbol known _ _ h => ?_,
    fun id body h => ?_⟩
  · rw [Analyzer.identity?, Analyzer.start, none_join] at h
    cases h
  · rw [Memo.body?, Analyzer.start, Memo.start, none_join] at h
    cases h

theorem finish_consistent (ends : ∀ symbol, entriesEnd s symbol = true) {fuel : Nat}
    (finished : finish s fuel = some z) : Consistent s z := by
  have all : ∀ (ids : List SymbolId) (z : Analyzer), Consistent s z →
      Frames s z (ids.forM fun id => discard (derive s fuel id)) fun _ _ => True := by
    intro ids
    induction ids with
    | nil => exact fun z consistent => frames_pure consistent trivial
    | cons id ids ih =>
      intro z consistent
      have first : Frames s z (derive s fuel id >>= fun _ => pure ()) fun _ _ => True :=
        frames_bind ((steady ends fuel).derive id z consistent)
          fun _ _ consistent' _ _ => frames_pure consistent' trivial
      exact frames_bind first fun _ z' consistent' _ _ => ih z' consistent'
  obtain ⟨⟨u, z'⟩, run, same⟩ := Option.map_eq_some_iff.1 finished
  cases same
  exact (all _ _ consistent_start u _ run).1

end Analysis

theorem Symbol.module?_eq_some_iff {s : Symbol} {id : SymbolId} :
    s.module? = some id ↔ s.owner = .module id := by
  rw [Symbol.module?]
  cases s.owner <;> simp

namespace Model

/-- When the analysis has ended, the body of every resource is known. That of a new resource
is the declared one, and that of an existing resource is marked with its identity. -/
theorem body_attested {file : String} {program : List Declaration} {m : Model}
    {catalog : Catalog} (lowered : Tree.ofProgram file program = .ok m.tree)
    (built : Model.build m.tree catalog = .ok m) : ∃ z,
      Analysis.finish (.ofModel m catalog) (Analysis.enoughFuel (.ofModel m catalog)) = some z ∧
      Analysis.Consistent (.ofModel m catalog) z ∧
      ∀ id symbol type existing collection, m.bound.symbol? id = some symbol →
        symbol.kind = .resource type existing collection →
        (existing = false ∧ m.body? id = some ((catalog.lookup type).getD (.generic type))) ∨
        existing = true ∧ ∃ known, z.identity? id = some known ∧ m.body? id =
          some (Analysis.markName ((catalog.lookup type).getD (.generic type)) known) := by
  obtain ⟨_, _, bodies⟩ := Analysis.build_ok built
  have ends := Analysis.entriesEnd_of_lowered (s := .ofModel m catalog) lowered
  obtain ⟨z, finished, memo, _⟩ := Analysis.finish_run ends (Nat.le_refl _)
  have consistent := Analysis.finish_consistent ends finished
  refine ⟨z, finished, consistent, fun id symbol type existing collection found kind => ?_⟩
  obtain ⟨body, known, _⟩ := Analysis.run_body (s := .ofModel m catalog) found
    (by rw [Symbol.isResourceOrModule, kind])
  rw [bodies, known]
  cases consistent.bodies id body (memo ▸ known) with
  | fresh found' kind' =>
    cases found.symm.trans found'
    cases kind.symm.trans kind'
    exact .inl ⟨rfl, rfl⟩
  | existing found' kind' identity =>
    cases found.symm.trans found'
    cases kind.symm.trans kind'
    exact .inr ⟨rfl, _, identity, rfl⟩
  | module found' kind' =>
    cases found.symm.trans found'
    cases kind.symm.trans kind'

/-- The body of a resource is that of its type, or the generic one if the catalog has none,
in name, functions and the order, spelling, kinds and flags of its properties. Only for an
existing resource one flag of its name, if that is declared, is overwritten by the identity
in the table, which is never known for a resource that a module returns. So resources of
one type have no effect on each other. -/
theorem body_framed {file : String} {program : List Declaration} {tree : Tree}
    (lowered : Tree.ofProgram file program = .ok tree) (catalog : Catalog) :
    ∃ m z, Model.build tree catalog = .ok m ∧
      Analysis.finish (.ofModel m catalog) (Analysis.enoughFuel (.ofModel m catalog)) = some z ∧
      (∀ id symbol type existing collection, m.bound.symbol? id = some symbol →
        symbol.kind = .resource type existing collection → ∃ body, m.body? id = some body ∧
          (existing = false → body = (catalog.lookup type).getD (.generic type)) ∧
          (existing = true → ∃ known, z.identity? id = some known ∧
            ((catalog.lookup type).getD (.generic type)).Flagged known body) ∧
          (symbol.module?.isSome = true → existing = true ∧ z.identity? id = some false)) ∧
      ∀ id id' symbol symbol' type existing collection collection',
        m.bound.symbol? id = some symbol → m.bound.symbol? id' = some symbol' →
        symbol.kind = .resource type existing collection →
        symbol'.kind = .resource type existing collection' →
        (existing = true → z.identity? id = z.identity? id') → m.body? id = m.body? id' := by
  obtain ⟨m, built⟩ := Model.build_total lowered catalog
  obtain ⟨rfl, bound, _⟩ := Analysis.build_ok built
  obtain ⟨z, finished, consistent, attests⟩ := body_attested lowered built
  refine ⟨m, z, built, finished, ?_, ?_⟩
  · intro id symbol type existing collection found kind
    -- The binder declares what a module returns as existing.
    have output : symbol.module?.isSome = true → existing = true := by
      intro output
      obtain ⟨owner, own⟩ := Option.isSome_iff_exists.1 output
      have returned := Binder.ownsReturned_ofTree bound symbol (Array.mem_of_getElem? found)
      obtain ⟨_, kind'⟩ := returned owner (Symbol.module?_eq_some_iff.1 own)
      cases kind.symm.trans kind'
      rfl
    rcases attests id symbol type existing collection found kind with
      ⟨rfl, body⟩ | ⟨rfl, known, identity, body⟩
    · exact ⟨_, body, fun _ => rfl, nofun, fun returned => absurd (output returned) nofun⟩
    · refine ⟨_, body, nofun, fun _ => ⟨known, identity, Analysis.flagged_markName _ known⟩, ?_⟩
      intro returned
      rw [identity, consistent.returned id symbol known found returned identity]
      exact ⟨rfl, rfl⟩
  · intro id id' symbol symbol' type existing collection collection' found found' kind kind' same
    rcases attests id symbol type existing collection found kind with
      ⟨new, body⟩ | ⟨old, known, identity, body⟩
    · rcases attests id' symbol' type existing collection' found' kind' with
        ⟨_, body'⟩ | ⟨old, _⟩
      · rw [body, body']
      · rw [new] at old
        cases old
    · rcases attests id' symbol' type existing collection' found' kind' with
        ⟨new, _⟩ | ⟨_, known', identity', body'⟩
      · rw [old] at new
        cases new
      · rw [same old] at identity
        cases identity.symm.trans identity'
        rw [body, body']

def sharedType : List Declaration :=
  [.resource "r" "T@1" true (.object [("name", .string (some "a") [] none)] none) [] none,
    .resource "s" "T@1" true (.object [("name", .call "reference" [] none)] none) [] none,
    .module "m" "m.json" (.object [] none) [⟨"x", some "T@1"⟩] none]

theorem body_framed_sharedType : ∃ tree m z, Tree.ofProgram "main.json" sharedType = .ok tree ∧
    Model.build tree .empty = .ok m ∧
    Analysis.finish (.ofModel m .empty) (Analysis.enoughFuel (.ofModel m .empty)) = some z ∧
    ∃ symbol type existing collection body, m.bound.symbol? 3 = some symbol ∧
      symbol.kind = .resource type existing collection ∧ m.body? 3 = some body ∧
      z.identity? 3 = some false ∧ (ObjectType.generic type).Flagged false body := by
  have facts : (Analysis.modelled? sharedType).map (fun p =>
      (p.2.bound.symbol? 3).map fun s => (s.type?.isSome, s.module?.isSome)) =
        some (some (true, true)) := by
    decide +kernel
  obtain ⟨⟨tree, m⟩, found, facts⟩ := Option.map_eq_some_iff.1 facts
  obtain ⟨symbol, there, facts⟩ := Option.map_eq_some_iff.1 facts
  obtain ⟨typed, output⟩ := Prod.mk.inj facts
  obtain ⟨lowered, built⟩ := Analysis.modelled_ok found
  obtain ⟨m', z, built', finished, frames, _⟩ := body_framed lowered .empty
  cases built.symm.trans built'
  refine ⟨tree, m, z, lowered, built, finished, ?_⟩
  cases kind : symbol.kind with
  | resource type existing collection =>
    obtain ⟨body, known, _, old, returned⟩ := frames 3 symbol type existing collection there kind
    obtain ⟨rfl, identity⟩ := returned output
    obtain ⟨answer, identity', flagged⟩ := old rfl
    cases identity.symm.trans identity'
    exact ⟨symbol, type, true, collection, body, there, kind, known, identity, flagged⟩
  | _ =>
    rw [Symbol.type?, kind] at typed
    cases typed

end Model

end DeployCheck
