import DeployCheck.Proofs.Analysis.Tables
import Mathlib.Data.List.Perm.Subperm

/-!
# The work of the analysis

One step of the work asks for the premises of a rule, on a path that leads to
them. Steps keep the tables accurate and give answers that are, so by induction
on the fuel the whole work does. A path never uses up the fuel, because it holds
no symbol twice and no more expressions than the limit.
-/

set_option autoImplicit false

namespace DeployCheck.Analysis

def Yields {α : Type} (inv : Memo → Prop) (w : Work α) (post : α → Prop) : Prop :=
  ∀ memo, inv memo → post (w.run memo).1 ∧ inv (w.run memo).2

section Yields

variable {α β : Type} {inv : Memo → Prop} {w : Work α} {post : α → Prop} {post' : β → Prop}

theorem yields_pure {a : α} (h : post a) : Yields inv (pure a) post := fun _ hm => ⟨h, hm⟩

theorem yields_bind {f : α → Work β} (first : Yields inv w post)
    (rest : ∀ a, post a → Yields inv (f a) post') : Yields inv (w >>= f) post' := by
  intro memo hm
  obtain ⟨hpost, hinv⟩ := first memo hm
  exact rest _ hpost _ hinv

theorem yields_get {f : Memo → Work β} (h : ∀ memo, inv memo → Yields inv (f memo) post') :
    Yields inv (get >>= f) post' := fun memo hm => h memo hm memo hm

theorem yields_modify {f : Memo → Memo} {g : Unit → Work β} (h : ∀ memo, inv memo → inv (f memo))
    (rest : Yields inv (g ()) post') : Yields inv (modify f >>= g) post' :=
  fun memo hm => rest (f memo) (h memo hm)

end Yields

variable {s : Subject} {inv : Memo → Prop} {asked : Fact → Work Bool}

theorem yields_allM {ps : List Fact} {post : Fact → Bool → Prop}
    (h : ∀ p ∈ ps, Yields inv (asked p) (post p)) :
    Yields inv (ps.allM asked) fun answer =>
      if answer then ∀ p ∈ ps, post p true else ∃ p ∈ ps, post p false := by
  induction ps with
  | nil => exact yields_pure (List.forall_mem_nil _)
  | cons p ps ih =>
    apply yields_bind (h p List.mem_cons_self)
    intro answer first
    cases answer with
    | true =>
      intro memo hm
      obtain ⟨all, hinv⟩ := ih (fun q hq => h q (List.mem_cons_of_mem p hq)) memo hm
      refine ⟨?_, hinv⟩
      revert all
      cases ((ps.allM asked).run memo).1 with
      | true => exact fun all => List.forall_mem_cons.2 ⟨first, all⟩
      | false => exact fun ⟨q, hq, denied⟩ => ⟨q, List.mem_cons_of_mem p hq, denied⟩
    | false => exact yields_pure ⟨p, List.mem_cons_self, first⟩

/-- A fact is judged by all premises of its rule, or by one that is denied. -/
theorem yields_premises {fact : Fact} {post : Fact → Bool → Prop} {result : Bool → Prop}
    (h : ∀ ps, Rule s fact ps → ∀ p ∈ ps, Yields inv (asked p) (post p))
    (none : (∀ ps, ¬Rule s fact ps) → result false)
    (all : ∀ ps, Rule s fact ps → (∀ p ∈ ps, post p true) → result true)
    (denied : ∀ ps, Rule s fact ps → ∀ p ∈ ps, post p false → result false) :
    Yields inv (judge asked (s.premises fact)) result := by
  cases found : s.premises fact with
  | none =>
    apply yields_pure
    apply none
    intro ps rule
    rw [rule_iff, found] at rule
    cases rule
  | some ps =>
    have rule : Rule s fact ps := rule_iff.2 found
    intro memo hm
    obtain ⟨answers, hinv⟩ := yields_allM (h ps rule) memo hm
    refine ⟨?_, hinv⟩
    show result ((ps.allM asked).run memo).1
    revert answers
    cases ((ps.allM asked).run memo).1 with
    | true => exact fun answers => all ps rule answers
    | false => exact fun ⟨p, hp, answer⟩ => denied ps rule p hp answer

theorem asked_premise {fact : Fact} {ps : List Fact} (rule : Rule s fact ps)
    (direct : ∀ id property, fact ≠ .readable id property) (p : Fact) (hp : p ∈ ps) :
    (∃ id, p = .constant id) ∨ ∃ target property, p = .readable target property := by
  cases p with
  | constant id => exact .inl ⟨id, rfl⟩
  | readable target property => exact .inr ⟨target, property, rfl⟩
  | identity id =>
    cases rule with
    | name => exact absurd rfl (direct _ _)
    | _ => simp at hp

theorem yields_judge {fact : Fact}
    (h : ∀ ps, Rule s fact ps → ∀ p ∈ ps, Yields inv (asked p) (Judges s p))
    (below : ∀ ps, Rule s fact ps → ∀ p ∈ ps, Settled s fact.item → Settled s p.item) :
    Yields inv (judge asked (s.premises fact)) (Judges s fact) := by
  apply yields_premises h
  · intro none
    refine ⟨fun h => (by cases h), fun _ ⟨rule, _⟩ => absurd rule (none _)⟩
  · intro ps rule all
    exact ⟨fun _ => (derives_iff rule).2 fun p hp => (all p hp).sound rfl, fun _ _ => rfl⟩
  · intro ps rule p hp denied
    refine ⟨fun h => (by cases h), fun settled derives => ?_⟩
    exact denied.complete (below ps rule p hp settled) ((derives_iff rule).1 derives p hp)

theorem yields_readable {body : SymbolId → Work (Option ObjectType)} {target : SymbolId}
    (h : Yields inv (body target) (Found s target)) (property : String) :
    Yields inv (readable body target property) (Judges s (.readable target property)) := by
  apply yields_bind h
  intro answer found
  cases answer with
  | some type => exact yields_pure (bodied_readable found property)
  | none =>
    apply yields_pure
    apply Judges.mk
    · intro h
      cases h
    · rintro settled ⟨rule, _⟩
      cases rule with
      | typed known kind | name known kind | module known kind =>
        have other := found settled _ known
        rw [Symbol.isResourceOrModule, kind] at other
        cases other

section Cases

variable {path : Path} {fuel : Nat}

theorem yields_expression {id : NodeId} {post : Bool → Prop}
    (known : ∀ memo, inv memo → ∀ answer, memo.constant? id = some answer → post answer)
    (cut : depthLimit ≤ path.nodes.length ∨ id ∈ path.nodes → post false)
    (free : path.nodes.length < depthLimit → id ∉ path.nodes →
      Yields inv (judge (ask (constantWithin s fuel ⟨id :: path.nodes, path.symbols⟩)
        (bodyWithin s fuel ⟨id :: path.nodes, path.symbols⟩)) (s.premises (.constant id))) post)
    (stores : ∀ memo, inv memo → ∀ answer, post answer → inv (memo.setConstant id answer)) :
    Yields inv (constantWithin s (fuel + 1) path id) post := by
  rw [constantWithin_succ, constantStep]
  apply yields_get
  intro memo holds
  cases found : memo.constant? id with
  | some answer => exact yields_pure (known memo holds answer found)
  | none =>
    dsimp only
    split
    · next again => exact yields_pure (cut (.inr (by simpa using again)))
    split
    · next far => exact yields_pure (cut (.inl far))
    · next fresh room =>
      rw [expressionIsConstant_eq]
      apply yields_bind (free (Nat.lt_of_not_le room) (by simpa using fresh))
      intro answer judged
      apply yields_modify
      · exact fun memo holds => stores memo holds answer judged
      · exact yields_pure judged

theorem yields_resource {constant : NodeId → Work Bool} {body : SymbolId → Work (Option ObjectType)}
    {id : SymbolId} {symbol : Symbol} {type : TypeReference} {existing collection : Bool}
    {post : ObjectType → Prop} (found : s.bound.symbol? id = some symbol)
    (kind : symbol.kind = .resource type existing collection)
    (reports : ∀ memo, inv memo → ∀ d, inv (memo.report d))
    (fresh : existing = false → post (s.declaredType type))
    (marked : existing = true → ∃ held : Bool → Prop,
      Yields inv (judge (ask constant body) (s.premises (.identity id))) held ∧
        ∀ known, held known → post (markName (s.declaredType type) known)) :
    Yields inv (resourceBody s constant body symbol type existing) post := by
  have result : Yields inv (do
      if !existing then return s.declaredType type
      return markName (s.declaredType type) (← identityIsConstant s constant body symbol)) post := by
    cases existing with
    | false => exact yields_pure (fresh rfl)
    | true =>
      obtain ⟨held, judged, posts⟩ := marked rfl
      rw [← identityIsConstant_eq _ _ found kind] at judged
      exact yields_bind judged fun known holds => yields_pure (posts known holds)
  rw [resourceBody]
  by_cases unknown : (s.catalog.lookup type).isNone = true
  · simp only [unknown, if_true]
    exact yields_modify (fun memo holds => reports memo holds _) result
  · simp only [unknown]
    exact result

theorem yields_symbol {id : SymbolId} {post : Option ObjectType → Prop}
    (known : ∀ memo, inv memo → ∀ type, memo.body? id = some type → post (some type))
    (again : id ∈ path.symbols → post none)
    (other : (∀ symbol, s.bound.symbol? id = some symbol → symbol.isResourceOrModule = false) →
      post none)
    (resource : ∀ symbol type existing collection, s.bound.symbol? id = some symbol →
      symbol.kind = .resource type existing collection → id ∉ path.symbols →
      Yields inv (resourceBody s (constantWithin s fuel ⟨path.nodes, id :: path.symbols⟩)
        (bodyWithin s fuel ⟨path.nodes, id :: path.symbols⟩) symbol type existing)
        fun type => post (some type))
    (module : ∀ symbol modulePath collection, s.bound.symbol? id = some symbol →
      symbol.kind = .module modulePath collection → post (some (.ofModule modulePath)))
    (stores : ∀ memo, inv memo → ∀ type, post (some type) → inv (memo.setBody id type)) :
    Yields inv (bodyWithin s (fuel + 1) path id) post := by
  rw [bodyWithin_succ, bodyStep]
  apply yields_get
  intro memo holds
  cases stored : memo.body? id with
  | some type => exact yields_pure (known memo holds type stored)
  | none =>
    dsimp only
    split
    · next stops => exact yields_pure (again (by simpa using stops))
    · next fresh =>
      cases found : s.bound.symbol? id with
      | none =>
        apply yields_pure
        apply other
        intro symbol h
        rw [found] at h
        cases h
      | some symbol =>
        dsimp only
        cases kind : symbol.kind with
        | resource type existing collection =>
          apply yields_bind (resource symbol type existing collection found kind (by simpa using fresh))
          intro body derived
          apply yields_modify
          · exact fun memo holds => stores memo holds body derived
          · exact yields_pure derived
        | module modulePath collection =>
          have derived := module symbol modulePath collection found kind
          apply yields_modify
          · exact fun memo holds => stores memo holds _ derived
          · exact yields_pure derived
        | _ =>
          apply yields_pure
          apply other
          intro symbol' h
          rw [found] at h
          cases h
          rw [Symbol.isResourceOrModule, kind]

end Cases

/-- The fuel that is left is enough for everything that is not on the path yet. -/
structure Fits (s : Subject) (fuel : Nat) (path : Path) : Prop where
  nodes : path.nodes.length ≤ depthLimit
  distinct : path.symbols.Nodup
  known : ∀ id ∈ path.symbols, id < s.bound.symbols.size
  enough : enoughFuel s ≤ fuel + path.nodes.length + path.symbols.length

variable {fuel : Nat} {path : Path}

theorem fits_start : Fits s (enoughFuel s) ⟨[], []⟩ :=
  ⟨Nat.zero_le _, List.nodup_nil, List.forall_mem_nil _, Nat.le_refl _⟩

theorem not_fits_zero : ¬Fits s 0 path := by
  intro fits
  have few : path.symbols.length ≤ (List.range s.bound.symbols.size).length := by
    apply List.Subperm.length_le
    apply List.subperm_of_subset fits.distinct
    exact fun id hid => List.mem_range.2 (fits.known id hid)
  have many := fits.enough
  have nodes := fits.nodes
  rw [List.length_range] at few
  rw [enoughFuel] at many
  omega

theorem fits_node (fits : Fits s (fuel + 1) path) (room : path.nodes.length < depthLimit)
    (id : NodeId) : Fits s fuel ⟨id :: path.nodes, path.symbols⟩ := by
  have enough := fits.enough
  have next : enoughFuel s ≤ fuel + (path.nodes.length + 1) + path.symbols.length := by omega
  exact ⟨room, fits.distinct, fits.known, next⟩

theorem fits_symbol (fits : Fits s (fuel + 1) path) {id : SymbolId} (fresh : id ∉ path.symbols)
    (known : id < s.bound.symbols.size) : Fits s fuel ⟨path.nodes, id :: path.symbols⟩ := by
  have enough := fits.enough
  have next : enoughFuel s ≤ fuel + path.nodes.length + (path.symbols.length + 1) := by omega
  exact ⟨fits.nodes, List.nodup_cons.2 ⟨fresh, fits.distinct⟩,
    List.forall_mem_cons.2 ⟨known, fits.known⟩, next⟩

variable {kept : SymbolId → Prop}

structure Works (s : Subject) (kept : SymbolId → Prop) (fuel : Nat) (path : Path) : Prop where
  constant : ∀ id, Trail s path (.expression id) →
    Yields (Accurate s kept) (constantWithin s fuel path id) (Judges s (.constant id))
  body : ∀ id, Trail s path (.body id) →
    Yields (Accurate s kept) (bodyWithin s fuel path id) (Found s id)

theorem yields_ask (works : Works s kept fuel path) {fact : Fact} {ps : List Fact}
    (rule : Rule s fact ps) (direct : ∀ id property, fact ≠ .readable id property) :
    ∀ p ∈ ps, Trail s path p.item →
      Yields (Accurate s kept) (ask (constantWithin s fuel path) (bodyWithin s fuel path) p)
        (Judges s p) := by
  intro p hp trail
  rcases asked_premise rule direct p hp with ⟨id, rfl⟩ | ⟨target, property, rfl⟩
  · exact works.constant id trail
  · exact yields_readable (works.body target trail) property

/-- A negative answer at a place where the work is cut off. -/
theorem judges_cutOff {fact : Fact} (cut : ¬Settled s fact.item) : Judges s fact false :=
  ⟨fun h => (by cases h), fun settled => absurd settled cut⟩

theorem yields_constantWithin (fits : Fits s (fuel + 1) path)
    (works : ∀ path, Fits s fuel path → Works s kept fuel path) (id : NodeId)
    (trail : Trail s path (.expression id)) :
    Yields (Accurate s kept) (constantWithin s (fuel + 1) path id) (Judges s (.constant id)) := by
  apply yields_expression
  · exact fun memo accurate answer known => accurate.constants id answer known
  · intro cut
    apply judges_cutOff
    intro settled
    rcases cut with long | again
    · have shallow : path.nodes.length + 1 ≤ depthLimit :=
        settled.shallow _ _ .refl (trail_chain trail)
      omega
    · exact settled.acyclic _ .refl (trail_nodes trail id again)
  · intro room fresh
    have inner := works _ (fits_node fits room id)
    have next : ∀ ps, Rule s (.constant id) ps → ∀ p ∈ ps,
        Consults s (.expression id) p.item := fun ps rule p hp => .expression rule hp
    apply yields_judge
    · intro ps rule p hp
      exact yields_ask inner rule (fun _ _ h => by cases h) p hp
        (.expression trail (next ps rule p hp))
    · exact fun ps rule p hp settled => settled_consults settled (next ps rule p hp)
  · exact fun memo accurate answer judged => accurate_setConstant accurate judged

theorem yields_identity {id : SymbolId} {symbol : Symbol} {type : TypeReference}
    {collection : Bool} (found : s.bound.symbol? id = some symbol)
    (kind : symbol.kind = .resource type true collection)
    (trail : Trail s path (.body id)) (works : Works s kept fuel ⟨path.nodes, id :: path.symbols⟩) :
    Yields (Accurate s kept) (judge (ask (constantWithin s fuel ⟨path.nodes, id :: path.symbols⟩)
      (bodyWithin s fuel ⟨path.nodes, id :: path.symbols⟩)) (s.premises (.identity id)))
      (Judges s (.identity id)) := by
  have next : ∀ ps, Rule s (.identity id) ps → ∀ p ∈ ps, Consults s (.body id) p.item :=
    fun ps rule p hp => .body found kind rule hp
  apply yields_judge
  · intro ps rule p hp
    exact yields_ask works rule (fun _ _ h => by cases h) p hp (.body trail (next ps rule p hp))
  · exact fun ps rule p hp settled => settled_consults settled (next ps rule p hp)

theorem yields_resourceBody {id : SymbolId} {symbol : Symbol} {type : TypeReference}
    {existing collection : Bool} (found : s.bound.symbol? id = some symbol)
    (kind : symbol.kind = .resource type existing collection)
    (trail : Trail s path (.body id)) (works : Works s kept fuel ⟨path.nodes, id :: path.symbols⟩) :
    Yields (Accurate s kept)
      (resourceBody s (constantWithin s fuel ⟨path.nodes, id :: path.symbols⟩)
        (bodyWithin s fuel ⟨path.nodes, id :: path.symbols⟩) symbol type existing)
      (Bodied s id) := by
  apply yields_resource found kind
  · exact fun memo accurate d => accurate_report accurate d
  · rintro rfl
    exact .fresh found kind
  · rintro rfl
    exact ⟨_, yields_identity found kind trail works, fun known judged => .existing found kind judged⟩

theorem yields_bodyWithin (fits : Fits s (fuel + 1) path)
    (works : ∀ path, Fits s fuel path → Works s kept fuel path) (id : SymbolId)
    (trail : Trail s path (.body id)) :
    Yields (Accurate s kept) (bodyWithin s (fuel + 1) path id) (Found s id) := by
  apply yields_symbol
  · exact fun memo accurate type known => accurate.bodies id type known
  · intro again settled
    exact absurd (trail_symbols trail id again) (settled.acyclic _ .refl)
  · exact fun other _ => other
  · intro symbol type existing collection found kind fresh
    have inside : id < s.bound.symbols.size := (Array.getElem?_eq_some_iff.1 found).1
    exact yields_resourceBody found kind trail (works _ (fits_symbol fits fresh inside))
  · exact fun symbol modulePath collection found kind => .module found kind
  · exact fun memo accurate type bodied => accurate_setBody accurate bodied

/-- The whole work keeps the tables accurate, whatever path it starts on. -/
theorem works (fuel : Nat) : ∀ path, Fits s fuel path → Works s kept fuel path := by
  induction fuel with
  | zero => exact fun path fits => absurd fits not_fits_zero
  | succ fuel ih =>
    intro path fits
    exact ⟨yields_constantWithin fits ih, yields_bodyWithin fits ih⟩

theorem yields_constant (id : NodeId) :
    Yields (Accurate s kept) (constant s id) (Judges s (.constant id)) :=
  (works _ _ fits_start).constant id (.start _)

theorem yields_body (id : SymbolId) : Yields (Accurate s kept) (body s id) (Found s id) :=
  (works _ _ fits_start).body id (.start _)

end DeployCheck.Analysis
