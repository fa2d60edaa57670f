import DeployCheck.Proofs.Analysis.Order
import DeployCheck.Proofs.Analysis.Answers
import DeployCheck.Proofs.Binding.Denoting
import DeployCheck.Proofs.Failures
import DeployCheck.Proofs.Tree.PostOrder

/-!
# The analysis with marks

The analysis can be run without a path: what is being worked out is marked, and the marks are
taken away when the work is done. This run has no answer if it is cut off. It turns out that
it never is, that it leaves no marks and that it fills the same tables, because on every
path the marks are those of the path.
-/

set_option autoImplicit false

namespace DeployCheck.Analysis

/-- The tables, and what is being worked out. The identities of resources have a table and
marks of their own. -/
structure Analyzer where
  memo : Memo
  identities : Array (Option Bool)
  expressions : List NodeId
  bodies : List SymbolId
  identified : List SymbolId
  depth : Nat

namespace Analyzer

def start (s : Subject) : Analyzer :=
  ⟨.start s, .replicate s.bound.symbols.size none, [], [], [], 0⟩

def identity? (z : Analyzer) (id : SymbolId) : Option Bool := z.identities[id]?.join

def enterExpression (id : NodeId) (z : Analyzer) : Analyzer :=
  { z with expressions := id :: z.expressions, depth := z.depth + 1 }

def leaveExpression (id : NodeId) (constant : Bool) (z : Analyzer) : Analyzer :=
  { z with
    expressions := z.expressions.erase id
    depth := z.depth - 1
    memo := z.memo.setConstant id constant }

def enterBody (id : SymbolId) (z : Analyzer) : Analyzer := { z with bodies := id :: z.bodies }

def leaveBody (id : SymbolId) (body : ObjectType) (z : Analyzer) : Analyzer :=
  { z with bodies := z.bodies.erase id, memo := z.memo.setBody id body }

def storeBody (id : SymbolId) (body : ObjectType) (z : Analyzer) : Analyzer :=
  { z with memo := z.memo.setBody id body }

def enterIdentity (id : SymbolId) (z : Analyzer) : Analyzer :=
  { z with identified := id :: z.identified }

def leaveIdentity (id : SymbolId) (constant : Bool) (z : Analyzer) : Analyzer :=
  { z with
    identified := z.identified.erase id
    identities := z.identities.setIfInBounds id (some constant) }

def report (d : Diagnostic) (z : Analyzer) : Analyzer := { z with memo := z.memo.report d }

end Analyzer

def bodyEnds (arena : Arena) : Nat → NodeId → Bool
  | 0, _ => false
  | steps + 1, id => match arena.data? id with
    | some (.loop _ _ _ body) | some (.condition _ body) => bodyEnds arena steps body
    | _ => true

/-- Whether the properties of a declared resource are found, or missed, after some steps. -/
def entriesEnd (s : Subject) (symbol : Symbol) : Bool :=
  match s.tree.arena.data? symbol.declaration with
  | some (.resource _ _ _ body _) => bodyEnds s.tree.arena (s.tree.arena.size + 1) body
  | _ => true

/-- Work with marks. There is no result if it is cut off. -/
abbrev Marking := StateT Analyzer Option

def identify (s : Subject) (constant : NodeId → Marking Bool)
    (body : SymbolId → Marking (Option ObjectType)) (id : SymbolId) (symbol : Symbol) :
    Marking Bool := do
  let z ← get
  match z.identity? id with
  | some known => return known
  | none =>
    if z.identified.contains id then return false
    modify (Analyzer.enterIdentity id)
    guard (entriesEnd s symbol)
    let known ← identityIsConstant s constant body symbol
    modify (Analyzer.leaveIdentity id known)
    return known

def deriveResource (s : Subject) (constant : NodeId → Marking Bool)
    (body : SymbolId → Marking (Option ObjectType)) (id : SymbolId) (symbol : Symbol)
    (type : TypeReference) (existing : Bool) : Marking ObjectType := do
  let known := s.catalog.lookup type
  if known.isNone then modify (Analyzer.report (untyped s symbol type))
  let declared := known.getD (.generic type)
  if !existing then return declared
  return markName declared (← identify s constant body id symbol)

mutual

def examine (s : Subject) : Nat → NodeId → Marking Bool
  | 0, _ => failure
  | fuel + 1, id => do
    let z ← get
    match z.memo.constant? id with
    | some known => return known
    | none =>
      if depthLimit ≤ z.depth || z.expressions.contains id then return false
      modify (Analyzer.enterExpression id)
      let constant ← expressionIsConstant s (examine s fuel) (derive s fuel) id
      modify (Analyzer.leaveExpression id constant)
      return constant

def derive (s : Subject) : Nat → SymbolId → Marking (Option ObjectType)
  | 0, _ => failure
  | fuel + 1, id => do
    let z ← get
    match z.memo.body? id with
    | some known => return some known
    | none =>
      if z.bodies.contains id then return none
      match s.bound.symbol? id with
      | none => return none
      | some symbol => match symbol.kind with
        | .resource type existing _ => do
          modify (Analyzer.enterBody id)
          let body ← deriveResource s (examine s fuel) (derive s fuel) id symbol type existing
          modify (Analyzer.leaveBody id body)
          return some body
        | .module modulePath _ => do
          let body := ObjectType.ofModule modulePath
          modify (Analyzer.storeBody id body)
          return some body
        | _ => return none

end

def finish (s : Subject) (fuel : Nat) : Option Analyzer :=
  (((bodied s).forM fun id => discard (derive s fuel id)).run (.start s)).map Prod.snd

variable {s : Subject} {path : Path} {identified : List SymbolId}

/-- The marks are those of a path. Whose identity is known has a body or is waiting for it. -/
structure Marked (s : Subject) (path : Path) (identified : List SymbolId) (z : Analyzer) :
    Prop where
  expressions : z.expressions = path.nodes
  bodies : z.bodies = path.symbols
  identified : z.identified = identified
  depth : z.depth = path.nodes.length
  size : z.memo.bodies.size = s.bound.symbols.size
  known : ∀ id, (z.identity? id).isSome = true →
    (z.memo.body? id).isSome = true ∨ id ∈ path.symbols

/-- From a state, work with marks gives the result and the tables of work on a path, and
leaves the marks as they are. -/
def Mirrors {α : Type} (s : Subject) (path : Path) (identified : List SymbolId) (z : Analyzer)
    (u : Marking α) (w : Work α) : Prop :=
  ∃ z', u.run z = some ((w.run z.memo).1, z') ∧ z'.memo = (w.run z.memo).2 ∧
    Marked s path identified z'

section Mirrors

variable {α β : Type} {u : Marking α} {w : Work α} {z : Analyzer}

theorem mirrors_pure (marked : Marked s path identified z) (a : α) :
    Mirrors s path identified z (pure a) (pure a) := ⟨z, rfl, rfl, marked⟩

theorem mirrors_bind {f : α → Marking β} {g : α → Work β} (first : Mirrors s path identified z u w)
    (rest : ∀ a z, Marked s path identified z → Mirrors s path identified z (f a) (g a)) :
    Mirrors s path identified z (u >>= f) (w >>= g) := by
  obtain ⟨z₁, run, memo, marked⟩ := first
  obtain ⟨z₂, run', memo', marked'⟩ := rest (w.run z.memo).1 z₁ marked
  rw [memo] at run' memo'
  refine ⟨z₂, ?_, memo', marked'⟩
  rw [StateT.run_bind, run]
  exact run'

theorem mirrors_get {f : Analyzer → Marking β} {g : Memo → Work β}
    (h : Mirrors s path identified z (f z) (g z.memo)) :
    Mirrors s path identified z (get >>= f) (get >>= g) := h

theorem mirrors_modify {f : Analyzer → Analyzer} {g : Memo → Memo} {k : Unit → Marking β}
    {l : Unit → Work β} (same : (f z).memo = g z.memo)
    (rest : Mirrors s path identified (f z) (k ()) (l ())) :
    Mirrors s path identified z (modify f >>= k) (modify g >>= l) := by
  obtain ⟨z', run, memo, marked⟩ := rest
  rw [same] at run memo
  exact ⟨z', run, memo, marked⟩

theorem mirrors_bracket {path' : Path} {identified' : List SymbolId}
    {enter : Analyzer → Analyzer} {leave : α → Analyzer → Analyzer} {w' : Work β}
    (store : α → Memo → Memo) (result : α → β) (entered : (enter z).memo = z.memo)
    (inner : Mirrors s path' identified' (enter z) u w)
    (leaves : ∀ a z, Marked s path' identified' z → Marked s path identified (leave a z))
    (left : ∀ a z, (leave a z).memo = store a z.memo)
    (whole : ∀ memo, w'.run memo = (result (w.run memo).1, store (w.run memo).1 (w.run memo).2)) :
    Mirrors s path identified z (do
      modify enter
      let a ← u
      modify (leave a)
      return result a) w' := by
  obtain ⟨z', run, memo, marked⟩ := inner
  rw [entered] at run memo
  refine ⟨leave (w.run z.memo).1 z', ?_, ?_, leaves _ z' marked⟩
  · show (u >>= fun a => modify (leave a) >>= fun _ => pure (result a)).run (enter z) = _
    rw [StateT.run_bind, run, whole]
    rfl
  · rw [left, memo, whole]

variable {asked : Fact → Marking Bool} {asked' : Fact → Work Bool}
  (h : ∀ p z, Marked s path identified z → Mirrors s path identified z (asked p) (asked' p))

include h

theorem mirrors_allM {ps : List Fact} (marked : Marked s path identified z) :
    Mirrors s path identified z (ps.allM asked) (ps.allM asked') := by
  induction ps generalizing z with
  | nil => exact mirrors_pure marked true
  | cons p ps ih =>
    apply mirrors_bind (h p z marked)
    intro answer z marked
    cases answer with
    | true => exact ih marked
    | false => exact mirrors_pure marked false

theorem mirrors_judge (premises : Option (List Fact)) (marked : Marked s path identified z) :
    Mirrors s path identified z (judge asked premises) (judge asked' premises) := by
  cases premises with
  | none => exact mirrors_pure marked false
  | some ps => exact mirrors_allM h marked

end Mirrors

section Steps

variable {fuel : Nat} {z : Analyzer}

structure Tracks (s : Subject) (fuel : Nat) (path : Path) : Prop where
  examine : ∀ more, fuel ≤ more → ∀ id z, Marked s path path.symbols z →
    Mirrors s path path.symbols z (examine s more id) (constantWithin s fuel path id)
  derive : ∀ more, fuel ≤ more → ∀ id z, Marked s path path.symbols z →
    Mirrors s path path.symbols z (derive s more id) (bodyWithin s fuel path id)

theorem mirrors_ask (tracks : Tracks s fuel path) {more : Nat} (le : fuel ≤ more) (fact : Fact)
    (z : Analyzer) (marked : Marked s path path.symbols z) :
    Mirrors s path path.symbols z (ask (examine s more) (derive s more) fact)
      (ask (constantWithin s fuel path) (bodyWithin s fuel path) fact) := by
  cases fact with
  | constant id => exact tracks.examine more le id z marked
  | identity id => exact mirrors_pure marked false
  | readable target property =>
    apply mirrors_bind (tracks.derive more le target z marked)
    intro answer z marked
    cases answer with
    | none => exact mirrors_pure marked false
    | some type => exact mirrors_pure marked _

theorem marked_enterExpression (marked : Marked s path identified z) (id : NodeId) :
    Marked s ⟨id :: path.nodes, path.symbols⟩ identified (z.enterExpression id) :=
  ⟨congrArg (id :: ·) marked.expressions, marked.bodies, marked.identified,
    congrArg (· + 1) marked.depth, marked.size, marked.known⟩

theorem marked_leaveExpression {id : NodeId}
    (marked : Marked s ⟨id :: path.nodes, path.symbols⟩ identified z) (constant : Bool) :
    Marked s path identified (z.leaveExpression id constant) := by
  constructor
  · rw [Analyzer.leaveExpression, marked.expressions]
    exact List.erase_cons_head id path.nodes
  · exact marked.bodies
  · exact marked.identified
  · rw [Analyzer.leaveExpression, marked.depth]
    rfl
  · exact marked.size
  · exact marked.known

theorem marked_enterBody (marked : Marked s path identified z) (id : SymbolId) :
    Marked s ⟨path.nodes, id :: path.symbols⟩ identified (z.enterBody id) := by
  constructor
  · exact marked.expressions
  · exact congrArg (id :: ·) marked.bodies
  · exact marked.identified
  · exact marked.depth
  · exact marked.size
  · exact fun k known => (marked.known k known).imp_right (List.mem_cons_of_mem id)

theorem isSome_setBody (size : z.memo.bodies.size = s.bound.symbols.size)
    {id : SymbolId} (inside : id < s.bound.symbols.size) (body : ObjectType) (k : SymbolId)
    (known : (z.memo.body? k).isSome = true ∨ k = id) :
    ((z.memo.setBody id body).body? k).isSome = true := by
  by_cases same : id = k
  · rw [← same, body?_setBody (size ▸ inside)]
    rfl
  · rw [Memo.body?, Memo.setBody, Array.getElem?_setIfInBounds, if_neg same]
    rcases known with known | rfl
    · exact known
    · exact absurd rfl same

theorem marked_storeBody (marked : Marked s path identified z) {id : SymbolId}
    (inside : id < s.bound.symbols.size) (body : ObjectType) :
    Marked s path identified (z.storeBody id body) := by
  constructor
  · exact marked.expressions
  · exact marked.bodies
  · exact marked.identified
  · exact marked.depth
  · exact Array.size_setIfInBounds.trans marked.size
  · intro k known
    rcases marked.known k known with known | waiting
    · exact .inl (isSome_setBody marked.size inside body k (.inl known))
    · exact .inr waiting

theorem marked_leaveBody {id : SymbolId}
    (marked : Marked s ⟨path.nodes, id :: path.symbols⟩ identified z)
    (inside : id < s.bound.symbols.size) (body : ObjectType) :
    Marked s path identified (z.leaveBody id body) := by
  constructor
  · exact marked.expressions
  · rw [Analyzer.leaveBody, marked.bodies]
    exact List.erase_cons_head id path.symbols
  · exact marked.identified
  · exact marked.depth
  · exact Array.size_setIfInBounds.trans marked.size
  · intro k known
    rcases marked.known k known with known | waiting
    · exact .inl (isSome_setBody marked.size inside body k (.inl known))
    · rcases List.mem_cons.1 waiting with same | waiting
      · exact .inl (isSome_setBody marked.size inside body k (.inr same))
      · exact .inr waiting

theorem marked_enterIdentity (marked : Marked s path identified z) (id : SymbolId) :
    Marked s path (id :: identified) (z.enterIdentity id) :=
  ⟨marked.expressions, marked.bodies, congrArg (id :: ·) marked.identified, marked.depth,
    marked.size, marked.known⟩

theorem marked_leaveIdentity {id : SymbolId}
    (marked : Marked s path (id :: identified) z) (waiting : id ∈ path.symbols) (constant : Bool) :
    Marked s path identified (z.leaveIdentity id constant) := by
  constructor
  · exact marked.expressions
  · exact marked.bodies
  · rw [Analyzer.leaveIdentity, marked.identified]
    exact List.erase_cons_head id identified
  · exact marked.depth
  · exact marked.size
  · intro k known
    by_cases same : id = k
    · exact .inr (same ▸ waiting)
    · apply marked.known k
      rw [Analyzer.identity?, Analyzer.leaveIdentity, Array.getElem?_setIfInBounds,
        if_neg same] at known
      exact known

theorem mirrors_examine (fits : Fits s (fuel + 1) path)
    (tracks : ∀ path, Fits s fuel path → Tracks s fuel path) {more : Nat} (le : fuel ≤ more)
    (id : NodeId) (marked : Marked s path path.symbols z) :
    Mirrors s path path.symbols z (examine s (more + 1) id)
      (constantWithin s (fuel + 1) path id) := by
  rw [examine, constantWithin_succ, constantStep]
  apply mirrors_get
  cases known : z.memo.constant? id with
  | some answer => exact mirrors_pure marked answer
  | none =>
    dsimp only
    rw [marked.depth, marked.expressions]
    by_cases again : path.nodes.contains id = true
    · rw [if_pos again, if_pos (by rw [again, Bool.or_true])]
      exact mirrors_pure marked false
    by_cases far : depthLimit ≤ path.nodes.length
    · rw [if_neg again, if_pos far, if_pos (by simp [far])]
      exact mirrors_pure marked false
    · rw [if_neg again, if_neg far, if_neg (by simpa [far] using again)]
      have room := Nat.lt_of_not_le far
      have inner : Tracks s fuel ⟨id :: path.nodes, path.symbols⟩ :=
        tracks _ (fits_node fits room id)
      have judged := mirrors_judge (mirrors_ask inner le) (s.premises (.constant id))
        (marked_enterExpression marked id)
      rw [← expressionIsConstant_eq, ← expressionIsConstant_eq] at judged
      exact mirrors_bracket (fun constant memo => memo.setConstant id constant) _ rfl judged
        (fun constant z marked => marked_leaveExpression marked constant) (fun _ _ => rfl)
        fun _ => rfl

theorem mirrors_identify {constant : NodeId → Marking Bool}
    {body : SymbolId → Marking (Option ObjectType)} {id : SymbolId} {symbol : Symbol}
    {w : Work Bool}
    (marked : Marked s path identified z) (waiting : id ∈ path.symbols)
    (unknown : z.identity? id = none) (fresh : id ∉ identified) (ends : entriesEnd s symbol = true)
    (inner : Mirrors s path (id :: identified) (z.enterIdentity id)
      (identityIsConstant s constant body symbol) w) :
    Mirrors s path identified z (identify s constant body id symbol) w := by
  rw [identify]
  show Mirrors s path identified z (match z.identity? id with
    | some known => pure known
    | none => _) w
  rw [unknown]
  dsimp only
  rw [marked.identified, if_neg (by simpa using fresh), guard, if_pos ends]
  simp only [pure_bind]
  exact mirrors_bracket (fun _ memo => memo) _ rfl inner
    (fun constant z marked => marked_leaveIdentity marked waiting constant) (fun _ _ => rfl)
    fun _ => rfl

variable (ends : ∀ symbol, entriesEnd s symbol = true)

include ends

theorem mirrors_deriveResource {more : Nat} {id : SymbolId} {symbol : Symbol} {type : TypeReference}
    {existing collection : Bool} (found : s.bound.symbol? id = some symbol)
    (kind : symbol.kind = .resource type existing collection) (le : fuel ≤ more)
    (tracks : Tracks s fuel ⟨path.nodes, id :: path.symbols⟩) (fresh : id ∉ path.symbols)
    (unknown : z.identity? id = none)
    (marked : Marked s ⟨path.nodes, id :: path.symbols⟩ path.symbols z) :
    Mirrors s ⟨path.nodes, id :: path.symbols⟩ path.symbols z
      (deriveResource s (examine s more) (derive s more) id symbol type existing)
      (resourceBody s (constantWithin s fuel ⟨path.nodes, id :: path.symbols⟩)
        (bodyWithin s fuel ⟨path.nodes, id :: path.symbols⟩) symbol type existing) := by
  have marking : ∀ {z : Analyzer}, z.identity? id = none →
      Marked s ⟨path.nodes, id :: path.symbols⟩ path.symbols z →
      Mirrors s ⟨path.nodes, id :: path.symbols⟩ path.symbols z (do
        if !existing then return s.declaredType type
        return markName (s.declaredType type)
          (← identify s (examine s more) (derive s more) id symbol)) (do
        if !existing then return s.declaredType type
        return markName (s.declaredType type) (← identityIsConstant s
          (constantWithin s fuel ⟨path.nodes, id :: path.symbols⟩)
          (bodyWithin s fuel ⟨path.nodes, id :: path.symbols⟩) symbol)) := by
    intro z unknown marked
    cases existing with
    | false => exact mirrors_pure marked _
    | true =>
      have judged := mirrors_judge (mirrors_ask tracks le) (s.premises (.identity id))
        (marked_enterIdentity marked id)
      rw [← identityIsConstant_eq _ _ found kind, ← identityIsConstant_eq _ _ found kind] at judged
      apply mirrors_bind
        (mirrors_identify marked List.mem_cons_self unknown fresh (ends symbol) judged)
      exact fun known z marked => mirrors_pure marked _
  rw [deriveResource, resourceBody]
  by_cases untold : (s.catalog.lookup type).isNone = true
  · simp only [untold, if_true]
    apply mirrors_modify rfl
    have again : (z.report (untyped s symbol type)).identity? id = none := unknown
    exact marking again ⟨marked.expressions, marked.bodies, marked.identified, marked.depth,
      marked.size, marked.known⟩
  · simp only [untold]
    exact marking unknown marked

theorem mirrors_derive (fits : Fits s (fuel + 1) path)
    (tracks : ∀ path, Fits s fuel path → Tracks s fuel path) {more : Nat} (le : fuel ≤ more)
    (id : SymbolId) (marked : Marked s path path.symbols z) :
    Mirrors s path path.symbols z (derive s (more + 1) id) (bodyWithin s (fuel + 1) path id) := by
  rw [derive, bodyWithin_succ, bodyStep]
  apply mirrors_get
  cases known : z.memo.body? id with
  | some type => exact mirrors_pure marked (some type)
  | none =>
    dsimp only
    rw [marked.bodies]
    by_cases waiting : path.symbols.contains id = true
    · rw [if_pos waiting, if_pos waiting]
      exact mirrors_pure marked none
    · rw [if_neg waiting, if_neg waiting]
      have fresh : id ∉ path.symbols := by simpa using waiting
      cases found : s.bound.symbol? id with
      | none => exact mirrors_pure marked none
      | some symbol =>
        have inside : id < s.bound.symbols.size := (Array.getElem?_eq_some_iff.1 found).1
        dsimp only
        cases kind : symbol.kind with
        | resource type existing collection =>
          have unknown : (z.enterBody id).identity? id = none := by
            show z.identity? id = none
            cases identity : z.identity? id with
            | none => rfl
            | some constant =>
              rcases marked.known id (by rw [identity]; rfl) with stored | waits
              · rw [known] at stored
                cases stored
              · exact absurd waits fresh
          have inner := mirrors_deriveResource ends found kind le
            (tracks _ (fits_symbol fits fresh inside)) fresh unknown (marked_enterBody marked id)
          exact mirrors_bracket (fun body memo => memo.setBody id body) some rfl inner
            (fun body z marked => marked_leaveBody marked inside body) (fun _ _ => rfl) fun _ => rfl
        | module modulePath collection =>
          apply mirrors_modify rfl
          exact mirrors_pure (marked_storeBody marked inside _) _
        | _ => exact mirrors_pure marked none

theorem tracks (fuel : Nat) : ∀ path, Fits s fuel path → Tracks s fuel path := by
  induction fuel with
  | zero => exact fun path fits => absurd fits not_fits_zero
  | succ fuel ih =>
    intro path fits
    constructor
    · intro more le id z marked
      obtain ⟨more, rfl⟩ := Nat.exists_eq_add_of_lt le
      exact mirrors_examine fits ih (by omega) id marked
    · intro more le id z marked
      obtain ⟨more, rfl⟩ := Nat.exists_eq_add_of_lt le
      exact mirrors_derive ends fits ih (by omega) id marked

end Steps

theorem marked_start : Marked s ⟨[], []⟩ [] (.start s) := by
  constructor
  · rfl
  · rfl
  · rfl
  · rfl
  · exact Array.size_replicate
  · intro id known
    rw [Analyzer.identity?, Analyzer.start, Array.getElem?_replicate] at known
    split at known <;> cases known

theorem mirrors_discard {α : Type} {z : Analyzer} {u : Marking α} {w : Work α}
    (h : Mirrors s path identified z u w) :
    Mirrors s path identified z (discard u) (discard w) := by
  obtain ⟨z', run, memo, marked⟩ := h
  refine ⟨z', ?_, memo, marked⟩
  show (u >>= fun _ => pure ()).run z = _
  rw [StateT.run_bind, run]
  rfl

/-- The run with marks gives an answer for every fuel that is enough. It fills the tables of the
run on paths, and nothing is marked when it ends. -/
theorem finish_run (ends : ∀ symbol, entriesEnd s symbol = true) {fuel : Nat}
    (enough : enoughFuel s ≤ fuel) :
    ∃ z, finish s fuel = some z ∧ z.memo = run s ∧ Marked s ⟨[], []⟩ [] z := by
  have all : ∀ ids : List SymbolId, ∀ z, Marked s ⟨[], []⟩ [] z → Mirrors s ⟨[], []⟩ [] z
      (ids.forM fun id => discard (derive s fuel id)) (ids.forM fun id => discard (body s id)) := by
    intro ids
    induction ids with
    | nil => exact fun z marked => mirrors_pure marked ()
    | cons id ids ih =>
      intro z marked
      have first : Mirrors s ⟨[], []⟩ [] z (derive s fuel id) (body s id) :=
        (tracks ends _ _ fits_start).derive fuel enough id z marked
      exact mirrors_bind (mirrors_discard first) fun _ z marked => ih z marked
  obtain ⟨z, ran, memo, marked⟩ := all (bodied s) (.start s) marked_start
  refine ⟨z, ?_, memo, marked⟩
  rw [finish, ran]
  rfl

theorem bodyEnds_of_descends {arena : Arena} (descends : ∀ q c, arena.IsChild q c → c < q)
    (id : Nat) : ∀ steps, id < steps → bodyEnds arena steps id = true := by
  induction id using Nat.strong_induction_on with
  | _ id ih =>
    intro steps less
    cases steps with
    | zero => omega
    | succ steps =>
      have inner : ∀ {data : NodeData} {c : Nat}, arena.data? id = some data → c ∈ data.children →
          bodyEnds arena steps c = true := by
        intro data c here child
        have down : c < id := descends id c (Arena.isChild_of_data here child)
        exact ih c down steps (by omega)
      rw [bodyEnds]
      split
      · next here => exact inner here (by simp [NodeData.children])
      · next here => exact inner here (by simp [NodeData.children])
      · rfl

theorem entriesEnd_of_lowered {file : String} {program : List Declaration}
    (lowered : Tree.ofProgram file program = .ok s.tree) (symbol : Symbol) :
    entriesEnd s symbol = true := by
  have descends := Tree.ofProgram_descends lowered
  rw [entriesEnd]
  split
  · next here =>
    have last := Arena.data?_lt here
    have down := descends symbol.declaration _ (Arena.isChild_of_data here List.mem_cons_self)
    exact bodyEnds_of_descends descends _ _ (by omega)
  · rfl

end DeployCheck.Analysis

namespace DeployCheck

theorem Bound.denotes_declared {tree : Tree} {b : Bound} {a : Arena} {x steps : Nat} {t : SymbolId}
    (bound : Bound.ofTree tree = .ok b) (denotes : b.Denotes a x steps t) :
    ∃ symbol, b.symbol? t = some symbol ∧ symbol.isResourceOrModule = true := by
  induction denotes with
  | name names | element _ names =>
    obtain ⟨symbol, found, declared, _⟩ := names.kind
    exact ⟨symbol, found, declared⟩
  | output _ _ _ returns _ =>
    obtain ⟨symbol, type, found, kind⟩ := Bound.returns_resource bound returns
    exact ⟨symbol, found, by rw [Symbol.isResourceOrModule, kind]⟩
  | paren _ _ ih => exact ih

theorem Model.body?_isSome_iff {tree : Tree} {catalog : Catalog} {m : Model}
    (built : Model.build tree catalog = .ok m) (id : SymbolId) : (m.body? id).isSome = true ↔
      ∃ symbol, m.bound.symbol? id = some symbol ∧ symbol.isResourceOrModule = true := by
  obtain ⟨_, _, bodies⟩ := Analysis.build_ok built
  rw [bodies]
  constructor
  · intro known
    obtain ⟨type, known⟩ := Option.isSome_iff_exists.1 known
    exact Analysis.declared_of_bodied (Analysis.run_accurate.1.bodies id type known)
  · rintro ⟨symbol, found, declared⟩
    obtain ⟨type, known, _⟩ :=
      Analysis.run_body (s := .ofModel m catalog) found declared
    rw [known]
    rfl

theorem Model.access?_isSome_iff {tree : Tree} {catalog : Catalog} {m : Model}
    (built : Model.build tree catalog = .ok m) (e : NodeId) :
    (m.access? e).isSome = true ↔ (m.target? e).isSome = true := by
  obtain ⟨_, bound, _⟩ := Analysis.build_ok built
  rw [Model.access?]
  cases target : m.target? e with
  | none => rfl
  | some k =>
    obtain ⟨steps, _, denotes⟩ := Bound.denotes_of_targetWithin target
    obtain ⟨symbol, found, declared⟩ := Bound.denotes_declared bound denotes
    obtain ⟨body, known⟩ :=
      Option.isSome_iff_exists.1 ((Model.body?_isSome_iff built k).2 ⟨symbol, found, declared⟩)
    simp [found, known]

/-- The analysis of a lowered program ends, whatever refers to what: with enough fuel the run
with marks has an answer, nothing is marked when it ends, and it has worked out the bodies
of exactly the resources and modules. So whatever has a target has a body to go with it. -/
theorem Model.analysis_complete {file : String} {program : List Declaration} {tree : Tree}
    (lowered : Tree.ofProgram file program = .ok tree) (catalog : Catalog) :
    ∃ m, Model.build tree catalog = .ok m ∧
      (∀ fuel, Analysis.enoughFuel (.ofModel m catalog) ≤ fuel →
        ∃ z, Analysis.finish (.ofModel m catalog) fuel = some z ∧
          z.expressions = [] ∧ z.bodies = [] ∧ z.identified = [] ∧ z.depth = 0 ∧
          ∀ id, z.memo.body? id = m.body? id) ∧
      (∀ id, (m.body? id).isSome = true ↔
        ∃ symbol, m.bound.symbol? id = some symbol ∧ symbol.isResourceOrModule = true) ∧
      ∀ e, (m.access? e).isSome = true ↔ (m.target? e).isSome = true := by
  obtain ⟨m, built⟩ := Model.build_total lowered catalog
  refine ⟨m, built, ?_, Model.body?_isSome_iff built, Model.access?_isSome_iff built⟩
  obtain ⟨rfl, _, bodies⟩ := Analysis.build_ok built
  intro fuel enough
  obtain ⟨z, ran, memo, marked⟩ := Analysis.finish_run
    (Analysis.entriesEnd_of_lowered (s := .ofModel m catalog) lowered) enough
  refine ⟨z, ran, marked.expressions, marked.bodies, marked.identified, marked.depth, ?_⟩
  intro id
  rw [memo, bodies]

theorem Model.analysis_complete_located : ∃ tree m z,
    Tree.ofProgram "main.json" [Analysis.locatedAt "r" "s", Analysis.locatedAt "s" "r"] = .ok tree ∧
    Model.build tree .empty = .ok m ∧
    Analysis.finish (.ofModel m .empty) (Analysis.enoughFuel (.ofModel m .empty)) = some z ∧
    z.expressions = [] ∧ z.bodies = [] ∧ z.identified = [] ∧ z.depth = 0 ∧
    (z.memo.body? 0).isSome = true ∧ (z.memo.body? 1).isSome = true := by
  have facts : (Analysis.modelled? [Analysis.locatedAt "r" "s", Analysis.locatedAt "s" "r"]).map
      (fun p => ((p.2.body? 0).isSome, (p.2.body? 1).isSome)) = some (true, true) := by
    decide +kernel
  obtain ⟨⟨tree, m⟩, found, facts⟩ := Option.map_eq_some_iff.1 facts
  obtain ⟨first, second⟩ := Prod.mk.inj facts
  obtain ⟨lowered, built⟩ := Analysis.modelled_ok found
  obtain ⟨m', built', ends, _⟩ := Model.analysis_complete lowered .empty
  cases built.symm.trans built'
  obtain ⟨z, ran, expressions, waiting, identified, depth, bodies⟩ := ends _ (Nat.le_refl _)
  exact ⟨tree, m, z, lowered, built, ran, expressions, waiting, identified, depth,
    by rw [bodies]; exact first, by rw [bodies]; exact second⟩

end DeployCheck
