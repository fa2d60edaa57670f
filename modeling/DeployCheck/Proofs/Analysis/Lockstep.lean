import DeployCheck.Proofs.Analysis.Dependencies
import DeployCheck.Proofs.Analysis.Steps
import DeployCheck.Proofs.Analysis.Work
import DeployCheck.Proofs.Binding.Simulation

/-!
# Two analyses in step

An expression that is reached over too many others counts as not constant. In a trial of the
analysis there is a choice at this point: a strict one gives up, and nothing comes of it. For
programs whose rules have the same premises the analysis of the one and a trial of the other
take the same steps, so whatever comes of the trial is the result of the analysis.
-/

set_option autoImplicit false

namespace DeployCheck.Analysis

/-- Work that may be given up. -/
abbrev Trial := StateT Memo Option

def atLimit (strict : Bool) : Trial Bool := if strict then failure else return false

def tryConstant (s : Subject) (strict : Bool) : Nat → Path → NodeId → Trial Bool :=
  constantUpTo s (atLimit strict)

def tryBody (s : Subject) (strict : Bool) : Nat → Path → SymbolId → Trial (Option ObjectType) :=
  bodyUpTo s (atLimit strict)

section Steps

variable {s : Subject} {strict : Bool} {memo : Memo} {fuel : Nat} {path : Path} {id : NodeId}

theorem tryConstant_known {known : Bool} (found : memo.constant? id = some known) :
    (tryConstant s strict (fuel + 1) path id).run memo = some (known, memo) :=
  constantUpTo_known found

theorem tryConstant_again (unknown : memo.constant? id = none) (again : id ∈ path.nodes) :
    (tryConstant s strict (fuel + 1) path id).run memo = some (false, memo) :=
  constantUpTo_again unknown again

theorem tryConstant_far (unknown : memo.constant? id = none) (fresh : id ∉ path.nodes)
    (far : depthLimit ≤ path.nodes.length) : (tryConstant s strict (fuel + 1) path id).run memo =
      if strict = true then none else some (false, memo) := by
  refine (constantUpTo_far unknown fresh far).trans ?_
  cases strict <;> rfl

theorem tryConstant_fresh (unknown : memo.constant? id = none) (fresh : id ∉ path.nodes)
    (room : path.nodes.length < depthLimit) :
    (tryConstant s strict (fuel + 1) path id).run memo =
      ((expressionIsConstant s (tryConstant s strict fuel ⟨id :: path.nodes, path.symbols⟩)
        (tryBody s strict fuel ⟨id :: path.nodes, path.symbols⟩) id).run memo).map fun r =>
          (r.1, r.2.setConstant id r.1) :=
  (constantUpTo_fresh unknown fresh room).trans (bind_pure_comp _ _)

end Steps

/-- What comes of a trial, unless it is strict and given up. -/
inductive Meets {α β : Type} (strict : Bool) (q : α → β → Prop) (x : α) : Option β → Prop where
  | stopped (stops : strict = true) : Meets strict q x none
  | same {y : β} (related : q x y) : Meets strict q x (some y)

theorem Meets.map {α β γ δ : Type} {strict : Bool} {p : α → β → Prop} {q : γ → δ → Prop} {x : α}
    {y : Option β} (h : Meets strict p x y) {z : γ} {f : β → δ} (le : ∀ y, p x y → q z (f y)) :
    Meets strict q z (y.map f) := by
  cases h with
  | stopped stops => exact .stopped stops
  | same related => exact .same (le _ related)

theorem Meets.mono {α β : Type} {strict : Bool} {p q : α → β → Prop} {x : α} {y : Option β}
    (h : Meets strict p x y) (le : ∀ y, p x y → q x y) : Meets strict q x y := by
  rw [← Option.map_id_apply (x := y)]
  exact h.map le

/-- The work and the trial lead from related tables to related tables, with related results. -/
def Lockstep (S : Memo → Memo → Prop) (strict : Bool) {α β : Type} (r : α → β → Prop) (w : Work α)
    (trial : Trial β) : Prop :=
  ∀ memo memo', S memo memo' →
    Meets strict (fun a b => r a.1 b.1 ∧ S a.2 b.2) (w.run memo) (trial.run memo')

section Lockstep

variable {α β γ δ : Type} {S : Memo → Memo → Prop} {strict : Bool} {r : α → β → Prop}
  {q : γ → δ → Prop} {w : Work α} {trial : Trial β}

theorem lockstep_pure {x : α} {y : β} (related : r x y) :
    Lockstep S strict r (pure x) (pure y) := fun _ _ tables => .same ⟨related, tables⟩

theorem lockstep_bind {k : α → Work γ} {k' : β → Trial δ} (first : Lockstep S strict r w trial)
    (rest : ∀ x y, r x y → Lockstep S strict q (k x) (k' y)) :
    Lockstep S strict q (w >>= k) (trial >>= k') := by
  intro memo memo' tables
  rw [StateT.run_bind, StateT.run_bind]
  have met := first memo memo' tables
  generalize trial.run memo' = result at met
  cases met with
  | stopped stops => exact .stopped stops
  | same both => exact rest _ _ both.1 _ _ both.2

theorem lockstep_get {k : Memo → Work γ} {k' : Memo → Trial δ}
    (rest : ∀ memo memo', S memo memo' → Lockstep S strict q (k memo) (k' memo')) :
    Lockstep S strict q (get >>= k) (get >>= k') :=
  fun memo memo' tables => rest memo memo' tables memo memo' tables

theorem lockstep_modify {change change' : Memo → Memo}
    (h : ∀ memo memo', S memo memo' → S (change memo) (change' memo')) :
    Lockstep S strict Eq (modify change : Work Unit) (modify change') :=
  fun memo memo' tables => .same ⟨rfl, h memo memo' tables⟩

theorem lockstep_discard (h : Lockstep S strict r w trial) :
    Lockstep S strict Eq (discard w) (discard trial) :=
  lockstep_bind h fun _ _ _ => lockstep_pure rfl

theorem lockstep_forM {ι κ : Type} {g : ι → κ} {step : ι → Work Unit} {step' : κ → Trial Unit}
    {is : List ι} (h : ∀ i ∈ is, Lockstep S strict Eq (step i) (step' (g i))) :
    Lockstep S strict Eq (is.forM step) ((is.map g).forM step') := by
  induction is with
  | nil => exact lockstep_pure rfl
  | cons i is ih =>
    obtain ⟨first, rest⟩ := List.forall_mem_cons.1 h
    exact lockstep_bind first fun _ _ _ => ih rest

theorem lockstep_allM {ps : List Fact} {g : Fact → Fact} {asked : Fact → Work Bool}
    {asked' : Fact → Trial Bool} (h : ∀ p ∈ ps, Lockstep S strict Eq (asked p) (asked' (g p))) :
    Lockstep S strict Eq (ps.allM asked) ((ps.map g).allM asked') := by
  induction ps with
  | nil => exact lockstep_pure rfl
  | cons p ps ih =>
    obtain ⟨first, rest⟩ := List.forall_mem_cons.1 h
    rw [List.map_cons, List.allM, List.allM]
    apply lockstep_bind first
    rintro answer _ rfl
    cases answer with
    | true => exact ih rest
    | false => exact lockstep_pure rfl

end Lockstep

def Fact.mapped (place : Nat → Nat) (text : String → String) : Fact → Fact
  | .constant x => .constant (place x)
  | .readable target property => .readable target (text property)
  | .identity id => .identity id

/-- The rules and tables of two programs correspond. What stands in the place of an expression is
judged like the expression, and bodies are related. -/
structure Corresponding (s s' : Subject) (node place : Nat → Nat)
    (type : TypeReference → TypeReference) (text : String → String) (S : Memo → Memo → Prop)
    (R : ObjectType → ObjectType → Prop) : Prop where
  symbols : ∀ id, s'.bound.symbol? id = (s.bound.symbol? id).map (Symbol.mapped node type)
  identity : ∀ id, s'.premises (.identity id) =
    (s.premises (.identity id)).map (List.map (Fact.mapped place text))
  unknown : ∀ t, (s'.catalog.lookup (type t)).isNone = (s.catalog.lookup t).isNone
  declared : ∀ t, R (s.declaredType t) (s'.declaredType (type t))
  module : ∀ path, R (.ofModule path) (.ofModule path)
  mark : ∀ {t t'}, R t t' → ∀ known, R (markName t known) (markName t' known)
  readable : ∀ {t t'}, R t t' → ∀ name, t'.isReadable (text name) = t.isReadable name
  constant? : ∀ {memo memo'}, S memo memo' → ∀ x, memo'.constant? (place x) = memo.constant? x
  body? : ∀ {memo memo'}, S memo memo' → ∀ id, Option.Rel R (memo.body? id) (memo'.body? id)
  setBody : ∀ {memo memo'}, S memo memo' → ∀ {t t'}, R t t' →
    ∀ id, S (memo.setBody id t) (memo'.setBody id t')
  report : ∀ {memo memo'}, S memo memo' → ∀ symbol t, S (memo.report (untyped s symbol t))
    (memo'.report (untyped s' (symbol.mapped node type) (type t)))

theorem bodied_corresponding {s s' : Subject} {node place : Nat → Nat}
    {type : TypeReference → TypeReference} {text : String → String} {S : Memo → Memo → Prop}
    {R : ObjectType → ObjectType → Prop} (c : Corresponding s s' node place type text S R) :
    bodied s' = bodied s := by
  have symbols : s'.bound.symbols = s.bound.symbols.map (Symbol.mapped node type) :=
    Array.ext_getElem? fun id => (c.symbols id).trans Array.getElem?_map.symm
  have sort : ∀ id, (s'.bound.symbol? id).any Symbol.isResourceOrModule =
      (s.bound.symbol? id).any Symbol.isResourceOrModule := by
    intro id
    rw [c.symbols]
    cases s.bound.symbol? id with
    | none => rfl
    | some symbol => exact symbol.isResourceOrModule_mapped _ _
  simp only [bodied, sort, symbols, Array.size_map]

/-- Paths that lead to an item in both programs. On both something is under examination, or on
neither, and the limit is reached on both or on neither. -/
structure Ways (s s' : Subject) (place : Nat → Nat) (leads : Path → Path → Item → Prop) :
    Prop where
  symbols : ∀ {path path' item}, leads path path' item → path'.symbols = path.symbols
  again : ∀ {path path' x}, leads path path' (.expression (place x)) →
    (place x ∈ path'.nodes ↔ x ∈ path.nodes)
  far : ∀ {path path' x}, leads path path' (.expression (place x)) → place x ∉ path'.nodes →
    (depthLimit ≤ path'.nodes.length ↔ depthLimit ≤ path.nodes.length)
  body : ∀ {path path' id item}, leads path path' (.body id) → id ∉ path.symbols →
    Consults s' (.body id) item →
      leads ⟨path.nodes, id :: path.symbols⟩ ⟨path'.nodes, id :: path'.symbols⟩ item

structure Together (s s' : Subject) (place : Nat → Nat) (S : Memo → Memo → Prop)
    (R : ObjectType → ObjectType → Prop) (leads : Path → Path → Item → Prop) (strict : Bool)
    (fuel fuel' : Nat) (path path' : Path) : Prop where
  constant : ∀ x, leads path path' (.expression (place x)) → Lockstep S strict Eq
    (constantWithin s fuel path x) (tryConstant s' strict fuel' path' (place x))
  body : ∀ id, leads path path' (.body id) → Lockstep S strict (Option.Rel R)
    (bodyWithin s fuel path id) (tryBody s' strict fuel' path' id)

section Walk

variable {s s' : Subject} {node place : Nat → Nat} {type : TypeReference → TypeReference}
  {text : String → String} {S : Memo → Memo → Prop} {R : ObjectType → ObjectType → Prop}
  {leads : Path → Path → Item → Prop} {strict : Bool} {fuel fuel' : Nat} {path path' : Path}
  (c : Corresponding s s' node place type text S R)

theorem meets_examined {x z : Nat} (judged : Lockstep S strict Eq
      (expressionIsConstant s (constantWithin s fuel ⟨x :: path.nodes, path.symbols⟩)
        (bodyWithin s fuel ⟨x :: path.nodes, path.symbols⟩) x)
      (expressionIsConstant s' (tryConstant s' strict fuel' ⟨z :: path'.nodes, path'.symbols⟩)
        (tryBody s' strict fuel' ⟨z :: path'.nodes, path'.symbols⟩) z))
    {memo memo' : Memo} (tables : S memo memo') (unknown : memo.constant? x = none)
    (unknown' : memo'.constant? z = none) (fresh : x ∉ path.nodes) (fresh' : z ∉ path'.nodes)
    (room : path.nodes.length < depthLimit) (room' : path'.nodes.length < depthLimit) :
    Meets strict (fun a b => a.1 = b.1 ∧ ∃ after after', S after after' ∧
        a.2 = after.setConstant x a.1 ∧ b.2 = after'.setConstant z a.1)
      ((constantWithin s (fuel + 1) path x).run memo)
      ((tryConstant s' strict (fuel' + 1) path' z).run memo') := by
  rw [tryConstant_fresh unknown' fresh' room', constantWithin_fresh unknown fresh room rfl]
  refine (judged memo memo' tables).map ?_
  rintro ⟨answer, after'⟩ ⟨same, after⟩
  exact ⟨same, _, after', after, rfl, congrArg (after'.setConstant z) same.symm⟩

theorem meets_entered {x z : Nat} (judged : Lockstep S strict Eq
      (expressionIsConstant s (constantWithin s fuel ⟨x :: path.nodes, path.symbols⟩)
        (bodyWithin s fuel ⟨x :: path.nodes, path.symbols⟩) x)
      (expressionIsConstant s' (tryConstant s' strict fuel' ⟨z :: path'.nodes, path'.symbols⟩)
        (tryBody s' strict fuel' ⟨z :: path'.nodes, path'.symbols⟩) z))
    (enter : ∀ {after after'}, S after after' →
      ∀ answer, S (after.setConstant x answer) (after'.setConstant z answer))
    {memo memo' : Memo} (tables : S memo memo') (unknown : memo.constant? x = none)
    (unknown' : memo'.constant? z = none) (fresh : x ∉ path.nodes) (fresh' : z ∉ path'.nodes)
    (room : path.nodes.length < depthLimit) (room' : path'.nodes.length < depthLimit) :
    Meets strict (fun a b => a.1 = b.1 ∧ S a.2 b.2)
      ((constantWithin s (fuel + 1) path x).run memo)
      ((tryConstant s' strict (fuel' + 1) path' z).run memo') := by
  refine (meets_examined judged tables unknown unknown' fresh fresh' room room').mono ?_
  rintro ⟨answer', tables'⟩ ⟨same, after, after', related, set, set'⟩
  refine ⟨same, ?_⟩
  rw [set, set']
  exact enter related _

include c

theorem lockstep_ask (together : Together s s' place S R leads strict fuel fuel' path path')
    (fact : Fact) (way : leads path path' (fact.mapped place text).item) :
    Lockstep S strict Eq (ask (constantWithin s fuel path) (bodyWithin s fuel path) fact)
      (ask (tryConstant s' strict fuel' path') (tryBody s' strict fuel' path')
        (fact.mapped place text)) := by
  cases fact with
  | constant x => exact together.constant x way
  | readable target property =>
    apply lockstep_bind (together.body target way)
    intro body body' related
    cases related with
    | none => exact lockstep_pure rfl
    | some related => exact lockstep_pure (c.readable related property).symm
  | identity id => exact lockstep_pure rfl

theorem lockstep_judge (together : Together s s' place S R leads strict fuel fuel' path path')
    {fact fact' : Fact} (same : s'.premises fact' =
      (s.premises fact).map (List.map (Fact.mapped place text)))
    (way : ∀ ps, Rule s' fact' ps → ∀ q ∈ ps, leads path path' q.item) :
    Lockstep S strict Eq
      (judge (ask (constantWithin s fuel path) (bodyWithin s fuel path)) (s.premises fact))
      (judge (ask (tryConstant s' strict fuel' path') (tryBody s' strict fuel' path'))
        (s'.premises fact')) := by
  cases found : s.premises fact with
  | none =>
    rw [same, found]
    exact lockstep_pure rfl
  | some ps =>
    rw [found] at same
    rw [same]
    exact lockstep_allM fun q member => lockstep_ask c together q
      (way _ (rule_iff.2 same) _ (List.mem_map_of_mem member))

theorem lockstep_expression (together : Together s s' place S R leads strict fuel fuel' path path')
    {x z : Nat} (same : s'.premises (.constant z) =
      (s.premises (.constant x)).map (List.map (Fact.mapped place text)))
    (way : ∀ item, Consults s' (.expression z) item → leads path path' item) :
    Lockstep S strict Eq
      (expressionIsConstant s (constantWithin s fuel path) (bodyWithin s fuel path) x)
      (expressionIsConstant s' (tryConstant s' strict fuel' path') (tryBody s' strict fuel' path')
        z) := by
  rw [expressionIsConstant_eq, expressionIsConstant_eq]
  exact lockstep_judge c together same fun ps rule q member => way _ (.expression rule member)

theorem lockstep_resource (together : Together s s' place S R leads strict fuel fuel' path path')
    {id : SymbolId} {symbol : Symbol} {t : TypeReference} {existing collection : Bool}
    (found : s.bound.symbol? id = some symbol)
    (kind : symbol.kind = .resource t existing collection)
    (way : ∀ item, Consults s' (.body id) item → leads path path' item) :
    Lockstep S strict R
      (resourceBody s (constantWithin s fuel path) (bodyWithin s fuel path) symbol t existing)
      (resourceBody s' (tryConstant s' strict fuel' path') (tryBody s' strict fuel' path')
        (symbol.mapped node type) (type t) existing) := by
  have found' : s'.bound.symbol? id = some (symbol.mapped node type) := by
    rw [c.symbols, found]
    rfl
  have kind' : (symbol.mapped node type).kind = .resource (type t) existing collection := by
    rw [Symbol.mapped, kind]
    rfl
  have marked : Lockstep S strict R
      (do
        if !existing then return s.declaredType t
        return markName (s.declaredType t) (← identityIsConstant s (constantWithin s fuel path)
          (bodyWithin s fuel path) symbol))
      (do
        if !existing then return s'.declaredType (type t)
        return markName (s'.declaredType (type t)) (← identityIsConstant s'
          (tryConstant s' strict fuel' path') (tryBody s' strict fuel' path')
          (symbol.mapped node type))) := by
    cases existing with
    | false => exact lockstep_pure (c.declared t)
    | true =>
      apply lockstep_bind
      · rw [identityIsConstant_eq _ _ found kind, identityIsConstant_eq _ _ found' kind']
        exact lockstep_judge c together (c.identity id) fun ps rule q member =>
          way _ (.body found' kind' rule member)
      · rintro known _ rfl
        exact lockstep_pure (c.mark (c.declared t) known)
  simp only [resourceBody, c.unknown]
  by_cases unknown : (s.catalog.lookup t).isNone = true
  · simp only [unknown, if_true]
    exact lockstep_bind (lockstep_modify fun _ _ tables => c.report tables symbol t)
      fun _ _ _ => marked
  · simp only [unknown]
    exact marked

variable (ways : Ways s s' place leads) (fits : Fits s (fuel + 1) path)
  (fits' : Fits s' (fuel' + 1) path')
  (together : ∀ path path' fuel', Fits s fuel path → Fits s' fuel' path' →
    Together s s' place S R leads strict fuel fuel' path path')

include ways fits fits' together

theorem lockstep_body {id : SymbolId} (way : leads path path' (.body id)) :
    Lockstep S strict (Option.Rel R) (bodyWithin s (fuel + 1) path id)
      (tryBody s' strict (fuel' + 1) path' id) := by
  rw [bodyWithin_succ, bodyStep, tryBody, bodyUpTo, bodyStep]
  apply lockstep_get
  intro memo memo' tables
  have bodies := c.body? tables id
  generalize memo.body? id = known at bodies
  generalize memo'.body? id = known' at bodies
  cases bodies with
  | some related => exact lockstep_pure (.some related)
  | none =>
    dsimp only
    rw [ways.symbols way]
    by_cases again : path.symbols.contains id = true
    · rw [if_pos again, if_pos again]
      exact lockstep_pure .none
    rw [if_neg again, if_neg again]
    have fresh : id ∉ path.symbols := by simpa using again
    rw [c.symbols]
    cases found : s.bound.symbol? id with
    | none => exact lockstep_pure .none
    | some symbol =>
      have kinds : (symbol.mapped node type).kind = symbol.kind.mapped node type := rfl
      dsimp only [Option.map_some]
      rw [kinds]
      cases kind : symbol.kind with
      | resource t existing collection =>
        have inside : id < s.bound.symbols.size := (Array.getElem?_eq_some_iff.1 found).1
        have inside' : id < s'.bound.symbols.size := by
          have found' : s'.bound.symbol? id = some (symbol.mapped node type) := by
            rw [c.symbols, found]
            rfl
          exact (Array.getElem?_eq_some_iff.1 found').1
        have inner := together _ _ _ (fits_symbol fits fresh inside)
          (fits_symbol fits' (ways.symbols way ▸ fresh) inside')
        rw [ways.symbols way] at inner
        apply lockstep_bind (lockstep_resource c inner found kind fun item next => ?_)
        · exact fun body body' related => lockstep_bind
            (lockstep_modify fun _ _ tables => c.setBody tables related id)
            fun _ _ _ => lockstep_pure (.some related)
        · have on := ways.body way fresh next
          rwa [ways.symbols way] at on
      | module modulePath collection =>
        exact lockstep_bind
          (lockstep_modify fun _ _ tables => c.setBody tables (c.module modulePath) id)
          fun _ _ _ => lockstep_pure (.some (c.module modulePath))
      | _ => exact lockstep_pure .none

omit fits fits' together in
theorem lockstep_constant {x : Nat} (way : leads path path' (.expression (place x)))
    (examined : ∀ memo memo', S memo memo' → memo.constant? x = none →
      memo'.constant? (place x) = none → x ∉ path.nodes → place x ∉ path'.nodes →
      path.nodes.length < depthLimit → path'.nodes.length < depthLimit →
        Meets strict (fun a b => a.1 = b.1 ∧ S a.2 b.2)
          ((constantWithin s (fuel + 1) path x).run memo)
          ((tryConstant s' strict (fuel' + 1) path' (place x)).run memo')) :
    Lockstep S strict Eq (constantWithin s (fuel + 1) path x)
      (tryConstant s' strict (fuel' + 1) path' (place x)) := by
  intro memo memo' tables
  have looked := c.constant? tables x
  cases known : memo.constant? x with
  | some answer =>
    rw [constantWithin_known known, tryConstant_known (looked.trans known)]
    exact .same ⟨rfl, tables⟩
  | none =>
    have unknown := looked.trans known
    by_cases again : x ∈ path.nodes
    · rw [constantWithin_again known again, tryConstant_again unknown ((ways.again way).2 again)]
      exact .same ⟨rfl, tables⟩
    have fresh : place x ∉ path'.nodes := fun member => again ((ways.again way).1 member)
    by_cases far : depthLimit ≤ path.nodes.length
    · rw [constantWithin_far known far,
        tryConstant_far unknown fresh ((ways.far way fresh).2 far)]
      split
      · next stops => exact .stopped stops
      · exact .same ⟨rfl, tables⟩
    have near : path'.nodes.length < depthLimit :=
      Nat.lt_of_not_le fun much => far ((ways.far way fresh).1 much)
    exact examined memo memo' tables known unknown again fresh (Nat.lt_of_not_le far) near

end Walk

/-- The analysis and the trial stay in step from any paths, whatever fuel is left to them, if
they do where an expression is examined. -/
theorem together_works {s s' : Subject} {node place : Nat → Nat}
    {type : TypeReference → TypeReference} {text : String → String} {S : Memo → Memo → Prop}
    {R : ObjectType → ObjectType → Prop} {leads : Path → Path → Item → Prop} {strict : Bool}
    (c : Corresponding s s' node place type text S R) (ways : Ways s s' place leads)
    (examined : ∀ {fuel fuel' path path' x memo memo'}, leads path path' (.expression (place x)) →
      S memo memo' → memo.constant? x = none → memo'.constant? (place x) = none → x ∉ path.nodes →
      place x ∉ path'.nodes → path.nodes.length < depthLimit → path'.nodes.length < depthLimit →
      Fits s (fuel + 1) path → Fits s' (fuel' + 1) path' →
      (∀ path path' fuel', Fits s fuel path → Fits s' fuel' path' →
        Together s s' place S R leads strict fuel fuel' path path') →
          Meets strict (fun a b => a.1 = b.1 ∧ S a.2 b.2)
            ((constantWithin s (fuel + 1) path x).run memo)
            ((tryConstant s' strict (fuel' + 1) path' (place x)).run memo')) (fuel : Nat) :
    ∀ path path' fuel', Fits s fuel path → Fits s' fuel' path' →
      Together s s' place S R leads strict fuel fuel' path path' := by
  -- The fuel of the trial only has to be enough, so the induction is on the other one.
  induction fuel with
  | zero => exact fun _ _ _ fits _ => absurd fits not_fits_zero
  | succ fuel ih =>
    intro path path' fuel' fits fits'
    cases fuel' with
    | zero => exact absurd fits' not_fits_zero
    | succ fuel' =>
      refine ⟨fun x way => lockstep_constant c ways way ?_,
        fun id way => lockstep_body c ways fits fits' ih way⟩
      intro memo memo' tables unknown unknown' fresh fresh' room room'
      exact examined way tables unknown unknown' fresh fresh' room room' fits fits' ih

end DeployCheck.Analysis
