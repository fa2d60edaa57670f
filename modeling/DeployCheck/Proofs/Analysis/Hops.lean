import DeployCheck.Proofs.Analysis.Limit

/-!
# Hops

A name of a variable or a loop item is followed to what it stands for. The limit is not on
these hops, but on all expressions on the way: those between two hops count as well. A tower
of expressions beyond the limit is not constant, however few hops it has.
-/

set_option autoImplicit false

namespace DeployCheck.Analysis

/-- What a name of the symbol stands for is another expression. -/
def isFollowed (symbol : Symbol) : Bool :=
  match symbol.kind with
  | .var | .loopItem _ => true
  | _ => false

/-- The hops that are made from an item: one from a name that is followed. -/
def Subject.hops (s : Subject) : Item → Nat
  | .expression id => match s.tree.arena.data? id with
    | some (.ident _) => if (s.named? id).any isFollowed then 1 else 0
    | _ => 0
  | .body _ => 0

/-- An item is reached from another by a number of hops and through a number of expressions,
the first and the last among them. -/
inductive Way (s : Subject) (x : Item) : Item → Nat → Nat → Prop where
  | start : Way s x x 0 x.weight
  | step {y z : Item} {hops n : Nat} (before : Way s x y hops n) (next : Consults s y z) :
      Way s x z (hops + s.hops y) (n + z.weight)

def Within (s : Subject) (x y : Item) : Prop := ∃ hops n, Way s x y hops n ∧ n ≤ depthLimit

/-- A fact has a derivation in which everything is reached within the limit. -/
inductive Near (s : Subject) (x : Item) : Fact → Prop where
  | intro {fact : Fact} {premises : List Fact} (close : Within s x fact.item)
      (rule : Rule s fact premises) (all : ∀ premise ∈ premises, Near s x premise) : Near s x fact

structure Clear (s : Subject) (x : Item) : Prop where
  acyclic : ∀ y, Relation.ReflTransGen (Consults s) x y → ¬Relation.TransGen (Consults s) y y
  shallow : ∀ y hops n, Way s x y hops n → n ≤ depthLimit

/-- A fact is needed for another if it is a premise of it, or of one that is needed. -/
def Needs (s : Subject) : Fact → Fact → Prop :=
  Relation.ReflTransGen fun fact premise => ∃ ps, Rule s fact ps ∧ premise ∈ ps

variable {s : Subject} {x y : Item} {hops n : Nat}

theorem way_reaches (h : Way s x y hops n) : Relation.ReflTransGen (Consults s) x y := by
  induction h with
  | start => exact .refl
  | step _ next ih => exact .tail ih next

theorem hops_le_one (y : Item) : s.hops y ≤ 1 := by
  cases y with
  | expression id =>
    rw [Subject.hops]
    split
    · split <;> omega
    · exact Nat.zero_le _
  | body => exact Nat.zero_le _

/-- If there are only so many expressions between two hops, the hops bound all of them. -/
theorem way_stretches {stretch : Nat} (bounded : ∀ y z n,
      Relation.ReflTransGen (Consults s) x y → Way s y z 0 n → n ≤ stretch)
    (h : Way s x y hops n) : n ≤ (hops + 1) * stretch := by
  -- the expressions since the last hop are counted apart
  have split : ∃ z m, Relation.ReflTransGen (Consults s) x z ∧ Way s z y 0 m ∧
      n ≤ hops * stretch + m := by
    induction h with
    | start => exact ⟨x, x.weight, .refl, .start, by omega⟩
    | @step y w hops n before next ih =>
      obtain ⟨z, m, reached, free, le⟩ := ih
      by_cases hop : s.hops y = 0
      · have free' := Way.step free next
        rw [hop] at free'
        rw [hop, Nat.add_zero]
        exact ⟨z, m + w.weight, reached, free', by omega⟩
      · have one : s.hops y = 1 := by
          have := hops_le_one (s := s) y
          omega
        have short := bounded z y m reached free
        refine ⟨w, w.weight, .tail (way_reaches before) next, .start, ?_⟩
        rw [one, Nat.add_mul]
        omega
  obtain ⟨z, m, reached, free, le⟩ := split
  have short := bounded z y m reached free
  rw [Nat.add_mul]
  omega

variable {fact : Fact}

theorem near_derives (h : Near s x fact) : Derives s fact := by
  induction h with
  | intro _ rule _ ih => exact .intro rule ih

theorem near_premise {ps : List Fact} (h : Near s x fact) (rule : Rule s fact ps) {p : Fact}
    (member : p ∈ ps) : Near s x p := by
  obtain ⟨_, rule', all⟩ := h
  rw [rule_unique rule rule'] at member
  exact all p member

theorem near_needs (h : Near s x fact) {needed : Fact} (needs : Needs s fact needed) :
    Within s x needed.item := by
  have near : Near s x needed := by
    induction needs with
    | refl => exact h
    | tail _ next ih =>
      obtain ⟨ps, rule, member⟩ := next
      exact near_premise ih rule member
  obtain ⟨close, _⟩ := near
  exact close

/-- An answer about a fact below an item: never positive without a derivation within the
limit, and never negative with a derivation if the item is clear. -/
structure Rates (s : Subject) (x : Item) (fact : Fact) (answer : Bool) : Prop where
  sound : answer = true → Near s x fact
  complete : Clear s x → Derives s fact → answer = true

theorem rates_denied (h : Clear s x → ¬Derives s fact) : Rates s x fact false :=
  ⟨fun positive => (by cases positive), fun clear derives => absurd derives (h clear)⟩

theorem rates_of_premises {answer : Bool} (close : Within s x fact.item)
    (h : s.premises fact = if answer then some [] else none) : Rates s x fact answer := by
  cases answer with
  | true => exact ⟨fun _ => .intro close (rule_iff.2 h) (List.forall_mem_nil _), fun _ _ => rfl⟩
  | false =>
    apply rates_denied
    rintro - ⟨rule, _⟩
    rw [rule_iff, h] at rule
    cases rule

def Legible (s : Subject) (x : Item) (id : SymbolId) (body : Option ObjectType) : Prop :=
  ∀ property, Rates s x (.readable id property) (body.any fun type => type.isReadable property)

structure Recorded (s : Subject) (x : Item) (memo : Memo) : Prop where
  constants : ∀ id answer, memo.constant? id = some answer → Rates s x (.constant id) answer
  bodies : ∀ id type, memo.body? id = some type → Legible s x id (some type)

section Tables

variable {memo : Memo}

theorem recorded_start : Recorded s x (.start s) := by
  constructor
  · intro id answer h
    rw [start_constant?] at h
    cases h
  · intro id type h
    rw [start_body?] at h
    cases h

theorem recorded_setConstant (h : Recorded s x memo) {id : NodeId} {answer : Bool}
    (rates : Rates s x (.constant id) answer) : Recorded s x (memo.setConstant id answer) := by
  refine ⟨fun k b hk => ?_, h.bodies⟩
  rcases join_setIfInBounds hk with ⟨rfl, rfl⟩ | hk
  · exact rates
  · exact h.constants k b hk

theorem recorded_setBody (h : Recorded s x memo) {id : SymbolId} {type : ObjectType}
    (legible : Legible s x id (some type)) : Recorded s x (memo.setBody id type) := by
  refine ⟨h.constants, fun k t hk => ?_⟩
  rcases join_setIfInBounds hk with ⟨rfl, rfl⟩ | hk
  · exact legible
  · exact h.bodies k t hk

end Tables

section Steps

variable {fuel : Nat} {path : Path}

structure Leads (s : Subject) (x : Item) (path : Path) (y : Item) : Prop where
  trail : Trail s path y
  way : ∃ hops, Way s x y hops (path.nodes.length + y.weight)

theorem leads_expression {id : NodeId} (leads : Leads s x path (.expression id))
    (next : Consults s (.expression id) y) : Leads s x ⟨id :: path.nodes, path.symbols⟩ y := by
  obtain ⟨hops, way⟩ := leads.way
  exact ⟨.expression leads.trail next, _, .step way next⟩

theorem leads_body {id : SymbolId} (leads : Leads s x path (.body id))
    (next : Consults s (.body id) y) : Leads s x ⟨path.nodes, id :: path.symbols⟩ y := by
  obtain ⟨hops, way⟩ := leads.way
  exact ⟨.body leads.trail next, _, .step way next⟩

theorem leads_within (leads : Leads s x path y) (room : path.nodes.length + y.weight ≤ depthLimit) :
    Within s x y := by
  obtain ⟨hops, way⟩ := leads.way
  exact ⟨hops, _, way, room⟩

theorem leads_acyclic (leads : Leads s x path y) (clear : Clear s x) :
    ¬Relation.TransGen (Consults s) y y := by
  obtain ⟨hops, way⟩ := leads.way
  exact clear.acyclic y (way_reaches way)

structure Rated (s : Subject) (x : Item) (fuel : Nat) (path : Path) : Prop where
  constant : ∀ id, Leads s x path (.expression id) →
    Yields (Recorded s x) (constantWithin s fuel path id) (Rates s x (.constant id))
  body : ∀ id, Leads s x path (.body id) →
    Yields (Recorded s x) (bodyWithin s fuel path id) (Legible s x id)

theorem rated_ask (rated : Rated s x fuel path) {ps : List Fact} (rule : Rule s fact ps)
    (direct : ∀ id property, fact ≠ .readable id property) :
    ∀ p ∈ ps, Leads s x path p.item →
      Yields (Recorded s x) (ask (constantWithin s fuel path) (bodyWithin s fuel path) p)
        (Rates s x p) := by
  intro p hp leads
  rcases asked_premise rule direct p hp with ⟨id, rfl⟩ | ⟨target, property, rfl⟩
  · exact rated.constant id leads
  · apply yields_bind (rated.body target leads)
    intro body legible
    cases body with
    | some type => exact yields_pure (legible property)
    | none => exact yields_pure (legible property)

theorem rated_judge {asked : Fact → Work Bool} (close : Within s x fact.item)
    (h : ∀ ps, Rule s fact ps → ∀ p ∈ ps, Yields (Recorded s x) (asked p) (Rates s x p)) :
    Yields (Recorded s x) (judge asked (s.premises fact)) (Rates s x fact) := by
  apply yields_premises h
  · exact fun none => rates_denied fun _ ⟨rule, _⟩ => none _ rule
  · exact fun ps rule all => ⟨fun _ => .intro close rule fun p hp => (all p hp).sound rfl, fun _ _ => rfl⟩
  · intro ps rule p hp denied
    apply rates_denied
    intro clear derives
    have positive := denied.complete clear ((derives_iff rule).1 derives p hp)
    cases positive

theorem rated_constant (fits : Fits s (fuel + 1) path)
    (rated : ∀ path, Fits s fuel path → Rated s x fuel path) (id : NodeId)
    (leads : Leads s x path (.expression id)) :
    Yields (Recorded s x) (constantWithin s (fuel + 1) path id) (Rates s x (.constant id)) := by
  apply yields_expression
  · exact fun memo recorded answer known => recorded.constants id answer known
  · intro cut
    apply rates_denied
    intro clear _
    rcases cut with long | again
    · obtain ⟨hops, way⟩ := leads.way
      have short : path.nodes.length + 1 ≤ depthLimit := clear.shallow _ _ _ way
      omega
    · exact leads_acyclic leads clear (trail_nodes leads.trail id again)
  · intro room fresh
    have close : Within s x (Fact.constant id).item := leads_within leads room
    apply rated_judge close
    intro ps rule p hp
    exact rated_ask (rated _ (fits_node fits room id)) rule (fun _ _ h => by cases h) p hp
      (leads_expression leads (.expression rule hp))
  · exact fun memo recorded answer rates => recorded_setConstant recorded rates

theorem rated_resource {id : SymbolId} {symbol : Symbol} {type : TypeReference}
    {existing collection : Bool} (found : s.bound.symbol? id = some symbol)
    (kind : symbol.kind = .resource type existing collection) (close : Within s x (.body id))
    (leads : Leads s x path (.body id)) (rated : Rated s x fuel ⟨path.nodes, id :: path.symbols⟩) :
    Yields (Recorded s x)
      (resourceBody s (constantWithin s fuel ⟨path.nodes, id :: path.symbols⟩)
        (bodyWithin s fuel ⟨path.nodes, id :: path.symbols⟩) symbol type existing)
      fun type => Legible s x id (some type) := by
  apply yields_resource found kind
  · exact fun memo recorded d => ⟨recorded.constants, recorded.bodies⟩
  · rintro rfl property
    apply rates_of_premises close
    simp [Subject.premises, Subject.readablePremises, found, kind]
  · rintro rfl
    refine ⟨Rates s x (.identity id), ?_, ?_⟩
    · apply rated_judge close
      intro ps rule p hp
      exact rated_ask rated rule (fun _ _ h => by cases h) p hp
        (leads_body leads (.body found kind rule hp))
    · intro known rates property
      rcases premises_readable found kind known property with decided | ⟨follows, same⟩
      · exact rates_of_premises close decided
      · have rule : Rule s (.readable id property) [.identity id] := rule_iff.2 follows
        rw [Option.any_some, same]
        apply Rates.mk
        · exact fun positive => .intro close rule (List.forall_mem_singleton.2 (rates.sound positive))
        · intro clear derives
          rw [derives_iff rule, List.forall_mem_singleton] at derives
          exact rates.complete clear derives

theorem rated_body (fits : Fits s (fuel + 1) path)
    (rated : ∀ path, Fits s fuel path → Rated s x fuel path) (id : SymbolId)
    (leads : Leads s x path (.body id)) :
    Yields (Recorded s x) (bodyWithin s (fuel + 1) path id) (Legible s x id) := by
  have close : Within s x (.body id) := leads_within leads fits.nodes
  apply yields_symbol
  · exact fun memo recorded type known => recorded.bodies id type known
  · intro again property
    apply rates_denied
    exact fun clear _ => leads_acyclic leads clear (trail_symbols leads.trail id again)
  · intro other property
    apply rates_denied
    rintro - ⟨rule, _⟩
    cases rule with
    | typed found kind | name found kind | module found kind =>
      have undeclared := other _ found
      rw [Symbol.isResourceOrModule, kind] at undeclared
      cases undeclared
  · intro symbol type existing collection found kind fresh
    have inside : id < s.bound.symbols.size := (Array.getElem?_eq_some_iff.1 found).1
    exact rated_resource found kind close leads (rated _ (fits_symbol fits fresh inside))
  · intro symbol modulePath collection found kind property
    apply rates_of_premises close
    simp [Subject.premises, Subject.readablePremises, found, kind]
  · exact fun memo recorded type legible => recorded_setBody recorded legible

theorem rated (fuel : Nat) : ∀ path, Fits s fuel path → Rated s x fuel path := by
  induction fuel with
  | zero => exact fun path fits => absurd fits not_fits_zero
  | succ fuel ih =>
    intro path fits
    exact ⟨rated_constant fits ih, rated_body fits ih⟩

end Steps

theorem rates_first (id : NodeId) :
    Rates s (.expression id) (.constant id) (answerAfter s [] id) := by
  have leads : Leads s (.expression id) ⟨[], []⟩ (.expression id) := ⟨.start _, 0, .start⟩
  exact ((rated _ _ fits_start).constant id leads _ recorded_start).1

/-- Expressions that stand on each other: each of them follows from the next one alone, and the
last one from nothing. -/
inductive Tower (s : Subject) : NodeId → Nat → Prop where
  | base {id : NodeId} (rule : Rule s (.constant id) []) : Tower s id 1
  | step {id next : NodeId} {n : Nat} (rule : Rule s (.constant id) [.constant next])
      (rest : Tower s next n) : Tower s id (n + 1)

section Towers

variable {id : NodeId} {m : Nat}

theorem tower_consults (tower : Tower s id n) (next : Consults s (.expression id) y) :
    ∃ id' k, y = .expression id' ∧ Tower s id' k ∧ n = k + 1 := by
  obtain ⟨rule, member⟩ := next
  cases tower with
  | base rule' =>
    rw [rule_unique rule rule'] at member
    cases member
  | step rule' rest =>
    rw [rule_unique rule rule', List.mem_singleton] at member
    subst member
    exact ⟨_, _, rfl, rest, rfl⟩

theorem tower_way (tower : Tower s id n) (h : Way s (.expression id) y hops m) :
    ∃ id' k, y = .expression id' ∧ Tower s id' k ∧ m + k = n + 1 := by
  induction h with
  | start => exact ⟨id, n, rfl, tower, Nat.add_comm 1 n⟩
  | step _ next ih =>
    obtain ⟨id', k, rfl, below, height⟩ := ih
    obtain ⟨id'', k', rfl, below', rfl⟩ := tower_consults below next
    refine ⟨id'', k', rfl, below', ?_⟩
    rw [Item.weight]
    omega

theorem tower_pos (tower : Tower s id n) : 0 < n := by
  cases tower <;> exact Nat.succ_pos _

theorem tower_derives (tower : Tower s id n) : Derives s (.constant id) := by
  induction tower with
  | base rule => exact .intro rule (List.forall_mem_nil _)
  | step rule _ ih => exact .intro rule (List.forall_mem_singleton.2 ih)

theorem tower_needs (tower : Tower s id n) :
    ∃ last, Needs s (.constant id) (.constant last) ∧ Rule s (.constant last) [] := by
  induction tower with
  | @base id rule => exact ⟨id, .refl, rule⟩
  | step rule _ ih =>
    obtain ⟨last, needs, ground⟩ := ih
    exact ⟨last, .head ⟨_, rule, List.mem_singleton.2 rfl⟩ needs, ground⟩

/-- A tower beyond the limit is not constant, because its last expression is not reached. -/
theorem tower_le (tower : Tower s id n) (positive : answerAfter s [] id = true) :
    n ≤ depthLimit := by
  obtain ⟨last, needs, ground⟩ := tower_needs tower
  obtain ⟨hops, m, way, short⟩ := near_needs ((rates_first id).sound positive) needs
  obtain ⟨id', k, same, bottom, height⟩ := tower_way tower way
  cases same
  cases bottom with
  | base => omega
  | step rule => cases rule_unique rule ground

def Subject.tower? (s : Subject) : Nat → NodeId → Option Nat
  | 0, _ => none
  | fuel + 1, id => match s.premises (.constant id) with
    | some [] => some 1
    | some [.constant next] => (s.tower? fuel next).map (· + 1)
    | _ => none

theorem tower_of_tower? {fuel : Nat} (h : s.tower? fuel id = some n) : Tower s id n := by
  induction fuel generalizing id n with
  | zero => cases h
  | succ fuel ih =>
    rw [Subject.tower?] at h
    split at h
    · next found =>
      cases h
      exact .base (rule_iff.2 found)
    · next found =>
      obtain ⟨k, rest, rfl⟩ := Option.map_eq_some_iff.1 h
      exact .step (rule_iff.2 found) (ih rest)
    · cases h

end Towers

/-- The answer about an expression that is asked for first, in a program without cycles below
it. A constant one has a derivation, and everything that it needs is reached within the limit.
If all that it consults is, the answer is that of the rules. That is so if the hops on every way
times the expressions between two of them are within the limit: for a chain of variables that
are names of each other, if there are fewer hops than the limit. A tower of expressions is
constant exactly if it is within the limit itself, whatever hops it has. -/
theorem answers_hops (id : NodeId) (acyclic : ∀ y,
      Relation.ReflTransGen (Consults s) (.expression id) y → ¬Relation.TransGen (Consults s) y y) :
    (answerAfter s [] id = true → Derives s (.constant id) ∧
        ∀ fact, Needs s (.constant id) fact → Within s (.expression id) fact.item) ∧
      ((∀ y hops n, Way s (.expression id) y hops n → n ≤ depthLimit) →
        (answerAfter s [] id = true ↔ Derives s (.constant id))) ∧
      (∀ limit stretch, limit * stretch ≤ depthLimit →
        (∀ y hops n, Way s (.expression id) y hops n → hops < limit) →
        (∀ y z n, Relation.ReflTransGen (Consults s) (.expression id) y → Way s y z 0 n →
          n ≤ stretch) →
        (answerAfter s [] id = true ↔ Derives s (.constant id))) ∧
      ∀ n, Tower s id n → (answerAfter s [] id = true ↔ n ≤ depthLimit) := by
  have rates := rates_first (s := s) id
  have exact : (∀ y hops n, Way s (.expression id) y hops n → n ≤ depthLimit) →
      (answerAfter s [] id = true ↔ Derives s (.constant id)) := by
    intro shallow
    exact ⟨fun positive => near_derives (rates.sound positive), rates.complete ⟨acyclic, shallow⟩⟩
  refine ⟨fun positive => ?_, exact, ?_, ?_⟩
  · have near := rates.sound positive
    exact ⟨near_derives near, fun fact needs => near_needs near needs⟩
  · intro limit stretch small few bounded
    apply exact
    intro y hops n way
    calc n ≤ (hops + 1) * stretch := way_stretches bounded way
      _ ≤ limit * stretch := Nat.mul_le_mul_right stretch (few y hops n way)
      _ ≤ depthLimit := small
  · intro n tower
    refine ⟨tower_le tower, fun short => ?_⟩
    apply (exact ?_).2 (tower_derives tower)
    intro y hops m way
    obtain ⟨id', k, -, below, height⟩ := tower_way tower way
    have := tower_pos below
    omega

section Rank

variable {rank : Item → Nat}

theorem hops_of_rank (lowers : ∀ x y, Consults s x y → rank y + s.hops x ≤ rank x)
    (h : Way s x y hops n) : hops + rank y ≤ rank x := by
  induction h with
  | start => exact Nat.le_of_eq (Nat.zero_add _)
  | @step y z _ _ _ next ih =>
    have := lowers y z next
    omega

theorem expressions_of_rank (descends : ∀ x y, Consults s x y → rank y < rank x)
    (h : Way s x y hops n) : n + rank y ≤ rank x + 1 := by
  induction h with
  | start => cases x <;> simp only [Item.weight] <;> omega
  | @step y z _ _ _ next ih =>
    have := descends y z next
    cases z <;> simp only [Item.weight] <;> omega

end Rank

def hopping : List Declaration :=
  [.var "a" (.string (some "x") [] none) none, .var "b" (.paren (.ident "a" none) none) none,
    .output "o" (.array [.ident "b" none, .paren (.ident "a" none) none] none) none]

def orderRank : Item → Nat
  | .expression id => id
  | .body _ => 300

theorem answers_hops_hopping : ∃ s, Subject.ofProgram? hopping = some s ∧
    (∀ y, Relation.ReflTransGen (Consults s) (.expression 8) y →
      ¬Relation.TransGen (Consults s) y y) ∧
    (∀ y hops n, Way s (.expression 8) y hops n → n ≤ depthLimit) ∧
    (9 * 9 ≤ depthLimit ∧ (∀ y hops n, Way s (.expression 8) y hops n → hops < 9) ∧
      ∀ y z n, Relation.ReflTransGen (Consults s) (.expression 8) y → Way s y z 0 n → n ≤ 9) ∧
    answerAfter s [] 8 = true ∧ Derives s (.constant 8) := by
  have run : (Subject.ofProgram? hopping).any
      (fun s => s.descends orderRank && answerAfter s [] 8) = true := by
    decide +kernel
  obtain ⟨s, found, checked⟩ := (Option.any_eq_true _ _).1 run
  obtain ⟨ranked, positive⟩ := Bool.and_eq_true_iff.1 checked
  have descends := descends_consults ranked
  have acyclic : ∀ y, Relation.ReflTransGen (Consults s) (.expression 8) y →
      ¬Relation.TransGen (Consults s) y y := fun y _ => acyclic_of_rank descends y
  have short : ∀ y z hops n, Relation.ReflTransGen (Consults s) (.expression 8) y →
      Way s y z hops n → n ≤ 9 := by
    intro y z hops n reached way
    have below : orderRank y ≤ 8 := by
      rcases Relation.reflTransGen_iff_eq_or_transGen.1 reached with rfl | reached
      · exact Nat.le_refl 8
      · exact Nat.le_of_lt (rank_transGen descends reached)
    have := expressions_of_rank descends way
    omega
  have shallow : ∀ y hops n, Way s (.expression 8) y hops n → n ≤ depthLimit :=
    fun y hops n way => Nat.le_trans (short _ y hops n .refl way) (by decide)
  have few : ∀ y hops n, Way s (.expression 8) y hops n → hops < 9 := by
    intro y hops n way
    have lowers : ∀ x y, Consults s x y → orderRank y + s.hops x ≤ orderRank x := by
      intro x y next
      have := descends x y next
      have := hops_le_one (s := s) x
      omega
    have : hops + orderRank y ≤ 8 := hops_of_rank lowers way
    omega
  have exact := (answers_hops 8 acyclic).2.2.1 9 9 (by decide) few fun y z n => short y z 0 n
  exact ⟨s, found, acyclic, shallow, ⟨by decide, few, fun y z n => short y z 0 n⟩, positive,
    exact.1 positive⟩

def enclosed (e : Expression) : Nat → Expression
  | 0 => e
  | n + 1 => .paren (enclosed e n) none

/-- A resource is named by the last of three variables. There are three hops from its name, and
many parentheses between them. -/
def towers : List Declaration :=
  [.var "c" (enclosed (.string (some "x") [] none) 85) none,
    .var "b" (enclosed (.ident "c" none) 85) none, .var "a" (enclosed (.ident "b" none) 85) none,
    .resource "r" "T@1" true (.object [("name", .ident "a" none)] none) [] none]

def towersRank : Item → Nat
  | .expression id => id / 87
  | .body _ => 3

/-- The name of the resource is not constant if it is asked for first, although it has a
derivation. -/
theorem towers_denied : ∃ s, Subject.ofProgram? towers = some s ∧
    (∀ y, ¬Relation.TransGen (Consults s) y y) ∧
    (∀ y hops n, Way s (.expression 261) y hops n → hops < depthLimit) ∧
    Derives s (.constant 261) ∧ answerAfter s [] 261 = false := by
  have run : (Subject.ofProgram? towers).any (fun s =>
      (s.checks fun x y => orderRank y < orderRank x ∧ towersRank y + s.hops x ≤ towersRank x) &&
        s.tower? 300 261 == some 259) = true := by
    decide +kernel
  obtain ⟨s, found, facts⟩ := (Option.any_eq_true _ _).1 run
  obtain ⟨ranked, height⟩ := Bool.and_eq_true_iff.1 facts
  have lowers : ∀ x y, Consults s x y →
      orderRank y < orderRank x ∧ towersRank y + s.hops x ≤ towersRank x :=
    fun x y next => of_decide_eq_true (checks_consults ranked x y next)
  have tower : Tower s 261 259 := tower_of_tower? (beq_iff_eq.1 height)
  refine ⟨s, found, acyclic_of_rank fun x y next => (lowers x y next).1, ?_, tower_derives tower, ?_⟩
  · intro y hops n way
    have few : hops + towersRank y ≤ 3 := hops_of_rank (fun x y next => (lowers x y next).2) way
    rw [depthLimit]
    omega
  · apply Bool.eq_false_iff.2
    intro positive
    exact absurd (tower_le tower positive) (by decide)

end DeployCheck.Analysis
