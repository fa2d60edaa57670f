import DeployCheck.Proofs.Binding.Members

/-!
# What binding adds and reports

Binding goes over every node once. It adds the variables of each loop, and reports
each name that stays unbound and each call of a function that is not known. Which
ones is said node by node, about the state in the end.
-/

set_option autoImplicit false

namespace DeployCheck

def between (lo hi : Nat) : List Nat := List.range' lo (hi - lo)

theorem between_self (lo : Nat) : between lo lo = [] := by simp [between]

theorem between_append {lo hi : Nat} (mid : Nat) (first : lo ≤ mid) (second : mid ≤ hi) :
    between lo hi = between lo mid ++ between mid hi := by
  have whole : hi - lo = mid - lo + (hi - mid) := by omega
  rw [between, between, between, whole, ← List.range'_append_1, show lo + (mid - lo) = mid by omega]

theorem between_last {lo id : Nat} (h : lo ≤ id) : between lo (id + 1) = between lo id ++ [id] := by
  rw [between_append id h (Nat.le_succ id)]
  simp [between]

theorem between_zero (hi : Nat) : between 0 hi = List.range hi := by
  rw [between, Nat.sub_zero, List.range_eq_range']

theorem mem_between {lo hi n : Nat} : n ∈ between lo hi ↔ lo ≤ n ∧ n < hi := by
  rw [between, List.mem_range'_1]
  omega

namespace Diagnostic

structure Breaks (d : Diagnostic) (rule : Rule) : Prop where
  severity : d.severity = rule.severity
  code : d.code = rule.code

theorem breaks_ofRule (file : String) (span : Span) (rule : Rule) (values : List String) :
    (ofRule file span rule values).Breaks rule := ⟨rfl, rfl⟩

end Diagnostic

namespace Tree

def loopSymbols (t : Tree) (n : NodeId) : List Symbol :=
  match t.arena.data? n with
  | some (.loop item index _ _) => (Scope.locals n item index).map Prod.snd
  | _ => []

end Tree

namespace Binder

section Adds

variable {t : Tree} {b b' b'' : Bound} {ss ss' : List Symbol} {ds ds' : List Diagnostic} {u : Unit}

theorem adds_trans (h : Adds b b' ss ds) (h' : Adds b' b'' ss' ds') :
    Adds b b'' (ss ++ ss') (ds ++ ds') := by
  constructor
  · simp [h'.symbols, h.symbols]
  · simp [h'.diagnostics, h.diagnostics]

theorem adds_bindOrReport {node : Nat} {name : Identifier} {symbol : Option SymbolId}
    (run : Runs (bindOrReport t node name symbol) b u b') :
    Adds b b' [] (if symbol.isNone then [t.unknownName name] else []) := by
  cases symbol with
  | none => exact adds_report run
  | some id =>
    have set := runs_modify.1 run
    subst set
    constructor <;> simp

theorem adds_addSymbol {symbol : Symbol} {id : SymbolId} (run : Runs (addSymbol symbol) b id b') :
    Adds b b' [symbol] [] := by
  have added : Runs (addSymbol symbol) b b.symbols.size
      { b with symbols := b.symbols.push symbol } := rfl
  rw [Runs, added] at run
  cases run
  constructor <;> simp

theorem adds_loopFrame {loop : Nat} {item : Identifier} {index : Option Identifier} {frame : Frame}
    (run : Runs (loopFrame loop item index) b frame b') :
    Adds b b' ((Scope.locals loop item index).map Prod.snd) [] := by
  rw [loopFrame] at run
  obtain ⟨itemId, b₁, add, rest⟩ := runs_bind.1 run
  cases index with
  | none =>
    obtain ⟨_, rfl⟩ := runs_pure.1 rest
    exact adds_addSymbol add
  | some index =>
    obtain ⟨indexId, b₂, add', rest'⟩ := runs_bind.1 rest
    obtain ⟨_, rfl⟩ := runs_pure.1 rest'
    exact adds_trans (adds_addSymbol add) (adds_addSymbol add')

end Adds

section Visits

variable {t : Tree} {b b' : Bound} {around : List Frame} {u : Unit} {fuel id : Nat} {data : NodeData}

/-- Over the nodes from `lo` up to `hi` the variables of their loops are added, and
what is not known is reported. -/
def Reported (t : Tree) (b b' : Bound) (lo hi : Nat) : Prop :=
  ∃ ss ds, Adds b b' ss ds ∧ ss.Perm ((between lo hi).flatMap t.loopSymbols) ∧
    ∀ final, Holds b' final lo hi → ds.Perm ((between lo hi).filterMap (t.unknown? final))

theorem reported_self (lo : Nat) : Reported t b b lo lo :=
  ⟨[], [], adds_refl, by simp [between_self], fun _ _ => by simp [between_self]⟩

theorem reported_append {b₁ : Bound} {lo mid hi : Nat} (first : Reported t b b₁ lo mid)
    (second : Reported t b₁ b' mid hi) (binds : Binds b₁ b' mid hi) (low : lo ≤ mid)
    (high : mid ≤ hi) : Reported t b b' lo hi := by
  obtain ⟨ss, ds, adds, symbols, reports⟩ := first
  obtain ⟨ss', ds', adds', symbols', reports'⟩ := second
  refine ⟨_, _, adds_trans adds adds', ?_, fun final holds => ?_⟩
  · rw [between_append mid low high, List.flatMap_append]
    exact symbols.append symbols'
  · have early : Holds b₁ final lo mid :=
      holds_binds binds (holds_mono holds (Nat.le_refl _) high) (.inl (Nat.le_refl _))
    rw [between_append mid low high, List.filterMap_append]
    exact (reports final early).append (reports' final (holds_mono holds low (Nat.le_refl _)))

theorem reported_node {lo : Nat} {ss : List Symbol} {ds : List Diagnostic} (low : lo ≤ id)
    (adds : Adds b b' ss ds)
    (symbols : ss.Perm ((between lo id).flatMap t.loopSymbols ++ t.loopSymbols id))
    (reports : ∀ final, Holds b' final lo (id + 1) →
      ds.Perm ((between lo id).filterMap (t.unknown? final) ++ (t.unknown? final id).toList)) :
    Reported t b b' lo (id + 1) := by
  refine ⟨ss, ds, adds, ?_, fun final holds => ?_⟩
  · rw [between_last low, List.flatMap_append, List.flatMap_singleton]
    exact symbols
  · rw [between_last low, List.filterMap_append]
    cases unknown : t.unknown? final id with
    | none => simpa [unknown] using reports final holds
    | some d => simpa [unknown] using reports final holds

def ReportsAll (t : Tree) (fuel : Nat) : Prop :=
  ∀ {shapes : List Shape} {ids : List Nat} {lo hi : Nat} {around : List Frame} {b b' : Bound}
    {u : Unit}, Arena.Lays t.arena lo shapes ids hi → hi ≤ fuel → hi ≤ b.names.size →
    Blank b lo hi → Runs (ids.forM (bindExpression t fuel around)) b u b' → Reported t b b' lo hi

theorem unknown?_plain {final : Bound} (here : t.arena.data? id = some data)
    (plain : isPlain data = true) : t.unknown? final id = t.unknown? b id := by
  rw [Tree.unknown?, Tree.unknown?, here]
  cases data <;> first | rfl | cases plain

theorem unknown?_bound {name : Identifier} {symbol : Option SymbolId}
    (here : t.arena.data? id = some (.ident name) ∨
      ∃ base, t.arena.data? id = some (.resourceAccess base name))
    (bound : b.nameSymbol? id = symbol) :
    (t.unknown? b id).toList = if symbol.isNone then [t.unknownName name] else [] := by
  subst bound
  rcases here with here | ⟨base, here⟩
  · simp only [Tree.unknown?, here]
    split <;> rfl
  · simp only [Tree.unknown?, here]
    split <;> rfl

section Names

variable {lo : Nat} {below : List Shape} {name : Identifier} {b₁ : Bound}

theorem reported_ident (here : t.arena.data? id = some (.ident name))
    (under : Arena.Lays t.arena lo below [] id) (room : id < b.names.size)
    (blank : Blank b lo (id + 1))
    (bind : Runs (bindOrReport t id name (lookup b around name.name)) b () b') :
    Reported t b b' lo (id + 1) := by
  have low := Arena.lays_le under
  obtain ⟨_, bound⟩ := runs_bindOrReport bind
  have known := bound room (blank id low (Nat.lt_succ_self id))
  cases under
  apply reported_node low (adds_bindOrReport bind)
  · simp [between_self, Tree.loopSymbols, here]
  · intro final holds
    have kept := (holds.names id low (Nat.lt_succ_self id)).trans known
    simp [between_self, unknown?_bound (.inl here) kept]

theorem reported_access {base : Nat} (reports : ReportsAll t fuel)
    (here : t.arena.data? id = some (.resourceAccess base name))
    (under : Arena.Lays t.arena lo below [base] id) (enough : id ≤ fuel) (room : id < b.names.size)
    (blank : Blank b lo (id + 1))
    (inner : Runs ([base].forM (bindExpression t fuel around)) b () b₁)
    (bind : Runs (bindOrReport t id name
      ((b₁.nameSymbol? base).bind (b₁.child? · name.name))) b₁ () b') :
    Reported t b b' lo (id + 1) := by
  have low := Arena.lays_le under
  obtain ⟨binds, bound⟩ := runs_bindOrReport bind
  have blankBase := blank_mono blank (Nat.le_refl _) (Nat.le_succ _)
  have first := scopes fuel under enough (Nat.le_of_lt room) blankBase inner
  obtain ⟨ss, ds, adds, symbols, reports⟩ :=
    reports under enough (Nat.le_of_lt room) blankBase inner
  -- The base is bound before the node itself, whose place is still free then.
  have known := bound (by rw [first.binds.width]; exact room) (by
    rw [first.binds.names id (.inr (Nat.le_refl _))]
    exact blank id low (Nat.lt_succ_self id))
  apply reported_node low (adds_trans adds (adds_bindOrReport bind))
  · simpa [Tree.loopSymbols, here] using symbols
  · intro final holds
    have kept := (holds.names id low (Nat.lt_succ_self id)).trans known
    rw [unknown?_bound (.inr ⟨base, here⟩) kept]
    exact (reports final (holds_binds binds (holds_mono holds (Nat.le_refl _) (Nat.le_succ _))
      (.inl (Nat.le_refl _)))).append_right _

theorem reported_loop {item : Identifier} {index : Option Identifier} {iterated body : Nat}
    {frame : Frame} {b₂ : Bound} (reports : ReportsAll t fuel)
    (here : t.arena.data? id = some (.loop item index iterated body))
    (under : Arena.Lays t.arena lo below [iterated, body] id) (enough : id ≤ fuel)
    (room : id < b.names.size) (blank : Blank b lo (id + 1))
    (source : Runs ([iterated].forM (bindExpression t fuel around)) b () b₁)
    (locals : Runs (loopFrame id item index) b₁ frame b₂)
    (inner : Runs ([body].forM (bindExpression t fuel (frame :: around))) b₂ () b') :
    Reported t b b' lo (id + 1) := by
  have low := Arena.lays_le under
  cases under with
  | cons hereSource wholeSource underSource underBody =>
    have hsource := Arena.lays_le underSource
    have hbody := Arena.lays_le underBody
    have laid := Arena.lays_single hereSource wholeSource underSource
    have blankSource := blank_mono blank (Nat.le_refl _) (by omega : iterated + 1 ≤ id + 1)
    have first := scopes fuel laid (by omega) (by omega) blankSource source
    obtain ⟨more, _⟩ := runs_loopFrame locals
    have binds := binds_trans first.binds (more lo (iterated + 1))
    have width : id < b₂.names.size := by
      rw [binds.width]
      exact room
    have blankBody := blank_binds (blank_mono blank (by omega) (Nat.le_succ _)) binds
      (.inr (Nat.le_refl _))
    have second := scopes fuel underBody enough (Nat.le_of_lt width) blankBody inner
    obtain ⟨ss, ds, adds, symbols, reports₁⟩ :=
      reports laid (by omega) (by omega) blankSource source
    obtain ⟨ss', ds', adds', symbols', reports₂⟩ :=
      reports underBody enough (Nat.le_of_lt width) blankBody inner
    -- The variables come between those of the two parts, but the loop is behind both.
    apply reported_node low (adds_trans (adds_trans adds (adds_loopFrame locals)) adds')
    · have own : t.loopSymbols id = (Scope.locals id item index).map Prod.snd := by
        simp [Tree.loopSymbols, here]
      rw [own, between_append (iterated + 1) (by omega) hbody, List.flatMap_append,
        List.append_assoc, List.append_assoc]
      exact symbols.append ((List.perm_append_comm).trans (symbols'.append_right _))
    · intro final holds
      have later : Holds b₁ final lo (iterated + 1) :=
        holds_binds (binds_trans (more (iterated + 1) id) second.binds)
          (holds_mono holds (Nat.le_refl _) (by omega)) (.inl (Nat.le_refl _))
      have none : t.unknown? final id = none := by simp [Tree.unknown?, here]
      rw [between_append (iterated + 1) (by omega) hbody, List.filterMap_append, none]
      simpa using (reports₁ final later).append
        (reports₂ final (holds_mono holds (by omega) (Nat.le_succ _)))

theorem reported_plain (reports : ReportsAll t fuel) (here : t.arena.data? id = some data)
    (under : Arena.Lays t.arena lo below data.children id) (enough : id ≤ fuel)
    (room : id < b.names.size) (blank : Blank b lo (id + 1)) (plain : isPlain data = true)
    (report : Adds b b₁ [] (t.unknown? b id).toList) (silent : ∀ lo hi, Binds b b₁ lo hi)
    (inner : Runs (data.children.forM (bindExpression t fuel around)) b₁ () b') :
    Reported t b b' lo (id + 1) := by
  have low := Arena.lays_le under
  have width : id ≤ b₁.names.size := by
    rw [(silent 0 0).width]
    exact Nat.le_of_lt room
  have blankBelow := blank_binds (blank_mono blank (Nat.le_refl _) (Nat.le_succ _)) (silent 0 0)
    (.inr (Nat.zero_le _))
  obtain ⟨ss, ds, adds, symbols, reports⟩ := reports under enough width blankBelow inner
  apply reported_node low (adds_trans report adds)
  · have own : t.loopSymbols id = [] := by
      rw [Tree.loopSymbols, here]
      cases data <;> first | rfl | cases plain
    simpa [own] using symbols
  · intro final holds
    rw [unknown?_plain here plain]
    exact ((reports final (holds_mono holds (Nat.le_refl _) (Nat.le_succ _))).append_left _).trans
      List.perm_append_comm

end Names

theorem reported_single {lo : Nat} {below : List Shape} (reports : ReportsAll t fuel)
    (here : t.arena.data? id = some data) (under : Arena.Lays t.arena lo below data.children id)
    (enough : id ≤ fuel) (room : id < b.names.size) (blank : Blank b lo (id + 1))
    (run : Runs (bindExpression t (fuel + 1) around id) b u b') :
    Reported t b b' lo (id + 1) := by
  cases visits_of_runs here run with
  | ident bind => exact reported_ident here under room blank bind
  | access inner bind => exact reported_access reports here under enough room blank inner bind
  | loop source locals inner =>
    exact reported_loop reports here under enough room blank source locals inner
  | plain plain report silent inner =>
    exact reported_plain reports here under enough room blank plain report silent inner

theorem reported_cons {b₁ : Bound} {lo hi : Nat} (low : lo ≤ id) (high : id < hi)
    (first : Reported t b b₁ lo (id + 1)) (binds : Binds b₁ b' (id + 1) hi)
    (second : Reported t b₁ b' (id + 1) hi) : Reported t b b' lo hi :=
  reported_append first second binds (Nat.le_succ_of_le low) high

theorem reported_list {step : NodeId → Binder Unit} {shapes : List Shape} {ids : List Nat}
    {lo hi : Nat} (laid : Arena.Lays t.arena lo shapes ids hi)
    (single : ∀ {lo id : Nat} {data : NodeData} {below : List Shape} {b b' : Bound},
      t.arena.data? id = some data → Arena.Lays t.arena lo below data.children id → id < hi →
      id < b.names.size → Blank b lo (id + 1) → Runs (step id) b () b' →
      Binds b b' lo (id + 1) ∧ Reported t b b' lo (id + 1))
    (room : hi ≤ b.names.size) (blank : Blank b lo hi) (run : Runs (ids.forM step) b u b') :
    Reported t b b' lo hi :=
  (binds_list (P := fun b b' lo hi _ => Reported t b b' lo hi) (fun _ _ => reported_self _)
    reported_cons laid single room blank run).2

theorem reportsAll (fuel : Nat) : ReportsAll t fuel := by
  induction fuel with
  | zero =>
    intro shapes ids lo hi around b b' u laid enough room blank run
    apply reported_list laid _ room blank run
    intro lo id data below b b' here under outside
    omega
  | succ fuel ih =>
    intro shapes ids lo hi around b b' u laid enough room blank run
    apply reported_list laid _ room blank run
    intro lo id data below b b' here under before room blank run
    exact ⟨(bindExpression_single (scopes fuel) here under (by omega) room blank run).binds,
      reported_single ih here under (by omega) room blank run⟩

theorem reported_declaration {lo : Nat} (low : lo ≤ id) (new : t.loopSymbols id = [])
    (known : ∀ final, t.unknown? final id = none) (below : Reported t b b' lo id) :
    Reported t b b' lo (id + 1) := by
  obtain ⟨ss, ds, adds, symbols, reports⟩ := below
  apply reported_node low adds
  · simpa [new] using symbols
  · intro final holds
    simpa [known final] using reports final (holds_mono holds (Nat.le_refl _) (Nat.le_succ _))

theorem reportsDeclarations (fuel : Nat) {shapes : List Shape} {ids : List Nat} {lo hi : Nat}
    (laid : Arena.Lays t.arena lo shapes ids hi) (enough : hi ≤ fuel) (room : hi ≤ b.names.size)
    (blank : Blank b lo hi) (run : Runs (ids.forM (bindDeclaration t fuel around)) b u b') :
    Reported t b b' lo hi := by
  induction fuel generalizing shapes ids lo hi around b b' u with
  | zero =>
    apply reported_list laid _ room blank run
    intro lo id data below b b' here under outside
    omega
  | succ fuel ih =>
    apply reported_list laid _ room blank run
    intro lo id data below b b' here under before room blank run
    refine ⟨(bindDeclaration_single (scopesDeclarations fuel) here under (by omega) room blank
      run).binds, ?_⟩
    have hle := Arena.lays_le under
    have blankBelow := blank_mono blank (Nat.le_refl _) (Nat.le_succ _)
    cases visitsDeclaration_of_runs here run with
    | simple simple inner =>
      refine reported_declaration hle ?_ ?_
        (reportsAll (fuel + 1) under (by omega) (Nat.le_of_lt room) blankBelow inner)
      · rw [Tree.loopSymbols, here]
        cases data <;> first | rfl | cases simple
      · intro final
        rw [Tree.unknown?, here]
        cases data <;> first | rfl | cases simple
    | @resource name type existing body nested b₁ inner resources =>
      cases under with
      | cons hereBody wholeBody underBody underNested =>
        have hbody := Arena.lays_le underBody
        have hnested := Arena.lays_le underNested
        have laid := Arena.lays_single hereBody wholeBody underBody
        have blankBody := blank_mono blankBelow (Nat.le_refl _) hnested
        have first := scopes (fuel + 1) laid (by omega) (by omega) blankBody inner
        have width : id ≤ b₁.names.size := by
          rw [first.binds.width]
          exact Nat.le_of_lt room
        have blankNested := blank_binds (blank_mono blankBelow (by omega) (Nat.le_refl _))
          first.binds (.inr (Nat.le_refl _))
        have second :=
          scopesDeclarations fuel underNested (by omega) width blankNested resources
        refine reported_declaration hle ?_ ?_ (reported_append
          (reportsAll (fuel + 1) laid (by omega) (by omega) blankBody inner)
          (ih underNested (by omega) width blankNested resources) second.binds (by omega) hnested)
        · simp [Tree.loopSymbols, here]
        · simp [Tree.unknown?, here]

end Visits

end Binder

end DeployCheck
