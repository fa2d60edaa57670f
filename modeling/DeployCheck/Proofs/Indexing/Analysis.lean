import DeployCheck.Proofs.Analysis.Reads
import DeployCheck.Proofs.Indexing.Targets
import DeployCheck.Proofs.Insertion.Analysis

/-!
# The analysis with a member selected by an index

If the base has a target, the index is judged as the property is. If it has none, the index is
constant if the base and the string are, and the string is unless the limit is reached there. So
the analysis gets the same answers and the same bodies as long as the limit is not reached.
-/

set_option autoImplicit false

namespace DeployCheck.Analysis

/-- The second program is the first one with a member of `e` selected by an index. The base does
not name a collection, and the access is not the `outputs` in front of an output. -/
structure Subject.Indexed (s s' : Subject) (e : Nat) (name : String) : Prop where
  arena : s.tree.arena.Indexed s'.tree.arena e name
  bound : s.bound.Follows s.tree.arena s'.tree.arena e s'.bound
  plain : s.bound.elementTarget? s.tree.arena e = none
  unread : s.bound.Unread s.tree.arena (e + 1)
  catalog : s'.catalog = s.catalog

namespace Subject.Indexed

variable {s s' : Subject} {e : Nat} {name : String} (h : s.Indexed s' e name)

include h

theorem target?_twin (x : Nat) : s'.target? (twin e x) = s.target? x :=
  Bound.target?_indexed h.arena h.bound h.plain h.unread x

theorem enlarged : s.Enlarged s' e (twin e) (· ≠ e + 1) where
  arena := h.arena.enlarged
  bound := h.bound
  names := h.bound.names (Bound.spares_indexed h.arena s.bound)
  targets := h.target?_twin
  selectors _ _ index _ _ _ _ := Bound.literal?_twin h.arena.enlarged index
  catalog := h.catalog

theorem target?_base : s'.target? e = s.target? e := by
  have same := h.target?_twin e
  rwa [twin_self] at same

theorem premises_string : s'.premises (.constant (e + 1)) = some [] := by
  rw [premises, constantPremises, h.arena.access.string]
  rfl

theorem premises_resolved {t : SymbolId} (target : s.target? e = some t) :
    s'.premises (.constant (e + 2)) =
      (s.premises (.constant (e + 1))).map (List.map (Fact.moved (twin e))) := by
  obtain ⟨i, property, same⟩ := h.arena.access.property
  rw [premises, premises, constantPremises, constantPremises, h.arena.access.index, property]
  dsimp only
  rw [h.target?_base, target, h.arena.access.string, same]
  rfl

theorem premises_unresolved (target : s.target? e = none) :
    s.premises (.constant (e + 1)) = some [.constant e] ∧
      s'.premises (.constant (e + 2)) = some [.constant e, .constant (e + 1)] := by
  obtain ⟨i, property, _⟩ := h.arena.access.property
  rw [premises, premises, constantPremises, constantPremises, h.arena.access.index, property]
  dsimp only
  rw [h.target?_base, target]
  exact ⟨rfl, rfl⟩

end Subject.Indexed

def Path.renumbered (e : Nat) (path : Path) : Path := ⟨path.nodes.map (twin e), path.symbols⟩

theorem Path.mem_renumbered {e x : Nat} {path : Path} :
    twin e x ∈ (path.renumbered e).nodes ↔ x ∈ path.nodes := by
  simp [renumbered, twin_inj]

theorem Path.not_mem_renumbered (e : Nat) (path : Path) :
    e + 1 ∉ (path.renumbered e).nodes := by
  simp [renumbered, twin_ne]

abbrev Memo.Indexed (e : Nat) : Memo → Memo → Prop := Memo.Enlarged e fun _ o' => o' ≠ some false

abbrev Item.renumbered (e : Nat) : Item → Item := Item.mapped (twin e)

theorem ways_renumbered (s s' : Subject) (e : Nat) :
    Ways s s' (twin e) fun path path' _ => path' = path.renumbered e where
  symbols way := way ▸ rfl
  again way := way ▸ Path.mem_renumbered
  far {path path' x} way _ := by
    rw [way, Path.renumbered, List.length_map]
  body way _ _ := way ▸ rfl

section Runs

variable {s s' : Subject} {e : Nat} {name : String} (h : s.Indexed s' e name)

include h

theorem corresponding_indexed :
    Corresponding s s' (twin e) (twin e) id id (Memo.Indexed e) Eq :=
  corresponding_enlarged h.enlarged fun tables => tables.constants

section Examining

variable {strict : Bool} {fuel fuel' : Nat} {path : Path}

theorem lockstep_string {path' : Path} (fits' : Fits s' fuel' path') (fresh : e + 1 ∉ path'.nodes) :
    Lockstep (Memo.Indexed e) true Eq (pure true) (tryConstant s' true fuel' path' (e + 1)) := by
  cases fuel' with
  | zero => exact absurd fits' not_fits_zero
  | succ fuel' =>
    intro memo memo' tables
    cases known : memo'.constant? (e + 1) with
    | some answer =>
      rw [tryConstant_known known]
      cases answer with
      | true => exact .same ⟨rfl, tables⟩
      | false => exact absurd known tables.new
    | none =>
      by_cases far : depthLimit ≤ path'.nodes.length
      · rw [tryConstant_far known fresh far]
        exact .stopped rfl
      · rw [tryConstant_fresh known fresh (Nat.lt_of_not_le far), expressionIsConstant_eq,
          h.premises_string]
        exact .same ⟨rfl, tables.setNew true nofun⟩

variable (together : Together s s' (twin e) (Memo.Indexed e) Eq
  (fun path path' _ => path' = path.renumbered e) strict fuel fuel' path (path.renumbered e))

include together

/-- The expression that selects the member of a base without a target is judged as the base is,
and then the string is looked at. -/
theorem lockstep_unresolved (stops : strict = true) (target : s.target? e = none)
    (fits' : Fits s' fuel' (path.renumbered e)) :
    Lockstep (Memo.Indexed e) strict Eq
      (expressionIsConstant s (constantWithin s fuel path) (bodyWithin s fuel path) (e + 1))
      (expressionIsConstant s' (tryConstant s' strict fuel' (path.renumbered e))
        (tryBody s' strict fuel' (path.renumbered e)) (e + 2)) := by
  subst stops
  obtain ⟨premises, premises'⟩ := h.premises_unresolved target
  have base := together.constant e rfl
  rw [twin_self] at base
  rw [expressionIsConstant_eq, expressionIsConstant_eq, premises, premises', judge, judge, List.allM,
    List.allM]
  apply lockstep_bind base
  rintro answer _ rfl
  cases answer with
  | false => exact lockstep_pure rfl
  | true =>
    show Lockstep _ _ _ (pure true) ([Fact.constant (e + 1)].allM _)
    rw [allM_singleton]
    exact lockstep_string h fits' (Path.not_mem_renumbered e path)

theorem lockstep_renumbered (allowed : strict = true ∨ s.target? e ≠ none) (x : Nat)
    (fits' : Fits s' fuel' (path.renumbered e)) :
    Lockstep (Memo.Indexed e) strict Eq
      (expressionIsConstant s (constantWithin s fuel path) (bodyWithin s fuel path) x)
      (expressionIsConstant s' (tryConstant s' strict fuel' (path.renumbered e))
        (tryBody s' strict fuel' (path.renumbered e)) (twin e x)) := by
  by_cases access : x = e + 1
  · subst access
    rw [twin_succ]
    cases target : s.target? e with
    | some t =>
      exact lockstep_expression (corresponding_indexed h) together (h.premises_resolved target)
        fun _ _ => rfl
    | none =>
      exact lockstep_unresolved h together (allowed.resolve_right (not_not.2 target)) target fits'
  · exact lockstep_expression (corresponding_indexed h) together (h.enlarged.premises_twin access)
      fun _ _ => rfl

end Examining

theorem together_indexed {strict : Bool} (allowed : strict = true ∨ s.target? e ≠ none) (fuel : Nat) :
    ∀ path path' fuel', Fits s fuel path → Fits s' fuel' path' →
      Together s s' (twin e) (Memo.Indexed e) Eq (fun path path' _ => path' = path.renumbered e)
        strict fuel fuel' path path' := by
  refine together_works (corresponding_indexed h) (ways_renumbered s s' e) ?_ fuel
  intro fuel fuel' path path' x memo memo' way tables unknown unknown' fresh fresh' room room' fits
    fits' together
  subst way
  have inner' := fits_node fits' room' (twin e x)
  have judged := lockstep_renumbered h (together ⟨x :: path.nodes, path.symbols⟩ _ _
    (fits_node fits room x) inner') allowed x inner'
  exact meets_entered judged (fun related answer => related.setConstant x answer fun _ => related.new)
    tables unknown unknown' fresh fresh' room room'

end Runs

section Inquiries

variable {s s' : Subject} {e : Nat} {name : String} (h : s.Indexed s' e name) (items : List Item)

include h

theorem inquire_indexed
    (uncut : s.target? e = none → Uncut s' (items.map (Item.renumbered e))) :
    (inquire s items).Indexed e (inquire s' (items.map (Item.renumbered e))) := by
  obtain ⟨strict, allowed, run⟩ := exists_trial
    (fun strict => lockstep_self s' strict (items.map (Item.renumbered e))) uncut
  have together := together_indexed h allowed _ ⟨[], []⟩ ⟨[], []⟩ _ fits_start fits_start
  exact inquire_related together (fun _ _ => rfl) (start_enlarged h.enlarged nofun) run

theorem run_indexed (uncut : s.target? e = none → Uncut s' ((bodied s').map .body))
    (id : SymbolId) : (run s').body? id = (run s).body? id := by
  have same := items_corresponding (corresponding_indexed h)
  rw [run_eq_inquire, run_eq_inquire, ← same]
  exact (inquire_indexed h _ (same ▸ uncut)).body? id

theorem answer_indexed (x : NodeId) (uncut : s.target? e = none →
      Uncut s' (items.map (Item.renumbered e) ++ [.expression (twin e x)])) :
    answerAfter s' (items.map (Item.renumbered e)) (twin e x) = answerAfter s items x := by
  obtain ⟨strict, allowed, run⟩ := exists_trial
    (fun strict => lockstep_self_answer s' strict (items.map (Item.renumbered e)) (twin e x))
    fun needed => uncut_answer (uncut needed)
  have together := together_indexed h allowed _ ⟨[], []⟩ ⟨[], []⟩ _ fits_start fits_start
  have both := lockstep_answer together items x (fun _ _ => rfl) rfl _ _
    (start_enlarged h.enlarged nofun)
  rw [run] at both
  cases both with
  | same related => exact related.1.symm

end Inquiries

end DeployCheck.Analysis
