import DeployCheck.Proofs.Analysis.Answers
import DeployCheck.Proofs.Analysis.Lockstep

/-!
# The limit of the analysis

Whatever comes of a trial is the result of the analysis. So a strict trial tells whether the
limit is reached, and one that is not strict stands for the analysis.
-/

set_option autoImplicit false

namespace DeployCheck.Analysis

theorem premises_mapped_id (premises : Option (List Fact)) :
    premises.map (List.map (Fact.mapped id id)) = premises := by
  have same : Fact.mapped id id = id := by
    funext fact
    cases fact <;> rfl
  rw [same, List.map_id_fun, Option.map_id_apply]

theorem corresponding_self (s : Subject) : Corresponding s s id id id id Eq Eq where
  symbols symbol := by rw [funext Symbol.mapped_id, Option.map_id']
  identity _ := (premises_mapped_id _).symm
  unknown _ := rfl
  declared _ := rfl
  module _ := rfl
  mark same _ := same ▸ rfl
  readable same _ := same ▸ rfl
  constant? same _ := same ▸ rfl
  body? same symbol := by
    subst same
    cases Memo.body? _ symbol with
    | none => exact .none
    | some body => exact .some rfl
  setBody same _ _ same' _ := same ▸ same' ▸ rfl
  report same symbol t := by rw [Symbol.mapped_id, same]; rfl

theorem ways_same (s s' : Subject) : Ways s s' id fun path path' _ => path' = path where
  symbols same := congrArg Path.symbols same
  again same := same ▸ Iff.rfl
  far same _ := same ▸ Iff.rfl
  body same _ _ := same ▸ rfl

theorem together_self (s : Subject) (strict : Bool) :
    Together s s id Eq Eq (fun path path' _ => path' = path) strict (enoughFuel s) (enoughFuel s)
      ⟨[], []⟩ ⟨[], []⟩ := by
  refine together_works (corresponding_self s) (ways_same s s) ?_ _ _ _ _ fits_start fits_start
  intro fuel fuel' path path' x memo memo' way tables unknown unknown' fresh fresh' room room' fits
    fits' together
  subst way tables
  refine meets_entered ?_ (fun same _ => same ▸ rfl) rfl unknown unknown' fresh fresh' room room'
  exact lockstep_expression (corresponding_self s)
    (together _ _ _ (fits_node fits room x) (fits_node fits' room' x))
    (premises_mapped_id _).symm fun _ _ => rfl

section Trials

variable {α : Type} {w : Work α} {memo : Memo}

theorem trial_eq {strict : Bool} {trial : Trial α} (agree : Lockstep Eq strict Eq w trial)
    (gives : strict = true → (trial.run memo).isSome = true) :
    trial.run memo = some (w.run memo) := by
  have met := agree memo memo rfl
  generalize trial.run memo = result at met gives
  cases met with
  | stopped stops => cases gives stops
  | same both => exact congrArg some (Prod.ext both.1.symm both.2.symm)

/-- Work that must not be given up has its result from the strict trial, other work from the one
that is not strict. -/
theorem exists_trial {trial : Bool → Trial α} {must : Prop}
    (agree : ∀ strict, Lockstep Eq strict Eq w (trial strict))
    (uncut : must → ((trial true).run memo).isSome = true) :
    ∃ strict, (strict = true ∨ ¬must) ∧ (trial strict).run memo = some (w.run memo) := by
  by_cases needed : must
  · exact ⟨true, .inl rfl, trial_eq (agree true) fun _ => uncut needed⟩
  · exact ⟨false, .inr needed, trial_eq (agree false) nofun⟩

end Trials

def Item.mapped (place : Nat → Nat) : Item → Item
  | .expression id => .expression (place id)
  | .body id => .body id

def Item.ask (s : Subject) : Item → Work Unit
  | .expression id => discard (constant s id)
  | .body id => discard (Analysis.body s id)

def Item.attempt (s : Subject) (strict : Bool) : Item → Trial Unit
  | .expression id => discard (tryConstant s strict (enoughFuel s) ⟨[], []⟩ id)
  | .body id => discard (tryBody s strict (enoughFuel s) ⟨[], []⟩ id)

/-- The tables after some items were asked for in turn. -/
def inquire (s : Subject) (items : List Item) : Memo := ((items.forM (Item.ask s)).run (.start s)).2

def answerAfter (s : Subject) (items : List Item) (id : NodeId) : Bool :=
  ((constant s id).run (inquire s items)).1

/-- The limit is not reached when some items are asked for in turn. -/
def Uncut (s : Subject) (items : List Item) : Prop :=
  ((items.forM (Item.attempt s true)).run (.start s)).isSome = true

instance (s : Subject) (items : List Item) : Decidable (Uncut s items) :=
  inferInstanceAs (Decidable (_ = true))

section Together

variable {s s' : Subject} {place : Nat → Nat} {S : Memo → Memo → Prop}
  {R : ObjectType → ObjectType → Prop} {leads : Path → Path → Item → Prop} {strict : Bool}
  (together : Together s s' place S R leads strict (enoughFuel s) (enoughFuel s') ⟨[], []⟩ ⟨[], []⟩)

include together

theorem lockstep_items (items : List Item)
    (way : ∀ item ∈ items, leads ⟨[], []⟩ ⟨[], []⟩ (item.mapped place)) :
    Lockstep S strict Eq (items.forM (Item.ask s))
      ((items.map (Item.mapped place)).forM (Item.attempt s' strict)) := by
  apply lockstep_forM
  intro item member
  cases item with
  | expression x => exact lockstep_discard (together.constant x (way _ member))
  | body id => exact lockstep_discard (together.body id (way _ member))

theorem lockstep_answer (items : List Item) (x : NodeId)
    (way : ∀ item ∈ items, leads ⟨[], []⟩ ⟨[], []⟩ (item.mapped place))
    (last : leads ⟨[], []⟩ ⟨[], []⟩ (.expression (place x))) :
    Lockstep S strict Eq (items.forM (Item.ask s) >>= fun _ => constant s x)
      ((items.map (Item.mapped place)).forM (Item.attempt s' strict) >>= fun _ =>
        tryConstant s' strict (enoughFuel s') ⟨[], []⟩ (place x)) :=
  lockstep_bind (lockstep_items together items way) fun _ _ _ => together.constant x last

theorem inquire_related {items : List Item}
    (way : ∀ item ∈ items, leads ⟨[], []⟩ ⟨[], []⟩ (item.mapped place))
    (start : S (.start s) (.start s'))
    (whole : ((items.map (Item.mapped place)).forM (Item.attempt s' strict)).run (.start s') =
      some (((items.map (Item.mapped place)).forM (Item.ask s')).run (.start s'))) :
    S (inquire s items) (inquire s' (items.map (Item.mapped place))) := by
  have met := lockstep_items together items way _ _ start
  rw [whole] at met
  cases met with
  | same both => exact both.2

end Together

theorem items_corresponding {s s' : Subject} {node place : Nat → Nat}
    {type : TypeReference → TypeReference} {text : String → String} {S : Memo → Memo → Prop}
    {R : ObjectType → ObjectType → Prop} (c : Corresponding s s' node place type text S R) :
    ((bodied s).map Item.body).map (Item.mapped place) = (bodied s').map .body := by
  rw [List.map_map, bodied_corresponding c]
  rfl

theorem items_mapped_id (items : List Item) : items.map (Item.mapped id) = items := by
  have same : Item.mapped id = id := by
    funext item
    cases item <;> rfl
  rw [same, List.map_id]

theorem lockstep_self (s : Subject) (strict : Bool) (items : List Item) :
    Lockstep Eq strict Eq (items.forM (Item.ask s)) (items.forM (Item.attempt s strict)) := by
  have steps := lockstep_items (together_self s strict) items fun _ _ => rfl
  rwa [items_mapped_id] at steps

theorem lockstep_self_answer (s : Subject) (strict : Bool) (items : List Item) (x : NodeId) :
    Lockstep Eq strict Eq (items.forM (Item.ask s) >>= fun _ => constant s x)
      (items.forM (Item.attempt s strict) >>= fun _ =>
        tryConstant s strict (enoughFuel s) ⟨[], []⟩ x) := by
  have steps := lockstep_answer (together_self s strict) items x (fun _ _ => rfl) rfl
  rwa [items_mapped_id] at steps

section Inquiries

variable {s : Subject}

theorem run_eq_inquire : run s = inquire s ((bodied s).map .body) := by
  rw [run, inquire, List.forM_eq_forM, List.forM_eq_forM, List.forM_map]
  rfl

theorem run_related {s' : Subject} {node place : Nat → Nat} {type : TypeReference → TypeReference}
    {text : String → String} {S : Memo → Memo → Prop} {R : ObjectType → ObjectType → Prop}
    {leads : Path → Path → Item → Prop} (c : Corresponding s s' node place type text S R)
    (together : Together s s' place S R leads false (enoughFuel s) (enoughFuel s') ⟨[], []⟩ ⟨[], []⟩)
    (way : ∀ id, leads ⟨[], []⟩ ⟨[], []⟩ (.body id)) (start : S (.start s) (.start s')) :
    S (run s) (run s') := by
  have bodies : ∀ item ∈ (bodied s).map Item.body,
      leads ⟨[], []⟩ ⟨[], []⟩ (item.mapped place) := by
    intro item member
    obtain ⟨id, _, rfl⟩ := List.mem_map.1 member
    exact way id
  rw [run_eq_inquire, run_eq_inquire, ← items_corresponding c]
  exact inquire_related together bodies start (trial_eq (lockstep_self s' false _) nofun)

theorem inquire_append (items : List Item) (item : Item) :
    inquire s (items ++ [item]) = ((item.ask s).run (inquire s items)).2 := by
  rw [inquire, inquire, List.forM_eq_forM, List.forM_append, StateT.run_bind]
  rfl

theorem uncut_answer {items : List Item} {id : NodeId} (uncut : Uncut s (items ++ [.expression id])) :
    ((items.forM (Item.attempt s true) >>= fun _ =>
      tryConstant s true (enoughFuel s) ⟨[], []⟩ id).run (.start s)).isSome = true := by
  rw [Uncut, List.forM_eq_forM, List.forM_append, StateT.run_bind] at uncut
  rw [StateT.run_bind, List.forM_eq_forM]
  cases earlier : (forM items (Item.attempt s true)).run (.start s) with
  | none =>
    rw [earlier] at uncut
    cases uncut
  | some result =>
    rw [earlier] at uncut
    show ((tryConstant s true (enoughFuel s) ⟨[], []⟩ id).run result.2).isSome = true
    replace uncut : (((Item.expression id).attempt s true >>= fun _ => pure ()).run result.2).isSome =
      true := uncut
    rw [StateT.run_bind] at uncut
    -- What is asked for last is not given up, for then nothing would come of the whole.
    cases found : (tryConstant s true (enoughFuel s) ⟨[], []⟩ id).run result.2 with
    | some => rfl
    | none =>
      have none : ((Item.expression id).attempt s true).run result.2 = none := by
        show ((tryConstant s true (enoughFuel s) ⟨[], []⟩ id) >>= fun _ => pure ()).run result.2 = none
        rw [StateT.run_bind, found]
        rfl
      rw [none] at uncut
      cases uncut

theorem reached_inquire (items : List Item) : Reached s (inquire s items) := by
  induction items using List.reverseRecOn with
  | nil => exact .start
  | append_singleton items item ih =>
    rw [inquire_append]
    cases item with
    | expression id => exact .constant ih id
    | body id => exact .body ih id

end Inquiries

end DeployCheck.Analysis
